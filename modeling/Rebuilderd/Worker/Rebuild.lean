import Rebuilderd.Worker.Compare

/-!
The worker: it downloads the artifacts of a job and its build input, runs the backend, compares
what the backend leaves with the artifacts, and reports a verdict about each (`rebuild.rs`,
`download.rs` and `rebuild` of `main.rs`).
-/

namespace Rebuilderd.Worker

open Rebuilderd.Common

/-- The files of the inputs directory, by name. -/
abbrev Files := AList fun _ : String => Bytes

/-- What stands under a name in the output directory. -/
inductive Output
  | file (bytes : Bytes)
  | unreadable
  deriving DecidableEq

abbrev Outputs := String → Option Output

structure Backend where
  path : String
  diffPostScriptPath : Option String

structure Context where
  artifacts : List QueuedJobArtifact
  inputUrl : Option String
  backend : Backend
  diffoscopeEnabled : Bool

/-- What the worker calls: the file system, the network, the scripts and the libraries. A url is
served the same bytes during a job, and no script writes to the inputs directory. -/
structure World where
  createDirs : Except Err Unit
  /-- The path segments of a url, if it parses and has a path. -/
  pathSegments : String → Except Err (Option (List String))
  get : String → Except Err Bytes
  /-- The backend, run on the input of this name: its outputs and its log. -/
  runBackend : String → String → Files → Except Err Outputs × Bytes
  /-- The diff script, run on the files of this name: whether it succeeds, and its log. -/
  runDiffScript : String → String → Files → Outputs → Except Err Bool × Bytes
  reads : Reads
  /-- The signed link about the file of this name, if there is no error. -/
  inTotoRun : String → Files → Outputs → Option (Except Err Bytes)
  diffoscope : String → Files → Outputs → Except Err Bytes
  zstdCompress : Bytes → Except Err Bytes
  sanitize : Bytes → Bytes
  describe : Err → Bytes

def utf8 (s : String) : Bytes := s.toUTF8.toList

/-- A step of a rebuild, which may extend the log also if it fails. -/
abbrev Rebuild := ExceptT Err (StateM Bytes)

section

variable {α β : Type}

def orFail (x : Except Err α) : Rebuild α := fun log => (x, log)

def extendLog (bytes : Bytes) : Rebuild Unit := fun log => (.ok (), log ++ bytes)

def readLog : Rebuild Bytes := fun log => (.ok log, log)

end

variable (W : World)

/-! ### Downloads -/

/-- The file name of a download: the last segment of the path. -/
def filenameOf (url : String) : Except Err String := do
  match ← W.pathSegments url with
  | none => .error .io
  | some segments =>
    match segments.getLast? with
    | none => .error .io
    | some filename => if filename = "" then .error .io else .ok filename

/-- Writes what the url serves to the directory; a file of that name is overwritten. -/
def download (url : String) (dir : Files) : Except Err (String × Files) := do
  let filename ← filenameOf W url
  let bytes ← W.get url
  return (filename, dir.insert filename bytes)

/-- Downloads the artifacts of the job, with their file names. -/
def downloadArtifacts (artifacts : List QueuedJobArtifact) :
    Except Err (List (QueuedJobArtifact × String) × Files) :=
  artifacts.foldlM (fun (done, dir) artifact => do
    let (filename, dir) ← download W artifact.url dir
    return (done ++ [(artifact, filename)], dir)) ([], ∅)

/-- The file name of the build input: that of its url, or of the first artifact. -/
def downloadInput (ctx : Context) (artifacts : List (QueuedJobArtifact × String)) (dir : Files) :
    Except Err (String × Files) :=
  match ctx.inputUrl with
  | some url => download W url dir
  | none =>
    match artifacts.head? with
    | some (_, filename) => .ok (filename, dir)
    | none => .error .io

/-! ### The verdict about an artifact -/

/-- Everything a finished build leaves. -/
structure Build where
  artifacts : List (QueuedJobArtifact × String)
  inputs : Files
  outputs : Outputs

def build (ctx : Context) : Rebuild Build := do
  orFail W.createDirs
  let (artifacts, dir) ← orFail (downloadArtifacts W ctx.artifacts)
  let (input, dir) ← orFail (downloadInput W ctx artifacts dir)
  let (outputs, log) := W.runBackend ctx.backend.path input dir
  extendLog log
  return ⟨artifacts, dir, ← orFail outputs⟩

/-- Opens both files and compares them. -/
def compareOutput (b : Build) (filename : String) (output : Output) : Except Err Bool :=
  match output, b.inputs.lookup filename with
  | .file bytes, some artifact => .ok (compareFiles W.reads artifact bytes)
  | _, _ => .error .io

/-- Runs the diff script, and appends its output to the log. -/
def customDiff (script : String) (b : Build) (filename : String) : Rebuild Bool := do
  let (identical, diffLog) := W.runDiffScript script filename b.inputs b.outputs
  let identical ← orFail identical
  if diffLog ≠ [] then
    if (← readLog) ≠ [] then extendLog (utf8 "\n\n")
    extendLog (utf8 "=== Differ Script Output ===\n")
    extendLog diffLog
    extendLog (utf8 "\n============================\n")
  return identical

/-- Whether the backend has left a file for the artifact, and it is identical. -/
def isIdentical (ctx : Context) (b : Build) (filename : String) : Rebuild (Option Bool) := do
  match b.outputs filename with
  | none => return none
  | some output =>
    match ctx.backend.diffPostScriptPath with
    | some script => some <$> customDiff W script b filename
    | none => some <$> orFail (compareOutput W b filename output)

def attestation (b : Build) (filename : String) : Rebuild (Option Bytes) := do
  match W.inTotoRun filename b.inputs b.outputs with
  | some link => some <$> orFail (do W.zstdCompress (← link))
  | none => return none

def diffoscopeLog (ctx : Context) (b : Build) (filename : String) : Rebuild (Option Bytes) := do
  if ctx.diffoscopeEnabled then
    some <$> orFail (do W.zstdCompress (← W.diffoscope filename b.inputs b.outputs))
  else return none

def compareArtifact (ctx : Context) (b : Build) (artifact : QueuedJobArtifact × String) :
    Rebuild RebuildArtifactReport := do
  match ← isIdentical W ctx b artifact.2 with
  | none => return ⟨artifact.1.name, none, none, .bad⟩
  | some true => return ⟨artifact.1.name, none, ← attestation W b artifact.2, .good⟩
  | some false => return ⟨artifact.1.name, ← diffoscopeLog W ctx b artifact.2, none, .bad⟩

def rebuild (ctx : Context) : Rebuild (List RebuildArtifactReport) := do
  let b ← build W ctx
  b.artifacts.mapM (compareArtifact W ctx b)

/-- The rebuild, with an empty log. A ping that fails is only logged. -/
def rebuildWithHeartbeat (ctx : Context) : Except Err (List RebuildArtifactReport) × Bytes :=
  rebuild W ctx []

/-! ### The report -/

structure Config where
  /-- The backends by distribution. -/
  backends : List (String × Backend)
  diffoscopeEnabled : Bool

/-- The overall status, the artifacts and the log of a rebuild. -/
def overall (result : Except Err (List RebuildArtifactReport) × Bytes) :
    BuildStatus × List RebuildArtifactReport × Bytes :=
  match result with
  | (.ok res, log) => (if res.all (·.status == .good) then .good else .bad, res, log)
  | (.error err, log) =>
    let msg := utf8 "rebuilderd: unexpected error while rebuilding package: " ++ W.describe err ++
      utf8 "\n"
    (.fail, [], (if log ≠ [] then log ++ utf8 "\n\n" else log) ++ msg)

def contextOf (config : Config) (backend : Backend) (job : QueuedJobWithArtifacts) : Context where
  artifacts := job.artifacts
  inputUrl := some job.job.url
  backend := backend
  diffoscopeEnabled := config.diffoscopeEnabled

/-- The report about a job, if the worker sends one. -/
def runJob (config : Config) (now : Time) (job : QueuedJobWithArtifacts) :
    Except Err RebuildReport := do
  match config.backends.lookup job.job.distribution with
  | none => .error .io
  | some backend =>
    let (status, artifacts, log) := overall W (rebuildWithHeartbeat W (contextOf config backend job))
    return {
      queueId := job.job.id
      builtAt := now
      buildLog := ← W.zstdCompress (W.sanitize log)
      status := status
      artifacts := artifacts }

end Rebuilderd.Worker
