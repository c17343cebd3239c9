import Rebuilderd.Lib.Query
import Rebuilderd.Worker.Rebuild

/-!
What the verdicts of a rebuild say.

All downloads of a job, the build input included, are written to one directory under the last
segment of their url, and the artifacts are compared after the build. So an artifact is compared
with what the last download of its file name has served.
-/

namespace Rebuilderd.Worker

open Rebuilderd.Common Rebuilderd.Lib

/-! ### Steps of a rebuild -/

section
variable {α β : Type} {log log' : Bytes}

lemma bind_ok {x : Rebuild α} {f : α → Rebuild β} {b : β} :
    (x >>= f) log = (.ok b, log') ↔ ∃ a log₁, x log = (.ok a, log₁) ∧ f a log₁ = (.ok b, log') := by
  change (ExceptT.bindCont f (x log).1) (x log).2 = _ ↔ _
  constructor
  · intro h
    rcases hx : x log with ⟨e | a, log₁⟩ <;> rw [hx] at h
    · cases h
    · exact ⟨a, log₁, rfl, h⟩
  · rintro ⟨a, log₁, hx, h⟩
    rw [hx]
    exact h

@[simp] lemma pure_ok {a b : α} : (pure a : Rebuild α) log = (.ok b, log') ↔ a = b ∧ log = log' := by
  constructor
  · rintro ⟨⟩
    exact ⟨rfl, rfl⟩
  · rintro ⟨rfl, rfl⟩
    rfl

@[simp] lemma orFail_ok {x : Except Err α} {a : α} :
    orFail x log = (.ok a, log') ↔ x = .ok a ∧ log = log' := by
  constructor
  · rintro ⟨⟩
    exact ⟨rfl, rfl⟩
  · rintro ⟨rfl, rfl⟩
    rfl

lemma map_ok {g : α → β} {x : Rebuild α} {b : β} :
    (g <$> x) log = (.ok b, log') ↔ ∃ a, x log = (.ok a, log') ∧ g a = b := by
  rw [map_eq_pure_bind, bind_ok]
  simp only [pure_ok]
  constructor
  · rintro ⟨a, log₁, hx, rfl, rfl⟩
    exact ⟨a, hx, rfl⟩
  · rintro ⟨a, hx, rfl⟩
    exact ⟨a, log', hx, rfl, rfl⟩

/-- A loop that succeeds has succeeded for each element. -/
lemma mapM_ok {f : α → Rebuild β} {as : List α} {bs : List β} (h : as.mapM f log = (.ok bs, log')) :
    List.Forall₂ (fun a b => ∃ log₁ log₂, f a log₁ = (.ok b, log₂)) as bs := by
  induction as generalizing bs log log' with
  | nil =>
    rw [List.mapM_nil] at h
    obtain ⟨rfl, -⟩ := pure_ok.mp h
    exact .nil
  | cons a as ih =>
    rw [List.mapM_cons] at h
    obtain ⟨b, log₁, hb, h⟩ := bind_ok.mp h
    obtain ⟨bs', log₂, hbs, h⟩ := bind_ok.mp h
    obtain ⟨rfl, -⟩ := pure_ok.mp h
    exact .cons ⟨log, log₁, hb⟩ (ih hbs)

end

/-! ### The inputs directory -/

section
variable {W : World}

/-- What the last of the urls with this file name serves. -/
def lastServed (W : World) (urls : List String) (filename : String) : Option Bytes :=
  (urls.reverse.find? fun url => filenameOf W url = .ok filename).bind fun url => (W.get url).toOption

lemma lastServed_append (urls : List String) (url filename : String) :
    lastServed W (urls ++ [url]) filename =
      if filenameOf W url = .ok filename then (W.get url).toOption else lastServed W urls filename := by
  unfold lastServed
  rw [List.reverse_append, List.reverse_singleton, List.singleton_append, List.find?_cons]
  by_cases h : filenameOf W url = .ok filename <;> simp [h]

/-- A download adds to the directory what its url serves. -/
lemma lookup_download {urls : List String} {url filename : String} {dir dir' : Files}
    (hdir : ∀ f, dir.lookup f = lastServed W urls f)
    (h : download W url dir = .ok (filename, dir')) :
    filenameOf W url = .ok filename ∧ (∃ bytes, W.get url = .ok bytes) ∧
      (∀ f, f ∈ dir' ↔ f = filename ∨ f ∈ dir) ∧
      ∀ f, dir'.lookup f = lastServed W (urls ++ [url]) f := by
  unfold download at h
  rcases hname : filenameOf W url with e | name
  · simp [hname, bind, Except.bind] at h
  · rcases hget : W.get url with e | bytes
    · simp [hname, hget, bind, Except.bind] at h
    · simp only [hname, hget, bind, Except.bind, pure, Except.pure, Except.ok.injEq,
        Prod.mk.injEq] at h
      obtain ⟨rfl, rfl⟩ := h
      refine ⟨rfl, ⟨bytes, rfl⟩, fun f => AList.mem_insert _, fun f => ?_⟩
      rw [lastServed_append, hname]
      by_cases hf : name = f
      · subst hf
        rw [AList.lookup_insert, if_pos rfl, hget]
        rfl
      · rw [AList.lookup_insert_ne (Ne.symm hf), if_neg (by simpa using hf), hdir]

/-- The urls of a job in the order they are downloaded. -/
def Context.urls (ctx : Context) : List String := ctx.artifacts.map (·.url) ++ ctx.inputUrl.toList

/-- The artifact has been downloaded to the directory under its file name. -/
def Downloaded (W : World) (dir : Files) (x : QueuedJobArtifact × String) : Prop :=
  filenameOf W x.1.url = .ok x.2 ∧ (∃ bytes, W.get x.1.url = .ok bytes) ∧ x.2 ∈ dir

lemma downloadArtifacts_ok {artifacts : List QueuedJobArtifact}
    {done : List (QueuedJobArtifact × String)} {dir : Files}
    (h : downloadArtifacts W artifacts = .ok (done, dir)) :
    done.map (·.1) = artifacts ∧ (∀ x ∈ done, Downloaded W dir x) ∧
      ∀ f, dir.lookup f = lastServed W (artifacts.map (·.url)) f := by
  refine foldlM_ok (I := fun (as : List QueuedJobArtifact)
    (x : List (QueuedJobArtifact × String) × Files) => x.1.map (·.1) = as ∧
      (∀ y ∈ x.1, Downloaded W x.2 y) ∧ ∀ f, x.2.lookup f = lastServed W (as.map (·.url)) f) h
    ⟨rfl, by simp, fun f => rfl⟩ fun as a x x' _ hx hok => ?_
  obtain ⟨done, dir⟩ := x
  obtain ⟨hmap, hdone, hdir⟩ := hx
  rcases hd : download W a.url dir with e | ⟨filename, dir₁⟩
  · simp [hd, bind, Except.bind] at hok
  · simp only [hd, bind, Except.bind, pure, Except.pure, Except.ok.injEq] at hok
    subst hok
    obtain ⟨hname, hget, hmem, hdir₁⟩ := lookup_download hdir hd
    refine ⟨by rw [List.map_append, hmap]; rfl, fun y hy => ?_, fun f => ?_⟩
    · rcases List.mem_append.mp hy with hy | hy
      · obtain ⟨hname', hget', hin⟩ := hdone y hy
        exact ⟨hname', hget', (hmem _).mpr (.inr hin)⟩
      · rw [List.mem_singleton.mp hy]
        exact ⟨hname, hget, (hmem _).mpr (.inl rfl)⟩
    · rw [List.map_append]
      exact hdir₁ f

lemma downloadInput_ok {ctx : Context} {artifacts : List (QueuedJobArtifact × String)}
    {input : String} {urls : List String} {dir dir' : Files}
    (hdir : ∀ f, dir.lookup f = lastServed W urls f)
    (h : downloadInput W ctx artifacts dir = .ok (input, dir')) :
    (∀ f ∈ dir, f ∈ dir') ∧
      ∀ f, dir'.lookup f = lastServed W (urls ++ ctx.inputUrl.toList) f := by
  unfold downloadInput at h
  split at h
  · rename_i url hurl
    obtain ⟨-, -, hmem, hdir'⟩ := lookup_download hdir h
    rw [hurl]
    exact ⟨fun f hf => (hmem f).mpr (.inr hf), hdir'⟩
  · rename_i hurl
    rw [hurl, Option.toList_none, List.append_nil]
    split at h
    · cases h
      exact ⟨fun f hf => hf, hdir⟩
    · cases h

/-- The directory has, under each name, what the last download of this name has served. -/
lemma build_ok {ctx : Context} {b : Build} {log log' : Bytes}
    (h : build W ctx log = (.ok b, log')) :
    b.artifacts.map (·.1) = ctx.artifacts ∧ (∀ x ∈ b.artifacts, Downloaded W b.inputs x) ∧
      ∀ f, b.inputs.lookup f = lastServed W ctx.urls f := by
  obtain ⟨_, _, -, h⟩ := bind_ok.mp h
  obtain ⟨⟨artifacts, dir⟩, _, hartifacts, h⟩ := bind_ok.mp h
  obtain ⟨⟨input, dir'⟩, _, hinput, h⟩ := bind_ok.mp h
  obtain ⟨_, _, -, h⟩ := bind_ok.mp h
  obtain ⟨outputs, _, -, h⟩ := bind_ok.mp h
  obtain ⟨rfl, -⟩ := pure_ok.mp h
  obtain ⟨hartifacts, -⟩ := orFail_ok.mp hartifacts
  obtain ⟨hinput, -⟩ := orFail_ok.mp hinput
  obtain ⟨hmap, hdone, hdir⟩ := downloadArtifacts_ok hartifacts
  obtain ⟨hmem, hdir'⟩ := downloadInput_ok hdir hinput
  exact ⟨hmap, fun x hx => ⟨(hdone x hx).1, (hdone x hx).2.1, hmem _ (hdone x hx).2.2⟩, hdir'⟩

/-! ### Verdicts -/

lemma customDiff_ok {script : String} {b : Build} {filename : String} {identical : Bool}
    {log log' : Bytes} (h : customDiff W script b filename log = (.ok identical, log')) :
    (W.runDiffScript script filename b.inputs b.outputs).1 = .ok identical := by
  obtain ⟨identical', log₁, hrun, h⟩ := bind_ok.mp h
  rw [(orFail_ok.mp hrun).1]
  split at h
  · obtain ⟨log₂, _, -, h⟩ := bind_ok.mp h
    split at h
    · obtain ⟨_, _, -, h⟩ := bind_ok.mp h
      obtain ⟨_, _, -, h⟩ := bind_ok.mp h
      obtain ⟨_, _, -, h⟩ := bind_ok.mp h
      obtain ⟨_, _, -, h⟩ := bind_ok.mp h
      rw [(pure_ok.mp h).1]
    · obtain ⟨_, _, -, h⟩ := bind_ok.mp h
      obtain ⟨_, _, -, h⟩ := bind_ok.mp h
      obtain ⟨_, _, -, h⟩ := bind_ok.mp h
      rw [(pure_ok.mp h).1]
  · rw [(pure_ok.mp h).1]

/-- The file the backend left under this name was compared with the one in the inputs directory, by
the diff script or byte by byte, and found identical. -/
def FoundIdentical (W : World) (ctx : Context) (b : Build) (filename : String) : Prop :=
  match ctx.backend.diffPostScriptPath with
  | some script => b.outputs filename ≠ none ∧
      (W.runDiffScript script filename b.inputs b.outputs).1 = .ok true
  | none => ∃ bytes, b.outputs filename = some (.file bytes) ∧ b.inputs.lookup filename = some bytes

lemma isIdentical_ok {ctx : Context} {b : Build} {filename : String} {verdict : Option Bool}
    {log log' : Bytes} (h : isIdentical W ctx b filename log = (.ok verdict, log')) :
    verdict = some true ↔ FoundIdentical W ctx b filename := by
  unfold isIdentical at h
  unfold FoundIdentical
  rcases hout : b.outputs filename with _ | output <;>
    rcases hscript : ctx.backend.diffPostScriptPath with _ | script <;> simp only [hout, hscript] at h ⊢
  · obtain ⟨rfl, -⟩ := pure_ok.mp h
    simp
  · obtain ⟨rfl, -⟩ := pure_ok.mp h
    simp
  · obtain ⟨identical, hcompare, rfl⟩ := map_ok.mp h
    replace hcompare := (orFail_ok.mp hcompare).1
    unfold compareOutput at hcompare
    split at hcompare
    · rename_i artifact hartifact
      obtain rfl := Except.ok.inj hcompare
      rw [hartifact, Option.some_inj, compareFiles_eq_true]
      simp
    · cases hcompare
  · obtain ⟨identical, hcompare, rfl⟩ := map_ok.mp h
    simp [customDiff_ok hcompare]

/-- An artifact is good if the comparison has found it identical. -/
lemma compareArtifact_good {ctx : Context} {b : Build} {x : QueuedJobArtifact × String}
    {r : RebuildArtifactReport} {log log' : Bytes}
    (h : compareArtifact W ctx b x log = (.ok r, log')) :
    r.status = .good ↔ FoundIdentical W ctx b x.2 := by
  obtain ⟨verdict, log₁, hverdict, h⟩ := bind_ok.mp h
  rw [← isIdentical_ok hverdict]
  rcases verdict with _ | _ | _
  · obtain ⟨rfl, -⟩ := pure_ok.mp h
    simp
  · obtain ⟨diff, log₂, -, h⟩ := bind_ok.mp h
    obtain ⟨rfl, -⟩ := pure_ok.mp h
    simp
  · obtain ⟨link, log₂, -, h⟩ := bind_ok.mp h
    obtain ⟨rfl, -⟩ := pure_ok.mp h
    simp

/-- Without a diff script, an artifact is good if the file left under its name is the one in the
inputs directory. -/
lemma compareArtifact_ok {ctx : Context} {b : Build} {x : QueuedJobArtifact × String}
    {r : RebuildArtifactReport} {log log' : Bytes} (hdiff : ctx.backend.diffPostScriptPath = none)
    (h : compareArtifact W ctx b x log = (.ok r, log')) :
    r.status = .good ↔
      ∃ bytes, b.outputs x.2 = some (.file bytes) ∧ b.inputs.lookup x.2 = some bytes := by
  rw [compareArtifact_good h, FoundIdentical, hdiff]

/-- The verdict about an artifact is right: it is good if the backend left a file under the file
name of its url, with the bytes that this url serves. -/
def Sound (W : World) (outputs : Outputs) (a : QueuedJobArtifact) (r : RebuildArtifactReport) : Prop :=
  r.status = .good ↔ ∃ f bytes, filenameOf W a.url = .ok f ∧ W.get a.url = .ok bytes ∧
    outputs f = some (.file bytes)

/-- The last download of the artifact's file name serves the same bytes as its own url, or the
backend has left neither of the two under that name. -/
def undisturbed (W : World) (ctx : Context) (outputs : Outputs) (a : QueuedJobArtifact) : Bool :=
  match filenameOf W a.url, W.get a.url with
  | .ok f, .ok bytes => lastServed W ctx.urls f == some bytes ||
      (outputs f != some (.file bytes) && outputs f != (lastServed W ctx.urls f).map .file)
  | _, _ => true

/-- The verdict about an artifact, which was compared with the last download of its name. -/
lemma sound_iff {ctx : Context} {outputs : Outputs} {dir : Files} {x : QueuedJobArtifact × String}
    {r : RebuildArtifactReport} (hx : Downloaded W dir x)
    (hdir : dir.lookup x.2 = lastServed W ctx.urls x.2)
    (hr : r.status = .good ↔ ∃ bytes, outputs x.2 = some (.file bytes) ∧ dir.lookup x.2 = some bytes) :
    Sound W outputs x.1 r ↔ undisturbed W ctx outputs x.1 = true := by
  obtain ⟨hname, ⟨bytes, hget⟩, hmem⟩ := hx
  obtain ⟨last, hlast⟩ := Option.isSome_iff_exists.mp (AList.lookup_isSome.mpr hmem)
  have hsound : Sound W outputs x.1 r ↔ (r.status = .good ↔ outputs x.2 = some (.file bytes)) := by
    unfold Sound
    rw [hname, hget]
    simp
  have hundisturbed : undisturbed W ctx outputs x.1 = true ↔ last = bytes ∨
      (outputs x.2 ≠ some (.file bytes) ∧ outputs x.2 ≠ some (.file last)) := by
    unfold undisturbed
    rw [hname, hget]
    dsimp only
    rw [← hdir, hlast]
    simp
  have hgood : r.status = .good ↔ outputs x.2 = some (.file last) := by
    rw [hr, hlast]
    simp
  rw [hsound, hundisturbed, hgood]
  by_cases heq : last = bytes
  · subst heq
    simp
  · have hdiffer : outputs x.2 = some (.file last) → outputs x.2 ≠ some (.file bytes) := by
      intro h h'
      rw [h] at h'
      exact heq (by simpa using h')
    tauto

/-- Elements that satisfy a relation exactly if a test succeeds. -/
lemma forall₂_iff_all {α β : Type} {S : α → β → Prop} {P : α → Bool} {as : List α} {bs : List β}
    (h : List.Forall₂ (fun a b => S a b ↔ P a = true) as bs) :
    List.Forall₂ S as bs ↔ as.all P = true := by
  induction h with
  | nil => simp
  | cons hab _ ih => rw [List.forall₂_cons, List.all_cons, Bool.and_eq_true, hab, ih]

/-- **The verdicts of a rebuild without a diff script are right exactly if no artifact was
disturbed** by a later download of its file name. -/
theorem verdictsSound_iff (W : World) (ctx : Context) (b : Build)
    (results : List RebuildArtifactReport) (log log₁ log' : Bytes)
    (hdiff : ctx.backend.diffPostScriptPath = none) (hbuild : build W ctx log = (.ok b, log₁))
    (hrebuild : rebuild W ctx log = (.ok results, log')) :
    List.Forall₂ (Sound W b.outputs) ctx.artifacts results ↔
      ctx.artifacts.all (undisturbed W ctx b.outputs) = true := by
  obtain ⟨hmap, hdone, hinputs⟩ := build_ok hbuild
  obtain ⟨b', log₂, hbuild', hresults⟩ := bind_ok.mp hrebuild
  rw [hbuild] at hbuild'
  cases hbuild'
  rw [← hmap]
  refine forall₂_iff_all ?_
  rw [List.forall₂_map_left_iff]
  refine ((List.forall₂_and_left _ _).mpr ⟨hdone, mapM_ok hresults⟩).imp ?_
  rintro x r ⟨hx, log₃, log₄, hr⟩
  exact sound_iff hx (hinputs _) (compareArtifact_ok hdiff hr)

end

/-! ### Two downloads of one name -/

/-- A worker whose backend leaves `outputs`; the urls serve what `served` says. -/
def workerWith (served : String → Except Err (String × Bytes)) (outputs : Outputs) : World where
  createDirs := .ok ()
  pathSegments url := (served url).map fun file => some [file.1]
  get url := (served url).map (·.2)
  runBackend _ _ _ := (.ok outputs, [])
  runDiffScript _ _ _ _ := (.error .io, [])
  reads := ⟨fun _ => 4096, fun _ => by decide, fun _ => by decide⟩
  inTotoRun _ _ _ := none
  diffoscope _ _ _ := .error .io
  zstdCompress := .ok
  sanitize := id
  describe _ := []

/-- The directories of two components have a file of the same name each. -/
def twoPools : String → Except Err (String × Bytes)
  | "https://main/hello.deb" => .ok ("hello.deb", [1])
  | "https://main/hello-doc.deb" => .ok ("hello-doc.deb", [4])
  | "https://contrib/hello.deb" => .ok ("hello.deb", [2])
  | "https://hello.buildinfo" => .ok ("hello.buildinfo", [3])
  | _ => .error .io

/-- A job with the artifacts at these urls. -/
def jobAt (urls : List String) : Context where
  artifacts := urls.map fun url => ⟨"hello", "1.0", "amd64", url⟩
  inputUrl := some "https://hello.buildinfo"
  backend := ⟨"/usr/libexec/rebuilder-debian.sh", none⟩
  diffoscopeEnabled := false

/-- The backend has rebuilt the second of the two files, and the documentation. -/
def rebuiltSecond : Outputs := fun name =>
  if name = "hello.deb" then some (.file [2])
  else if name = "hello-doc.deb" then some (.file [4])
  else none

lemma exists_of_isOk {α : Type} {x : Rebuild α} {log : Bytes} (h : (x log).1.isOk = true) :
    ∃ a log', x log = (.ok a, log') := by
  rcases hx : x log with ⟨e | a, log'⟩
  · rw [hx] at h
    cases h
  · exact ⟨a, log', rfl⟩

/-- The artifacts of one pool, which have names of their own. -/
def onePool : Context := jobAt ["https://main/hello.deb", "https://main/hello-doc.deb"]

/-- Here both verdicts are right: the backend has rebuilt the documentation, and something else
for the package. -/
theorem verdictsSound_onePool : ∃ b results log₁ log',
    build (workerWith twoPools rebuiltSecond) onePool [] = (.ok b, log₁) ∧
      rebuild (workerWith twoPools rebuiltSecond) onePool [] = (.ok results, log') ∧
      results.map (·.status) = [.bad, .good] ∧
      (List.Forall₂ (Sound (workerWith twoPools rebuiltSecond) b.outputs) onePool.artifacts
          results ↔
        onePool.artifacts.all
          (undisturbed (workerWith twoPools rebuiltSecond) onePool b.outputs) = true) := by
  obtain ⟨b, log₁, hb⟩ : ∃ b log₁, build (workerWith twoPools rebuiltSecond) onePool [] =
      (.ok b, log₁) := exists_of_isOk (by decide +kernel)
  obtain ⟨results, log', hr⟩ : ∃ results log', rebuild (workerWith twoPools rebuiltSecond)
      onePool [] = (.ok results, log') := exists_of_isOk (by decide +kernel)
  have hstatus : ((rebuild (workerWith twoPools rebuiltSecond) onePool []).1.map
      (List.map (·.status))).toOption = some [.bad, .good] := by decide +kernel
  rw [hr] at hstatus
  exact ⟨b, results, log₁, log', hb, hr, Option.some.inj hstatus,
    verdictsSound_iff _ _ b results [] log₁ log' rfl hb hr⟩

/-- **An overwritten artifact is good if the backend has rebuilt the one that replaced it.** -/
theorem overwrittenArtifact_good : ¬ ∀ (W : World) (ctx : Context) (b : Build)
    (results : List RebuildArtifactReport) (log log₁ log' : Bytes),
      ctx.backend.diffPostScriptPath = none → build W ctx log = (.ok b, log₁) →
        rebuild W ctx log = (.ok results, log') →
          List.Forall₂ (Sound W b.outputs) ctx.artifacts results := by
  intro h
  let W := workerWith twoPools rebuiltSecond
  let ctx := jobAt ["https://main/hello.deb", "https://contrib/hello.deb"]
  obtain ⟨b, log₁, hb⟩ : ∃ b log₁, build W ctx [] = (.ok b, log₁) :=
    exists_of_isOk (by decide +kernel)
  obtain ⟨results, log', hr⟩ : ∃ results log', rebuild W ctx [] = (.ok results, log') :=
    exists_of_isOk (by decide +kernel)
  have hstatus : results.map (·.status) = [.good, .good] := by
    have hrun : (rebuild W ctx []).1.map (·.map (·.status)) = .ok [.good, .good] := by decide +kernel
    rw [hr] at hrun
    exact Except.ok.inj hrun
  have hleft : b.outputs "hello.deb" = some (.file [2]) := by
    have hrun : (build W ctx []).1.map (·.outputs "hello.deb") = .ok (some (.file [2])) := by
      decide +kernel
    rw [hb] at hrun
    exact Except.ok.inj hrun
  obtain ⟨r, rs, hfirst, -, rfl⟩ := List.forall₂_cons_left_iff.mp (h W ctx b results [] log₁ log' rfl hb hr)
  obtain ⟨f, bytes, hf, hbytes, hfile⟩ := hfirst.mp (List.cons.inj hstatus).1
  have hname : filenameOf W "https://main/hello.deb" = .ok "hello.deb" := by decide +kernel
  have hserved : W.get "https://main/hello.deb" = .ok [1] := by decide +kernel
  obtain rfl := Except.ok.inj (hname.symm.trans hf)
  obtain rfl := Except.ok.inj (hserved.symm.trans hbytes)
  rw [hleft] at hfile
  simp at hfile

end Rebuilderd.Worker
