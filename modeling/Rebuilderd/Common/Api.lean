import Rebuilderd.Lib.Calendar

/-!
The types the daemon, the worker and the command line tool exchange, the configuration, and
the clock arithmetic on it.
-/

namespace Rebuilderd.Common

open Rebuilderd.Lib

/-- An instant, in nanoseconds since the epoch. -/
abbrev Time := ℤ

def second : Time := 1000000000

/-- A date and time as SQLite stores it. -/
abbrev TimeText := List Char

/-- What diesel stores for an instant. The database compares these texts, not the instants. -/
def stored (t : Time) : TimeText := dateTimeText t

/-- SQLite's `CURRENT_TIMESTAMP` has no fraction of a second. -/
def currentTimestamp (t : Time) : Time := t / second * second

/-- SQLite's `date(t)`, as a number of days. -/
def date (t : Time) : ℤ := t / (86400 * second)

inductive Err
  | notFound
  | denied
  | panic
  | io
  deriving DecidableEq

abbrev Bytes := List UInt8

inductive BuildStatus
  | good | bad | fail | unknown
  deriving DecidableEq

inductive ArtifactStatus
  | good | bad | unknown
  deriving DecidableEq

/-- Reading the text of an artifact status back as a build status. -/
def ArtifactStatus.toBuild : ArtifactStatus → BuildStatus
  | .good => .good
  | .bad => .bad
  | .unknown => .unknown

structure BinaryPackageReport where
  name : String
  version : String
  architecture : String
  url : String
  deriving DecidableEq

structure SourcePackageReport where
  name : String
  version : String
  url : String
  artifacts : List BinaryPackageReport
  fbsdPortsTopGitHash : Option String
  fbsdBuildTimestamp : Option Time
  fbsdPortsTopGitTimestamp : Option Time
  deriving DecidableEq

structure PackageReport where
  distribution : String
  release : Option String
  component : Option String
  architecture : String
  packages : List SourcePackageReport
  deriving DecidableEq

/-- What a package report is about; the next report with the same scope replaces it. -/
structure Scope where
  distribution : String
  release : Option String
  component : Option String
  architecture : String
  deriving DecidableEq

def PackageReport.scope (r : PackageReport) : Scope :=
  ⟨r.distribution, r.release, r.component, r.architecture⟩

structure RebuildArtifactReport where
  name : String
  diffoscope : Option Bytes
  attestation : Option Bytes
  status : ArtifactStatus
  deriving DecidableEq

structure RebuildReport where
  queueId : ℕ
  builtAt : Time
  buildLog : Bytes
  status : BuildStatus
  artifacts : List RebuildArtifactReport
  deriving DecidableEq

/-- The lower the number, the earlier the job is handed out. -/
abbrev Priority := ℤ

def Priority.default : Priority := 1
def Priority.retry : Priority := Priority.default + 1
def Priority.manual : Priority := Priority.default - 1

structure QueueJobRequest where
  distribution : Option String
  release : Option String
  component : Option String
  name : Option String
  version : Option String
  architecture : Option String
  status : Option BuildStatus
  priority : Option Priority
  reset : Bool
  deriving DecidableEq

structure PopQueuedJobRequest where
  supportedBackends : List String
  architecture : String
  supportedArchitectures : List String
  deriving DecidableEq

structure QueuedJob where
  id : ℕ
  name : String
  version : String
  distribution : String
  release : Option String
  component : Option String
  architecture : String
  backend : String
  url : String
  nextRetry : Option Time
  priority : Priority
  queuedAt : Time
  startedAt : Option Time
  deriving DecidableEq

structure QueuedJobArtifact where
  name : String
  version : String
  architecture : String
  url : String
  deriving DecidableEq

structure QueuedJobWithArtifacts where
  job : QueuedJob
  artifacts : List QueuedJobArtifact
  deriving DecidableEq

structure OriginFilter where
  distribution : Option String
  release : Option String
  component : Option String
  architecture : Option String
  deriving DecidableEq

inductive SearchType
  | exact | contains | startsWith
  deriving DecidableEq

structure SourceIdentityFilter where
  name : Option String
  searchType : SearchType
  version : Option String
  deriving DecidableEq

structure CheckPeersRequest where
  distribution : String
  architecture : String
  release : Option String
  releaseAlias : Option String
  urls : List String
  deriving DecidableEq

/-! ### Configuration -/

structure WorkerConfig where
  authorizedWorkers : List String
  signupSecret : Option String

structure ScheduleConfig where
  retryDelayBase : Option ℤ
  maxRetries : Option ℤ
  initialDelay : Option ℤ

structure Config where
  authCookie : String
  worker : WorkerConfig
  schedule : ScheduleConfig

def pingInterval : ℕ := 60
/-- `PING_DEADLINE`, in seconds. -/
def pingDeadline : ℤ := pingInterval * 9

def defaultRetryDelayBase : ℤ := 24
def defaultInitialDelay : ℤ := 0

/-! ### Dates and durations

`Duration::seconds` and `Duration::hours` panic outside the milliseconds of an `i64`, and
adding a duration to a date panics outside the years chrono can represent. The integer
operations before them wrap around. -/

/-- The value of an integer operation on `w`-bit signed integers. -/
def wrap (w : ℕ) (x : ℤ) : ℤ := x.bmod (2 ^ w)

lemma wrap_eq_iff (w : ℕ) (x : ℤ) : wrap (w + 1) x = x ↔ -2 ^ w ≤ x ∧ x < 2 ^ w := by
  have hpow : (2 : ℤ) ^ (w + 1) = 2 * 2 ^ w := by ring
  constructor
  · intro h
    have hpos : 0 < 2 ^ (w + 1) := by positivity
    have hlo := Int.le_bmod (x := x) hpos
    have hhi := Int.bmod_lt (x := x) hpos
    rw [wrap] at h
    rw [h] at hlo hhi
    push_cast at hlo hhi
    omega
  · rintro ⟨hlo, hhi⟩
    refine Int.bmod_eq_of_le_mul_two ?_ ?_
    · push_cast
      omega
    · push_cast
      omega

def durationSeconds (s : ℤ) : Except Err Time :=
  if |s * 1000| ≤ 2 ^ 63 - 1 then .ok (s * second) else .error .panic

def durationHours (h : ℤ) : Except Err Time := durationSeconds (h * 3600)

/-- The first and the last instant of `DateTime<Utc>`. -/
def minUtc : Time := -8334601228800 * second
def maxUtc : Time := 8210266876800 * second - 1

def addDuration (t d : Time) : Except Err Time :=
  if minUtc ≤ t + d ∧ t + d ≤ maxUtc then .ok (t + d) else .error .panic

namespace ScheduleConfig

def retryDelayBaseHours (c : ScheduleConfig) : ℤ := c.retryDelayBase.getD defaultRetryDelayBase

def initialDelayDuration (c : ScheduleConfig) : Except Err Time :=
  durationSeconds (c.initialDelay.getD defaultInitialDelay)

/-- `now + Duration::hours((retry_count + 1) as i64 * retry_delay_base)`. -/
def retryAt (c : ScheduleConfig) (now : Time) (retryCount : ℤ) : Except Err Time := do
  addDuration now (← durationHours (wrap 64 (wrap 32 (retryCount + 1) * c.retryDelayBaseHours)))

/-- The earliest first try of a new build input, if it has to wait at all. -/
def firstTry (c : ScheduleConfig) (now : Time) : Except Err (Option Time) := do
  let delay ← c.initialDelayDuration
  if delay ≠ 0 then some <$> addDuration now delay else pure none

/-- Whether `retryCount` retries use up the configured limit, if there is one. -/
def retriesExhausted (c : ScheduleConfig) (retryCount : ℤ) : Bool :=
  c.maxRetries.any (· ≤ retryCount)

end ScheduleConfig

end Rebuilderd.Common
