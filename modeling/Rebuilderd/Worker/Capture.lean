import Rebuilderd.Common.Api

/-!
What a script writes, captured within the limits of its size and its time (`proc.rs`).

The output is cut at the size limit, and a notice says so; another one says that the script ran out
of time. The notices may go beyond the limit.
-/

namespace Rebuilderd.Worker.Proc

open Rebuilderd.Common

/-- A reading of the monotonic clock, in nanoseconds. -/
abbrev Instant := ℕ

/-- In nanoseconds. -/
abbrev Duration := ℕ

def fromSecs (secs : ℕ) : Duration := secs * 1000000000

def asSecs (d : Duration) : ℕ := d / 1000000000

/-- Zero if the instant is later than the reading. -/
def elapsed (now earlier : Instant) : Duration := now - earlier

def sigkillDelay : ℕ := 10

structure Options where
  timeout : Duration
  sizeLimit : Option ℕ
  killAtSizeLimit : Bool

structure Capture where
  output : Bytes
  timeout : Duration
  sizeLimit : Option ℕ
  killAtSizeLimit : Bool
  start : Instant
  sigtermSent : Option Instant
  truncated : Bool
  deriving DecidableEq

def capture (output : Bytes) (opts : Options) (start : Instant) : Capture where
  output := output
  timeout := opts.timeout
  sizeLimit := opts.sizeLimit
  killAtSizeLimit := opts.killAtSizeLimit
  start := start
  sigtermSent := none
  truncated := false

inductive Signal
  | sigterm
  | sigkill
  deriving DecidableEq

/-- Why a call fails: `size_limit - output.len()` underflows, or a signal could not be sent. -/
inductive Failure
  | underflow
  | signal (e : Err)
  deriving DecidableEq

/-- What a call finds: the child, unless it was waited for, what the system call for signals returns,
and the readings of the clock. -/
structure Moment where
  pid : Option ℕ
  kill : ℤ → Signal → Except Err Unit
  killClock : Instant
  timeoutClock : Instant
  sentClock : Instant

/-- Which of the child's streams are read. -/
structure Streams where
  stdoutOpen : Bool
  stderrOpen : Bool
  deriving DecidableEq

/-- `str::as_bytes` -/
def asBytes (s : String) : Bytes := s.toUTF8.data.toList

/-- A notice at the end of the output. -/
def notice (reason : String) : Bytes := asBytes ("\n\n" ++ reason ++ "\n\n")

def sizeMessage (sizeLimit : ℕ) : String :=
  "TRUNCATED DUE TO SIZE LIMIT: " ++ toString sizeLimit ++ " bytes"

def timeoutMessage (timeout : Duration) : String :=
  "TRUNCATED DUE TO TIMEOUT: " ++ toString (asSecs timeout) ++ " seconds"

/-- The process group of a child is its pid, negated. -/
def groupOf (pid : ℕ) : ℤ := -wrap 32 pid

namespace Capture

/-- Signals the child and the processes it has started. -/
def kill (m : Moment) (pid : ℕ) (signal : Signal) : Except Failure Unit :=
  (m.kill (groupOf pid) signal).mapError .signal

end Capture

namespace Moment

/-- Signals the child, if there still is one. -/
def signal (m : Moment) (s : Signal) : Except Failure Unit :=
  match m.pid with
  | some pid => Capture.kill m pid s
  | none => .ok ()

end Moment

namespace Capture

/-- Appends the notice. A signal that could not be sent leaves everything as it is. -/
def truncate (m : Moment) (reason : String) (kill : Bool) (cap : Capture) :
    Capture × Except Failure Unit :=
  if kill then
    match m.signal .sigterm with
    | .error e => (cap, .error e)
    | .ok () =>
      ({ cap with
          sigtermSent := some m.sentClock
          output := cap.output ++ notice reason
          truncated := true }, .ok ())
  else ({ cap with output := cap.output ++ notice reason, truncated := true }, .ok ())

def pushBytes (m : Moment) (slice : Bytes) (cap : Capture) : Capture × Except Failure Unit :=
  if cap.truncated then (cap, .ok ())
  else
    match cap.sizeLimit with
    | none => ({ cap with output := cap.output ++ slice }, .ok ())
    | some sizeLimit =>
      if sizeLimit < cap.output.length then (cap, .error .underflow)
      else
        let n := min (sizeLimit - cap.output.length) slice.length
        if n < 1 then truncate m (sizeMessage sizeLimit) cap.killAtSizeLimit cap
        else ({ cap with output := cap.output ++ slice.take n }, .ok ())

/-- The child that did not end in time after a SIGTERM. -/
def sigkillDue (m : Moment) (cap : Capture) : Option ℕ := do
  let sigtermSent ← cap.sigtermSent
  guard (fromSecs sigkillDelay < elapsed m.killClock sigtermSent)
  m.pid

/-- Whether the time is over. -/
def timedOut (m : Moment) (cap : Capture) : Bool := cap.timeout < elapsed m.timeoutClock cap.start

/-- The check for a child that has to be killed, after which its streams are not read any more. -/
def sigkill (m : Moment) (streams : Streams) (cap : Capture) : Except Failure Streams :=
  match cap.sigkillDue m with
  | some pid => (kill m pid .sigkill).map fun _ => ⟨false, false⟩
  | none => .ok streams

/-- The streams to read, and how long to wait for them. -/
def nextWakeup (m : Moment) (streams : Streams) (cap : Capture) :
    Capture × Except Failure (Streams × Duration) :=
  match cap.sigkill m streams with
  | .error e => (cap, .error e)
  | .ok streams =>
    if !cap.timedOut m then
      (cap, .ok (streams, cap.timeout - elapsed m.timeoutClock cap.start))
    else if cap.sigtermSent.isNone then
      let result := truncate m (timeoutMessage cap.timeout) true cap
      (result.1, result.2.map fun _ => (streams, fromSecs sigkillDelay))
    else (cap, .ok (streams, fromSecs sigkillDelay))

end Capture

/-! ### Runs -/

/-- A call of the loop in `run`. -/
inductive Call
  | pushBytes (m : Moment) (slice : Bytes)
  | nextWakeup (m : Moment) (streams : Streams)

namespace Call

def step (cap : Capture) : Call → Capture × Except Failure Unit
  | pushBytes m slice => cap.pushBytes m slice
  | nextWakeup m streams => ((cap.nextWakeup m streams).1, (cap.nextWakeup m streams).2.map fun _ => ())

def moment : Call → Moment
  | pushBytes m _ => m
  | nextWakeup m _ => m

/-- The chunk that is pushed. -/
def chunk : Call → List Bytes
  | pushBytes _ slice => [slice]
  | nextWakeup _ _ => []

/-- Whether the call finds the time to be over. -/
def timesOut (cap : Capture) : Call → Bool
  | pushBytes _ _ => false
  | nextWakeup m _ => cap.timedOut m

end Call

/-- The capture after some calls. One that fails leaves the capture as it returns it. -/
def after (cap : Capture) (calls : List Call) : Capture :=
  calls.foldl (fun cap call => (call.step cap).1) cap

/-- The chunks that are pushed by some calls, in their order. -/
def chunks (calls : List Call) : List Bytes := calls.flatMap Call.chunk

/-- None of the calls fails. -/
def Succeeds (cap : Capture) (calls : List Call) : Prop :=
  ∀ done call, done ++ [call] <+: calls → (call.step (after cap done)).2 = .ok ()

/-- None of the calls finds the time to be over. -/
def InTime (cap : Capture) (calls : List Call) : Prop := ∀ call ∈ calls, call.timesOut cap = false

end Rebuilderd.Worker.Proc
