import Rebuilderd.Worker.CaptureLimits

/-!
The loop that runs a script and captures what it writes (`proc::run`).

Each turn wakes up, and then reads from one of the streams or waits for the child, whatever comes
first. A stream at its end is read again as long as the other one is open.
-/

namespace Rebuilderd.Worker.Proc

open Rebuilderd.Common

inductive Stream
  | stdout
  | stderr
  deriving DecidableEq

namespace Streams

def isOpen (streams : Streams) : Stream → Bool
  | .stdout => streams.stdoutOpen
  | .stderr => streams.stderrOpen

def close (streams : Streams) : Stream → Streams
  | .stdout => { streams with stdoutOpen := false }
  | .stderr => { streams with stderrOpen := false }

def reading (streams : Streams) : Bool := streams.stdoutOpen || streams.stderrOpen

end Streams

/-- What comes first while streams are read: some bytes, none at the end of the stream, with what is
found when they are pushed and passed through; or the end of the sleep. -/
inductive Found
  | read (s : Stream) (bytes : Except Err Bytes) (m : Moment) (written : Except Err Unit)
  | slept

/-- What comes first while the child is waited for: its status, or the end of the sleep. -/
inductive Waited
  | exited (success : Except Err Bool)
  | slept

/-- What a turn of the loop finds, in either phase. -/
structure Turn where
  moment : Moment
  found : Found
  waited : Waited

/-- Why a run fails: a call of the capture does, or reading, writing or waiting. -/
inductive RunFailure
  | capture (e : Failure)
  | io (e : Err)
  deriving DecidableEq

/-- The child while it runs, and what was passed through. -/
structure Running where
  cap : Capture
  streams : Streams
  passed : List (Stream × Bytes)
  deriving DecidableEq

/-- The child after it was spawned. -/
def spawned (log : Bytes) (opts : Options) (start : Instant) : Running :=
  ⟨capture log opts start, ⟨true, true⟩, []⟩

namespace Running

variable (passthrough : Bool)

/-- Some bytes of a stream, or its end. -/
def take (s : Stream) (bytes : Bytes) (m : Moment) (written : Except Err Unit) (p : Running) :
    Running × Except RunFailure Unit :=
  if bytes = [] then ({ p with streams := p.streams.close s }, .ok ())
  else
    let pushed := p.cap.pushBytes m bytes
    let p := { p with cap := pushed.1 }
    match pushed.2 with
    | .error e => (p, .error (.capture e))
    | .ok () =>
      if passthrough then
        match written with
        | .error e => (p, .error (.io e))
        | .ok () => ({ p with passed := p.passed ++ [(s, bytes)] }, .ok ())
      else (p, .ok ())

/-- One turn; it ends with whether the child succeeded, once there is a status. -/
def turn (t : Turn) (p : Running) : Running × Except RunFailure (Option Bool) :=
  let woken := p.cap.nextWakeup t.moment p.streams
  let p := { p with cap := woken.1 }
  match woken.2 with
  | .error e => (p, .error (.capture e))
  | .ok (streams, _) =>
    let p := { p with streams := streams }
    if streams.reading then
      match t.found with
      | .read s (.ok bytes) m written =>
        let taken := take passthrough s bytes m written p
        (taken.1, taken.2.map fun _ => none)
      | .read _ (.error e) _ _ => (p, .error (.io e))
      | .slept => (p, .ok none)
    else
      match t.waited with
      | .exited (.ok success) => (p, .ok (some success))
      | .exited (.error e) => (p, .error (.io e))
      | .slept => (p, .ok none)

/-- The loop over some turns; it is still running if none of them ends it. -/
def run : List Turn → Running → Running × Except RunFailure (Option Bool)
  | [], p => (p, .ok none)
  | t :: ts, p =>
    match (turn passthrough t p).2 with
    | .ok none => run ts (turn passthrough t p).1
    | ended => ((turn passthrough t p).1, ended)

/-! ### What a run does -/

/-- The child after the wake-up of a turn, unless that fails. -/
def woken (t : Turn) (p : Running) : Option Running :=
  match p.cap.nextWakeup t.moment p.streams with
  | (cap, .ok (streams, _)) => some { p with cap := cap, streams := streams }
  | (_, .error _) => none

/-- What a turn reads. -/
def readOf (t : Turn) (p : Running) : List (Stream × Bytes) :=
  match woken t p, t.found with
  | some p, .read s (.ok bytes) _ _ => if p.streams.reading then [(s, bytes)] else []
  | _, _ => []

/-- The calls of the capture in a turn. -/
def callsOf (t : Turn) (p : Running) : List Call :=
  .nextWakeup t.moment p.streams ::
    match woken t p, t.found with
    | some p, .read _ (.ok bytes) m _ =>
      if p.streams.reading && bytes ≠ [] then [.pushBytes m bytes] else []
    | _, _ => []

/-- What the turns of a run collect, up to its end. -/
def collect {α : Type} (f : Turn → Running → List α) : List Turn → Running → List α
  | [], _ => []
  | t :: ts, p => f t p ++
    match (turn passthrough t p).2 with
    | .ok none => collect f ts (turn passthrough t p).1
    | _ => []

/-- What a run reads, in its order. -/
def reads : List Turn → Running → List (Stream × Bytes) := collect passthrough readOf

def calls : List Turn → Running → List Call := collect passthrough callsOf

end Running

end Rebuilderd.Worker.Proc
