import Rebuilderd.Worker.Rebuild

/-!
The heartbeat of a worker: while a rebuild goes on, its job is pinged whenever the interval is over.

The loop waits for the rebuild and for the end of the interval at once, but for the reply to a ping
alone. The interval starts anew with every turn.
-/

namespace Rebuilderd.Worker

open Rebuilderd.Common

/-- How often a job is pinged, and what becomes of the reply. -/
structure HeartBeat where
  interval : Time
  ping : Except Err Unit → Except Err Unit

/-- A ping that fails is only logged. -/
def httpHeartBeat : HeartBeat := ⟨pingInterval * second, fun _ => .ok ()⟩

/-- How a turn of the loop ends: the rebuild is ready, or a ping is sent and replied to. -/
inductive Turn
  | ready (t : Time)
  | slept (sent replied : Time) (reply : Except Err Unit)

/-- How late things may be: the ping after the interval, its reply, the statement of a ping after its
handler has read the clock, and the report after the rebuild. -/
structure Lateness where
  wake : ℕ
  reply : ℕ
  stall : ℕ
  report : ℕ

namespace HeartBeat

variable (hb : HeartBeat)

/-- What the loop returns once it is over, if the rebuild ends with `res`. -/
def rebuild {α : Type} (res : Except Err α) : List Turn → Option (Except Err α)
  | [] => none
  | .ready _ :: _ => some res
  | .slept _ _ reply :: turns =>
    match hb.ping reply with
    | .ok () => rebuild res turns
    | .error e => some (.error e)

/-- The turns come in time, and end with the loop. -/
def Timely (d : Lateness) : Time → List Turn → Prop
  | _, [] => True
  | start, .ready t :: turns => start ≤ t ∧ t ≤ start + hb.interval + d.wake ∧ turns = []
  | start, .slept sent replied reply :: turns =>
    start + hb.interval ≤ sent ∧ sent ≤ start + hb.interval + d.wake ∧
    sent ≤ replied ∧ replied ≤ sent + d.reply ∧
    match hb.ping reply with
    | .ok () => Timely d replied turns
    | .error _ => turns = []

end HeartBeat

/-- When the last turn is over. -/
def reach : Time → List Turn → Time
  | start, [] => start
  | _, .ready t :: _ => t
  | _, .slept _ replied _ :: turns => reach replied turns

/-- At most `k` pings in a row fail, after `m` that have failed already. -/
def Heard (k : ℕ) : ℕ → List Turn → Prop
  | _, [] => True
  | _, .ready _ :: _ => True
  | m, .slept _ _ (.error _) :: turns => m < k ∧ Heard k (m + 1) turns
  | _, .slept _ _ (.ok ()) :: turns => Heard k 0 turns

/-- **Pings do not change what a rebuild returns**, whether they succeed or fail. -/
lemma rebuild_httpHeartBeat (W : World) (ctx : Context) (turns : List Turn)
    (h : ∃ t, Turn.ready t ∈ turns) :
    httpHeartBeat.rebuild (rebuildWithHeartbeat W ctx).1 turns =
      some (rebuildWithHeartbeat W ctx).1 := by
  induction turns with
  | nil => simp at h
  | cons turn turns ih =>
    cases turn with
    | ready t => rfl
    | slept sent replied reply => exact ih (by simpa using h)

end Rebuilderd.Worker
