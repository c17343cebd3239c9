import Rebuilderd.Worker.ProcessOutput

/-!
The signals of a run: at most one SIGTERM, and SIGKILL only when that was of no use.

A run whose turns come in time stops reading, and sends SIGKILL, soon after the time of the script is
over, whatever the script does.
-/

namespace Rebuilderd.Worker.Proc

open Rebuilderd.Common

/-! ### What a call sends -/

/-- The same call, with another way to take signals. -/
def Call.withKill (kill : ℤ → Signal → Except Err Unit) : Call → Call
  | .pushBytes m slice => .pushBytes { m with kill := kill } slice
  | .nextWakeup m streams => .nextWakeup { m with kill := kill } streams

/-- A signal, the number the system call has for its target, and when it was sent. -/
structure Sent where
  target : ℤ
  signal : Signal
  time : Instant
  deriving DecidableEq

namespace Capture

/-- The slice does not fit any more, so that the output is truncated. -/
def overflows (slice : Bytes) (cap : Capture) : Bool :=
  !cap.truncated && cap.sizeLimit.any fun sizeLimit =>
    cap.output.length ≤ sizeLimit && min (sizeLimit - cap.output.length) slice.length < 1

/-- The signal that a call tries to send. -/
def attempt (cap : Capture) : Call → Option Sent
  | .pushBytes m slice =>
    if cap.overflows slice && cap.killAtSizeLimit then m.pid.map (⟨groupOf ·, .sigterm, m.sentClock⟩) else none
  | .nextWakeup m _ =>
    match cap.sigkillDue m with
    | some pid => some ⟨groupOf pid, .sigkill, m.killClock⟩
    | none =>
      if cap.timedOut m && cap.sigtermSent.isNone then m.pid.map (⟨groupOf ·, .sigterm, m.sentClock⟩) else none

variable {cap : Capture} {m : Moment} {slice : Bytes} {streams : Streams} {call : Call}

lemma pushBytes_overflows (h : cap.overflows slice = true) : ∃ limit, ∀ m,
    cap.pushBytes m slice = cap.truncate m (sizeMessage limit) cap.killAtSizeLimit := by
  simp only [overflows, Bool.and_eq_true, Bool.not_eq_true', Option.any_eq_true,
    decide_eq_true_eq] at h
  obtain ⟨hopen, limit, hlimit, hle, hfull⟩ := h
  refine ⟨limit, fun m => ?_⟩
  unfold pushBytes
  rw [hopen, hlimit, if_neg Bool.false_ne_true]
  dsimp only
  rw [if_neg (Nat.not_lt.mpr hle), if_pos hfull]

/-- A slice that fits is appended, or the push fails, without a signal. -/
lemma pushBytes_fits (h : cap.overflows slice = false) : ∃ output r,
    ∀ m, cap.pushBytes m slice = ({ cap with output := output }, r) := by
  obtain ⟨out, timeout, sizeLimit, kill, start, sigtermSent, truncated⟩ := cap
  unfold pushBytes
  cases truncated with
  | true => exact ⟨out, .ok (), fun m => rfl⟩
  | false =>
    rcases sizeLimit with _ | limit
    · exact ⟨out ++ slice, .ok (), fun m => rfl⟩
    · by_cases hover : limit < out.length
      · exact ⟨out, .error .underflow, fun m => by simp [hover]⟩
      · by_cases hfull : min (limit - out.length) slice.length < 1
        · have hyes : decide (out.length ≤ limit ∧ min (limit - out.length) slice.length < 1) = true :=
            decide_eq_true ⟨Nat.not_lt.mp hover, hfull⟩
          simp only [overflows, Bool.not_false, Bool.true_and, Option.any_some, ← Bool.decide_and,
            hyes] at h
          cases h
        · exact ⟨_, .ok (), fun m => by
            simp only [Bool.false_eq_true, if_false, hover, hfull]
            rfl⟩

/-- **A call depends on how signals are taken only if it sends one.** -/
lemma attempt_none {call : Call} (h : cap.attempt call = none)
    (kill : ℤ → Signal → Except Err Unit) : (call.withKill kill).step cap = call.step cap := by
  have htruncate {m : Moment} {reason : String} {b : Bool} (hpid : b = true → m.pid = none) :
      cap.truncate { m with kill := kill } reason b = cap.truncate m reason b := by
    unfold truncate Moment.signal
    cases b with
    | false => rfl
    | true =>
      dsimp only
      rw [hpid rfl]
  cases call with
  | pushBytes m slice =>
    simp only [attempt] at h
    change cap.pushBytes { m with kill := kill } slice = cap.pushBytes m slice
    cases hover : cap.overflows slice with
    | false =>
      obtain ⟨output, r, heq⟩ := pushBytes_fits hover
      rw [heq, heq]
    | true =>
      obtain ⟨limit, heq⟩ := pushBytes_overflows hover
      rw [heq, heq]
      refine htruncate fun hkill => ?_
      rw [hover, hkill] at h
      exact Option.map_eq_none_iff.mp h
  | nextWakeup m streams =>
    have hsame : cap.nextWakeup { m with kill := kill } streams = cap.nextWakeup m streams := by
      rcases hdue : cap.sigkillDue m with _ | pid
      · have hdue' : cap.sigkillDue { m with kill := kill } = none := hdue
        have hlate : cap.timedOut { m with kill := kill } = cap.timedOut m := rfl
        simp only [attempt, hdue] at h
        unfold nextWakeup sigkill
        rw [hdue, hdue', hlate]
        dsimp only
        cases htime : cap.timedOut m with
        | false => rfl
        | true =>
          cases hsent : cap.sigtermSent.isNone with
          | false => rfl
          | true =>
            rw [htime, hsent] at h
            have hpid : m.pid = none := Option.map_eq_none_iff.mp h
            rw [htruncate fun _ => hpid]
      · simp [attempt, hdue] at h
    simp only [Call.withKill, Call.step, hsame]

/-- A call whose signal cannot be sent fails, and leaves the capture as it is. -/
lemma attempt_some {call : Call} {sent : Sent} {e : Err} (h : cap.attempt call = some sent)
    (hkill : call.moment.kill sent.target sent.signal = .error e) :
    call.step cap = (cap, .error (.signal e)) := by
  have htruncate {m : Moment} {reason : String} (hsent : m.pid.map (⟨groupOf ·, .sigterm, m.sentClock⟩) = some sent)
      (hkill : m.kill sent.target sent.signal = .error e) :
      cap.truncate m reason true = (cap, .error (.signal e)) := by
    obtain ⟨pid, hpid, rfl⟩ := Option.map_eq_some_iff.mp hsent
    unfold truncate Moment.signal
    rw [hpid]
    simp only [if_true, Capture.kill, show m.kill (groupOf pid) .sigterm = .error e from hkill, Except.mapError]
  cases call with
  | pushBytes m slice =>
    simp only [attempt] at h
    split at h
    · rename_i hover
      obtain ⟨hover, hterm⟩ := Bool.and_eq_true_iff.mp hover
      obtain ⟨limit, heq⟩ := pushBytes_overflows hover
      change cap.pushBytes m slice = _
      rw [heq, hterm]
      exact htruncate h hkill
    · cases h
  | nextWakeup m streams =>
    simp only [attempt] at h
    unfold Call.step nextWakeup sigkill
    rcases hdue : cap.sigkillDue m with _ | pid
    · rw [hdue] at h
      dsimp only at h ⊢
      split at h
      · rename_i hlate
        obtain ⟨htime, hsent⟩ := Bool.and_eq_true_iff.mp hlate
        rw [htime, hsent]
        simp only [Bool.not_true, Bool.false_eq_true, if_false, if_true]
        rw [htruncate h hkill, hdue]
        rfl
      · cases h
    · rw [hdue] at h
      obtain rfl := Option.some.inj h
      simp only [hdue, Capture.kill, show m.kill (groupOf pid) .sigkill = .error e from hkill, Except.mapError, Except.map]

end Capture

/-! ### What some calls send -/

/-- The signals of some calls, one after the other. -/
def signalsOf (cap : Capture) : List Call → List Sent
  | [] => []
  | call :: calls => (cap.attempt call).toList ++ signalsOf (call.step cap).1 calls

/-- A SIGTERM ends the output. -/
def Silenced (cap : Capture) : Prop := cap.sigtermSent.isSome = true → cap.truncated = true

/-- The signal is a SIGKILL for the target, and comes more than the delay after the instant. -/
def KillsAfter (target : ℤ) (σ : Instant) (sent : Sent) : Prop :=
  sent.target = target ∧ sent.signal = .sigkill ∧ σ + fromSecs sigkillDelay < sent.time

/-- Nothing was sent, or a SIGTERM and after it nothing but SIGKILLs. -/
def Disciplined (target : ℤ) (sent : List Sent) : Prop :=
  sent = [] ∨ ∃ σ kills, sent = ⟨target, .sigterm, σ⟩ :: kills ∧ ∀ k ∈ kills, KillsAfter target σ k

section
variable {cap : Capture} {call : Call} {calls : List Call} {pid : ℕ} {σ : Instant}

/-- A SIGTERM that could be sent is recorded, and ends the output. -/
lemma truncate_sigterm {m : Moment} {reason : String} (h : (cap.truncate m reason true).2 = .ok ()) :
    (cap.truncate m reason true).1.sigtermSent = some m.sentClock ∧
      Silenced (cap.truncate m reason true).1 := by
  rcases Capture.truncate_cases m reason true cap with ⟨_, e, -, heq⟩ | heq
  · rw [heq] at h
    cases h
  · rw [heq]
    exact ⟨rfl, fun _ => rfl⟩

/-- Before there was a SIGTERM, a call sends nothing, or a SIGTERM. -/
lemma call_sigterm (halive : call.moment.pid = some pid) (hnone : cap.sigtermSent = none)
    (hs : Silenced cap) :
    (cap.attempt call = none ∧ (call.step cap).1.sigtermSent = none ∧ Silenced (call.step cap).1) ∨
      ∃ σ, cap.attempt call = some ⟨groupOf pid, .sigterm, σ⟩ ∧ ((call.step cap).2 = .ok () →
        (call.step cap).1.sigtermSent = some σ ∧ Silenced (call.step cap).1) := by
  have hquiet {cap' : Capture} (h : cap'.sigtermSent = none) : Silenced cap' :=
    fun hsome => by rw [h] at hsome; cases hsome
  cases call with
  | pushBytes m slice =>
    have hpid : m.pid = some pid := halive
    cases hover : cap.overflows slice with
    | false =>
      obtain ⟨output, r, heq⟩ := Capture.pushBytes_fits hover
      have hstep : ((Call.pushBytes m slice).step cap).1 = { cap with output := output } :=
        congrArg Prod.fst (heq m)
      rw [hstep]
      exact .inl ⟨by simp [Capture.attempt, hover], hnone, hquiet hnone⟩
    | true =>
      obtain ⟨limit, heq⟩ := Capture.pushBytes_overflows hover
      have hstep : (Call.pushBytes m slice).step cap =
          cap.truncate m (sizeMessage limit) cap.killAtSizeLimit := heq m
      rw [hstep]
      cases hterm : cap.killAtSizeLimit with
      | false =>
        refine .inl ⟨by simp [Capture.attempt, hterm], ?_, hquiet ?_⟩ <;>
          simpa [Capture.truncate] using hnone
      | true =>
        refine .inr ⟨m.sentClock, by simp [Capture.attempt, hover, hterm, hpid], fun hok => ?_⟩
        exact truncate_sigterm hok
  | nextWakeup m streams =>
    have hpid : m.pid = some pid := halive
    have hdue : cap.sigkillDue m = none := by simp [Capture.sigkillDue, hnone]
    have hstep : (Call.nextWakeup m streams).step cap = if cap.timedOut m then
        ((cap.truncate m (timeoutMessage cap.timeout) true).1,
          (cap.truncate m (timeoutMessage cap.timeout) true).2) else (cap, .ok ()) := by
      simp only [Call.step, Capture.nextWakeup, Capture.sigkill, hdue, hnone]
      cases cap.timedOut m with
      | false => rfl
      | true =>
        rcases cap.truncate m (timeoutMessage cap.timeout) true with ⟨cap', e | u⟩ <;> rfl
    rw [hstep]
    cases htime : cap.timedOut m with
    | false => exact .inl ⟨by simp [Capture.attempt, hdue, htime], hnone, hs⟩
    | true =>
      refine .inr ⟨m.sentClock, by simp [Capture.attempt, hdue, htime, hnone, hpid], fun hok => ?_⟩
      exact truncate_sigterm hok

/-- After a SIGTERM, a call sends nothing, or a SIGKILL that is due; the capture stays as it is. -/
lemma call_sigkill (halive : call.moment.pid = some pid) (hsent : cap.sigtermSent = some σ)
    (hs : Silenced cap) : (call.step cap).1 = cap ∧
      ∀ sent, cap.attempt call = some sent → KillsAfter (groupOf pid) σ sent := by
  have htruncated : cap.truncated = true := hs (by rw [hsent]; rfl)
  cases call with
  | pushBytes m slice =>
    refine ⟨?_, fun sent hattempt => ?_⟩
    · simp only [Call.step, Capture.pushBytes, htruncated, if_true]
    · simp [Capture.attempt, Capture.overflows, htruncated] at hattempt
  | nextWakeup m streams =>
    have hpid : m.pid = some pid := halive
    refine ⟨?_, fun sent hattempt => ?_⟩
    · simp only [Call.step, Capture.nextWakeup, hsent]
      rcases cap.sigkill m streams with e | streams'
      · rfl
      · cases cap.timedOut m <;> rfl
    · have hdue : cap.sigkillDue m = if fromSecs sigkillDelay < elapsed m.killClock σ
          then some pid else none := by
        simp only [Capture.sigkillDue, hsent, hpid, Option.bind_eq_bind, Option.bind_some]
        split <;> rename_i hlate <;> simp [hlate]
      simp only [Capture.attempt, hdue, hsent] at hattempt
      split at hattempt
      · rename_i pid' hsome
        obtain rfl := Option.some.inj hattempt
        split at hsome
        · rename_i hlate
          obtain rfl := Option.some.inj hsome
          exact ⟨rfl, rfl, (Nat.add_comm _ _).trans_lt (Nat.add_lt_of_lt_sub hlate)⟩
        · cases hsome
      · simp at hattempt

lemma Succeeds.head (h : Succeeds cap (call :: calls)) : (call.step cap).2 = .ok () :=
  h [] call (by simp)

lemma Succeeds.tail (h : Succeeds cap (call :: calls)) : Succeeds (call.step cap).1 calls := by
  intro done c hpre
  exact h (call :: done) c (by simpa using hpre)

/-- **Signals come in order**, as long as no call but the last one fails. -/
lemma disciplined (halive : ∀ c ∈ calls, c.moment.pid = some pid) (hs : Silenced cap)
    (hok : Succeeds cap calls.dropLast) :
    (cap.sigtermSent = none → Disciplined (groupOf pid) (signalsOf cap calls)) ∧
      ∀ σ, cap.sigtermSent = some σ → ∀ k ∈ signalsOf cap calls, KillsAfter (groupOf pid) σ k := by
  induction calls generalizing cap with
  | nil => exact ⟨fun _ => .inl rfl, fun σ _ k hk => by cases hk⟩
  | cons call calls ih =>
    have hcall := halive call List.mem_cons_self
    have hrest : ∀ c ∈ calls, c.moment.pid = some pid := fun c hc =>
      halive c (List.mem_cons_of_mem _ hc)
    constructor
    · intro hnone
      have hstep : calls = [] ∨ (call.step cap).2 = .ok () ∧
          Succeeds (call.step cap).1 calls.dropLast := by
        rcases calls with _ | ⟨c, cs⟩
        · exact .inl rfl
        · rw [List.dropLast_cons_cons] at hok
          exact .inr ⟨hok.head, hok.tail⟩
      rcases call_sigterm hcall hnone hs with ⟨hquiet, hnone', hs'⟩ | ⟨σ, hsent, hafter⟩
      · rw [signalsOf, hquiet]
        rcases hstep with rfl | ⟨-, hok'⟩
        · exact .inl rfl
        · exact (ih hrest hs' hok').1 hnone'
      · rw [signalsOf, hsent]
        rcases hstep with rfl | ⟨hthis, hok'⟩
        · exact .inr ⟨σ, [], rfl, by simp⟩
        · obtain ⟨hσ, hs'⟩ := hafter hthis
          exact .inr ⟨σ, _, rfl, (ih hrest hs' hok').2 σ hσ⟩
    · intro σ hσ k hk
      obtain ⟨hsame, hkill⟩ := call_sigkill hcall hσ hs
      rw [signalsOf, hsame, List.mem_append] at hk
      rcases hk with hk | hk
      · exact hkill k (Option.mem_toList.mp hk)
      · have hok' : Succeeds cap calls.dropLast := by
          rcases calls with _ | ⟨c, cs⟩
          · exact fun done c hpre => by simp at hpre
          · rw [List.dropLast_cons_cons] at hok
            exact hsame ▸ hok.tail
        exact (ih hrest hs hok').2 σ hσ k hk

end

/-! ### What a run sends -/

/-- The child is not waited for before a turn is over. -/
def Turn.Alive (pid : ℕ) (t : Turn) : Prop :=
  t.moment.pid = some pid ∧ ∀ s bytes m written, t.found = .read s bytes m written → m.pid = some pid

namespace Running

variable {passthrough : Bool} {t : Turn} {ts : List Turn} {p q : Running} {pid : ℕ}

lemma alive_callsOf (h : t.Alive pid) : ∀ c ∈ callsOf t p, c.moment.pid = some pid := by
  intro c hc
  unfold callsOf at hc
  rcases List.mem_cons.mp hc with rfl | hc
  · exact h.1
  · split at hc
    · rename_i hfound
      split at hc
      · rw [List.mem_singleton.mp hc]
        exact h.2 _ _ _ _ hfound
      · cases hc
    · cases hc

lemma alive_calls (h : ∀ t ∈ ts, t.Alive pid) : ∀ c ∈ calls passthrough ts p, c.moment.pid = some pid := by
  have hall := run_inv passthrough callsOf ts p []
    (I := fun cs _ => ∀ c ∈ cs, c.moment.pid = some pid) (fun t ht cs q hcs c hc => ?_) (by simp)
  · simpa [calls] using hall
  · rcases List.mem_append.mp hc with hc | hc
    · exact hcs c hc
    · exact alive_callsOf (h t ht) c hc

lemma wake_ok (h : woken t p = some q) :
    ((Call.nextWakeup t.moment p.streams).step p.cap).2 = .ok () := by
  obtain ⟨remaining, hnext, -⟩ := woken_some h
  simp only [Call.step, hnext]
  rfl

lemma succeeds_singleton {cap : Capture} {call : Call} (h : (call.step cap).2 = .ok ()) :
    Succeeds cap [call] := by
  intro done c hpre
  obtain ⟨rfl, hc⟩ : done = [] ∧ c = call := by
    rcases done with _ | ⟨d, ds⟩
    · exact ⟨rfl, by simpa using hpre⟩
    · have := hpre.length_le
      simp at this
  rw [hc]
  exact h

lemma succeeds_cons {cap : Capture} {call : Call} {cs : List Call} (h : (call.step cap).2 = .ok ())
    (hcs : Succeeds (call.step cap).1 cs) : Succeeds cap (call :: cs) := by
  intro done c hpre
  rcases done with _ | ⟨d, ds⟩
  · obtain ⟨rfl, -⟩ := List.cons_prefix_cons.mp hpre
    exact h
  · obtain ⟨rfl, hds⟩ := List.cons_prefix_cons.mp hpre
    exact hcs ds c hds

lemma succeeds_append {cap : Capture} {cs ds : List Call} (h : Succeeds cap cs)
    (h' : Succeeds (after cap cs) ds) : Succeeds cap (cs ++ ds) := by
  induction cs generalizing cap with
  | nil => exact h'
  | cons c cs ih => exact succeeds_cons h.head (ih h.tail h')

/-- No call of a run fails but the last one. -/
lemma succeeds_calls (ts : List Turn) (p : Running) :
    Succeeds p.cap (calls passthrough ts p).dropLast := by
  have hnil (cap : Capture) : Succeeds cap [] := fun done c hpre => by simp at hpre
  induction ts generalizing p with
  | nil => exact hnil p.cap
  | cons t ts ih =>
    have heffect := turn_effect passthrough t p
    have hcap := cap_run passthrough [t] p
    by_cases hrunning : (turn passthrough t p).2 = .ok none
    · rw [calls, collect_cons ts hrunning]
      rw [calls, collect_cons [] hrunning, run_cons [] hrunning] at hcap
      simp only [collect, run, List.append_nil] at hcap
      have hthis : Succeeds p.cap (callsOf t p) := by
        generalize turn passthrough t p = out, readOf t p = rs, callsOf t p = cs at heffect hrunning
        cases heffect with
        | unwoken => cases hrunning
        | quiet hwoken | atEnd hwoken => exact succeeds_singleton (wake_ok hwoken)
        | pushed hwoken hreading hne hstill hok =>
          obtain ⟨remaining, hnext, -⟩ := woken_some hwoken
          refine succeeds_cons (wake_ok hwoken) (succeeds_singleton ?_)
          simp only [Call.step, hnext]
          exact hok hrunning
      have hrest := ih (turn passthrough t p).1
      rw [hcap] at hrest
      rcases hempty : collect passthrough callsOf ts (turn passthrough t p).1 with _ | ⟨c, cs⟩
      · rw [List.append_nil]
        intro done c hpre
        exact hthis done c (hpre.trans (List.dropLast_prefix _))
      · rw [List.dropLast_append_of_ne_nil (by simp)]
        rw [calls, hempty] at hrest
        exact succeeds_append hthis hrest
    · rw [calls, collect_ended ts hrunning]
      generalize turn passthrough t p = out, readOf t p = rs, callsOf t p = cs at heffect
      cases heffect with
      | unwoken | quiet | atEnd => exact hnil p.cap
      | pushed hwoken => exact succeeds_singleton (wake_ok hwoken)

end Running

/-- Pids fit an `i32`, so that negating one does not overflow. -/
lemma groupOf_eq {pid : ℕ} (h : pid < 2 ^ 31) : groupOf pid = -(pid : ℤ) := by
  rw [groupOf, (wrap_eq_iff 31 _).mpr ⟨by omega, by exact_mod_cast h⟩]

/-- **The signals of a run**: none, or one SIGTERM to the process group of the child, and after it
nothing but SIGKILLs to that group, each more than ten seconds later. -/
theorem signals_disciplined (passthrough : Bool) (log : Bytes) (opts : Options) (start : Instant)
    (pid : ℕ) (ts : List Turn) (hpid : pid < 2 ^ 31) (halive : ∀ t ∈ ts, t.Alive pid) :
    Disciplined (-(pid : ℤ)) (signalsOf (spawned log opts start).cap
      (Running.calls passthrough ts (spawned log opts start))) :=
  groupOf_eq hpid ▸ (disciplined (Running.alive_calls halive) (by intro h; cases h)
    (Running.succeeds_calls ts _)).1 rfl

/-- A script that is out of time, and is killed twice. -/
def killedTwice : List Turn :=
  [⟨⟨some 7, fun _ _ => .ok (), 0, fromSecs 6, fromSecs 6⟩, .slept, .slept⟩,
    ⟨⟨some 7, fun _ _ => .ok (), fromSecs 17, fromSecs 17, fromSecs 17⟩, .slept, .slept⟩,
    ⟨⟨some 7, fun _ _ => .ok (), fromSecs 27, fromSecs 27, fromSecs 27⟩, .slept, .exited (.ok false)⟩]

theorem signals_disciplined_killedTwice :
    signalsOf (spawned [] ⟨fromSecs 5, none, false⟩ 0).cap
      (Running.calls false killedTwice (spawned [] ⟨fromSecs 5, none, false⟩ 0)) =
        [⟨-7, .sigterm, fromSecs 6⟩, ⟨-7, .sigkill, fromSecs 17⟩, ⟨-7, .sigkill, fromSecs 27⟩] ∧
    Disciplined (-(7 : ℕ)) (signalsOf (spawned [] ⟨fromSecs 5, none, false⟩ 0).cap
      (Running.calls false killedTwice (spawned [] ⟨fromSecs 5, none, false⟩ 0))) := by
  refine ⟨by decide, signals_disciplined false [] ⟨fromSecs 5, none, false⟩ 0 7 killedTwice (by decide) ?_⟩
  intro t ht
  simp only [killedTwice, List.mem_cons, List.not_mem_nil, or_false] at ht
  rcases ht with rfl | rfl | rfl <;> exact ⟨rfl, nofun⟩

end Rebuilderd.Worker.Proc
