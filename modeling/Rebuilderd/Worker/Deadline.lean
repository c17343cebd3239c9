import Rebuilderd.Worker.Signals

/-!
When a run stops reading, and when it sends SIGKILL, if its turns come in time.

A script that runs out of time gets a SIGTERM, and ten seconds later a SIGKILL, after which its streams
are not read any more. Both depend on the turns only, and not on what the script does.
-/

namespace Rebuilderd.Worker.Proc

open Rebuilderd.Common

namespace Running

/-- The turns come in time: one that sleeps for some time is over by then, and the next one starts at
most `δ` later. Nothing else takes longer than `δ`. -/
def Timely (passthrough : Bool) (δ : Duration) : Instant → List Turn → Running → Prop
  | _, [], _ => True
  | due, t :: ts, p =>
    (t.moment.killClock ≤ due ∧ t.moment.killClock ≤ t.moment.timeoutClock ∧
      t.moment.timeoutClock ≤ t.moment.killClock + δ ∧ t.moment.sentClock ≤ t.moment.killClock + δ) ∧
    ∀ streams remaining, (p.cap.nextWakeup t.moment p.streams).2 = .ok (streams, remaining) →
      (∀ s bytes m written, t.found = .read s bytes m written →
        m.sentClock ≤ t.moment.timeoutClock + remaining + δ) ∧
      ((turn passthrough t p).2 = .ok none →
        Timely passthrough δ (t.moment.timeoutClock + remaining + δ) ts (turn passthrough t p).1)

/-- The last instant at which a run reads from its child. -/
def lastRead (opts : Options) (start : Instant) (δ : Duration) : Instant :=
  start + opts.timeout + fromSecs sigkillDelay + 2 * δ

variable {passthrough : Bool} {δ : Duration} {t : Turn} {ts pre : List Turn} {p q : Running} {pid : ℕ}
  {opts : Options} {start due : Instant} {remaining : Duration}

/-- The child that is left running: a SIGTERM was sent soon after the time was over, or the next turn
comes soon after that. -/
structure Pending (opts : Options) (start : Instant) (δ : Duration) (pre : List Turn) (due : Instant)
    (p : Running) : Prop where
  start_eq : p.cap.start = start
  timeout_eq : p.cap.timeout = opts.timeout
  silenced : Silenced p.cap
  untold : p.cap.sigtermSent = none → due ≤ start + opts.timeout + δ
  told : ∀ σ, p.cap.sigtermSent = some σ → σ ≤ start + opts.timeout + 2 * δ
  next : (∀ t ∈ pre, t.moment.killClock ≤ lastRead opts start δ) →
    due ≤ lastRead opts start δ + fromSecs sigkillDelay + 2 * δ

lemma pending_spawned (log : Bytes) (opts : Options) (start : Instant) (δ : Duration) :
    Pending opts start δ [] (start + δ) (spawned log opts start) := by
  refine ⟨rfl, rfl, nofun, fun _ => ?_, nofun, fun _ => ?_⟩
  · exact Nat.add_le_add_right (Nat.le_add_right _ _) δ
  · unfold lastRead
    dsimp only [Instant, Duration] at *
    omega

/-- A wake-up before the time is over changes nothing; a later one sends a SIGTERM, if there was none. -/
inductive Wakes (t : Turn) (p : Running) (cap : Capture) (remaining : Duration) : Prop
  | early (hcap : cap = p.cap) (hin : p.cap.timedOut t.moment = false)
      (hremaining : remaining = p.cap.timeout - elapsed t.moment.timeoutClock p.cap.start)
  | sigterm (hlate : p.cap.timedOut t.moment = true) (hnone : p.cap.sigtermSent = none)
      (hcap : cap = p.cap.noticed t.moment (timeoutMessage p.cap.timeout) true)
      (hremaining : remaining = fromSecs sigkillDelay)
  | late (hlate : p.cap.timedOut t.moment = true) (hsome : p.cap.sigtermSent ≠ none)
      (hcap : cap = p.cap) (hremaining : remaining = fromSecs sigkillDelay)

lemma wakes {cap : Capture} {streams : Streams}
    (h : p.cap.nextWakeup t.moment p.streams = (cap, .ok (streams, remaining))) :
    Wakes t p cap remaining := by
  unfold Capture.nextWakeup at h
  rcases hkill : p.cap.sigkill t.moment p.streams with e | streams <;> rw [hkill] at h
  · cases h
  · dsimp only at h
    cases hlate : p.cap.timedOut t.moment with
    | false =>
      rw [hlate] at h
      cases h
      exact .early rfl hlate rfl
    | true =>
      rw [hlate] at h
      simp only [Bool.not_true, Bool.false_eq_true, if_false] at h
      cases hsent : p.cap.sigtermSent with
      | none =>
        rw [hsent] at h
        simp only [Option.isNone_none, if_true] at h
        rcases Capture.truncate_cases t.moment (timeoutMessage p.cap.timeout) true p.cap with
          ⟨_, e, -, hcut⟩ | hcut <;> rw [hcut] at h <;> cases h
        exact .sigterm hlate hsent rfl rfl
      | some σ =>
        rw [hsent] at h
        cases h
        exact .late hlate (by rw [hsent]; simp) rfl rfl

/-- What a wake-up leaves pending: it comes in time, and so does the next one. -/
lemma Pending.wake (h : Pending opts start δ pre due p) (htimely : Timely passthrough δ due (t :: ts) p)
    (hnext : p.cap.nextWakeup t.moment p.streams = (q.cap, .ok (q.streams, remaining))) :
    Pending opts start δ (pre ++ [t]) (t.moment.timeoutClock + remaining + δ) q := by
  obtain ⟨⟨hdue, horder, htimeout, hsent⟩, -⟩ := htimely
  have hstart := h.start_eq
  have htime := h.timeout_eq
  cases wakes hnext with
  | early hcap hin hremaining =>
    have hover : t.moment.timeoutClock + remaining ≤ start + opts.timeout := by
      rw [hremaining, hstart, htime]
      have hle := of_decide_eq_false hin
      unfold elapsed at hle ⊢
      rw [hstart, htime] at hle
      dsimp only [Instant, Duration] at *
      omega
    refine ⟨hcap ▸ hstart, hcap ▸ htime, hcap ▸ h.silenced, fun _ => ?_, hcap ▸ h.told, fun _ => ?_⟩
    · exact Nat.add_le_add_right hover δ
    · unfold lastRead
      dsimp only [Instant, Duration] at *
      omega
  | sigterm hlate hnone hcap hremaining =>
    have huntold := h.untold hnone
    refine ⟨hcap ▸ hstart, hcap ▸ htime, hcap ▸ fun _ => rfl, fun hnot => ?_, fun σ hσ => ?_,
      fun hpre => ?_⟩
    · rw [hcap] at hnot
      cases hnot
    · rw [hcap] at hσ
      obtain rfl := Option.some.inj hσ
      dsimp only [Instant, Duration] at *
      omega
    · have hlast := hpre t (by simp)
      dsimp only [Instant, Duration] at *
      omega
  | late hlate hsome hcap hremaining =>
    refine ⟨hcap ▸ hstart, hcap ▸ htime, hcap ▸ h.silenced, fun hnone => ?_, hcap ▸ h.told,
      fun hpre => ?_⟩
    · rw [hcap] at hnone
      exact absurd hnone hsome
    · have hlast := hpre t (by simp)
      dsimp only [Instant, Duration] at *
      omega

/-- A push keeps the start and the timeout. -/
lemma push_same (m : Moment) (slice : Bytes) (cap : Capture) :
    (cap.pushBytes m slice).1.start = cap.start ∧ (cap.pushBytes m slice).1.timeout = cap.timeout := by
  cases hover : cap.overflows slice with
  | false =>
    obtain ⟨output, r, heq⟩ := Capture.pushBytes_fits hover
    rw [heq]
    exact ⟨rfl, rfl⟩
  | true =>
    obtain ⟨limit, heq⟩ := Capture.pushBytes_overflows hover
    rw [heq]
    rcases Capture.truncate_cases m (sizeMessage limit) cap.killAtSizeLimit cap with
      ⟨_, e, -, hcut⟩ | hcut <;> rw [hcut] <;> exact ⟨rfl, rfl⟩

/-- A push that sends a SIGTERM does so before the next turn. -/
lemma Pending.push (h : Pending opts start δ pre due p) {m : Moment} {slice : Bytes}
    (hpid : m.pid = some pid) (hsent : m.sentClock ≤ due) (hok : (p.cap.pushBytes m slice).2 = .ok ())
    (passed : List (Stream × Bytes)) :
    Pending opts start δ pre due { p with cap := (p.cap.pushBytes m slice).1, passed := passed } := by
  obtain ⟨hstart, htimeout⟩ := push_same m slice p.cap
  cases hbefore : p.cap.sigtermSent with
  | none =>
    rcases call_sigterm (show (Call.pushBytes m slice).moment.pid = some pid from hpid) hbefore
        h.silenced with ⟨-, hnone, hquiet⟩ | ⟨σ, hattempt, hafter⟩
    · refine ⟨hstart.trans h.start_eq, htimeout.trans h.timeout_eq, hquiet, fun _ => h.untold hbefore,
        fun σ hσ => ?_, h.next⟩
      rw [show (p.cap.pushBytes m slice).1.sigtermSent = none from hnone] at hσ
      cases hσ
    · obtain ⟨hσ, hquiet⟩ := hafter hok
      refine ⟨hstart.trans h.start_eq, htimeout.trans h.timeout_eq, hquiet, fun hnone => ?_,
        fun σ' hσ' => ?_, h.next⟩
      · rw [show (p.cap.pushBytes m slice).1.sigtermSent = some σ from hσ] at hnone
        cases hnone
      · obtain rfl : σ = σ' := Option.some.inj (hσ.symm.trans hσ')
        have hclock : σ = m.sentClock := by
          simp only [Capture.attempt] at hattempt
          split at hattempt
          · rw [hpid] at hattempt
            exact (congrArg Sent.time (Option.some.inj hattempt)).symm
          · cases hattempt
        have huntold := h.untold hbefore
        rw [hclock]
        dsimp only [Instant, Duration] at *
        omega
  | some σ =>
    have hsame : (p.cap.pushBytes m slice).1 = p.cap :=
      (call_sigkill (show (Call.pushBytes m slice).moment.pid = some pid from hpid) hbefore
        h.silenced).1
    rw [hsame]
    exact ⟨h.start_eq, h.timeout_eq, h.silenced, h.untold, h.told, h.next⟩

/-- **What a turn leaves pending** comes in time, if the turn did. -/
lemma Pending.turn (h : Pending opts start δ pre due p) (halive : t.Alive pid)
    (htimely : Timely passthrough δ due (t :: ts) p)
    (hrunning : (Running.turn passthrough t p).2 = .ok none) :
    ∃ due', Pending opts start δ (pre ++ [t]) due' (Running.turn passthrough t p).1 ∧
      Timely passthrough δ due' ts (Running.turn passthrough t p).1 := by
  have hlater := htimely.2
  have hfound : ∀ s bytes m, (s, bytes) ∈ readOf t p → Call.pushBytes m bytes ∈ callsOf t p →
      ∃ written, t.found = .read s (.ok bytes) m written := by
    intro s bytes m hread hcall
    unfold readOf at hread
    unfold callsOf at hcall
    rcases hw : woken t p with _ | q
    · rw [hw] at hread
      cases hread
    · rw [hw] at hread hcall
      rcases hf : t.found with ⟨s', e | bytes', m', written⟩ | _ <;> rw [hf] at hread hcall
      · cases hread
      · dsimp only at hread hcall
        split at hread
        · obtain ⟨rfl, rfl⟩ := Prod.mk.inj (List.mem_singleton.mp hread)
          rcases List.mem_cons.mp hcall with hcall | hcall
          · cases hcall
          · split at hcall
            · cases List.mem_singleton.mp hcall
              exact ⟨written, rfl⟩
            · cases hcall
        · cases hread
      · cases hread
  have heffect := turn_effect passthrough t p
  revert hlater
  generalize Running.turn passthrough t p = out, readOf t p = rs, callsOf t p = cs at heffect hrunning hfound ⊢
  intro hlater
  cases heffect with
  | unwoken => cases hrunning
  | quiet hwoken =>
    obtain ⟨remaining, hnext, -⟩ := woken_some hwoken
    exact ⟨_, h.wake htimely hnext, (hlater _ remaining (by rw [hnext])).2 hrunning⟩
  | atEnd hwoken =>
    obtain ⟨remaining, hnext, -⟩ := woken_some hwoken
    have hwake := h.wake htimely hnext
    exact ⟨_, ⟨hwake.start_eq, hwake.timeout_eq, hwake.silenced, hwake.untold, hwake.told, hwake.next⟩,
      (hlater _ remaining (by rw [hnext])).2 hrunning⟩
  | @pushed q s bytes m passed r hwoken hreading hne hstill hok =>
    obtain ⟨remaining, hnext, -⟩ := woken_some hwoken
    obtain ⟨written, hread⟩ := hfound s bytes m (by simp) (by simp)
    obtain ⟨hclock, hrest⟩ := hlater _ remaining (by rw [hnext])
    exact ⟨_, (h.wake htimely hnext).push (halive.2 _ _ _ _ hread) (hclock _ _ _ _ hread)
      (hok hrunning) passed, hrest hrunning⟩

lemma Pending.run {post : List Turn} {done : List Turn} (h : Pending opts start δ done due p)
    (halive : ∀ t ∈ pre, t.Alive pid) (htimely : Timely passthrough δ due (pre ++ post) p)
    (hrunning : (Running.run passthrough pre p).2 = .ok none) :
    ∃ due', Pending opts start δ (done ++ pre) due' (Running.run passthrough pre p).1 ∧
      Timely passthrough δ due' post (Running.run passthrough pre p).1 := by
  induction pre generalizing done due p with
  | nil => exact ⟨due, by simpa [Running.run] using h, htimely⟩
  | cons t pre ih =>
    have hturn : (Running.turn passthrough t p).2 = .ok none := by
      by_contra hended
      rw [run_ended pre hended] at hrunning
      exact hended hrunning
    rw [run_cons pre hturn] at hrunning ⊢
    obtain ⟨due', hnext, hlater⟩ := h.turn (halive t List.mem_cons_self) htimely hturn
    rw [← List.singleton_append, ← List.append_assoc]
    exact ih hnext (fun t' ht' => halive t' (List.mem_cons_of_mem _ ht')) hlater hrunning

lemma run_prefix {post : List Turn} (h : (Running.run passthrough (pre ++ post) p).2 = .ok none) :
    (Running.run passthrough pre p).2 = .ok none := by
  induction pre generalizing p with
  | nil => rfl
  | cons t pre ih =>
    by_cases hrunning : (Running.turn passthrough t p).2 = .ok none
    · rw [List.cons_append, run_cons _ hrunning] at h
      rw [run_cons _ hrunning]
      exact ih h
    · rw [List.cons_append, run_ended _ hrunning] at h
      exact absurd h hrunning

/-- Past the last read, a SIGKILL is due, and once it is sent nothing is read. -/
lemma Pending.late (h : Pending opts start δ pre due p) (halive : t.moment.pid = some pid)
    (htimely : Timely passthrough δ due (t :: ts) p)
    (hlate : lastRead opts start δ < t.moment.killClock) :
    p.cap.sigkillDue t.moment = some pid ∧ ∀ q, woken t p = some q → q.streams.reading = false := by
  have hdue := htimely.1.1
  have hlast : lastRead opts start δ = start + opts.timeout + fromSecs sigkillDelay + 2 * δ := rfl
  obtain ⟨σ, hσ⟩ : ∃ σ, p.cap.sigtermSent = some σ := by
    rw [← Option.ne_none_iff_exists']
    intro hnone
    have huntold := h.untold hnone
    dsimp only [Instant, Duration] at *
    omega
  have htold := h.told σ hσ
  have helapsed : fromSecs sigkillDelay < elapsed t.moment.killClock σ := by
    unfold elapsed
    dsimp only [Instant, Duration] at *
    omega
  have hkill : p.cap.sigkillDue t.moment = some pid := by
    simp [Capture.sigkillDue, hσ, halive, helapsed]
  refine ⟨hkill, fun q hwoken => ?_⟩
  obtain ⟨remaining, hnext, -⟩ := woken_some hwoken
  unfold Capture.nextWakeup Capture.sigkill at hnext
  rw [hkill] at hnext
  dsimp only at hnext
  rcases hsignal : Capture.kill t.moment pid .sigkill with e | u <;> rw [hsignal] at hnext
  · cases (Prod.mk.inj hnext).2
  · have hstreams : q.streams = ⟨false, false⟩ := by
      simp only [Except.map] at hnext
      split at hnext
      · exact (congrArg Prod.fst (Except.ok.inj (Prod.mk.inj hnext).2)).symm
      · split at hnext
        · rcases hcut : (Capture.truncate t.moment (timeoutMessage p.cap.timeout) true p.cap).2 with
            e | u <;> rw [hcut] at hnext
          · cases (Prod.mk.inj hnext).2
          · exact (congrArg Prod.fst (Except.ok.inj (Prod.mk.inj hnext).2)).symm
        · exact (congrArg Prod.fst (Except.ok.inj (Prod.mk.inj hnext).2)).symm
    rw [hstreams]
    rfl

end Running

/-- **A script cannot keep its worker**: if the turns of a run come in time, then those that are later
than ten seconds after the timeout send a SIGKILL and read nothing, and the first of them comes within
ten more seconds. -/
theorem stopped_in_time (passthrough : Bool) (log : Bytes) (opts : Options) (start : Instant)
    (δ : Duration) (pid : ℕ) (pre post : List Turn) (t : Turn)
    (halive : ∀ t' ∈ pre ++ [t], t'.Alive pid)
    (htimely : Running.Timely passthrough δ (start + δ) (pre ++ t :: post) (spawned log opts start))
    (hrunning : (Running.run passthrough pre (spawned log opts start)).2 = .ok none)
    (hlate : Running.lastRead opts start δ < t.moment.killClock) :
    let p := (Running.run passthrough pre (spawned log opts start)).1
    (p.cap.sigkillDue t.moment = some pid ∧
      ∀ q, Running.woken t p = some q → q.streams.reading = false) ∧
    ∃ t' ∈ pre ++ [t], Running.lastRead opts start δ < t'.moment.killClock ∧
      t'.moment.killClock ≤ Running.lastRead opts start δ + fromSecs sigkillDelay + 2 * δ := by
  have hstart := Running.pending_spawned log opts start δ
  have halive' : ∀ t' ∈ pre, t'.Alive pid := fun t' ht' => halive t' (List.mem_append_left _ ht')
  obtain ⟨due, hpending, hrest⟩ := hstart.run halive' htimely hrunning
  refine ⟨hpending.late (halive t (by simp)).1 hrest hlate, ?_⟩
  -- The first turn that is late comes in time, since the one before it is not late.
  rcases hfirst : pre.find? fun t' => Running.lastRead opts start δ < t'.moment.killClock with _ | u
  · refine ⟨t, by simp, hlate, hrest.1.1.trans (hpending.next fun t' ht' => ?_)⟩
    simpa using List.find?_eq_none.mp hfirst t' ht'
  · obtain ⟨hu, before, between, rfl, hbefore⟩ := List.find?_eq_some_iff_append.mp hfirst
    rw [List.append_assoc, List.cons_append] at htimely
    obtain ⟨due', hpending', hrest'⟩ := hstart.run
      (fun t' ht' => halive' t' (List.mem_append_left _ ht')) htimely (Running.run_prefix hrunning)
    refine ⟨u, by simp, of_decide_eq_true hu, hrest'.1.1.trans (hpending'.next fun t' ht' => ?_)⟩
    simpa using hbefore t' ht'

/-- A script that writes nothing, ignores SIGTERM and never ends. -/
def stubborn : List Turn :=
  [⟨⟨some 7, fun _ _ => .ok (), 0, 0, 0⟩, .slept, .slept⟩,
    ⟨⟨some 7, fun _ _ => .ok (), fromSecs 5 + 1, fromSecs 5 + 1, fromSecs 5 + 1⟩, .slept, .slept⟩,
    ⟨⟨some 7, fun _ _ => .ok (), fromSecs 15 + 2, fromSecs 15 + 2, fromSecs 15 + 2⟩, .slept, .slept⟩,
    ⟨⟨some 7, fun _ _ => .ok (), fromSecs 25 + 3, fromSecs 25 + 3, fromSecs 25 + 3⟩, .slept, .slept⟩]

theorem stopped_in_time_stubborn :
    let opts : Options := ⟨fromSecs 5, none, false⟩
    let p := (Running.run false (stubborn.take 3) (spawned [] opts 0)).1
    (p.cap.sigkillDue (stubborn.getLast (by decide)).moment = some 7 ∧
      ∀ q, Running.woken (stubborn.getLast (by decide)) p = some q → q.streams.reading = false) ∧
    ∃ t' ∈ stubborn.take 3 ++ [stubborn.getLast (by decide)],
      Running.lastRead opts 0 1 < t'.moment.killClock ∧
        t'.moment.killClock ≤ Running.lastRead opts 0 1 + fromSecs sigkillDelay + 2 * 1 := by
  refine stopped_in_time false [] ⟨fromSecs 5, none, false⟩ 0 1 7 (stubborn.take 3) []
    (stubborn.getLast (by decide)) (fun t' ht' => ?_) ?_ (by decide) (by decide)
  · simp only [stubborn, List.take, List.getLast, List.cons_append, List.nil_append, List.mem_cons,
      List.not_mem_nil, or_false] at ht'
    rcases ht' with rfl | rfl | rfl | rfl <;> exact ⟨rfl, nofun⟩
  · refine ⟨by decide, fun streams remaining h => ?_⟩
    cases h
    refine ⟨nofun, fun _ => ⟨by decide, fun streams remaining h => ?_⟩⟩
    cases h
    refine ⟨nofun, fun _ => ⟨by decide, fun streams remaining h => ?_⟩⟩
    cases h
    refine ⟨nofun, fun _ => ⟨by decide, fun streams remaining h => ?_⟩⟩
    cases h
    exact ⟨nofun, fun _ => trivial⟩

end Rebuilderd.Worker.Proc
