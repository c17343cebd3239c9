import Rebuilderd.Daemon.Exclusive
import Rebuilderd.Worker.Heartbeat

/-!
A worker that rebuilds keeps its job: its heartbeat renews the lease in time, even if some pings in a
row are lost.

Worker and daemon are taken to read clocks that agree.
-/

namespace Rebuilderd.Daemon

open Rebuilderd.Lib Rebuilderd.Common Rebuilderd.Worker Prog

/-- A ping of the worker with this key renews its lease on the job `q`. -/
def renews (q : ℕ) (key : String) (e : Event) : Bool :=
  match e.toStep with
  | ⟨_, .pingQueued _ id _, .ok affected⟩ => id == q && decide (0 < affected) && e.call.worker == key
  | _ => false

/-- A ping is executed at most `stall` after its handler has read the clock. -/
def executedWithin (stall : Time) (e : Event) : Bool :=
  match e.stmt with
  | .pingQueued now _ _ => decide (e.input ≤ now + stall)
  | _ => true

/-- When the worker was heard last, after one more statement. -/
def heardAt (q : ℕ) (key : String) (last : Time) (e : Event) : Time :=
  if renews q key e then e.input else last

/-- When the worker was heard last. -/
def lastHeard (q : ℕ) (key : String) (last : Time) (tr : List Event) : Time :=
  tr.foldl (heardAt q key) last

/-- The daemon has accepted a ping of the job `q`, and all it executed for it lies between. -/
def Served (env : Env) (as : Schedule) (q : ℕ) (key : String) (sent replied : Time) : Prop :=
  ∃ i h, (runPool env as).answerOf i = some (.pingJob h q, .noContent) ∧ h.worker = key ∧
    ∀ e ∈ trace env as, e.thread = i → sent ≤ e.input ∧ e.input ≤ replied

/-! ### The lease -/

section
variable {env : Env} {q : ℕ} {key : String} {last renewed : Time} {e : Event} {tr mid post : List Event}

lemma lease_granted {g : Event} (h : grants q key g = true) (l : Option (String × Time)) :
    leaseStep q l g = some (key, g.input) := by
  obtain ⟨⟨t, s, a⟩, i, c, db⟩ := g
  cases s with
  | popJob w r =>
    rcases a with err | _ | job
    · cases h
    · cases h
    · obtain ⟨hid, hkey⟩ : job.job.id = q ∧ c.worker = key := by simpa [grants] using h
      change (if job.job.id = q then some (c.worker, t) else l) = _
      rw [if_pos hid, hkey]
  | _ => cases h

/-- What the queue has as the last ping is at most `stall` behind. -/
lemma heardAt_le {stall : Time} (h : last ≤ renewed + stall)
    (hprompt : renews q key e = true → executedWithin stall e = true) :
    heardAt q key last e ≤ renew lastExecuted q key renewed e + stall := by
  obtain ⟨⟨t, s, a⟩, i, c, db⟩ := e
  cases s with
  | pingQueued now id w =>
    rcases a with err | affected
    · exact h
    · change (if (id == q && decide (0 < affected) && c.worker == key) = true then t else last) ≤
        (if id = q ∧ 0 < affected ∧ c.worker = key then now else renewed) + stall
      by_cases hrenews : id = q ∧ 0 < affected ∧ c.worker = key
      · have hbool : (id == q && decide (0 < affected) && c.worker == key) = true := by
          simpa [and_assoc] using hrenews
        rw [if_pos hbool, if_pos hrenews]
        exact of_decide_eq_true (hprompt hbool)
      · rw [if_neg (by simpa [and_assoc] using hrenews), if_neg hrenews]
        exact h
  | _ => exact h

/-- A worker that was heard recently whenever a statement is executed keeps its lease fresh. -/
lemma keptFresh_of_heard {stall : Time} (h : last ≤ renewed + stall)
    (hprompt : ∀ e ∈ post, renews q key e = true → executedWithin stall e = true)
    (hheard : ∀ mid e rest, post = mid ++ e :: rest →
      e.input + stall ≤ lastHeard q key last mid + pingDeadline * second) :
    keptFresh lastExecuted q key renewed post = true := by
  induction post generalizing last renewed with
  | nil => rfl
  | cons e post ih =>
    have hnow : e.input ≤ renewed + pingDeadline * second := by
      have := hheard [] e post rfl
      simp only [lastHeard, List.foldl_nil] at this
      linarith
    have hlater := ih (heardAt_le h (hprompt e List.mem_cons_self))
      (fun e' he' => hprompt e' (List.mem_cons_of_mem _ he'))
      fun mid e' rest hsplit => hheard (e :: mid) e' rest (by rw [hsplit]; rfl)
    simp only [keptFresh, Bool.and_eq_true, decide_eq_true_eq]
    exact ⟨hnow, hlater⟩

lemma NonDecreasing.around (h : NonDecreasing (mid ++ e :: post)) :
    (∀ x ∈ mid, x.input ≤ e.input) ∧ (∀ x ∈ post, e.input ≤ x.input) ∧ NonDecreasing mid ∧
      NonDecreasing post := by
  simp only [NonDecreasing, List.map_append, List.map_cons, List.pairwise_append,
    List.pairwise_cons] at h
  obtain ⟨hmid, ⟨hpost, hsorted⟩, hcross⟩ := h
  refine ⟨fun x hx => ?_, fun x hx => hpost _ (List.mem_map_of_mem hx), hmid, hsorted⟩
  exact hcross _ (List.mem_map_of_mem hx) _ List.mem_cons_self

lemma NonDecreasing.of_append (h : NonDecreasing (mid ++ post)) : NonDecreasing mid := by
  rw [NonDecreasing, List.map_append] at h
  exact (List.pairwise_append.mp h).1

variable (q key) in
/-- No one is heard after the last time someone is. -/
lemma le_lastHeard (hclock : NonDecreasing mid) (hlast : ∀ e ∈ mid, last ≤ e.input) :
    last ≤ lastHeard q key last mid ∧
      ∀ p ∈ mid, renews q key p = true → p.input ≤ lastHeard q key last mid := by
  induction mid generalizing last with
  | nil => exact ⟨le_rfl, by simp⟩
  | cons e mid ih =>
    have hsorted := List.pairwise_cons.mp (show ((e :: mid).map (·.input)).Pairwise (· ≤ ·) from hclock)
    have hafter : ∀ e' ∈ mid, e.input ≤ e'.input := fun e' he' => hsorted.1 _ (List.mem_map_of_mem he')
    have hle : last ≤ e.input := hlast e List.mem_cons_self
    have hheard : last ≤ heardAt q key last e ∧ ∀ e' ∈ mid, heardAt q key last e ≤ e'.input := by
      unfold heardAt
      split
      · exact ⟨hle, hafter⟩
      · exact ⟨le_rfl, fun e' he' => hle.trans (hafter e' he')⟩
    obtain ⟨hfirst, hrest⟩ := ih hsorted.2 hheard.2
    refine ⟨hheard.1.trans hfirst, fun p hp hrenews => ?_⟩
    rcases List.mem_cons.mp hp with rfl | hp
    · rw [heardAt, if_pos hrenews] at hfirst
      rw [lastHeard, List.foldl_cons, heardAt, if_pos hrenews]
      exact hfirst
    · exact hrest p hp hrenews

end

/-! ### The pings that are accepted -/

section
variable {env : Env} {as : Schedule} {q : ℕ} {key : String} {sent replied : Time}

/-- A ping that is answered with success has renewed the lease. -/
lemma wp_pingJob_renews (cfg : Common.Config) (c : Call) :
    wp (.journal (justified c)) (handler cfg c)
      (fun own a => ∀ h id, c = .pingJob h id → a = .noContent →
        ∃ now w n, Did own (.pingQueued now id w) n ∧ 0 < n) (fun _ _ => True) [] := by
  cases c with
  | pingJob h id =>
    refine (wp_bind _ _).mpr ((wp_attempt _).mpr
      (wp_worker cfg (c := .pingJob h id) rfl (fun own w hw => ?_) fun _ _ _ _ _ h => by cases h))
    refine (wp_bind _ _).mpr (wp_sql (fun _ => trivial) (fun t now => ?_) fun _ _ => trivial)
    refine (wp_bind _ _).mpr (wp_sql (fun _ => ?_) (fun t' n => ?_) fun _ _ => trivial)
    · exact ⟨⟨h, rfl⟩, did_last _ _ _ _, w, hw.append _, rfl⟩
    · rintro h' id' hcall hanswer
      cases hcall
      refine ⟨now, w.id, n, did_last _ _ _ _, ?_⟩
      by_contra hzero
      rw [if_pos (Nat.lt_one_iff.mpr (Nat.eq_zero_of_not_pos hzero))] at hanswer
      cases hanswer
  | _ => exact wp_mono (handler_justified cfg _) (fun _ _ _ _ _ h => by cases h) fun _ _ => id

lemma Served.renewed (h : Served env as q key sent replied) :
    ∃ p ∈ trace env as, renews q key p = true ∧ sent ≤ p.input ∧ p.input ≤ replied := by
  obtain ⟨i, hd, hans, hkey, hbetween⟩ := h
  obtain ⟨hrenewed, hcalls⟩ := Pool.outcome (wp_pingJob_renews env.config) env.start as hans
  obtain ⟨now, w, n, hdid, hpos⟩ := hrenewed hd q rfl rfl
  obtain ⟨pre, p, post, htr, hthread, t, hstep⟩ := did_event hdid
  have hmem : p ∈ trace env as := by
    rw [trace, htr]
    simp
  have hcall := hcalls p hmem hthread
  refine ⟨p, hmem, ?_, hbetween p hmem hthread⟩
  have hworker : p.call.worker = key := by rw [hcall]; exact hkey
  simp [renews, hstep, hpos, hworker]

end

/-! ### The heartbeat -/

/-- The longest that a turn takes. -/
def period (d : Lateness) : Time := httpHeartBeat.interval + d.wake + d.reply

section
variable {env : Env} {as : Schedule} {q : ℕ} {key : String} {pre mid rest : List Event} {g e : Event}
  {d : Lateness} {k m : ℕ} {start c : Time} {turns : List Turn}

lemma period_nonneg (d : Lateness) : 0 ≤ period d := by
  have : 0 ≤ httpHeartBeat.interval := by decide
  unfold period
  linarith [Int.natCast_nonneg d.wake, Int.natCast_nonneg d.reply]

/-- While the loop goes on, the worker was heard recently. -/
lemma heard_recently (htr : trace env as = pre ++ g :: (mid ++ e :: rest))
    (hclock : NonDecreasing (trace env as)) (hc : c ≤ lastHeard q key g.input mid) (hm : m ≤ k)
    (hgrant : g.input ≤ start) (hstart : start ≤ c + d.reply + m * period d)
    (htimely : httpHeartBeat.Timely d start turns) (hheard : Heard k m turns)
    (hserved : ∀ sent replied, Turn.slept sent replied (.ok ()) ∈ turns →
      Served env as q key sent replied)
    (hreach : e.input ≤ reach start turns + d.report) :
    e.input ≤ lastHeard q key g.input mid + d.report + d.reply + (k + 1) * period d := by
  have hpos := period_nonneg d
  have hlost (j : ℕ) (hj : j ≤ k) : (j : Time) * period d ≤ k * period d :=
    mul_le_mul_of_nonneg_right (by exact_mod_cast hj) hpos
  have hk := hlost m hm
  have hmore : ((k : Time) + 1) * period d = k * period d + period d := by ring
  have hperiod : period d = httpHeartBeat.interval + d.wake + d.reply := rfl
  induction turns generalizing start c m with
  | nil =>
    simp only [reach] at hreach
    linarith
  | cons turn turns ih =>
    cases turn with
    | ready t =>
      obtain ⟨-, hready, -⟩ := htimely
      simp only [reach] at hreach
      linarith
    | slept sent replied reply =>
      obtain ⟨hslept, hwake, hreplied, hlate, hlater⟩ := htimely
      have hinterval : 0 < httpHeartBeat.interval := by decide
      have hnext : g.input ≤ replied := by linarith
      have hserved' : ∀ sent replied, Turn.slept sent replied (.ok ()) ∈ turns →
          Served env as q key sent replied := fun s r h => hserved s r (List.mem_cons_of_mem _ h)
      rcases reply with err | ⟨⟩
      · -- One more ping is lost.
        obtain ⟨hfew, hheard⟩ := hheard
        have hcast : ((m + 1 : ℕ) : Time) * period d = m * period d + period d := by
          push_cast
          ring
        refine ih hc hfew hnext ?_ hlater hheard hserved' hreach (hlost _ hfew)
        linarith
      · obtain ⟨p, hp, hrenews, hafter, hbefore⟩ := (hserved sent replied List.mem_cons_self).renewed
        -- The ping is executed after the job is handed out, and by then or only later `e` is.
        obtain ⟨hpre, hpost, -, hrest⟩ := (htr ▸ hclock).around
        obtain ⟨-, hafter', hmids, -⟩ := hrest.around
        have hlast := le_lastHeard q key hmids fun x hx => hpost x (by simp [hx])
        rcases List.mem_append.mp (htr ▸ hp) with hp | hp
        · linarith [hpre p hp]
        rcases List.mem_cons.mp hp with rfl | hp
        · linarith
        rcases List.mem_append.mp hp with hp | hp
        · refine ih (hlast.2 p hp hrenews) (Nat.zero_le k) hnext ?_ hlater hheard hserved' hreach
            (hlost 0 (Nat.zero_le k))
          push_cast
          linarith
        · have hle : e.input ≤ p.input := by
            rcases List.mem_cons.mp hp with rfl | hp
            · exact le_rfl
            · exact hafter' p hp
          linarith

end

/-- **A worker keeps its job while its heartbeat goes on**: if at most `k` pings in a row are lost and
nothing is so late that the deadline is missed, then until the worker has had the time to report, no
one else is handed the job, and the job is assigned to the worker as long as it is there. -/
theorem heartbeat_keeps_job (env : Env) (as : Schedule) (q : ℕ) (key : String) (pre post : List Event)
    (g : Event) (d : Lateness) (k : ℕ) (start : Time) (turns : List Turn)
    (htr : trace env as = pre ++ g :: post) (hclock : NonDecreasing (trace env as))
    (hgrant : grants q key g = true) (hstart : g.input ≤ start ∧ start ≤ g.input + d.reply)
    (htimely : httpHeartBeat.Timely d start turns) (hheard : Heard k 0 turns)
    (hserved : ∀ sent replied, Turn.slept sent replied (.ok ()) ∈ turns →
      Served env as q key sent replied)
    (hprompt : ∀ e ∈ post, renews q key e = true → executedWithin d.stall e = true)
    (hbudget : (k + 1) * period d + d.reply + d.stall + d.report ≤ pingDeadline * second) :
    ∀ e ∈ post, e.input ≤ reach start turns + d.report →
      heldBy q key e.before = true ∧ grantsAny q e = false := by
  intro e he hreach
  obtain ⟨mid, rest, rfl⟩ := List.append_of_mem he
  have hh := trace_history env as
  have hsplit : pre ++ g :: (mid ++ e :: rest) = pre ++ [g] ++ (mid ++ [e]) ++ rest := by simp
  obtain ⟨-, hpost, -, hsorted⟩ := (htr ▸ hclock).around
  have hbefore := hsorted.around.1
  have hfresh : keptFresh lastExecuted q key g.input (mid ++ [e]) = true := by
    refine keptFresh_of_heard (Int.le_add_of_nonneg_right d.stall.cast_nonneg)
      (fun p hp => hprompt p ?_) fun mid' e' rest' hparts => ?_
    · rcases List.mem_append.mp hp with hp | hp
      · simp [hp]
      · simp [List.mem_singleton.mp hp]
    have hlonger : mid ++ e :: rest = mid' ++ e' :: (rest' ++ rest) := by
      rw [← List.cons_append, ← List.append_assoc, ← hparts]
      simp
    have hle : e'.input ≤ e.input := by
      have hmem : e' ∈ mid ++ [e] := by simp [hparts]
      rcases List.mem_append.mp hmem with hmem | hmem
      · exact hbefore e' hmem
      · rw [List.mem_singleton.mp hmem]
    rw [hlonger] at htr hpost hsorted
    have hheld := le_lastHeard q key hsorted.around.2.2.1 fun x hx => hpost x (by simp [hx])
    have hrecent := heard_recently htr hclock hheld.1 (Nat.zero_le k) hstart.1
      (by simpa using hstart.2) htimely hheard hserved (hle.trans hreach)
    linarith
  rw [htr, hsplit] at hh hclock
  have hl : lease q (pre ++ [g]) = some (key, g.input) := by rw [lease_snoc, lease_granted hgrant]
  exact (lease_kept hh.of_append hclock.of_append hl hfresh).1 e (by simp)

/-- `alice` is handed a job at 10 s and pings it at 130 s, and `bob` asks for work at 140 s. -/
def pingedOnce : Schedule :=
  handedOut ++ serveAt 2 (.pingJob (workerHeaders "alice") 1) (130 * second) ++
  serveAt 3 (.requestWork (workerHeaders "bob") ⟨["debian"], "amd64", ["amd64"]⟩) (140 * second)

/-- The first ping of `alice` is lost, the second is accepted, and then the rebuild is ready. -/
def oneLost : List Turn :=
  [.slept (70 * second) (70 * second) (.error .io), .slept (130 * second) (130 * second) (.ok ()),
    .ready (150 * second)]

theorem heartbeat_keeps_job_pingedOnce :
    ∃ pre g post, trace (openDaemon none) pingedOnce = pre ++ g :: post ∧
      ∀ e ∈ post, e.input ≤ reach (10 * second) oneLost + (0 : ℕ) →
        heldBy 1 "alice" e.before = true ∧ grantsAny 1 e = false := by
  have hgrant : (((trace (openDaemon none) pingedOnce)[6]?).map fun g => grants 1 "alice" g &&
      g.input == 10 * second && ((trace (openDaemon none) pingedOnce).drop 7).all fun e =>
        executedWithin 0 e) = some true := by decide +kernel
  have hserved : Served (openDaemon none) pingedOnce 1 "alice" (130 * second) (130 * second) := by
    have hwithin : ((trace (openDaemon none) pingedOnce).all fun e => e.thread != 2 ||
        e.input == 130 * second) = true := by decide +kernel
    refine ⟨2, workerHeaders "alice", by decide +kernel, rfl, fun e he hthread => ?_⟩
    have := List.all_eq_true.mp hwithin e he
    simp only [hthread, bne_self_eq_false, Bool.false_or, beq_iff_eq] at this
    exact ⟨this.ge, this.le⟩
  obtain ⟨g, hg, hok⟩ := Option.map_eq_some_iff.mp hgrant
  simp only [Bool.and_eq_true, beq_iff_eq, List.all_eq_true] at hok
  obtain ⟨⟨hgrants, hinput⟩, hprompt⟩ := hok
  refine ⟨_, g, _, eq_take_cons_drop hg, heartbeat_keeps_job (openDaemon none) pingedOnce 1 "alice" _ _ g
    ⟨0, 0, 0, 0⟩ 1 (10 * second) oneLost (eq_take_cons_drop hg) (by decide +kernel) hgrants
    (by simp [hinput]) ?_ ?_ ?_ (fun e he _ => hprompt e he) (by decide)⟩
  · refine ⟨?_, ?_, ?_, ?_, ?_, ?_, ?_, ?_, ?_, ?_, ?_⟩ <;> decide
  · exact ⟨Nat.zero_lt_one, trivial⟩
  · intro sent replied hmem
    simp only [oneLost, List.mem_cons, Turn.slept.injEq, reduceCtorEq, and_false, List.not_mem_nil,
      or_false, false_or, and_true] at hmem
    rw [hmem.1, hmem.2]
    exact hserved

end Rebuilderd.Daemon
