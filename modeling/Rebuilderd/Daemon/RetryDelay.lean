import Rebuilderd.Daemon.Tries

/-!
The delay before a group of friends is tried again.

By the time the delay is computed, the failed try has been counted, and the delay is that for one
try more: the first retry comes after two times the configured delay, the second after three times,
and so on.
-/

namespace Rebuilderd.Daemon

open Rebuilderd.Lib Rebuilderd.Common Prog

/-! ### What a report executes before it schedules a retry -/

def Stmt.counts : Stmt → Bool
  | .incrementRetries _ => true
  | _ => false

/-- The handler has counted the first try of friends it has looked up, and then read the largest
count and the clock, which give the next retry. -/
def CountedFor (cfg : Config) (own : OwnSteps) (ids : List ℕ) (next : Time) : Prop :=
  ∃ own' i t₁ t₂ t₃ t₄ friends n now, (∀ x ∈ own', x.stmt.counts = false) ∧
    Did own' (.buildInputFriends i) ids ∧
    own = own' ++ [⟨t₁, .incrementRetries ids, .ok ()⟩, ⟨t₂, .buildInputFriends i, .ok friends⟩,
      ⟨t₃, .maxRetriesOf friends, .ok n⟩, ⟨t₄, .now, .ok now⟩] ∧
    cfg.schedule.retryAt now n = .ok next

/-- What a handler that serves `c` has executed before it looks up friends, counts a try of them or
schedules their next retry. -/
def paced (cfg : Config) (c : Call) (own : OwnSteps) (_ : Time) : Stmt → Prop
  | .buildInputFriends i => ∃ q, FoundRow own c q ∧ i = q.buildInputId
  | .incrementRetries ids => ∃ i, Did own (.buildInputFriends i) ids
  | .setNextRetry ids (some next) => (∃ h r, c = .requestRebuild h r) ∨ CountedFor cfg own ids next
  | _ => True

/-- A report that is over has scheduled a retry. -/
def ScheduledRetry (cfg : Config) (own : OwnSteps) : Prop :=
  ∃ own' ids next t t' new, CountedFor cfg own' ids next ∧
    own = own' ++ [⟨t, .setNextRetry ids (some next), .ok ()⟩, ⟨t', .upsertQueued new, .ok ()⟩]

/-- The statements that neither look up friends nor count or schedule a try. -/
def Stmt.unpaced : Stmt → Bool
  | .buildInputFriends _ | .incrementRetries _ | .setNextRetry _ _ => false
  | _ => true

/-- The handler of a report has found the job and the friends, and has not counted a try. -/
structure Uncounted (c : Call) (q : Queued) (ids : List ℕ) (own : OwnSteps) : Prop where
  found : FoundRow own c q
  looked : Did own (.buildInputFriends q.buildInputId) ids
  none : ∀ x ∈ own, x.stmt.counts = false

section
variable {cfg : Config} {c : Call} {q : Queued} {ids : List ℕ} {own : OwnSteps}

lemma paced_of_unpaced {s : Stmt} (hs : s.unpaced = true) (own : OwnSteps) (t : Time) :
    paced cfg c own t s := by
  cases s <;> trivial

lemma Uncounted.append (h : Uncounted c q ids own) {a : Step Stmt Stmt.Answer Err Time}
    (ha : a.stmt.counts = false) : Uncounted c q ids (own ++ [a]) := by
  refine ⟨foundRow_append own a h.found, h.looked.append _, fun x hx => ?_⟩
  rcases List.mem_append.mp hx with hx | hx
  · exact h.none x hx
  · rw [List.mem_singleton.mp hx]
    exact ha

/-- What keeps an invariant of the journal, if it is about statements that `paced` asks nothing of. -/
lemma keeps_unpaced {α : Type} {p : Handler α} {I : OwnSteps → Prop}
    (hp : Only (fun s => s.unpaced = true) p)
    (hI : ∀ own a, a.stmt.unpaced = true → I own → I (own ++ [a])) :
    Keeps (.journal (paced cfg c)) I p :=
  hp.keeps fun own t _ hs h => ⟨paced_of_unpaced hs own t, fun _ _ h' => h' ▸ hI own _ hs h⟩

lemma counts_of_unpaced {s : Stmt} (hs : s.unpaced = true) : s.counts = false := by
  cases s <;> first | rfl | cases hs

/-- Requests other than rebuild reports execute nothing that `paced` is about, apart from the next
retries of `request_rebuild`. -/
lemma paced_of_justified (hc : ∀ h r, c ≠ .submitRebuildReport h r) {t : Time} {s : Stmt}
    (hs : justified c own t s) : paced cfg c own t s := by
  have hnone {q : Queued} : ¬ FoundRow own c q := fun ⟨h, r, hcall, _⟩ => hc h r hcall
  cases s with
  | buildInputFriends i =>
    obtain ⟨q, hq⟩ := hs
    exact absurd hq hnone
  | incrementRetries ids =>
    obtain ⟨q, hq⟩ := hs
    exact absurd hq hnone
  | setNextRetry ids next =>
    cases next with
    | none => trivial
    | some next =>
      rcases hs with ⟨q, hq⟩ | hs
      · exact absurd hq hnone
      · exact .inl hs
  | _ => trivial

/-- What follows a rebuild that is not good, if the friends were looked up. -/
lemma wp_retry_paced (h : Uncounted c q ids own) :
    wp (.journal (paced cfg c)) (Handler.retry cfg q ids)
      (fun own' _ => cfg.schedule.maxRetries = none → ScheduledRetry cfg own') (fun _ _ => True) own := by
  have hfound (xs : OwnSteps) : ∃ q', FoundRow (own ++ xs) c q' ∧ q.buildInputId = q'.buildInputId := by
    obtain ⟨hd, r, hcall, hdid⟩ := h.found
    exact ⟨q, ⟨hd, r, hcall, hdid.append xs⟩, rfl⟩
  refine (wp_bind _ _).mpr (wp_sql (fun _ => ⟨_, h.looked⟩) (fun t₁ _ => ?_) fun _ _ => trivial)
  refine (wp_bind _ _).mpr ((wp_bind _ _).mpr (wp_sql (fun _ => hfound _) (fun t₂ friends => ?_)
    fun _ _ => trivial))
  refine wp_sql (fun _ => trivial) (fun t₃ n => ?_) fun _ _ => trivial
  split
  · rename_i hex
    refine (wp_bind _ _).mpr (wp_sql (fun _ => ?_) (fun _ _ => ?_) fun _ _ => trivial)
    · rw [List.append_assoc, List.append_assoc]
      exact hfound _
    · refine (wp_bind _ _).mpr (wp_sql (fun _ => trivial) (fun _ _ => ?_) fun _ _ => trivial)
      refine wp_sql (fun _ => trivial) (fun _ _ hmax => ?_) fun _ _ => trivial
      simp [ScheduleConfig.retriesExhausted, hmax] at hex
  · refine (wp_bind _ _).mpr (wp_sql (fun _ => trivial) (fun t₄ now => ?_) fun _ _ => trivial)
    refine (wp_bind _ _).mpr ((wp_lift _).mpr ⟨fun next hnext => ?_, fun _ _ => trivial⟩)
    have hcounted (own') (h' : own' = own ++ [⟨t₁, .incrementRetries ids, .ok ()⟩] ++
        [⟨t₂, .buildInputFriends q.buildInputId, .ok friends⟩] ++
        [⟨t₃, .maxRetriesOf friends, .ok n⟩] ++ [⟨t₄, .now, .ok now⟩]) : CountedFor cfg own' ids next :=
      ⟨own, q.buildInputId, t₁, t₂, t₃, t₄, friends, n, now, h.none, h.looked, by simp [h'], hnext⟩
    refine (wp_bind _ _).mpr (wp_sql (fun _ => .inr (hcounted _ rfl)) (fun t₅ _ => ?_) fun _ _ => trivial)
    refine wp_sql (fun _ => trivial) (fun t₆ _ _ => ?_) fun _ _ => trivial
    exact ⟨_, ids, next, t₅, t₆, _, hcounted _ rfl, List.append_assoc _ _ _⟩

lemma wp_report_paced (h : Headers) (r : RebuildReport) (hc : c = .submitRebuildReport h r) :
    wp (.journal (paced cfg c)) (Handler.submitRebuildReport cfg h r)
      (fun own' a => a = .noContent → r.status ≠ .good → cfg.schedule.maxRetries = none →
        ScheduledRetry cfg own') (fun _ _ => True) [] := by
  have hworker : Only (fun s : Stmt => s.unpaced = true) (Handler.worker cfg h) :=
    (only_worker cfg h).mono fun s hs => by cases s <;> first | rfl | cases hs
  have hkeeps := @keeps_unpaced cfg c _ _ (fun own => ∀ x ∈ own, x.stmt.counts = false) hworker fun own a ha hown x hx => by
      rcases List.mem_append.mp hx with hx | hx
      · exact hown x hx
      · rw [List.mem_singleton.mp hx]
        exact counts_of_unpaced ha
  refine (wp_bind _ _).mpr ((wp_attempt _).mpr (wp_mono (hkeeps [] (by simp)) (fun own w hown => ?_)
    fun _ _ _ => nofun))
  refine (wp_bind _ _).mpr (wp_sql (fun _ => trivial) (fun t q => ?_) fun _ _ => trivial)
  have hfound : FoundRow (own ++ [⟨t, .findQueued r.queueId, .ok q⟩]) c q :=
    ⟨h, r, hc, did_last _ _ _ _⟩
  refine (wp_bind _ _).mpr ((wp_bind _ _).mpr (wp_sql (fun _ => ⟨q, hfound, rfl⟩) (fun t' ids => ?_)
    fun _ _ => trivial))
  have hlooked : Uncounted c q ids (own ++ [⟨t, .findQueued r.queueId, .ok q⟩] ++
      [⟨t', .buildInputFriends q.buildInputId, .ok ids⟩]) := by
    refine ⟨foundRow_append _ _ hfound, did_last _ _ _ _, fun x hx => ?_⟩
    simp only [List.mem_append, List.mem_singleton] at hx
    rcases hx with (hx | rfl) | rfl
    · exact hown x hx
    · rfl
    · rfl
  have hstep {s : Stmt} (hs : s.unpaced = true) :
      Keeps (.journal (paced cfg c)) (Uncounted c q ids) (sql s) :=
    keeps_unpaced (.stmt hs) fun _ _ ha hown => hown.append (counts_of_unpaced ha)
  have hencode : Keeps (.journal (paced cfg c)) (Uncounted c q ids) (Handler.encode r.buildLog) :=
    keeps_unpaced ((only_encode _).mono fun s hs => by rw [hs]; rfl) fun _ _ ha hown =>
      hown.append (counts_of_unpaced ha)
  have hrecord (log : ℕ) : Keeps (.journal (paced cfg c)) (Uncounted c q ids)
      (ids.foldlM (Handler.recordRebuild r q log) []) :=
    keeps_unpaced (.foldlM (fun logs friend => (only_recordRebuild r q log logs friend).mono fun s hs => by
      cases s <;> first | rfl | cases hs) []) fun _ _ ha hown => hown.append (counts_of_unpaced ha)
  refine (wp_bind _ _).mpr (wp_mono (hencode _ hlooked) (fun own log hown => ?_) fun _ _ _ => trivial)
  refine (wp_bind _ _).mpr (wp_mono (hstep (s := .insertBuildLog log) rfl _ hown) (fun own log hown => ?_)
    fun _ _ _ => trivial)
  refine (wp_bind _ _).mpr (wp_mono (hrecord log _ hown) (fun own _ hown => ?_) fun _ _ _ => trivial)
  refine (wp_bind _ _).mpr (wp_mono (hstep (s := .deleteQueued [q.id]) rfl _ hown) (fun own _ hown => ?_)
    fun _ _ _ => trivial)
  split
  · exact wp_mono (wp_retry_paced hown) (fun _ _ hdone _ _ => hdone) fun _ _ _ => trivial
  · rename_i hgood
    exact fun _ hbad => absurd hbad hgood

/-- **What a handler executes is paced**, and a report that is not good schedules a retry. -/
theorem handler_paced (cfg : Config) (c : Call) :
    wp (.journal (paced cfg c)) (handler cfg c) (fun own a => ∀ h r, c = .submitRebuildReport h r →
      a = .noContent → r.status ≠ .good → cfg.schedule.maxRetries = none → ScheduledRetry cfg own)
      (fun _ _ => True) [] := by
  cases c with
  | submitRebuildReport h r =>
    refine wp_mono (wp_report_paced h r rfl) (fun own a hown h' r' heq => ?_) fun _ _ _ => trivial
    cases heq
    exact hown
  | _ =>
    refine wp_mono (wp_rules (handler_justified cfg _) (fun own t s hs => ?_) fun _ _ _ _ _ h => h)
      (fun _ _ _ h r heq => by cases heq) fun _ _ _ => trivial
    exact paced_of_justified (t := t) (fun h r heq => by cases heq) hs

end

lemma paced_history (env : Env) (as : Schedule) :
    History (exec env) (paced env.config) env.start (trace env as) :=
  (Pool.history (fun c => wp_mono (handler_paced env.config c) (fun _ _ _ => trivial)
    fun _ _ _ => trivial) env.start as).1

/-! ### The retries of a run -/

/-- The integer operations for the delay after `n` tries do not overflow. -/
def delayFits (c : ScheduleConfig) (n : ℤ) : Bool :=
  wrap 32 (n + 1) == n + 1 && wrap 64 ((n + 1) * c.retryDelayBaseHours) == (n + 1) * c.retryDelayBaseHours

/-- The count of tries that a statement has read. -/
def readCount : Step Stmt Stmt.Answer Err Time → Option ℤ
  | ⟨_, .maxRetriesOf _, .ok n⟩ => some n
  | _ => none

/-- No delay that is computed from the counts that are read overflows. -/
def NoOverflow (c : ScheduleConfig) (tr : List Event) : Prop :=
  ∀ e ∈ tr, ∀ n ∈ readCount e.toStep, delayFits c n = true

instance (c : ScheduleConfig) (tr : List Event) : Decidable (NoOverflow c tr) :=
  inferInstanceAs (Decidable (∀ e ∈ tr, ∀ n ∈ readCount e.toStep, delayFits c n = true))

/-- A retry of a group: a handler counts the failed try, reads the clock and schedules the next. -/
structure Retry (tr : List Event) where
  thread : ℕ
  group : Group
  pre : List Event
  count : Event
  mid : List Event
  set : Event
  post : List Event
  ids : List ℕ
  now : Time
  next : Time
  trace : tr = pre ++ count :: (mid ++ set :: post)
  ofGroup : count.thread = thread ∧ countsTry group count = true
  clock : Did (own thread mid) .now now
  sets : set.thread = thread ∧ set.stmt = .setNextRetry ids (some next)

namespace Retry

variable {tr : List Event}

/-- How many tries of the group have been counted, with the one of this retry. -/
def number (x : Retry tr) : ℕ := triesOf x.group (x.pre ++ [x.count])

/-- All members of the group wait until `T` from then on. -/
def Until (x : Retry tr) (env : Env) (T : Time) : Prop :=
  ∀ b ∈ members x.group (x.set.after (exec env)), b.nextRetry = some T

end Retry

/-- The statements of a handler from the first try it counts to the retry it schedules. -/
lemma Retry.steps {env : Env} {tr : List Event} (x : Retry tr)
    (hj : History (exec env) justified env.start tr)
    (hp : History (exec env) (paced env.config) env.start tr) :
    ∃ i t₂ t₃ t₄ friends n, x.count.stmt = .incrementRetries x.ids ∧
      Did (own x.thread x.pre) (.buildInputFriends i) x.ids ∧
      own x.thread x.mid = [⟨t₂, .buildInputFriends i, .ok friends⟩,
        ⟨t₃, .maxRetriesOf friends, .ok n⟩, ⟨t₄, .now, .ok x.now⟩] ∧
      env.config.schedule.retryAt x.now n = .ok x.next := by
  obtain ⟨thread, g, pre, count, mid, set, post, ids, now, next, htrace, ⟨rfl, hcounts⟩, hclock,
    hthread, hset⟩ := x
  dsimp only
  subst htrace
  obtain ⟨ids', hstmt⟩ := stmt_of_countsTry hcounts
  rw [← List.cons_append, ← List.append_assoc] at hj hp
  obtain ⟨-, -, hallowed, -⟩ := hp.event
  obtain ⟨-, -, -, hcall⟩ := hj.event
  rw [hthread, hset] at hallowed
  rcases hallowed with ⟨h, r, hrebuild⟩ | ⟨own', i, t₁, t₂, t₃, t₄, friends, n, now', hnone, hlooked,
    hown, hnext⟩
  · -- A request to rebuild counts no tries.
    have hjust := (by simpa using hj : History (exec env) justified env.start
      (pre ++ count :: (mid ++ set :: post))).event.2.2.1
    rw [hstmt, hcall count (by simp) hthread.symm, hrebuild] at hjust
    obtain ⟨q, hd, r', hreport, -⟩ := hjust
    cases hreport
  · have hsplit : own count.thread (pre ++ count :: mid) =
        own count.thread pre ++ count.toStep :: own count.thread mid := by
      rw [own_append]
      simp [own]
    rw [hsplit] at hown
    have hcountsStep : count.toStep.stmt.counts = true := by
      rw [hstmt]
      rfl
    have hnot {xs : OwnSteps} (hxs : ∀ x ∈ xs, x.stmt.counts = false) : count.toStep ∉ xs := fun hmem => by
      rw [hxs _ hmem] at hcountsStep
      cases hcountsStep
    obtain ⟨rfl, hfirst, hmid⟩ := (List.append_cons_inj_of_notMem (hnot hnone)
      (hnot (by simp [Stmt.counts]))).mp hown.symm
    rw [← hmid] at hclock
    obtain ⟨t, hclock⟩ := hclock
    obtain ⟨-, rfl⟩ : t = t₄ ∧ now = now' := by simpa using hclock
    refine ⟨i, t₂, t₃, t₄, friends, n, ?_, hlooked, hmid.symm, hnext⟩
    rw [← hfirst]

lemma le_of_maxRetriesOf {db : Db} {ids : List ℕ} {n : ℤ} (h : maxRetriesOf ids db = .ok n)
    {x : (ℕ × ℕ × Group) × ℤ} (hx : x ∈ db.tries) (hmem : x.1.1 ∈ ids) : x.2 ≤ n := by
  obtain ⟨b, hb, rfl⟩ := List.mem_map.mp hx
  unfold maxRetriesOf at h
  split at h
  · rename_i m hmax
    obtain rfl := Except.ok.inj h
    refine (List.max?_eq_some_iff.mp hmax).2 _ (List.mem_map.mpr ⟨b, List.mem_filter.mpr ⟨hb, ?_⟩, rfl⟩)
    exact List.contains_iff_mem.mpr hmem
  · cases h

lemma mem_members_setNextRetry {db : Db} {g : Group} {ids : List ℕ} {next : Option Time} {b' : BuildInput} :
    b' ∈ members g (setNextRetry ids next db) ↔
      ∃ b ∈ members g db, b' = if b.id ∈ ids then { b with nextRetry := next } else b := by
  simp only [mem_members, setNextRetry, Table.rows_update, List.mem_map, List.contains_iff_mem]
  constructor
  · rintro ⟨⟨b, hb, rfl⟩, rfl⟩
    refine ⟨b, ⟨hb, ?_⟩, rfl⟩
    split <;> rfl
  · rintro ⟨b, ⟨hb, rfl⟩, rfl⟩
    refine ⟨⟨b, hb, rfl⟩, ?_⟩
    split <;> rfl

section
variable {env : Env} {tr : List Event} (x : Retry tr)

lemma answer_maxRetriesOf {e : Event} {t : Time} {ids : List ℕ} {n : ℤ}
    (hans : e.answer = ((exec env).answer e.input e.stmt e.before).1)
    (hstep : e.toStep = ⟨t, .maxRetriesOf ids, .ok n⟩) : maxRetriesOf ids e.before = .ok n := by
  obtain ⟨⟨t', s, a⟩, j, c, db⟩ := e
  cases hstep
  have hexec := Exec.answer_ok.mp (Prod.ext hans.symm rfl)
  rcases hm : maxRetriesOf ids db with err | m
  · simp [exec, hm, Except.map] at hexec
  · obtain ⟨rfl, -⟩ : m = n ∧ _ := by simpa [exec, hm, Except.map] using hexec
    rfl

lemma triesOf_le (g : Group) (tr tr' : List Event) : triesOf g tr ≤ triesOf g (tr ++ tr') := by
  unfold triesOf
  rw [List.countP_append]
  exact Nat.le_add_right _ _

/-- The next retry is that of one try more than have been counted, at least. -/
lemma Retry.schedule (hj : History (exec env) justified env.start tr)
    (hp : History (exec env) (paced env.config) env.start tr)
    (hfits : NoOverflow env.config.schedule tr) :
    ∃ n, (x.number : ℤ) ≤ n ∧
      x.next = x.now + (n + 1) * env.config.schedule.retryDelayBaseHours * hour ∧
      ∃ b ∈ members x.group x.set.before, b.id ∈ x.ids := by
  obtain ⟨i, t₂, t₃, t₄, friends, n, hstmt, ⟨t, hlooked⟩, hmid, hnext⟩ := x.steps hj hp
  obtain ⟨thread, g, pre, count, mid, set, post, ids, now, next, htrace, ⟨hthread, hcounts⟩, hclock,
    hthread', hset⟩ := x
  dsimp only [Retry.number] at *
  subst htrace
  obtain ⟨m₁, f, rest, rfl, hf, hfriends, -, hrest⟩ := @own_append_cons _ _ _ _ _ _ _ _ [] _ _ hmid
  obtain ⟨m₂, e, m₃, rfl, he, hmax, -, -⟩ := @own_append_cons _ _ _ _ _ _ _ _ [] _ _ hrest
  obtain ⟨l, hl, -, hlstep⟩ := mem_own.mp hlooked
  have hpc : History (exec env) (paced env.config) env.start (pre ++ [count]) :=
    (by simpa using hp : History _ _ _ (pre ++ [count] ++ _)).of_append
  have hpf : History (exec env) (paced env.config) env.start (pre ++ count :: m₁ ++
      f :: (m₂ ++ e :: (m₃ ++ set :: post))) := by
    simpa using hp
  have hpe : History (exec env) (paced env.config) env.start
      (pre ++ [count] ++ (m₁ ++ f :: m₂) ++ e :: (m₃ ++ set :: post)) := by
    simpa using hp
  have hps : History (exec env) (paced env.config) env.start
      (pre ++ count :: (m₁ ++ f :: (m₂ ++ e :: m₃)) ++ set :: post) := by
    simpa using hp
  obtain ⟨s, hi⟩ := group_of_lookup hpc hcounts hstmt hl hlstep
  refine ⟨n, ?_, ?_, ?_⟩
  · have hif : (i, s, g) ∈ f.before.inputs := by
      rw [hpf.event.1]
      exact inputs_of_event hpf.of_append (List.mem_append_left _ hl) hi
    have hie : (i, s, g) ∈ (stateAfter (exec env) env.start (pre ++ [count] ++ (m₁ ++ f :: m₂))).inputs :=
      inputs_of_event hpe.of_append (by simp [hl]) hi
    rcases (counted_of_history (fun _ _ _ _ h => h) hpe.of_append g).oldest with
      ⟨-, hno⟩ | ⟨y, hy, -, hle, hfriends'⟩
    · obtain ⟨k, hk⟩ := exists_tries hie
      exact absurd rfl (hno _ hk)
    · obtain ⟨hbefore, hans, -, -⟩ := hpe.event
      rw [← hbefore] at hy
      have hmem := hfriends' f (by simp) t₂ i friends s hfriends hif
      have hcount := triesOf_le g (pre ++ [count]) (m₁ ++ f :: m₂)
      exact (Int.ofNat_le.mpr hcount).trans
        (hle.trans (le_of_maxRetriesOf (answer_maxRetriesOf hans hmax) hy hmem))
  · have hfit := hfits e (by simp) n (by rw [hmax]; rfl)
    simp only [delayFits, Bool.and_eq_true, beq_iff_eq] at hfit
    exact retryAt_of_wrap hnext (by rw [hfit.1]; exact hfit.2)
  · have his : (i, s, g) ∈ set.before.inputs := by
      rw [hps.event.1]
      exact inputs_of_event hps.of_append (by simp [hl]) hi
    obtain ⟨b, hb, rfl, -, rfl⟩ := mem_inputs.mp his
    refine ⟨b, mem_members.mpr ⟨hb, rfl⟩, ?_⟩
    rw [answer_buildInputFriends hp (by simp [hl]) hlstep]
    exact (mem_buildInputFriends_iff hi).mpr ⟨s, hi⟩

/-- The members of the group wait for one delay for each try that was counted if and only if the
delay is zero, and the members that were not looked up wait for that time already. -/
lemma Retry.until_iff (hj : History (exec env) justified env.start tr)
    (hp : History (exec env) (paced env.config) env.start tr)
    (hfits : NoOverflow env.config.schedule tr) :
    x.Until env (x.now + x.number * env.config.schedule.retryDelayBaseHours * hour) ↔
      env.config.schedule.retryDelayBaseHours = 0 ∧
        ∀ b ∈ members x.group x.set.before, b.id ∈ x.ids ∨ b.nextRetry = some x.now := by
  obtain ⟨n, hn, hnext, b₀, hb₀, hlooked⟩ := x.schedule hj hp hfits
  have hafter : x.set.after (exec env) = setNextRetry x.ids (some x.next) x.set.before := by
    rw [Lib.Event.after, x.sets.2]
    rfl
  have hmembers {b' : BuildInput} : b' ∈ members x.group (x.set.after (exec env)) ↔
      ∃ b ∈ members x.group x.set.before,
        b' = if b.id ∈ x.ids then { b with nextRetry := some x.next } else b := by
    rw [hafter]
    exact mem_members_setNextRetry
  constructor
  · intro huntil
    have hall {b : BuildInput} (hb : b ∈ members x.group x.set.before) :=
      huntil _ (hmembers.mpr ⟨b, hb, rfl⟩)
    have hbase : env.config.schedule.retryDelayBaseHours = 0 := by
      have heq := hall hb₀
      rw [if_pos hlooked] at heq
      have heq := Option.some.inj heq
      rw [hnext] at heq
      -- The delay is that of at least one try more than were counted.
      have hmore : (n + 1 - x.number) * (env.config.schedule.retryDelayBaseHours * hour) = 0 := by
        linarith
      rcases mul_eq_zero.mp hmore with hzero | hzero
      · omega
      · exact (mul_eq_zero.mp hzero).resolve_right (by decide)
    refine ⟨hbase, fun b hb => ?_⟩
    by_cases hmem : b.id ∈ x.ids
    · exact .inl hmem
    · have heq := hall hb
      rw [if_neg hmem, hbase, mul_zero, zero_mul, add_zero] at heq
      exact .inr heq
  · rintro ⟨hbase, hothers⟩ b' hb'
    obtain ⟨b, hb, rfl⟩ := hmembers.mp hb'
    rw [hbase, mul_zero, zero_mul, add_zero] at hnext ⊢
    split
    · rw [hnext]
    · rename_i hmem
      exact (hothers b hb).resolve_left hmem

end

/-- A report that was recorded and is not good has counted a try and scheduled a retry. -/
lemma exists_retry {env : Env} {as : Schedule} {i : ℕ} {h : Headers} {r : RebuildReport}
    (hmax : env.config.schedule.maxRetries = none)
    (hans : (runPool env as).answerOf i = some (.submitRebuildReport h r, .noContent))
    (hbad : r.status ≠ .good) : ∃ x : Retry (trace env as), x.thread = i := by
  have hj := trace_history env as
  have hp := paced_history env as
  obtain ⟨own', ids, next, t₅, t₆, new, ⟨own'', j, t₁, t₂, t₃, t₄, friends, n, now, -, ⟨t, hlooked⟩, rfl,
    -⟩, hown⟩ := (Pool.outcome (handler_paced env.config) env.start as hans).1 h r rfl rfl hbad hmax
  change own i (trace env as) = _ at hown
  rw [List.append_assoc, List.cons_append] at hown
  obtain ⟨pre, count, rest, htr, hcount, hcounts, rfl, hrest⟩ := own_append_cons hown
  obtain ⟨mid, set, post, rfl, hset, hsets, hmid, -⟩ := own_append_cons hrest
  obtain ⟨l, hl, hli, hlstep⟩ := mem_own.mp hlooked
  rw [htr] at hj hp
  have hids := answer_buildInputFriends hp (by simp [hl]) hlstep
  -- The friends are those of the job that was found, so there is a group they are of.
  obtain ⟨s, g, hi⟩ : ∃ s g, (j, s, g) ∈ l.before.inputs := by
    obtain ⟨pre', post', rfl⟩ := List.append_of_mem hl
    have hjl : History (exec env) justified env.start (pre' ++ l :: (post' ++ count :: (mid ++ set :: post))) := by
      simpa using hj
    have hpl : History (exec env) (paced env.config) env.start
        (pre' ++ l :: (post' ++ count :: (mid ++ set :: post))) := by
      simpa using hp
    obtain ⟨hbefore, -, hallowed, -⟩ := hpl.event
    have hstmt : l.stmt = .buildInputFriends j := congrArg Step.stmt hlstep
    rw [hstmt] at hallowed
    obtain ⟨q, ⟨hd, r', -, tq, hfound⟩, rfl⟩ := hallowed
    obtain ⟨e, he, -, hestep⟩ := mem_own.mp hfound
    rw [hbefore]
    exact (inputs_exist hjl.of_append).found e he tq _ q hestep
  have hcstmt : count.stmt = .incrementRetries ids := congrArg Step.stmt hcounts
  have hgroup : countsTry g count = true := by
    obtain ⟨k, hk⟩ := exists_tries (inputs_of_event hp.of_append hl hi)
    rw [← hp.event.1] at hk
    refine List.any_eq_true.mpr ⟨_, hk, ?_⟩
    simp only [beq_self_eq_true, hcstmt, Stmt.countsTryOf, Bool.true_and, List.contains_iff_mem]
    rw [hids]
    exact (mem_buildInputFriends_iff hi).mpr ⟨s, hi⟩
  refine ⟨⟨i, g, pre, count, mid, set, post, ids, now, next, htr, ⟨hcount, hgroup⟩, ⟨t₄, ?_⟩, hset,
    congrArg Step.stmt hsets⟩, rfl⟩
  rw [hmid]
  simp

/-- **The delay is one too many**: every report that is not good schedules a retry, and the members of
the group wait for one delay for each try that was counted if and only if the delay is zero, and the
members imported since the friends were looked up wait for that time already. -/
theorem retryDelay_iff (env : Env) (as : Schedule) (hmax : env.config.schedule.maxRetries = none)
    (hfits : NoOverflow env.config.schedule (trace env as)) :
    (∀ i h r, (runPool env as).answerOf i = some (.submitRebuildReport h r, .noContent) →
      r.status ≠ .good → ∃ x : Retry (trace env as), x.thread = i) ∧
    ∀ x : Retry (trace env as),
      x.Until env (x.now + x.number * env.config.schedule.retryDelayBaseHours * hour) ↔
        env.config.schedule.retryDelayBaseHours = 0 ∧
          ∀ b ∈ members x.group x.set.before, b.id ∈ x.ids ∨ b.nextRetry = some x.now := by
  refine ⟨fun i h r hans hbad => exists_retry hmax hans hbad, fun x => ?_⟩
  exact x.until_iff (trace_history env as) (paced_history env as) hfits

/-- `hello` fails once. -/
def failedFirst : Schedule := handedOut ++ serveAt 2 (reportBy "alice" .bad) (20 * second)

theorem retryDelay_failedFirst :
    (∃ x : Retry (trace (openDaemon none) failedFirst), x.thread = 2) ∧
      ∀ x : Retry (trace (openDaemon none) failedFirst),
        ¬ x.Until (openDaemon none) (x.now + x.number * 24 * hour) := by
  obtain ⟨hretry, hiff⟩ := retryDelay_iff (openDaemon none) failedFirst rfl (by decide +kernel)
  refine ⟨hretry 2 (workerHeaders "alice") ⟨1, 0, [], .bad, []⟩ (by decide +kernel) (by decide), ?_⟩
  exact fun x huntil => absurd ((hiff x).mp huntil).1 (by decide)

/-- **The first retry comes after two delays**, not after one. -/
theorem firstRetry_twoDelays : ¬ ∀ env as, env.config.schedule.maxRetries = none →
    (∀ h r, Action.call (.requestRebuild h r) ∉ as) → NoOverflow env.config.schedule (trace env as) →
      ∀ i h r, (runPool env as).answerOf i = some (.submitRebuildReport h r, .noContent) →
        r.status ≠ .good → ∃ x : Retry (trace env as), x.thread = i ∧
          x.Until env (x.now + x.number * env.config.schedule.retryDelayBaseHours * hour) := by
  intro h
  obtain ⟨x, -, huntil⟩ := h (openDaemon none) failedFirst rfl (fun h r => by
    simp [failedFirst, handedOut, serveAt, reportBy])
    (by decide +kernel) 2 (workerHeaders "alice") ⟨1, 0, [], .bad, []⟩ (by decide +kernel) (by decide)
  have hiff := @Retry.until_iff (openDaemon none) _ x (trace_history _ _) (paced_history _ _)
    (by decide +kernel)
  exact absurd (hiff.mp huntil).1 (by decide)

end Rebuilderd.Daemon
