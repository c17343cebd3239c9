import Rebuilderd.Daemon.Retrying

/-!
Groups of friends that wait for their next retry.

Every member of a group waits until then, except those that are imported later. Neither a report
nor an import lets the group wait less, as long as no member is enqueued that is due earlier.
-/

namespace Rebuilderd.Daemon

open Rebuilderd.Lib Rebuilderd.Common Prog

def hour : Time := 3600 * second

/-! ### The members of a group -/

def members (g : Group) (db : Db) : List BuildInput := db.buildInputs.rows.filter (·.group == g)

section
variable {db db' : Db} {g g' : Group} {b : BuildInput} {i s : ℕ}

lemma mem_members : b ∈ members g db ↔ b ∈ db.buildInputs.rows ∧ b.group = g := by
  simp [members]

lemma members_congr (h : db'.buildInputs = db.buildInputs) (g : Group) :
    members g db' = members g db := by
  unfold members
  rw [h]

lemma group_eq (h : (i, s, g) ∈ db.inputs) (hb : b ∈ db.buildInputs.rows) (hid : b.id = i) :
    b.group = g :=
  (inputs_inj (mem_inputs.mpr ⟨b, hb, hid, rfl, rfl⟩) h).2

/-- The friends of a build input are the members of its group. -/
lemma mem_friends_iff (h : (i, s, g) ∈ db.inputs) (hb : b ∈ db.buildInputs.rows) :
    b.id ∈ buildInputFriends db i ↔ b.group = g := by
  rw [mem_buildInputFriends_iff h]
  constructor
  · rintro ⟨s', hs'⟩
    exact group_eq hs' hb rfl
  · rintro rfl
    exact ⟨_, mem_inputs.mpr ⟨b, hb, rfl, rfl, rfl⟩⟩

/-- An update of the members of one group. -/
lemma members_update {ids : List ℕ} {f : BuildInput → BuildInput} (hf : ∀ b, (f b).group = b.group)
    (hrows : db'.buildInputs.rows = db.buildInputs.rows.map fun b => if ids.contains b.id then f b else b)
    (hids : ∀ b ∈ db.buildInputs.rows, b.id ∈ ids ↔ b.group = g') (g : Group) :
    members g db' = if g = g' then (members g db).map f else members g db := by
  unfold members
  rw [hrows, List.filter_map]
  have hfilter : db.buildInputs.rows.filter ((fun b => b.group == g) ∘ fun b =>
      if ids.contains b.id then f b else b) = db.buildInputs.rows.filter (·.group == g) := by
    refine List.filter_congr fun b _ => ?_
    simp only [Function.comp]
    split
    · rw [hf]
    · rfl
  rw [hfilter]
  split
  · rename_i hg
    refine List.map_congr_left fun b hb => ?_
    obtain ⟨hb, hbg⟩ := List.mem_filter.mp hb
    rw [if_pos]
    simpa using (hids b hb).mpr (by rw [← hg]; simpa using hbg)
  · rename_i hg
    refine (List.map_congr_left fun b hb => ?_).trans (List.map_id _)
    obtain ⟨hb, hbg⟩ := List.mem_filter.mp hb
    rw [if_neg]
    · rfl
    · intro hmem
      exact hg ((beq_iff_eq.mp hbg).symm.trans ((hids b hb).mp (by simpa using hmem)))

lemma members_incrementRetries (h : (i, s, g') ∈ db.inputs) (g : Group) :
    members g (incrementRetries (buildInputFriends db i) db) =
      if g = g' then (members g db).map fun b => { b with retries := b.retries + 1 }
      else members g db :=
  members_update (f := fun b => { b with retries := b.retries + 1 }) (fun _ => rfl) rfl
    (fun _ hb => mem_friends_iff h hb) g

lemma members_setNextRetry (h : (i, s, g') ∈ db.inputs) (next : Option Time) (g : Group) :
    members g (setNextRetry (buildInputFriends db i) next db) =
      if g = g' then (members g db).map fun b => { b with nextRetry := next } else members g db :=
  members_update (f := fun b => { b with nextRetry := next }) (fun _ => rfl) rfl
    (fun _ hb => mem_friends_iff h hb) g

/-- The largest retry count of a group is that of one of its members. -/
lemma largestRetryCount_ok {n : ℤ} (h : (i, s, g) ∈ db.inputs)
    (hn : getLargestRetryCountAmongFriends db i = .ok n) :
    (∃ b ∈ members g db, b.retries = n) ∧ ∀ b ∈ members g db, b.retries ≤ n := by
  have hfriends : db.buildInputs.rows.filter (fun b => (buildInputFriends db i).contains b.id) =
      members g db := by
    refine List.filter_congr fun b hb => ?_
    rw [Bool.eq_iff_iff, List.contains_iff_mem, mem_friends_iff h hb, beq_iff_eq]
  unfold getLargestRetryCountAmongFriends maxRetriesOf at hn
  rw [hfriends] at hn
  rcases hmax : ((members g db).map (·.retries)).max? with _ | m
  · rw [hmax] at hn
    cases hn
  · rw [hmax] at hn
    obtain rfl : m = n := Except.ok.inj hn
    obtain ⟨hm, hle⟩ := List.max?_eq_some_iff.mp hmax
    exact ⟨List.mem_map.mp hm, fun b hb => hle _ (List.mem_map.mpr ⟨b, hb, rfl⟩)⟩

end

/-! ### Waiting -/

/-- A member of the group has been tried and waits until `T`; its next delay from `start` on would
end no earlier. -/
def MemberWaits (c : ScheduleConfig) (g : Group) (start T : Time) (db : Db) : Prop :=
  ∃ b ∈ members g db, 0 < b.retries ∧ (∃ due, b.nextRetry = some due ∧ T ≤ due) ∧
    T ≤ start + (b.retries + 1) * c.retryDelayBaseHours * hour

/-- The retries of the group are used up, and none of it is queued. -/
def GivenUp (c : ScheduleConfig) (g : Group) (db : Db) : Prop :=
  (∀ q ∈ db.queue.rows, ∀ b ∈ members g db, b.id ≠ q.buildInputId) ∧
    ∃ b ∈ members g db, c.retriesExhausted b.retries = true

/-- From `start` on, no job of the group is due before `T`, and none that would be is enqueued. -/
structure Waits (c : ScheduleConfig) (g : Group) (start T : Time) (db : Db) : Prop where
  rows : ∀ q ∈ db.queue.rows, ∀ b ∈ members g db, b.id = q.buildInputId →
    ∃ due, b.nextRetry = some due ∧ T ≤ due
  member : MemberWaits c g start T db ∨ GivenUp c g db

section
variable {c : ScheduleConfig} {g : Group} {start T : Time} {db db' : Db}

/-- Nothing has happened to the group, except that jobs may have left the queue. -/
lemma Waits.congr (h : Waits c g start T db) (hm : members g db' = members g db)
    (hrows : ∀ q' ∈ db'.queue.rows, ∀ b ∈ members g db, b.id = q'.buildInputId →
      ∃ q ∈ db.queue.rows, q.buildInputId = q'.buildInputId) : Waits c g start T db' := by
  refine ⟨fun q' hq' b hb hid => ?_, ?_⟩
  · rw [hm] at hb
    obtain ⟨q, hq, heq⟩ := hrows q' hq' b hb hid
    exact h.rows q hq b hb (hid.trans heq.symm)
  · rcases h.member with ⟨b, hb, hwaits⟩ | ⟨hnone, b, hb, hex⟩
    · exact .inl ⟨b, hm.symm ▸ hb, hwaits⟩
    · refine .inr ⟨fun q' hq' b' hb' hid => ?_, b, hm.symm ▸ hb, hex⟩
      rw [hm] at hb'
      obtain ⟨q, hq, heq⟩ := hrows q' hq' b' hb' hid
      exact hnone q hq b' hb' (hid.trans heq.symm)

/-- New build inputs have no job yet. -/
lemma Waits.grow (h : Waits c g start T db) (hold : ∀ b ∈ db.buildInputs.rows, b ∈ db'.buildInputs.rows)
    (hqueue : db'.queue = db.queue) (hin : ∀ q ∈ db.queue.rows, HasInput q.buildInputId db) :
    Waits c g start T db' := by
  have hkept {b : BuildInput} (hb : b ∈ members g db) : b ∈ members g db' := by
    obtain ⟨hb, hg⟩ := mem_members.mp hb
    exact mem_members.mpr ⟨hold b hb, hg⟩
  have hqueued {q : Queued} (hq : q ∈ db.queue.rows) {b : BuildInput} (hb : b ∈ members g db')
      (hid : b.id = q.buildInputId) : b ∈ members g db := by
    obtain ⟨s, g', hs⟩ := hin q hq
    obtain ⟨b', hb', hid', -, -⟩ := mem_inputs.mp hs
    obtain ⟨hb, hg⟩ := mem_members.mp hb
    obtain rfl := Table.eq_of_key hb (hold b' hb') (hid.trans hid'.symm)
    exact mem_members.mpr ⟨hb', hg⟩
  refine ⟨fun q hq b hb hid => ?_, ?_⟩
  · rw [hqueue] at hq
    exact h.rows q hq b (hqueued hq hb hid) hid
  · rcases h.member with ⟨b, hb, hwaits⟩ | ⟨hnone, b, hb, hex⟩
    · exact .inl ⟨b, hkept hb, hwaits⟩
    · refine .inr ⟨fun q hq b' hb' hid => ?_, b, hkept hb, hex⟩
      rw [hqueue] at hq
      exact hnone q hq b' (hqueued hq hb' hid) hid

/-- The delays are positive as long as the group waits. -/
lemma MemberWaits.base_pos (h : MemberWaits c g start T db) (hT : start < T) :
    0 < c.retryDelayBaseHours := by
  obtain ⟨b, -, hpos, -, hle⟩ := h
  by_contra hbase
  have hneg : (b.retries + 1) * c.retryDelayBaseHours * hour ≤ 0 := by
    have hdelay : (b.retries + 1) * c.retryDelayBaseHours ≤ 0 :=
      mul_nonpos_of_nonneg_of_nonpos (by omega) (not_lt.mp hbase)
    exact mul_nonpos_of_nonpos_of_nonneg hdelay (by decide)
  linarith

end

/-! ### Reports -/

/-- The rows of other build inputs are there before an upsert. -/
lemma mem_upsertQueued {n : NewQueued} {db : Db} {q' : Queued} (h : q' ∈ (n.upsert db).queue.rows)
    (hother : q'.buildInputId ≠ n.buildInputId) :
    ∃ q ∈ db.queue.rows, q.buildInputId = q'.buildInputId := by
  rcases n.upsert_cases db with ⟨-, -, -, hq⟩ | ⟨-, hq⟩ <;> rw [hq] at h
  · obtain ⟨q, hq, rfl⟩ := List.mem_map.mp h
    refine ⟨q, hq, ?_⟩
    split
    · rename_i heq
      exact beq_iff_eq.mp heq
    · rfl
  · rcases (Table.mem_insert _).mp h with h | rfl
    · exact ⟨q', h, rfl⟩
    · exact absurd rfl hother

/-- The first instant of the year 0, and that of the year 10000. -/
def firstYear : Time := -62167219200 * second
def lastYear : Time := 253402300800 * second

/-- Times in the years 0 to 9999, whose texts are ordered as they are. -/
def InYears (t : Time) : Prop := firstYear ≤ t ∧ t < lastYear

instance (t : Time) : Decidable (InYears t) := inferInstanceAs (Decidable (_ ∧ _))

/-- The next retry, if no integer operation overflows. -/
lemma retryAt_of_wrap {c : ScheduleConfig} {now next : Time} {n : ℤ} (h : c.retryAt now n = .ok next)
    (hwrap : wrap 64 (wrap 32 (n + 1) * c.retryDelayBaseHours) = (n + 1) * c.retryDelayBaseHours) :
    next = now + (n + 1) * c.retryDelayBaseHours * hour := by
  unfold ScheduleConfig.retryAt at h
  rw [hwrap] at h
  rcases hd : durationHours ((n + 1) * c.retryDelayBaseHours) with e | d
  · simp [hd, Bind.bind, Except.bind] at h
  · simp only [hd, Bind.bind, Except.bind] at h
    rw [addDuration_eq h]
    unfold durationHours durationSeconds at hd
    split at hd
    · rw [← Except.ok.inj hd, hour, mul_assoc _ 3600]
    · cases hd

/-- As long as dates stay in the years 0 to 9999, nothing overflows. -/
lemma retryAt_eq {c : ScheduleConfig} {now next : Time} {n : ℤ} (h : c.retryAt now n = .ok next)
    (hnow : InYears now) (hnext : InYears (now + (n + 1) * c.retryDelayBaseHours * hour)) :
    next = now + (n + 1) * c.retryDelayBaseHours * hour := by
  have hhours : |(n + 1) * c.retryDelayBaseHours| < 2 ^ 30 := by
    simp only [InYears, firstYear, lastYear, hour, second] at hnow hnext
    rw [abs_lt]
    constructor <;> linarith
  refine retryAt_of_wrap h ?_
  rcases eq_or_ne c.retryDelayBaseHours 0 with hbase | hbase
  · rw [hbase, mul_zero, mul_zero]
    rfl
  · have hn : |n + 1| ≤ |(n + 1) * c.retryDelayBaseHours| := by
      rw [abs_mul]
      exact le_mul_of_one_le_right (abs_nonneg _) (Int.one_le_abs hbase)
    obtain ⟨hlo, hhi⟩ := abs_lt.mp (hn.trans_lt hhours)
    obtain ⟨hlo', hhi'⟩ := abs_lt.mp hhours
    rw [(wrap_eq_iff 31 _).mpr ⟨by omega, by omega⟩, (wrap_eq_iff 63 _).mpr ⟨by omega, by omega⟩]

section
variable {c : ScheduleConfig} {g g' : Group} {start T : Time} {db db' : Db} {q : Queued} {i s : ℕ}

lemma mem_queue_counted {q' : Queued} (h : q' ∈ (counted q db).queue.rows) : q' ∈ db.queue.rows :=
  ((Table.mem_delete _).mp h).1

lemma members_counted (h : (q.buildInputId, s, g') ∈ db.inputs) (g : Group) :
    members g (counted q db) = if g = g' then
      (members g db).map fun b => { b with retries := b.retries + 1 } else members g db :=
  @members_incrementRetries (deleteQueued [q.id] db).2 _ _ _ h g

lemma inputs_counted (q : Queued) (db : Db) : (counted q db).inputs = db.inputs :=
  incrementRetries_inputs _ _

/-- To count a try makes nobody wait less. -/
lemma Waits.count (h : Waits c g start T db) (hT : start < T)
    (hi : (q.buildInputId, s, g') ∈ db.inputs) : Waits c g start T (counted q db) := by
  have hmembers := members_counted hi g
  split at hmembers
  · have hmem {b : BuildInput} (hb : b ∈ members g (counted q db)) :
        ∃ a ∈ members g db, b = { a with retries := a.retries + 1 } := by
      rw [hmembers] at hb
      obtain ⟨a, ha, rfl⟩ := List.mem_map.mp hb
      exact ⟨a, ha, rfl⟩
    have hkept {a : BuildInput} (ha : a ∈ members g db) :
        { a with retries := a.retries + 1 } ∈ members g (counted q db) := by
      rw [hmembers]
      exact List.mem_map.mpr ⟨a, ha, rfl⟩
    refine ⟨fun q' hq' b hb hid => ?_, ?_⟩
    · obtain ⟨a, ha, rfl⟩ := hmem hb
      exact h.rows q' (mem_queue_counted hq') a ha hid
    · rcases h.member with hwaits | ⟨hnone, b, hb, hex⟩
      · have hbase := hwaits.base_pos hT
        obtain ⟨b, hb, hpos, hdue, hle⟩ := hwaits
        refine .inl ⟨_, hkept hb, Int.lt_add_one_of_le hpos.le, hdue, hle.trans ?_⟩
        have hmono : (b.retries + 1) * c.retryDelayBaseHours ≤
            (b.retries + 1 + 1) * c.retryDelayBaseHours :=
          mul_le_mul_of_nonneg_right (by omega) hbase.le
        exact Int.add_le_add_left (mul_le_mul_of_nonneg_right hmono (by decide)) _
      · refine .inr ⟨fun q' hq' b' hb' hid => ?_, _, hkept hb, retriesExhausted_mono hex (Int.le_add_one le_rfl)⟩
        obtain ⟨a, ha, rfl⟩ := hmem hb'
        exact hnone q' (mem_queue_counted hq') a ha hid
  · exact h.congr hmembers fun q' hq' b hb hid => ⟨q', mem_queue_counted hq', rfl⟩

/-- The next retry of a group is scheduled, no earlier than at `T`. -/
lemma waits_of_schedule {d d' : Db} {n : ℤ} {next : Time} (hi : (i, s, g) ∈ d.inputs)
    (hn : getLargestRetryCountAmongFriends d i = .ok n) (hpos : 0 < n) (hnext : T ≤ next)
    (hle : T ≤ start + (n + 1) * c.retryDelayBaseHours * hour)
    (hd : d'.buildInputs = (setNextRetry (buildInputFriends d i) (some next) d).buildInputs) :
    Waits c g start T d' := by
  have hmembers := (members_congr hd g).trans (members_setNextRetry hi (some next) g)
  rw [if_pos rfl] at hmembers
  refine ⟨fun q' _ b hb _ => ?_, .inl ?_⟩
  · rw [hmembers] at hb
    obtain ⟨a, -, rfl⟩ := List.mem_map.mp hb
    exact ⟨next, rfl, hnext⟩
  · obtain ⟨⟨b, hb, rfl⟩, -⟩ := largestRetryCount_ok hi hn
    refine ⟨{ b with nextRetry := some next }, ?_, hpos, ⟨next, rfl, hnext⟩, hle⟩
    rw [hmembers]
    exact List.mem_map.mpr ⟨b, hb, rfl⟩

/-- To retry makes nobody wait less. -/
lemma Waits.retried {P : Time → Prop} (h : Waits c g start T db) (hT : start < T)
    (hi : (q.buildInputId, s, g') ∈ db.inputs) (hr : Retried c P q db db')
    (hdates : ∀ now next n, P now → c.retriesExhausted n = false →
      getLargestRetryCountAmongFriends (counted q db) q.buildInputId = .ok n →
      c.retryAt now n = .ok next →
        start ≤ now ∧ next = now + (n + 1) * c.retryDelayBaseHours * hour) :
    Waits c g start T db' := by
  have hc := h.count hT hi
  have hi' : (q.buildInputId, s, g') ∈ (counted q db).inputs := (inputs_counted q db).symm ▸ hi
  cases hr with
  | givenUp count exhausted jobs =>
    have hmembers := (members_congr jobs.buildInputs g).trans (members_setNextRetry hi' none g)
    have hqueue {q' : Queued} (hq' : q' ∈ db'.queue.rows) : q' ∈ (counted q db).queue.rows ∧
        q'.buildInputId ∉ buildInputFriends (counted q db) q.buildInputId := by
      rw [jobs.queue] at hq'
      obtain ⟨hq', hne⟩ := (Table.mem_delete _).mp hq'
      exact ⟨hq', by simpa using hne⟩
    split at hmembers
    · rename_i hg
      subst hg
      obtain ⟨⟨b, hb, rfl⟩, -⟩ := largestRetryCount_ok hi' count
      have hnone : ∀ q' ∈ db'.queue.rows, ∀ a ∈ members g db', a.id ≠ q'.buildInputId := by
        intro q' hq' a ha hid
        rw [hmembers] at ha
        obtain ⟨a, ha', rfl⟩ := List.mem_map.mp ha
        obtain ⟨ha, hg⟩ := mem_members.mp ha'
        exact (hqueue hq').2 (hid ▸ (mem_friends_iff hi' ha).mpr hg)
      refine ⟨fun q' hq' a ha hid => absurd hid (hnone q' hq' a ha), .inr ⟨hnone, ?_⟩⟩
      refine ⟨{ b with nextRetry := none }, ?_, exhausted⟩
      rw [hmembers]
      exact List.mem_map.mpr ⟨b, hb, rfl⟩
    · exact hc.congr hmembers fun q' hq' b hb hid => ⟨q', (hqueue hq').1, rfl⟩
  | @scheduled n now next count left time delay jobs =>
    obtain ⟨hstart, rfl⟩ := hdates now next n time left count delay
    have hfriends : buildInputFriends db q.buildInputId =
        buildInputFriends (counted q db) q.buildInputId :=
      (buildInputFriends_of_inputs (inputs_counted q db) _).symm
    have hinputs := jobs.buildInputs
    rw [hfriends] at hinputs
    by_cases hg : g = g'
    · subst hg
      obtain ⟨-, hmax⟩ := largestRetryCount_ok hi' count
      rcases hc.member with hwaits | ⟨-, b, hb, hex⟩
      · have hbase := hwaits.base_pos hT
        obtain ⟨b, hb, hpos, -, hle⟩ := hwaits
        have hmono : (b.retries + 1) * c.retryDelayBaseHours * hour ≤
            (n + 1) * c.retryDelayBaseHours * hour :=
          mul_le_mul_of_nonneg_right (mul_le_mul_of_nonneg_right
            (Int.add_le_add_right (hmax b hb) 1) hbase.le) (by decide)
        exact waits_of_schedule hi' count (hpos.trans_le (hmax b hb))
          (hle.trans (Int.add_le_add hstart hmono)) (hle.trans (Int.add_le_add_left hmono _)) hinputs
      · rw [retriesExhausted_mono hex (hmax b hb)] at left
        cases left
    · have hmembers := (members_congr hinputs g).trans (members_setNextRetry hi' _ g)
      rw [if_neg hg] at hmembers
      refine hc.congr hmembers fun q' hq' b hb hid => ?_
      rw [jobs.queue] at hq'
      have hother : q'.buildInputId ≠ q.buildInputId := by
        intro heq
        obtain ⟨hmem, hgb⟩ := mem_members.mp hb
        exact hg (hgb.symm.trans (group_eq hi' hmem (hid.trans heq)))
      exact mem_upsertQueued hq' hother

end

/-! ### Imports -/

/-- If the import of `p` enqueues its build input, that is not due before the next retry of a member
of its group that has been tried and still waits. -/
def enqueuesInTime (c : ScheduleConfig) (ties : Ties) (now : Time) (r : PackageReport) (db : Db)
    (p : SourcePackageReport) : Bool :=
  match c.firstTry now with
  | .error _ => true
  | .ok first =>
    let (input, imported) := importWithHistory now first r p db
    getCurrentRebuildStatus ties imported input.id == .good || hasQueuedFriend imported input.id ||
      retriesUsedUp c imported input.id ||
      (members input.group imported).all fun b =>
        b.retries ≤ 0 || b.nextRetry.all fun due => due ≤ now || input.nextRetry.any (due ≤ ·)

def importsInTime (c : ScheduleConfig) (ties : Ties) (now : Time) (r : PackageReport) :
    Db → List SourcePackageReport → Bool
  | _, [] => true
  | db, p :: ps => enqueuesInTime c ties now r db p &&
    match importPackage c ties now r db p with
    | .ok db' => importsInTime c ties now r db' ps
    | .error _ => true

section
variable {c : ScheduleConfig} {ties : Ties} {g : Group} {start T now : Time} {db db' : Db}
  {r : PackageReport} {p : SourcePackageReport}

/-- Giving up on a group of which none is queued. -/
lemma Waits.giveUp {i s : ℕ} {g' : Group} {n : ℤ} (h : Waits c g start T db)
    (hi : (i, s, g') ∈ db.inputs) (hnone : hasQueuedFriend db i = false)
    (hn : getLargestRetryCountAmongFriends db i = .ok n) (hex : c.retriesExhausted n = true) :
    Waits c g start T (markBuildInputFriendsAsNonRetriable db i) := by
  have hmembers : members g (markBuildInputFriendsAsNonRetriable db i) = _ :=
    members_setNextRetry hi none g
  have hqueue := (markNonRetriable_of_none_queued hnone).1
  split at hmembers
  · rename_i hg
    subst hg
    obtain ⟨⟨b, hb, rfl⟩, -⟩ := largestRetryCount_ok hi hn
    have hgone : ∀ q ∈ (markBuildInputFriendsAsNonRetriable db i).queue.rows,
        ∀ a ∈ members g (markBuildInputFriendsAsNonRetriable db i), a.id ≠ q.buildInputId := by
      intro q hq a ha hid
      rw [hqueue] at hq
      rw [hmembers] at ha
      obtain ⟨a, ha', rfl⟩ := List.mem_map.mp ha
      obtain ⟨ha, hg⟩ := mem_members.mp ha'
      have hqueued : hasQueuedFriend db i = true :=
        (hasQueuedFriend_iff hi).mpr ⟨q, hq, _, mem_inputs.mpr ⟨a, ha, hid, rfl, hg⟩⟩
      rw [hnone] at hqueued
      cases hqueued
    refine ⟨fun q hq a ha hid => absurd hid (hgone q hq a ha), .inr ⟨hgone, ?_⟩⟩
    refine ⟨{ b with nextRetry := none }, ?_, hex⟩
    rw [hmembers]
    exact List.mem_map.mpr ⟨b, hb, rfl⟩
  · refine h.congr hmembers fun q' hq' b hb hid => ⟨q', ?_, rfl⟩
    rw [← hqueue]
    exact hq'

/-- A job is enqueued that is not due before `T`, if it is of the group. -/
lemma Waits.enqueue {input : BuildInput} (h : Waits c g start T db)
    (hstored : input ∈ db.buildInputs.rows) (hnone : hasQueuedFriend db input.id = false)
    (hdue : input.group = g → MemberWaits c g start T db ∧
      ∃ due, input.nextRetry = some due ∧ T ≤ due) (priority : Priority) :
    Waits c g start T (NewQueued.upsert ⟨input.id, priority, now⟩ db) := by
  have hi : (input.id, _, input.group) ∈ db.inputs := mem_inputs.mpr ⟨input, hstored, rfl, rfl, rfl⟩
  by_cases hg : input.group = g
  · obtain ⟨hwaits, hdue⟩ := hdue hg
    refine ⟨fun q hq b hb hid => ?_, .inl hwaits⟩
    rw [upsertQueued_of_none_queued hi hnone] at hq
    rcases (Table.mem_insert _).mp hq with hq | rfl
    · exact h.rows q hq b hb hid
    · rw [Table.eq_of_key (mem_members.mp hb).1 hstored hid]
      exact hdue
  · refine h.congr rfl fun q hq b hb hid => mem_upsertQueued hq fun heq => hg ?_
    obtain ⟨hb, hbg⟩ := mem_members.mp hb
    rw [← hbg, Table.eq_of_key hb hstored (hid.trans heq)]

lemma Waits.import (h : Waits c g start T db) (hl : Limited c db) (hnow : now < T)
    (htime : enqueuesInTime c ties now r db p = true)
    (hok : importPackage c ties now r db p = .ok db') : Waits c g start T db' := by
  obtain ⟨first, hfirst, henq⟩ := importPackage_ok hok
  obtain ⟨new, hrows, -⟩ := buildInputs_importWithHistory now first r p db
  have hgrown : Waits c g start T (importWithHistory now first r p db).2 :=
    h.grow (fun b hb => hrows ▸ List.mem_append_left _ hb)
      (importWithHistory_frame now first r p db).queue hl.hasInput
  clear hrows
  have hstored := (importWithHistory_imported now first r p db).stored
  unfold enqueuesInTime at htime
  simp only [hfirst] at htime
  generalize importWithHistory now first r p db = out at henq hgrown hstored htime
  obtain ⟨input, d⟩ := out
  dsimp only at henq hgrown hstored htime
  have hi : (input.id, _, input.group) ∈ d.inputs := mem_inputs.mpr ⟨input, hstored, rfl, rfl, rfl⟩
  rcases enqueueImported_cases henq with ⟨-, rfl⟩ | ⟨hbad, hnone, n, hn, ⟨hex, rfl⟩ | ⟨hleft, priority, rfl⟩⟩
  · exact hgrown
  · exact hgrown.giveUp hi hnone hn hex
  · refine hgrown.enqueue hstored hnone (fun hg => ?_) priority
    subst hg
    rcases hgrown.member with hwaits | ⟨-, b, hb, hex⟩
    · refine ⟨hwaits, ?_⟩
      obtain ⟨b, hb, hpos, ⟨due, hdue, hT⟩, -⟩ := hwaits
      have hused : retriesUsedUp c d input.id = false := by
        unfold retriesUsedUp
        rw [hn]
        exact hleft
      simp only [Bool.or_eq_true, beq_iff_eq, hbad, hnone, hused, Bool.false_eq_true, or_false,
        false_or, List.all_eq_true] at htime
      have hlater := htime b hb
      simp only [hdue, Option.all_some, decide_eq_true_eq, Bool.or_eq_true, not_le.mpr hpos,
        not_le.mpr (hnow.trans_le hT), false_or, Option.any_eq_true] at hlater
      obtain ⟨own, hown, hle⟩ := hlater
      exact ⟨own, hown, hT.trans hle⟩
    · obtain ⟨-, hmax⟩ := largestRetryCount_ok hi hn
      rw [retriesExhausted_mono hex (hmax b hb)] at hleft
      cases hleft

lemma Waits.imports {ps : List SourcePackageReport} (h : Waits c g start T db) (hl : Limited c db)
    (hnow : now < T) (htime : importsInTime c ties now r db ps = true)
    (hok : ps.foldlM (importPackage c ties now r) db = .ok db') : Waits c g start T db' := by
  induction ps generalizing db with
  | nil =>
    cases hok
    exact h
  | cons p ps ih =>
    rw [List.foldlM_cons] at hok
    obtain ⟨hp, hps⟩ := Bool.and_eq_true_iff.mp htime
    rcases hd : importPackage c ties now r db p with e | d
    · rw [hd] at hok
      cases hok
    · rw [hd] at hok hps
      exact ih (h.import hl hnow hp hd) (hl.import hd) hps hok

lemma Waits.commit (h : Waits c g start T db) (hl : Limited c db) (hnow : now < T)
    (htime : importsInTime c ties now r (markScopedPackagesUnseen r db) r.packages = true)
    (hok : commitPackageReport c ties now r db = .ok db') : Waits c g start T db' := by
  obtain ⟨d, hf, rfl⟩ := commitPackageReport_ok hok
  have hmark : Waits c g start T (markScopedPackagesUnseen r db) :=
    h.congr rfl fun q hq _ _ _ => ⟨q, hq, rfl⟩
  exact (hmark.imports (hl.mark r) hnow htime hf).congr rfl fun q hq _ _ _ =>
    ⟨q, ((Table.mem_delete _).mp hq).1, rfl⟩

end

end Rebuilderd.Daemon
