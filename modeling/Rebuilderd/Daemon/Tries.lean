import Rebuilderd.Daemon.Waiting

/-!
The tries of a group of friends, over any interleaving of requests.

Each report that is not good counts a try of the friends it has looked up. Members that are imported
later start at zero, but the oldest member of the group is among the friends of every report, so its
retries are the number of tries that were counted.
-/

namespace Rebuilderd.Daemon

open Rebuilderd.Lib Rebuilderd.Common

/-! ### Statements that count a try -/

def Stmt.countsTryOf (i : ℕ) : Stmt → Bool
  | .incrementRetries ids => ids.contains i
  | _ => false

/-- The retries of a build input after a statement. -/
def Stmt.triesAfter (s : Stmt) (x : (ℕ × ℕ × Group) × ℤ) : (ℕ × ℕ × Group) × ℤ :=
  if s.countsTryOf x.1.1 then (x.1, x.2 + 1) else x

/-- The statement counts a try of a member of the group. -/
def countsTry (g : Group) (e : Event) : Bool :=
  e.before.tries.any fun x => x.1.2.2 == g && e.stmt.countsTryOf x.1.1

/-- How many tries of the group have been counted. -/
def triesOf (g : Group) (tr : List Event) : ℕ := tr.countP (countsTry g)

section
variable {c : ScheduleConfig} {ties : Ties} {now : Time} {r : PackageReport} {db db' : Db}

/-- The build inputs of `db'` are those of `db` and others that have not been tried. -/
def NewUntried (db db' : Db) : Prop :=
  ∃ new, db'.tries = db.tries ++ new ∧ ∀ x ∈ new, x.2 = 0

lemma NewUntried.of_eq (h : db'.tries = db.tries) : NewUntried db db' :=
  ⟨[], by rw [h, List.append_nil], by simp⟩

lemma NewUntried.trans {db'' : Db} (h : NewUntried db db') (h' : NewUntried db' db'') :
    NewUntried db db'' := by
  obtain ⟨new, htries, hzero⟩ := h
  obtain ⟨new', htries', hzero'⟩ := h'
  refine ⟨new ++ new', by rw [htries', htries, List.append_assoc], fun x hx => ?_⟩
  rcases List.mem_append.mp hx with hx | hx
  · exact hzero x hx
  · exact hzero' x hx

lemma tries_setNextRetry (ids : List ℕ) (next : Option Time) (db : Db) :
    (setNextRetry ids next db).tries = db.tries :=
  Table.map_rows_update _ fun _ _ _ => rfl

lemma newUntried_import {p : SourcePackageReport} (h : importPackage c ties now r db p = .ok db') :
    NewUntried db db' := by
  obtain ⟨first, -, henq⟩ := importPackage_ok h
  have himport : NewUntried db (importWithHistory now first r p db).2 :=
    tries_importWithHistory now first r p db
  refine himport.trans (.of_eq ?_)
  rcases enqueueImported_cases henq with ⟨-, h⟩ | ⟨-, -, n, -, ⟨-, h⟩ | ⟨-, priority, h⟩⟩ <;> rw [h]
  · exact tries_setNextRetry _ _ _
  · rfl

lemma newUntried_commit (h : commitPackageReport c ties now r db = .ok db') : NewUntried db db' := by
  obtain ⟨d, hf, rfl⟩ := commitPackageReport_ok h
  have himports : NewUntried db d := foldlM_ok (I := fun _ d => NewUntried db d) hf (.of_eq rfl)
    fun _ p d d' _ hd hok => hd.trans (newUntried_import hok)
  exact himports

/-- A statement counts the tries it is about, and may add build inputs that have not been tried. -/
lemma exec_tries (env : Env) (t : Time) (s : Stmt) (db : Db) :
    ∃ new, ((exec env).answer t s db).2.tries = db.tries.map s.triesAfter ++ new ∧
      ∀ x ∈ new, x.2 = 0 := by
  have hsame (hs : ∀ i, s.countsTryOf i = false) (h : NewUntried db ((exec env).answer t s db).2) :
      ∃ new, ((exec env).answer t s db).2.tries = db.tries.map s.triesAfter ++ new ∧
        ∀ x ∈ new, x.2 = 0 := by
    have hid : db.tries.map s.triesAfter = db.tries :=
      (List.map_congr_left fun x _ => if_neg (by rw [hs]; exact Bool.false_ne_true)).trans
        (List.map_id _)
    rw [hid]
    exact h
  rcases hkeeps : s.keepsInputs with _ | _
  · cases s with
    | incrementRetries ids =>
      exact ⟨[], by rw [List.append_nil]; exact tries_incrementRetries ids db, by simp⟩
    | setNextRetry ids next => exact hsame (fun _ => rfl) (.of_eq (tries_setNextRetry ids next db))
    | commitPackageReport now r =>
      refine hsame (fun _ => rfl) (Exec.answer_inv (I := NewUntried db) (.of_eq rfl) ?_)
      exact fun u db' hok => newUntried_commit (exec_commit hok)
    | _ => cases hkeeps
  · have hs (i : ℕ) : s.countsTryOf i = false := by
      cases s <;> first | rfl | cases hkeeps
    refine hsame hs (.of_eq ?_)
    unfold Db.tries
    rw [exec_buildInputs env t hkeeps db]

lemma nonneg_exec (h : ∀ x ∈ db.tries, 0 ≤ x.2) (env : Env) (t : Time) (s : Stmt) :
    ∀ x ∈ ((exec env).answer t s db).2.tries, 0 ≤ x.2 := by
  obtain ⟨new, htries, hzero⟩ := exec_tries env t s db
  intro x hx
  rw [htries] at hx
  rcases List.mem_append.mp hx with hx | hx
  · obtain ⟨y, hy, rfl⟩ := List.mem_map.mp hx
    have hle := h y hy
    unfold Stmt.triesAfter
    split
    · exact Int.add_nonneg hle Int.one_nonneg
    · exact hle
  · exact (hzero x hx).ge

/-- No retries are negative. -/
lemma reachable_nonneg {env : Env} (h : Reachable env db) : ∀ x ∈ db.tries, 0 ≤ x.2 := by
  obtain ⟨as, rfl⟩ := h
  have hstart : ∀ x ∈ env.start.tries, (0 : ℤ) ≤ x.2 := by simp [Env.start, Db.empty, Db.tries]
  exact Pool.run_inv (I := fun db : Db => ∀ x ∈ db.tries, 0 ≤ x.2)
    (fun t s _ hd => nonneg_exec hd env t s) hstart as

end

/-! ### Counting the tries of a run -/

/-- A member of the group has been tried as often as was counted, and is among the friends that were
looked up for any member. -/
def Oldest (g : Group) (tr : List Event) (db : Db) : Prop :=
  ∃ x ∈ db.tries, x.1.2.2 = g ∧ (triesOf g tr : ℤ) ≤ x.2 ∧
    ∀ e ∈ tr, ∀ t i ids s, e.toStep = ⟨t, .buildInputFriends i, .ok ids⟩ →
      (i, s, g) ∈ e.before.inputs → x.1.1 ∈ ids

/-- The group has no members yet, or one that has been tried as often as was counted. -/
structure Counted (g : Group) (tr : List Event) (db : Db) : Prop where
  nonneg : ∀ x ∈ db.tries, 0 ≤ x.2
  oldest : (triesOf g tr = 0 ∧ ∀ x ∈ db.tries, x.1.2.2 ≠ g) ∨ Oldest g tr db

/-- A build input has friends only if it is stored, and they are of its group. -/
lemma group_of_friend {db : Db} {i j : ℕ} (h : j ∈ buildInputFriends db i) :
    ∃ s s' g, (i, s, g) ∈ db.inputs ∧ (j, s', g) ∈ db.inputs := by
  by_cases hi : ∃ b ∈ db.buildInputs.rows, b.id = i
  · obtain ⟨b, hb, rfl⟩ := hi
    have hin : (b.id, _, b.group) ∈ db.inputs := mem_inputs.mpr ⟨b, hb, rfl, rfl, rfl⟩
    obtain ⟨s', hs'⟩ := (mem_buildInputFriends_iff hin).mp h
    exact ⟨_, s', _, hin, hs'⟩
  · exfalso
    obtain ⟨b, hb, -⟩ := List.mem_map.mp h
    have hnone : db.buildInputs.rows.filter (fun b => b.id == i) = [] :=
      List.filter_eq_nil_iff.mpr fun b hb hid => hi ⟨b, hb, beq_iff_eq.mp hid⟩
    obtain ⟨-, hfriend⟩ := List.mem_filter.mp hb
    simp [hnone] at hfriend

section
variable {env : Env} {ok : Call → OwnSteps → Time → Stmt → Prop} {tr : List Event} {g : Group}

/-- The build inputs of an event are there at the end of the trace. -/
lemma inputs_of_event (hh : History (exec env) ok env.start tr) {e : Event} (he : e ∈ tr)
    {x : ℕ × ℕ × Group} (hx : x ∈ e.before.inputs) :
    x ∈ (stateAfter (exec env) env.start tr).inputs := by
  obtain ⟨pre, post, rfl⟩ := List.append_of_mem he
  refine History.stable (I := fun db : Db => x ∈ db.inputs)
    (fun t s db => exec_inputs env t s db x) hh ?_
  rw [← hh.event.1]
  exact hx

lemma answer_buildInputFriends (hh : History (exec env) ok env.start tr) {e : Event} {t : Time} {i : ℕ}
    {ids : List ℕ} (he : e ∈ tr) (hstep : e.toStep = ⟨t, .buildInputFriends i, .ok ids⟩) :
    ids = buildInputFriends e.before i := by
  obtain ⟨pre, post, rfl⟩ := List.append_of_mem he
  have hans := hh.event.2.1
  obtain ⟨⟨t', s, a⟩, j, c, db⟩ := e
  cases hstep
  exact Except.ok.inj hans

/-- The friends of which an event counts a try were looked up for a member of the group. -/
lemma group_of_lookup {e l : Event} {t : Time} {i : ℕ} {ids : List ℕ}
    (hh : History (exec env) ok env.start (tr ++ [e])) (he : countsTry g e = true)
    (hs : e.stmt = .incrementRetries ids) (hl : l ∈ tr)
    (hstep : l.toStep = ⟨t, .buildInputFriends i, .ok ids⟩) : ∃ s, (i, s, g) ∈ l.before.inputs := by
  obtain ⟨z, hz, hgz⟩ := List.any_eq_true.mp he
  obtain ⟨hzg, hcounts⟩ := Bool.and_eq_true_iff.mp hgz
  rw [hs] at hcounts
  have hmem : z.1.1 ∈ buildInputFriends l.before i := by
    rw [← answer_buildInputFriends hh.of_append hl hstep]
    simpa [Stmt.countsTryOf] using hcounts
  obtain ⟨s, s', g', hi, hj⟩ := group_of_friend hmem
  have hold := inputs_of_event hh.of_append hl hj
  rw [← hh.last.1] at hold
  obtain rfl : g' = g := (inputs_inj hold (mem_inputs_of_tries hz)).2.trans (beq_iff_eq.mp hzg)
  exact ⟨s, hi⟩

lemma stmt_of_countsTry {e : Event} (h : countsTry g e = true) :
    ∃ ids, e.stmt = .incrementRetries ids := by
  obtain ⟨z, -, hz⟩ := List.any_eq_true.mp h
  obtain ⟨-, hcounts⟩ := Bool.and_eq_true_iff.mp hz
  cases hs : e.stmt with
  | incrementRetries ids => exact ⟨ids, rfl⟩
  | _ => rw [hs] at hcounts; cases hcounts

/-- The tries that an event counts are those of friends that were looked up before. -/
lemma exists_lookup (hok : ∀ c own t ids, ok c own t (.incrementRetries ids) →
      ∃ i, Did own (.buildInputFriends i) ids) {e : Event}
    (hh : History (exec env) ok env.start (tr ++ [e])) (he : countsTry g e = true) :
    ∃ ids, e.stmt = .incrementRetries ids ∧ ∃ l ∈ tr, ∃ t i s,
      l.toStep = ⟨t, .buildInputFriends i, .ok ids⟩ ∧ (i, s, g) ∈ l.before.inputs := by
  obtain ⟨ids, hs⟩ := stmt_of_countsTry he
  obtain ⟨-, -, hallowed, -⟩ := hh.last
  rw [hs] at hallowed
  obtain ⟨i, t, hdid⟩ := hok _ _ _ _ hallowed
  obtain ⟨l, hl, -, hstep⟩ := mem_own.mp hdid
  obtain ⟨s, hi⟩ := group_of_lookup hh he hs hl hstep
  exact ⟨ids, hs, l, hl, t, i, s, hstep, hi⟩

lemma triesOf_snoc (e : Event) : triesOf g (tr ++ [e]) = triesOf g tr + (countsTry g e).toNat := by
  unfold triesOf
  rw [List.countP_append, List.countP_singleton]
  cases countsTry g e <;> rfl

lemma fst_triesAfter (s : Stmt) (x : (ℕ × ℕ × Group) × ℤ) : (s.triesAfter x).1 = x.1 := by
  unfold Stmt.triesAfter
  split <;> rfl

lemma counted_step (hok : ∀ c own t ids, ok c own t (.incrementRetries ids) →
      ∃ i, Did own (.buildInputFriends i) ids) {e : Event}
    (hh : History (exec env) ok env.start (tr ++ [e])) (h : Counted g tr e.before) :
    Counted g (tr ++ [e]) (e.after (exec env)) := by
  obtain ⟨hbefore, hans, -, -⟩ := hh.last
  obtain ⟨new, htries, hzero⟩ := exec_tries env e.input e.stmt e.before
  change (e.after (exec env)).tries = _ at htries
  have hnonneg : ∀ x ∈ (e.after (exec env)).tries, 0 ≤ x.2 :=
    nonneg_exec h.nonneg env e.input e.stmt
  refine ⟨hnonneg, ?_⟩
  rcases h.oldest with ⟨hnone, hno⟩ | ⟨x, hx, hxg, hle, hfriends⟩
  · have hcounts : countsTry g e = false := by
      refine List.any_eq_false.mpr fun z hz hgz => hno z hz ?_
      exact beq_iff_eq.mp (Bool.and_eq_true_iff.mp hgz).1
    have htotal : triesOf g (tr ++ [e]) = 0 := by
      rw [triesOf_snoc, hnone, hcounts]
      rfl
    by_cases hmember : ∃ x ∈ (e.after (exec env)).tries, x.1.2.2 = g
    · obtain ⟨x, hx, hxg⟩ := hmember
      refine .inr ⟨x, hx, hxg, ?_, fun e' he' t i ids s hstep hi => ?_⟩
      · rw [htotal]
        exact hnonneg x hx
      · -- Nothing of the group was there to be looked up.
        have hnow : (i, s, g) ∈ e.before.inputs := by
          rcases List.mem_append.mp he' with he' | he'
          · rw [hbefore]
            exact inputs_of_event hh.of_append he' hi
          · rwa [List.mem_singleton.mp he'] at hi
        obtain ⟨n, hn⟩ := exists_tries hnow
        exact absurd rfl (hno _ hn)
    · exact .inl ⟨htotal, fun x hx hxg => hmember ⟨x, hx, hxg⟩⟩
  · refine .inr ⟨e.stmt.triesAfter x, ?_, ?_, ?_, fun e' he' t i ids s hstep hi => ?_⟩
    · rw [htries]
      exact List.mem_append_left _ (List.mem_map.mpr ⟨x, hx, rfl⟩)
    · rw [fst_triesAfter]
      exact hxg
    · rw [triesOf_snoc]
      rcases hcounts : countsTry g e with _ | _
      · refine hle.trans ?_
        unfold Stmt.triesAfter
        split
        · exact Int.le_add_one le_rfl
        · exact le_rfl
      · obtain ⟨ids, hs, l, hl, t, i, s, hstep, hi⟩ := exists_lookup hok hh hcounts
        have hmem := hfriends l hl t i ids s hstep hi
        rw [hs, Stmt.triesAfter, if_pos (by simpa [Stmt.countsTryOf] using hmem)]
        push_cast
        exact Int.add_le_add_right hle 1
    · rw [fst_triesAfter]
      rcases List.mem_append.mp he' with he' | he'
      · exact hfriends e' he' t i ids s hstep hi
      · obtain rfl := List.mem_singleton.mp he'
        obtain ⟨⟨t', s', a⟩, j, c, db⟩ := e'
        cases hstep
        obtain rfl : ids = buildInputFriends db i := Except.ok.inj hans
        refine (mem_buildInputFriends_iff hi).mpr ⟨x.1.2.1, ?_⟩
        rw [← hxg]
        exact mem_inputs_of_tries hx

/-- **The retries of a group keep up with the tries that are counted.** -/
theorem counted_of_history (hok : ∀ c own t ids, ok c own t (.incrementRetries ids) →
      ∃ i, Did own (.buildInputFriends i) ids) (hh : History (exec env) ok env.start tr) (g : Group) :
    Counted g tr (stateAfter (exec env) env.start tr) :=
  hh.invariant (I := Counted g)
    ⟨by simp [Env.start, Db.empty, Db.tries], .inl ⟨rfl, by simp [Env.start, Db.empty, Db.tries]⟩⟩ (counted_step hok)

end

end Rebuilderd.Daemon
