import Rebuilderd.Daemon.Records

/-!
What the listings show of a history: the latest record, and its verdict on a binary package.
-/

namespace Rebuilderd.Daemon

open Rebuilderd.Lib Rebuilderd.Common

/-! ### The latest record -/

/-- The records no other one supersedes: none is later, and none that comes after is as late. -/
def latestRecords : List Record → List Record
  | [] => []
  | x :: xs =>
    (if xs.any fun y => sqlLt x.builtText y.builtText || sqlEq x.builtText y.builtText then [] else [x]) ++
      (latestRecords xs).filter fun y => !sqlLt y.builtText x.builtText

section
variable {l l' : List Record} {x y : Record}

lemma mem_latest_cons : y ∈ latestRecords (x :: l) ↔
    (y = x ∧ ∀ z ∈ l, sqlLt x.builtText z.builtText = false ∧ sqlEq x.builtText z.builtText = false) ∨
      (y ∈ latestRecords l ∧ sqlLt y.builtText x.builtText = false) := by
  rw [latestRecords, List.mem_append, List.mem_filter, Bool.not_eq_true']
  refine or_congr_left ?_
  split
  · rename_i h
    obtain ⟨z, hz, hsup⟩ := List.any_eq_true.mp h
    refine iff_of_false (by simp) ?_
    rintro ⟨-, hall⟩
    simp [(hall z hz).1, (hall z hz).2] at hsup
  · rename_i h
    simp only [List.any_eq_true, not_exists, not_and, Bool.or_eq_true, not_or, Bool.not_eq_true] at h
    simpa using fun _ => h

lemma mem_of_mem_latest (h : x ∈ latestRecords l) : x ∈ l := by
  induction l with
  | nil => cases h
  | cons z l ih =>
    rcases mem_latest_cons.mp h with ⟨rfl, -⟩ | ⟨hmem, -⟩
    · exact List.mem_cons_self
    · exact List.mem_cons_of_mem _ (ih hmem)

/-- The latest record of two histories after each other is the latest of one of them. -/
lemma latest_append (h : x ∈ latestRecords (l ++ l')) :
    x ∈ latestRecords l ∨ (x ∈ latestRecords l' ∧ ∀ y ∈ l, sqlLt x.builtText y.builtText = false) := by
  induction l with
  | nil => exact .inr ⟨h, by simp⟩
  | cons z l ih =>
    rw [List.cons_append, mem_latest_cons] at h
    rcases h with ⟨rfl, hall⟩ | ⟨hmem, hz⟩
    · exact .inl (mem_latest_cons.mpr (.inl ⟨rfl, fun y hy => hall y (List.mem_append_left _ hy)⟩))
    · rcases ih hmem with hmem | ⟨hmem, hall⟩
      · exact .inl (mem_latest_cons.mpr (.inr ⟨hmem, hz⟩))
      · exact .inr ⟨hmem, List.forall_mem_cons.mpr ⟨hz, hall⟩⟩

lemma mem_latest (hl : ∀ y ∈ l, sqlLt x.builtText y.builtText = false)
    (hl' : ∀ y ∈ l', sqlLt x.builtText y.builtText = false ∧ sqlEq x.builtText y.builtText = false) :
    x ∈ latestRecords (l ++ x :: l') := by
  induction l with
  | nil => exact mem_latest_cons.mpr (.inl ⟨rfl, hl'⟩)
  | cons z l ih =>
    obtain ⟨hz, hl⟩ := List.forall_mem_cons.mp hl
    exact mem_latest_cons.mpr (.inr ⟨ih hl, hz⟩)

/-- Which record is the latest does not depend on what was recorded. -/
lemma latest_forall₂ {R : Record → Record → Prop} (hR : ∀ x y, R x y → y.builtText = x.builtText)
    (h : List.Forall₂ R l l') (hy : y ∈ latestRecords l') : ∃ x ∈ latestRecords l, R x y := by
  induction h with
  | nil => cases hy
  | @cons a b l l' hab h ih =>
    rcases mem_latest_cons.mp hy with ⟨rfl, hall⟩ | ⟨hmem, hlt⟩
    · refine ⟨a, mem_latest_cons.mpr (.inl ⟨rfl, fun z hz => ?_⟩), hab⟩
      obtain ⟨i, hi, rfl⟩ := List.mem_iff_getElem.mp hz
      have hi' : i < l'.length := h.length_eq ▸ hi
      have hzi := hall _ (List.getElem_mem hi')
      have hget := h.get hi hi'
      simp only [List.get_eq_getElem] at hget
      rwa [hR _ _ hab, hR _ _ hget] at hzi
    · obtain ⟨x, hx, hxy⟩ := ih hmem
      refine ⟨x, mem_latest_cons.mpr (.inr ⟨hx, ?_⟩), hxy⟩
      rwa [hR _ _ hxy, hR _ _ hab] at hlt

end

/-! ### Verdicts -/

/-- Whether a binary package of this name is shown as good: by an artifact of its name that is good,
or has no status while the rebuild is good, or by a good rebuild without an artifact of its name. -/
def verdictGood (status : Option BuildStatus) (artifacts : List (String × Option ArtifactStatus))
    (name : String) : Bool :=
  artifacts.any (fun a => a.1 == name && (a.2.map ArtifactStatus.toBuild).or status == some .good) ||
    (artifacts.all (·.1 != name) && status == some .good)

def Record.showsGood (rec : Record) (name : String) : Bool :=
  verdictGood rec.status (rec.artifacts.map fun a => (a.name, a.status)) name

/-- What `request_rebuild` leaves of a record. -/
def Record.forget (rec : Record) : Record :=
  { rec with status := none, artifacts := rec.artifacts.map fun a => { a with status := none } }

lemma forget_showsGood (rec : Record) (name : String) : rec.forget.showsGood name = false := by
  simp [Record.showsGood, Record.forget, verdictGood]

/-- A rebuild is at one place of the history of its build input; the ones before it have smaller
ids, the ones after it larger ids. -/
lemma history_split {db : Db} {r : Rebuild} (hr : r ∈ db.rebuilds.rows) :
    ∃ rs rs' : List Rebuild,
    history db r.buildInputId = rs.map (fun x => x.record (artifactsOf db x.id)) ++
        r.record (artifactsOf db r.id) :: rs'.map (fun x => x.record (artifactsOf db x.id)) ∧
      (∀ x ∈ rs, x ∈ db.rebuilds.rows ∧ x.buildInputId = r.buildInputId ∧ x.id < r.id) ∧
      ∀ x ∈ rs', x ∈ db.rebuilds.rows ∧ x.buildInputId = r.buildInputId ∧ r.id < x.id := by
  have hmem : r ∈ db.rebuilds.rows.filter (·.buildInputId == r.buildInputId) :=
    List.mem_filter.mpr ⟨hr, by simp⟩
  have hsorted := db.rebuilds.sorted.filter (·.buildInputId == r.buildInputId)
  have hown (x : Rebuild) (hx : x ∈ db.rebuilds.rows.filter (·.buildInputId == r.buildInputId)) :
      x ∈ db.rebuilds.rows ∧ x.buildInputId = r.buildInputId := by
    simpa using hx
  unfold history
  obtain ⟨rs, rs', hsplit⟩ := List.append_of_mem hmem
  rw [hsplit] at hsorted hown ⊢
  obtain ⟨-, hright, hleft⟩ := List.pairwise_append.mp hsorted
  refine ⟨rs, rs', by simp, fun x hx => ?_, fun x hx => ?_⟩
  · obtain ⟨h₁, h₂⟩ := hown x (by simp [hx])
    exact ⟨h₁, h₂, hleft x hx r (by simp)⟩
  · obtain ⟨h₁, h₂⟩ := hown x (by simp [hx])
    exact ⟨h₁, h₂, (List.pairwise_cons.mp hright).1 x hx⟩

/-- A rebuild that no other one of its build input supersedes is recorded as the latest. -/
lemma record_mem_latest {db : Db} {r : Rebuild} (hr : r ∈ db.rebuilds.rows)
    (h : ∀ x ∈ db.rebuilds.rows, x.buildInputId = r.buildInputId → x.supersedes r = false) :
    r.record (artifactsOf db r.id) ∈ latestRecords (history db r.buildInputId) := by
  obtain ⟨rs, rs', hsplit, hrs, hrs'⟩ := history_split hr
  rw [hsplit]
  refine mem_latest (fun y hy => ?_) fun y hy => ?_ <;> obtain ⟨x, hx, rfl⟩ := List.mem_map.mp hy
  · obtain ⟨hmem, hin, -⟩ := hrs x hx
    have hsup := h x hmem hin
    simp only [Rebuild.supersedes, Bool.or_eq_false_iff] at hsup
    exact hsup.1
  · obtain ⟨hmem, hin, hlt⟩ := hrs' x hx
    have hsup := h x hmem hin
    simp only [Rebuild.supersedes, Bool.or_eq_false_iff, Bool.and_eq_false_iff, decide_eq_false_iff_not]
      at hsup
    exact ⟨hsup.1, hsup.2.resolve_right fun hnot => hnot hlt⟩

lemma showsGood_of_artifact {db : Db} {r : Rebuild} {a : RebuildArtifact} {name : String}
    (ha : a ∈ db.rebuildArtifacts.rows) (hid : a.rebuildId = r.id) (hname : a.name = name)
    (hgood : (a.status.map ArtifactStatus.toBuild).or r.status = some .good) :
    (r.record (artifactsOf db r.id)).showsGood name = true := by
  have hmem : a.content ∈ artifactsOf db r.id :=
    List.mem_map.mpr ⟨a, List.mem_filter.mpr ⟨ha, by simpa using hid⟩, rfl⟩
  unfold Record.showsGood verdictGood
  rw [Bool.or_eq_true, List.any_eq_true]
  refine .inl ⟨_, List.mem_map.mpr ⟨_, hmem, rfl⟩, ?_⟩
  simpa [RebuildArtifact.content, Rebuild.record, hname] using hgood

lemma showsGood_of_rebuild {db : Db} {r : Rebuild} {name : String}
    (hnone : ∀ a ∈ db.rebuildArtifacts.rows, a.rebuildId = r.id → a.name ≠ name)
    (hgood : r.status = some .good) : (r.record (artifactsOf db r.id)).showsGood name = true := by
  have hall : (artifactsOf db r.id).all (fun a => a.name != name) = true := by
    rw [List.all_eq_true]
    intro a ha
    obtain ⟨art, hart, rfl⟩ := List.mem_map.mp ha
    obtain ⟨hart, hid⟩ := List.mem_filter.mp hart
    simpa [RebuildArtifact.content] using hnone art hart (by simpa using hid)
  unfold Record.showsGood verdictGood
  rw [Bool.or_eq_true, Bool.and_eq_true, List.all_map]
  exact .inr ⟨hall, by simpa [Rebuild.record] using hgood⟩

/-- **What is behind a binary package that is shown as good**: the latest rebuild of its build
input, with that verdict. -/
theorem shown_good {db : Db} {shown : BinaryPackageRecord} (h : shown ∈ shownBinaryPackages db)
    (hgood : shown.status = some .good) : ∃ p ∈ db.binaryPackages.rows, p.name = shown.name ∧
      p.version = shown.version ∧ ∃ r ∈ db.rebuilds.rows, r.buildInputId = p.buildInputId ∧
        shown.buildId = some r.id ∧
        r.record (artifactsOf db r.id) ∈ latestRecords (history db p.buildInputId) ∧
        (r.record (artifactsOf db r.id)).showsGood p.name = true := by
  obtain ⟨base, hbase, rfl⟩ := List.mem_map.mp h
  obtain ⟨row, hjoin, rfl⟩ := List.mem_map.mp hbase
  simp only [binaryRows, List.bind_eq_flatMap, List.mem_flatMap, List.mem_filter, beq_iff_eq] at hjoin
  obtain ⟨p, hp, s, -, b, ⟨-, hbid⟩, r1, hr1, a, ha, r2, hr2, hrow⟩ := hjoin
  split at hrow
  · rename_i hnone
    obtain rfl : r2 = none := by simpa using hnone
    obtain rfl := List.mem_singleton.mp hrow
    have hcolumns : (binaryRecord ⟨p, s, r1, a⟩).coalesce.name = p.name ∧
        (binaryRecord ⟨p, s, r1, a⟩).coalesce.version = p.version ∧
        (binaryRecord ⟨p, s, r1, a⟩).coalesce.buildId = r1.map (·.id) := by
      unfold BinaryPackageRecord.coalesce
      split <;> exact ⟨rfl, rfl, rfl⟩
    have hstatus : ((a.bind (·.status)).map ArtifactStatus.toBuild).or (r1.bind (·.status)) =
        some .good := by
      rw [← hgood]
      unfold BinaryPackageRecord.coalesce binaryRecord
      rcases (a.bind (·.status)).map ArtifactStatus.toBuild with _ | st <;> simp
    rcases mem_leftJoin.mp hr1 with ⟨r, hr, hin, rfl⟩ | ⟨-, rfl⟩
    · have hrid : r.buildInputId = p.buildInputId := (beq_iff_eq.mp hin).trans hbid
      have hlatest : ∀ x ∈ db.rebuilds.rows, x.buildInputId = r.buildInputId →
          x.supersedes r = false := by
        rcases mem_leftJoin.mp hr2 with ⟨x, -, -, hx⟩ | ⟨hall, -⟩
        · cases hx
        · intro x hx hid
          have hnot := hall x hx
          rw [hid, hin, Bool.true_and] at hnot
          exact hnot
      refine ⟨p, hp, hcolumns.1.symm, hcolumns.2.1.symm, r, hr, hrid, hcolumns.2.2,
        hrid ▸ record_mem_latest hr hlatest, ?_⟩
      rcases mem_leftJoin.mp ha with ⟨art, hart, hon, rfl⟩ | ⟨hnone, rfl⟩
      · rw [Option.any_some, Bool.and_eq_true, beq_iff_eq] at hon
        exact showsGood_of_artifact hart hon.1.symm (by simpa using hon.2) hstatus
      · refine showsGood_of_rebuild (fun art hart hid => ?_) hstatus
        have hnot := hnone art hart
        rw [Option.any_some, hid, beq_self_eq_true, Bool.true_and] at hnot
        simpa using hnot
    · rcases mem_leftJoin.mp ha with ⟨art, -, hon, -⟩ | ⟨-, rfl⟩
      · simp at hon
      · cases hstatus
  · cases hrow

end Rebuilderd.Daemon
