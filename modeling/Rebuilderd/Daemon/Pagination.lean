import Rebuilderd.Lib.Paging

/-!
How a listing is cut into pages, and when following the cursor from page to page shows all of it.

The cursor names a row, whose sort field is looked up again by a subquery. Compared with a NULL
nothing is before or after, so that a listing sorted by a nullable field can end too early.
-/

namespace Rebuilderd.Daemon

open Rebuilderd.Lib

inductive SortDirection
  | ascending
  | descending
  deriving DecidableEq

structure Page where
  limit : Option ℤ
  before : Option ℤ
  after : Option ℤ
  sort : Option String
  direction : Option SortDirection

inductive QueryError
  | invalidSortField
  | noSuchColumn
  deriving DecidableEq

def validSortField (sort : String) : Bool := sort.toList.all fun c => c.isAlphanum || c == '_'

structure ResultPage (ρ : Type) where
  total : ℕ
  records : List ρ

/-- An order that is not determined: by `RANDOM()`, or of rows that a sort leaves tied. -/
structure Shuffle (ρ : Type) where
  order : List ρ → List ρ
  perm : ∀ l, (order l).Perm l

/-- Rows as they come out of the database. -/
def unshuffled {ρ : Type} : Shuffle ρ := ⟨id, fun l => .refl l⟩

/-- `LIMIT`: a negative limit is none. -/
def limitRows {ρ : Type} (limit : Option ℤ) (rows : List ρ) : List ρ :=
  let limit := limit.getD 1000
  if limit < 0 then rows else rows.take limit.toNat

section
variable {ρ α : Type} [LinearOrder α]

/-- The row a page sorts by: the value of a field, if there is one, and the id. -/
def sortRow (id : ρ → ℤ) (field : ρ → Option α) (r : ρ) : Option α × ℤ := (field r, id r)

/-- `SELECT field FROM base_query WHERE id = c`, and `c`. -/
def cursorRow (id : ρ → ℤ) (field : ρ → Option α) (base : List ρ) (c : ℤ) : Option α × ℤ :=
  ((base.find? fun r => decide (id r = c)).bind field, c)

/-- The page a base query is cut down to; `column` are the columns the query has. -/
def paginate (id : ρ → ℤ) (column : String → Option (ρ → Option α)) (page : Page) (base : List ρ) :
    Except QueryError (List ρ) := do
  let direction := page.direction.getD .ascending
  match page.sort with
  | some sort =>
    if !validSortField sort then throw .invalidSortField
    let some field := column sort | throw .noSuchColumn
    let selected := base.filter fun r =>
      page.after.all (fun c => sqlRowLt (cursorRow id field base c) (sortRow id field r)) &&
        page.before.all fun c => sqlRowLt (sortRow id field r) (cursorRow id field base c)
    return limitRows page.limit <| match direction with
      | .ascending => orderBy (fun r => rowKey (sortRow id field r)) selected
      | .descending => orderBy (fun r => OrderDual.toDual (rowKey (sortRow id field r))) selected
  | none =>
    let selected := base.filter fun r =>
      page.after.all (fun c => decide (c < id r)) && page.before.all fun c => decide (id r < c)
    return limitRows page.limit <| match direction with
      | .ascending => orderBy id selected
      | .descending => orderBy (fun r => OrderDual.toDual (id r)) selected

/-! ### Following the cursor -/

/-- Request `k` of a client that asks for what comes after the last row it has. -/
def pageAfter (id : ρ → ℤ) (column : String → Option (ρ → Option α)) (base : ℕ → List ρ)
    (limit : ℤ) (sort : Option String) (direction : Option SortDirection) (k : ℕ)
    (cursor : Option ℤ) : Option (List ρ) :=
  (paginate id column
    { limit := some limit, before := none, after := cursor, sort := sort, direction := direction }
    (base k)).toOption

/-- Request `k` of a client that asks for what comes before the last row it has. -/
def pageBefore (id : ρ → ℤ) (column : String → Option (ρ → Option α)) (base : ℕ → List ρ)
    (limit : ℤ) (sort : Option String) (k : ℕ) (cursor : Option ℤ) : Option (List ρ) :=
  (paginate id column
    { limit := some limit, before := cursor, after := none, sort := sort,
      direction := some .descending }
    (base k)).toOption

/-- The value a listing is sorted by; without a sort field it is sorted by id. -/
def sortValue (column : String → Option (ρ → Option α)) (sort : Option String) (r : ρ) : Option α :=
  sort.bind fun s => (column s).bind (· r)

/-- The order of a listing. -/
def pageKey (id : ρ → ℤ) (column : String → Option (ρ → Option α)) (sort : Option String) (r : ρ) :
    WithBot α ×ₗ ℤ :=
  rowKey (sortRow id (sortValue column sort) r)

/-- The rows whose sort field is NULL. -/
def nullRows (column : String → Option (ρ → Option α)) (sort : Option String) (rows : List ρ) :
    List ρ :=
  rows.filter fun r => (sortValue column sort r).isNone

variable {id : ρ → ℤ} {column : String → Option (ρ → Option α)} {base : ℕ → List ρ} {rows : List ρ}
  {field : ρ → Option α} {limit : ℤ} {sort : Option String} {direction : Option SortDirection}

lemma limitRows_some (h : 1 ≤ limit) (l : List ρ) : limitRows (some limit) l = l.take limit.toNat := by
  have hnot : ¬ limit < 0 := by omega
  simp [limitRows, hnot]

omit [LinearOrder α] in
lemma nodup_pageKey (h : (rows.map id).Nodup) : (rows.map (pageKey id column sort)).Nodup := by
  have hid : rows.map id = (rows.map (pageKey id column sort)).map fun x => (ofLex x).2 := by
    rw [List.map_map]
    rfl
  rw [hid] at h
  exact h.of_map

omit [LinearOrder α] in
/-- The subquery finds the row the cursor names. -/
lemma cursorRow_id {base : List ρ} {last : ρ} (hids : (base.map id).Nodup) (hlast : last ∈ base) :
    cursorRow id field base (id last) = sortRow id field last := by
  have hfind : base.find? (fun r => decide (id r = id last)) = some last := by
    rcases h : base.find? fun r => decide (id r = id last) with _ | r
    · have hnone := List.find?_eq_none.mp h last hlast
      simp at hnone
    · have hr : id r = id last := by simpa using List.find?_some h
      rw [List.inj_on_of_nodup_map hids (List.mem_of_find?_eq_some h) hlast hr]
  simp [cursorRow, sortRow, hfind]

/-- Without a sort field, the listing is in the order of the ids. -/
lemma pageKey_none_le {a b : ρ} :
    pageKey id column none a ≤ pageKey id column none b ↔ id a ≤ id b := by
  simp [pageKey, rowKey, sortRow, sortValue, nullsFirst, Prod.Lex.toLex_le_toLex]

omit [LinearOrder α] in
lemma sortValue_some {s : String} (hfield : column s = some field) :
    sortValue column (some s) = field := by
  funext r
  simp [sortValue, hfield]

lemma isSome_of_key_le {a b : ρ} (h : pageKey id column sort a ≤ pageKey id column sort b)
    (ha : (sortValue column sort a).isSome = true) : (sortValue column sort b).isSome = true := by
  obtain ⟨x, hx⟩ := Option.isSome_iff_exists.mp ha
  have hle : nullsFirst (sortValue column sort a) ≤ nullsFirst (sortValue column sort b) := by
    rcases Prod.Lex.toLex_le_toLex.mp h with hlt | ⟨heq, -⟩
    · exact hlt.le
    · exact heq.le
  rcases hb : sortValue column sort b with _ | y
  · rw [hx, hb, nullsFirst, nullsFirst, le_bot_iff] at hle
    cases hle
  · rfl

lemma length_nullRows :
    ((orderBy (pageKey id column sort) rows).filter
      fun r => !(sortValue column sort r).isSome).length = (nullRows column sort rows).length := by
  rw [((orderBy_perm _ rows).filter _).length_eq]
  simp only [nullRows, Option.not_isSome]

section
variable {s : String} (hs : validSortField s = true) (hfield : column s = some field)
  (hlimit : 1 ≤ limit)
include hs hfield hlimit

lemma pageAfter_first (k : ℕ) (hdirection : direction.getD .ascending = .ascending) :
    pageAfter id column base limit (some s) direction k none =
      some ((orderBy (pageKey id column (some s)) (base k)).take limit.toNat) := by
  have hkey : pageKey id column (some s) = fun r => rowKey (sortRow id field r) := by
    rw [← sortValue_some hfield]
    rfl
  simp [pageAfter, paginate, hs, hfield, hdirection, limitRows_some hlimit, hkey, Except.toOption,
    pure, Except.pure]

lemma pageAfter_next (k : ℕ) (hdirection : direction.getD .ascending = .ascending)
    (hids : ((base k).map id).Nodup) {last : ρ} (hlast : last ∈ base k) :
    pageAfter id column base limit (some s) direction k (some (id last)) =
      some ((orderBy (pageKey id column (some s)) ((base k).filter fun r =>
        sqlRowLt (sortRow id field last) (sortRow id field r))).take limit.toNat) := by
  have hkey : pageKey id column (some s) = fun r => rowKey (sortRow id field r) := by
    rw [← sortValue_some hfield]
    rfl
  simp [pageAfter, paginate, hs, hfield, hdirection, limitRows_some hlimit, hkey, Except.toOption,
    pure, Except.pure, cursorRow_id hids hlast]

/-- A cursor that names no row is a NULL. -/
lemma pageAfter_gone (k : ℕ) {c : ℤ} (hc : ∀ r ∈ base k, id r ≠ c) :
    pageAfter id column base limit (some s) direction k (some c) = some [] := by
  have hfind : (base k).find? (fun r => decide (id r = c)) = none := by
    simpa using hc
  have hnone : ∀ r, sqlRowLt (cursorRow id field (base k) c) (sortRow id field r) = false := by
    intro r
    simp [cursorRow, hfind, sqlRowLt, sqlLt, sqlEq]
  have hselected : (base k).filter (fun r =>
      sqlRowLt (cursorRow id field (base k) c) (sortRow id field r)) = [] := by simp [hnone]
  rcases hd : direction.getD .ascending with _ | _ <;>
    simp [pageAfter, paginate, hs, hfield, hd, limitRows_some hlimit, hselected, orderBy,
      Except.toOption, pure, Except.pure]

lemma pageBefore_first (k : ℕ) :
    pageBefore id column base limit (some s) k none =
      some ((orderBy (fun r => OrderDual.toDual (pageKey id column (some s) r)) (base k)).take
        limit.toNat) := by
  have hkey : pageKey id column (some s) = fun r => rowKey (sortRow id field r) := by
    rw [← sortValue_some hfield]
    rfl
  simp [pageBefore, paginate, hs, hfield, limitRows_some hlimit, hkey, Except.toOption,
    pure, Except.pure]

lemma pageBefore_next (k : ℕ) (hids : ((base k).map id).Nodup) {last : ρ} (hlast : last ∈ base k) :
    pageBefore id column base limit (some s) k (some (id last)) =
      some ((orderBy (fun r => OrderDual.toDual (pageKey id column (some s) r))
        ((base k).filter fun r =>
          sqlRowLt (sortRow id field r) (sortRow id field last))).take limit.toNat) := by
  have hkey : pageKey id column (some s) = fun r => rowKey (sortRow id field r) := by
    rw [← sortValue_some hfield]
    rfl
  simp [pageBefore, paginate, hs, hfield, limitRows_some hlimit, hkey, Except.toOption,
    pure, Except.pure, cursorRow_id hids hlast]

end

/-- Sorted by a field, a walk forwards stops at the first page that ends with a NULL. -/
lemma pageAfter_complete {s : String} (hs : validSortField s = true) (hfield : column s = some field)
    (hlimit : 1 ≤ limit) (hdirection : direction.getD .ascending = .ascending)
    (hbase : ∀ k, (base k).Perm rows) (hids : (rows.map id).Nodup) :
    Complete (pageAfter id column base limit (some s) direction) id
        (pageKey id column (some s)) rows ↔
      ((nullRows column (some s) rows).length : ℤ) < limit ∨ (rows.length : ℤ) ≤ limit := by
  have hvalue := sortValue_some hfield
  have hpages : Complete (pageAfter id column base limit (some s) direction) id
      (pageKey id column (some s)) rows ↔
      rows.length ≤ limit.toNat ∨
        (((orderBy (pageKey id column (some s)) rows).take limit.toNat).getLast?.any
          (fun r => (field r).isSome) = true ∧
        ∀ r ∈ (orderBy (pageKey id column (some s)) rows).drop limit.toNat,
          (field r).isSome = true) := by
    refine complete_iff (fun last r => sqlRowLt (sortRow id field last) (sortRow id field r))
      (by omega) hbase (nodup_pageKey hids)
      (fun k => pageAfter_first hs hfield hlimit k hdirection) ?_ ?_
    · intro k last hlast
      have hids' : ((base k).map id).Nodup := ((hbase k).map id).nodup_iff.mpr hids
      exact pageAfter_next hs hfield hlimit k hdirection hids' ((hbase k).mem_iff.mpr hlast)
    · intro last _ r _
      rw [sqlRowLt_iff, pageKey, pageKey, hvalue]
      rfl
  have hgood : (orderBy (pageKey id column (some s)) rows).Pairwise
      fun a b => (field a).isSome = true → (field b).isSome = true := by
    refine (orderBy_sorted _ _).imp fun hab ha => ?_
    rw [← hvalue] at ha ⊢
    exact isSome_of_key_le hab ha
  rw [hpages, ← length_orderBy (pageKey id column (some s)) rows, good_last_iff hgood, ← hvalue,
    length_nullRows, length_orderBy]
  omega

/-- Sorted by a field, a walk backwards stops before the first NULL it does not get at once. -/
lemma pageBefore_complete {s : String} (hs : validSortField s = true)
    (hfield : column s = some field) (hlimit : 1 ≤ limit) (hbase : ∀ k, (base k).Perm rows)
    (hids : (rows.map id).Nodup) :
    Complete (pageBefore id column base limit (some s)) id
        (fun r => OrderDual.toDual (pageKey id column (some s) r)) rows ↔
      nullRows column (some s) rows = [] ∨ (rows.length : ℤ) ≤ limit := by
  have hvalue := sortValue_some hfield
  have hpages : Complete (pageBefore id column base limit (some s)) id
      (fun r => OrderDual.toDual (pageKey id column (some s) r)) rows ↔
      rows.length ≤ limit.toNat ∨
        (((orderBy (fun r => OrderDual.toDual (pageKey id column (some s) r)) rows).take
          limit.toNat).getLast?.any (fun r => (field r).isSome) = true ∧
        ∀ r ∈ (orderBy (fun r => OrderDual.toDual (pageKey id column (some s) r)) rows).drop
          limit.toNat, (field r).isSome = true) := by
    refine complete_iff (fun last r => sqlRowLt (sortRow id field r) (sortRow id field last))
      (by omega) hbase ?_ (fun k => pageBefore_first hs hfield hlimit k) ?_ ?_
    · have hkeys : (rows.map (pageKey id column (some s))).Nodup := nodup_pageKey hids
      have hdual := hkeys.map OrderDual.toDual.injective
      rwa [List.map_map] at hdual
    · intro k last hlast
      have hids' : ((base k).map id).Nodup := ((hbase k).map id).nodup_iff.mpr hids
      exact pageBefore_next hs hfield hlimit k hids' ((hbase k).mem_iff.mpr hlast)
    · intro last _ r _
      rw [sqlRowLt_iff, OrderDual.toDual_lt_toDual, pageKey, pageKey, hvalue,
        and_comm (a := (field last).isSome = true)]
      rfl
  have hgood : (orderBy (fun r => OrderDual.toDual (pageKey id column (some s) r)) rows).Pairwise
      fun a b => (field b).isSome = true → (field a).isSome = true := by
    refine (orderBy_sorted _ _).imp fun hab hb => ?_
    rw [← hvalue] at hb ⊢
    exact isSome_of_key_le (OrderDual.toDual_le_toDual.mp hab) hb
  have hnull : (∀ r ∈ rows, (field r).isSome = true) ↔ nullRows column (some s) rows = [] := by
    rw [nullRows, List.filter_eq_nil_iff, hvalue]
    simp only [Option.isNone_iff_eq_none, Option.isSome_iff_ne_none, ne_eq]
  rw [hpages, ← length_orderBy (fun r => OrderDual.toDual (pageKey id column (some s) r)) rows,
    good_first_iff (by omega) hgood]
  have hlength : rows.length ≤ limit.toNat ↔ (rows.length : ℤ) ≤ limit := by omega
  simp only [length_orderBy, mem_orderBy, hnull, hlength]
  exact or_comm

/-- Sorted by id, walks are complete. -/
lemma pages_complete (hlimit : 1 ≤ limit) (hdirection : direction.getD .ascending = .ascending)
    (hbase : ∀ k, (base k).Perm rows) (hids : (rows.map id).Nodup) :
    Complete (pageAfter id column base limit none direction) id (pageKey id column none) rows ∧
      Complete (pageBefore id column base limit none) id
        (fun r => OrderDual.toDual (pageKey id column none r)) rows := by
  have hforwards : Complete (pageAfter id column base limit none direction) id id rows := by
    refine complete_of_lt (fun last r => decide (id last < id r)) (n := limit.toNat) (by omega) hbase
      hids (fun k => ?_) (fun k last _ => ?_) (by simp)
    all_goals simp [pageAfter, paginate, hdirection, limitRows_some hlimit, Except.toOption, pure,
      Except.pure]
  have hbackwards : Complete (pageBefore id column base limit none) id
      (fun r => OrderDual.toDual (id r)) rows := by
    have hkeys : (rows.map fun r => OrderDual.toDual (id r)).Nodup := by
      have hdual := hids.map OrderDual.toDual.injective
      rwa [List.map_map] at hdual
    refine complete_of_lt (fun last r => decide (id r < id last)) (n := limit.toNat) (by omega) hbase
      hkeys (fun k => ?_) (fun k last _ => ?_) (by simp)
    all_goals simp [pageBefore, paginate, limitRows_some hlimit, Except.toOption, pure, Except.pure]
  obtain ⟨result, hyields, hperm, hsorted⟩ := hforwards
  obtain ⟨result', hyields', hperm', hsorted'⟩ := hbackwards
  refine ⟨⟨result, hyields, hperm, hsorted.imp pageKey_none_le.mpr⟩, result', hyields', hperm', ?_⟩
  exact hsorted'.imp fun hle =>
    OrderDual.toDual_le_toDual.mpr (pageKey_none_le.mpr (OrderDual.toDual_le_toDual.mp hle))

/-- **When following the cursor shows everything**: forwards, if the NULLs of the sort field do not
fill a page; backwards, if there are none; or if one page holds all rows. -/
theorem followingCursor_complete_iff {sort : Option String} (hlimit : 1 ≤ limit)
    (hsort : ∀ s ∈ sort, validSortField s = true ∧ (column s).isSome = true)
    (hdirection : direction.getD .ascending = .ascending)
    (hbase : ∀ k, (base k).Perm rows) (hids : (rows.map id).Nodup) :
    (Complete (pageAfter id column base limit sort direction) id (pageKey id column sort) rows ↔
        sort = none ∨ ((nullRows column sort rows).length : ℤ) < limit ∨
          (rows.length : ℤ) ≤ limit) ∧
      (Complete (pageBefore id column base limit sort) id
          (fun r => OrderDual.toDual (pageKey id column sort r)) rows ↔
        sort = none ∨ nullRows column sort rows = [] ∨ (rows.length : ℤ) ≤ limit) := by
  rcases sort with _ | s
  · exact ⟨iff_of_true (pages_complete hlimit hdirection hbase hids).1 (.inl rfl),
      iff_of_true (pages_complete hlimit hdirection hbase hids).2 (.inl rfl)⟩
  · obtain ⟨hs, hcolumn⟩ := hsort s rfl
    obtain ⟨field, hfield⟩ := Option.isSome_iff_exists.mp hcolumn
    simp only [reduceCtorEq, false_or]
    exact ⟨pageAfter_complete hs hfield hlimit hdirection hbase hids,
      pageBefore_complete hs hfield hlimit hbase hids⟩

end

/-- A package whose build is not known yet, and two that were rebuilt. -/
def unbuiltAndRebuilt : List (ℤ × Option ℕ) := [(1, none), (2, some 0), (3, some 1)]

def statusColumn : String → Option (ℤ × Option ℕ → Option ℕ) :=
  fun s => if s == "status" then some (·.2) else none

/-- Two pages show all of them. -/
theorem followingCursor_complete_iff_unbuilt :
    Complete (pageAfter Prod.fst statusColumn (fun _ => unbuiltAndRebuilt) 2 (some "status") none) Prod.fst
      (pageKey Prod.fst statusColumn (some "status")) unbuiltAndRebuilt :=
  (followingCursor_complete_iff (by decide) (by decide +kernel) rfl (fun _ => .refl unbuiltAndRebuilt)
    (by decide)).1.mpr (.inr (.inl (by decide)))

/-- In pages of one, the packages that were rebuilt are never shown. -/
theorem nullCursor_incomplete :
    ¬ Complete (pageAfter Prod.fst statusColumn (fun _ => unbuiltAndRebuilt) 1 (some "status") none) Prod.fst
      (pageKey Prod.fst statusColumn (some "status")) unbuiltAndRebuilt := by
  rintro ⟨result, hyields, hperm, -⟩
  have hfirst : Yields (pageAfter Prod.fst statusColumn (fun _ => unbuiltAndRebuilt) 1 (some "status") none)
      Prod.fst [(1, none)] := ⟨[[(1, none)], []], ⟨2, by decide +kernel⟩, rfl⟩
  rw [hyields.unique hfirst] at hperm
  exact absurd hperm.length_eq (by decide)

end Rebuilderd.Daemon
