import Rebuilderd.Lib.Table

/-!
`INSERT INTO ... SELECT` into a new table. The rows of the table are kept together with the rows of
the SELECT they were inserted for.

SQLite is free to visit rows in any order if there is no ORDER BY, and to read the bare columns of a
group from any row that its aggregates allow.
-/

namespace Rebuilderd.Lib

variable {α ρ : Type}

/-- The order in which rows are visited that no ORDER BY orders. -/
structure Scan where
  arrange {α : Type} : List α → List α
  perm {α : Type} (l : List α) : (arrange l).Perm l

namespace Scan

/-- Rows are visited in the order in which they were found. -/
def inOrder : Scan := ⟨fun l => l, fun l => .refl l⟩

variable (S : Scan)

/-- One of the rows. -/
def pick (l : List α) : Option α := (S.arrange l).head?

variable {S}

@[simp] lemma mem_arrange {l : List α} {a : α} : a ∈ S.arrange l ↔ a ∈ l := (S.perm l).mem_iff

lemma mem_of_pick {l : List α} {a : α} (h : S.pick l = some a) : a ∈ l :=
  mem_arrange.mp (List.mem_of_head? h)

lemma exists_pick {l : List α} {a : α} (h : a ∈ l) : ∃ b, S.pick l = some b := by
  refine Option.ne_none_iff_exists'.mp fun hnone => ?_
  have harrange := mem_arrange (S := S).mpr h
  rw [List.head?_eq_none_iff.mp hnone] at harrange
  exact List.not_mem_nil harrange

end Scan

/-- The rows inserted for the rows `l` of a SELECT; the keys count from one. -/
def inserted (mk : α → ℕ → ρ) (l : List α) : List (α × ρ) :=
  l.zipIdx.map fun x => (x.1, mk x.1 (x.2 + 1))

section
variable {mk : α → ℕ → ρ} {l : List α} {a a' : α} {r r' : ρ}

lemma mem_inserted :
    (a, r) ∈ inserted mk l ↔ ∃ i, l[i]? = some a ∧ mk a (i + 1) = r := by
  simp [inserted, List.mem_map, List.mem_zipIdx_iff_getElem?]

lemma of_inserted (h : (a, r) ∈ inserted mk l) : a ∈ l := by
  obtain ⟨i, hi, -⟩ := mem_inserted.mp h
  exact List.mem_of_getElem? hi

lemma exists_inserted (h : a ∈ l) : ∃ r, (a, r) ∈ inserted mk l := by
  obtain ⟨i, hi⟩ := List.mem_iff_getElem?.mp h
  exact ⟨_, mem_inserted.mpr ⟨i, hi, rfl⟩⟩

/-- What the columns of an inserted row are. -/
lemma inserted_eq (h : (a, r) ∈ inserted mk l) : ∃ n, mk a n = r := by
  obtain ⟨i, -, hr⟩ := mem_inserted.mp h
  exact ⟨i + 1, hr⟩

/-- A key names one row, which was inserted once. -/
lemma inserted_inj [Row ρ] (hmk : ∀ a n, key (mk a n) = n) (h : (a, r) ∈ inserted mk l)
    (h' : (a', r') ∈ inserted mk l) (hkey : key r = key r') : a = a' ∧ r = r' := by
  obtain ⟨i, hi, rfl⟩ := mem_inserted.mp h
  obtain ⟨j, hj, rfl⟩ := mem_inserted.mp h'
  rw [hmk, hmk, Nat.add_right_cancel_iff] at hkey
  subst hkey
  obtain rfl := Option.some.inj (hi.symm.trans hj)
  exact ⟨rfl, rfl⟩

end

end Rebuilderd.Lib
