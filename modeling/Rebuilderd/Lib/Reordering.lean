import Mathlib

/-!
What does not depend on the order of a list: its minimum, however it is computed, and the list sorted
by a key that tells its elements apart.
-/

namespace Rebuilderd.Lib

variable {α κ : Type} {l l' : List α}

/-- Lists of distinct keys are sorted to the same list if they have the same elements. -/
lemma insertionSort_eq_of_perm [LinearOrder κ] {key : α → κ} (h : l.Perm l')
    (hkeys : (l.map key).Nodup) :
    l.insertionSort (fun a b => key a ≤ key b) = l'.insertionSort fun a b => key a ≤ key b := by
  have htotal : Std.Total fun a b : α => key a ≤ key b := ⟨fun a b => le_total (key a) (key b)⟩
  have htrans : IsTrans α fun a b => key a ≤ key b := ⟨fun _ _ _ => le_trans⟩
  have hsorted := List.perm_insertionSort (fun a b => key a ≤ key b) l
  refine List.Perm.eq_of_pairwise (fun a b ha hb hab hba => ?_) (List.pairwise_insertionSort _ l)
    (List.pairwise_insertionSort _ l') ?_
  · have hb' := ((List.perm_insertionSort (fun a b => key a ≤ key b) l').trans h.symm).subset hb
    exact List.inj_on_of_nodup_map hkeys (hsorted.subset ha) hb' (le_antisymm hab hba)
  · exact hsorted.trans (h.trans (List.perm_insertionSort (fun a b => key a ≤ key b) l').symm)

section
variable [LinearOrder α]

/-- The lower one of a value that may be there and another one. -/
def lowered (old : Option α) (a : α) : Option α :=
  match old with
  | none => some a
  | some b => some (min b a)

/-- A running minimum is the minimum. -/
lemma foldl_lowered (l : List α) : l.foldl lowered none = l.min? := by
  cases l with
  | nil => rfl
  | cons a l =>
    rw [List.min?_cons', List.foldl_cons, lowered]
    induction l generalizing a with
    | nil => rfl
    | cons b l ih => exact ih (min a b)

lemma min?_eq_of_perm (h : l.Perm l') : l.min? = l'.min? := by
  rw [← foldl_lowered, ← foldl_lowered]
  refine h.foldl_eq' (fun a _ b _ old => ?_) none
  cases old with
  | none => exact congrArg some (min_comm a b)
  | some c => exact congrArg some (min_right_comm c a b)

end

end Rebuilderd.Lib
