import Rebuilderd.Common.Api

/-!
The comparison of two files in chunks (`compare_files` of the worker's `rebuild.rs`).
-/

namespace Rebuilderd.Worker

open Rebuilderd.Common

/-- How many bytes a read of the first file returns at a position, if it has that many left. -/
structure Reads where
  size : ℕ → ℕ
  pos : ∀ i, 1 ≤ size i
  le : ∀ i, size i ≤ 4096

/-- The loop, after `pos` bytes: each chunk of the first file is compared with as many bytes of the
second one, and at the end of the first one the second one must be at its end too. -/
def compareFrom (reads : Reads) (pos : ℕ) (a b : Bytes) : Bool :=
  let n := min (reads.size pos) a.length
  if n = 0 then b.isEmpty
  else if b.length < n then false
  else if a.take n ≠ b.take n then false
  else compareFrom reads (pos + n) (a.drop n) (b.drop n)
termination_by a.length
decreasing_by
  rw [List.length_drop]
  omega

def compareFiles (reads : Reads) (a b : Bytes) : Bool := compareFrom reads 0 a b

lemma compareFrom_iff (reads : Reads) (pos : ℕ) (a b : Bytes) :
    compareFrom reads pos a b = true ↔ a = b := by
  fun_induction compareFrom reads pos a b with
  | case1 pos a b n hn =>
    have ha : a = [] := by
      have hread := reads.pos pos
      exact List.eq_nil_of_length_eq_zero (by omega)
    rw [ha, List.isEmpty_iff, eq_comm]
  | case2 pos a b n hn hshort =>
    refine iff_of_false (by simp) ?_
    rintro rfl
    omega
  | case3 pos a b n hn hlong hne =>
    refine iff_of_false (by simp) ?_
    rintro rfl
    exact hne rfl
  | case4 pos a b n hn hlong heq ih =>
    rw [not_not] at heq
    rw [ih]
    constructor
    · intro hdrop
      calc a = a.take n ++ a.drop n := (List.take_append_drop n a).symm
        _ = b.take n ++ b.drop n := by rw [heq, hdrop]
        _ = b := List.take_append_drop n b
    · rintro rfl
      rfl

/-- **The comparison is equality**, however the first file is read. -/
theorem compareFiles_eq_true (reads : Reads) (a b : Bytes) : compareFiles reads a b = true ↔ a = b :=
  compareFrom_iff reads 0 a b

end Rebuilderd.Worker
