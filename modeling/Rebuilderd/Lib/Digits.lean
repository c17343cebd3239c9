import Mathlib

/-!
Decimal digits of a fixed width, and the order of the texts made of them.

Numbers of one width are ordered as their texts. Digits after a decimal point are ordered as the
fractions they stand for, whatever their widths.
-/

namespace Rebuilderd.Lib

/-! ### Texts one after the other -/

/-- Texts with parts of one length are compared part by part. -/
lemma append_lt_append_iff {α : Type} [LinearOrder α] {a b x y : List α}
    (h : a.length = b.length) : a ++ x < b ++ y ↔ a < b ∨ a = b ∧ x < y := by
  induction a generalizing b with
  | nil =>
    obtain rfl : b = [] := List.length_eq_zero_iff.mp h.symm
    simp
  | cons c a ih =>
    obtain ⟨d, b, rfl⟩ := List.exists_cons_of_length_pos (h ▸ Nat.succ_pos _ : 0 < b.length)
    have hlen : a.length = b.length := by simpa using h
    simp only [List.cons_append, List.cons_lt_cons_iff, ih hlen, List.cons.injEq]
    tauto

/-! ### Digits -/

def digit (n : ℕ) : Char := Char.ofNat (48 + n)

/-- The last `w` digits of `n`. -/
def padded : ℕ → ℕ → List Char
  | 0, _ => []
  | w + 1, n => padded w (n / 10) ++ [digit (n % 10)]

lemma digit_lt_iff {n m : ℕ} (hn : n < 10) (hm : m < 10) : digit n < digit m ↔ n < m := by
  interval_cases n <;> interval_cases m <;> decide

@[simp] lemma length_padded (w n : ℕ) : (padded w n).length = w := by
  induction w generalizing n with
  | zero => rfl
  | succ w ih => simp [padded, ih]

/-- Numbers of `w` digits are ordered as their texts. -/
lemma padded_lt_iff {w n m : ℕ} (hn : n < 10 ^ w) (hm : m < 10 ^ w) :
    padded w n < padded w m ↔ n < m := by
  induction w generalizing n m with
  | zero => simp [padded]; omega
  | succ w ih =>
    rw [pow_succ] at hn hm
    have hn' : n / 10 < 10 ^ w := by omega
    have hm' : m / 10 < 10 ^ w := by omega
    have hlast : [digit (n % 10)] < [digit (m % 10)] ↔ n % 10 < m % 10 := by
      rw [List.cons_lt_cons_iff, digit_lt_iff (Nat.mod_lt _ (by decide)) (Nat.mod_lt _ (by decide))]
      simp
    have heq : padded w (n / 10) = padded w (m / 10) ↔ n / 10 = m / 10 := by
      refine ⟨fun h => ?_, fun h => by rw [h]⟩
      have hlt := ih hn' hm'
      have hgt := ih hm' hn'
      simp only [h, lt_self_iff_false, false_iff] at hlt hgt
      omega
    rw [padded, padded, append_lt_append_iff (by simp), ih hn' hm', hlast, heq]
    omega

lemma padded_add (w k n : ℕ) : padded (w + k) n = padded w (n / 10 ^ k) ++ padded k n := by
  induction k generalizing n with
  | zero => simp [padded]
  | succ k ih =>
    rw [← Nat.add_assoc, padded, ih, padded, Nat.div_div_eq_div_mul, ← pow_succ', List.append_assoc]

/-- Digits after a decimal point are ordered as the fractions are. -/
lemma padded_lt_of_fraction {w w' n m : ℕ} (hn : n < 10 ^ w) (hm : m < 10 ^ w')
    (h : n * 10 ^ w' < m * 10 ^ w) : padded w n < padded w' m := by
  rcases le_total w w' with hw | hw
  · obtain ⟨k, rfl⟩ := Nat.exists_eq_add_of_le hw
    have hk : 0 < 10 ^ k := by positivity
    have hlt : n * 10 ^ k < m := by
      rw [pow_add, mul_comm (10 ^ w), ← mul_assoc] at h
      exact lt_of_mul_lt_mul_right h (Nat.zero_le _)
    have hle : n ≤ m / 10 ^ k := (Nat.le_div_iff_mul_le hk).mpr hlt.le
    have hm' : m / 10 ^ k < 10 ^ w := Nat.div_lt_of_lt_mul (by rwa [mul_comm, ← pow_add])
    rw [padded_add, ← List.append_nil (padded w n), append_lt_append_iff (by simp),
      padded_lt_iff hn hm']
    rcases hle.lt_or_eq with hlt' | rfl
    · exact .inl hlt'
    · -- The digits that follow make the second text the longer one.
      refine .inr ⟨rfl, ?_⟩
      rcases k with _ | k
      · simp at hlt
      · obtain ⟨c, ds, hds⟩ := List.exists_cons_of_length_pos
          (by simp : 0 < (padded (k + 1) m).length)
        rw [hds]
        exact List.nil_lt_cons c ds
  · obtain ⟨k, rfl⟩ := Nat.exists_eq_add_of_le hw
    have hk : 0 < 10 ^ k := by positivity
    have hlt : n < m * 10 ^ k := by
      rw [pow_add, mul_comm (10 ^ w'), ← mul_assoc] at h
      exact lt_of_mul_lt_mul_right h (Nat.zero_le _)
    have hlt' : n / 10 ^ k < m := (Nat.div_lt_iff_lt_mul hk).mpr hlt
    rw [padded_add, ← List.append_nil (padded w' m), append_lt_append_iff (by simp),
      padded_lt_iff (hlt'.trans hm) hm]
    exact .inl hlt'

end Rebuilderd.Lib
