import Rebuilderd.Lib.Digits

/-!
Dates of the Gregorian calendar and their texts.

Days are counted from 1970-01-01 and months from January of the year 0, so that the order of days is
that of their months and then of the days within a month. The texts of dates are ordered as the dates
are in the years 0 to 9999; other years start with a sign, which comes before any digit.
-/

namespace Rebuilderd.Lib

/-! ### Days and months -/

/-- The days from March 1 of the year 0 to March 1 of the year `y`. -/
def daysBefore (y : ℤ) : ℤ := 365 * y + y / 4 - y / 100 + y / 400

/-- The first day of a month. Years start in March here, so that a leap day is their last. -/
def monthStart (m : ℤ) : ℤ :=
  daysBefore ((m - 2) / 12) + (153 * ((m - 2) % 12) + 2) / 5 - 719468

/-- The year, from March, in which there are `z` days since March 1 of the year 0. -/
def marchYear (z : ℤ) : ℤ :=
  let y := 400 * z / 146097
  if z < daysBefore y then y - 1 else if daysBefore (y + 1) ≤ z then y + 1 else y

/-- The month of a day. -/
def monthOf (day : ℤ) : ℤ :=
  let z := day + 719468
  12 * marchYear z + 2 + (5 * (z - daysBefore (marchYear z)) + 2) / 153

lemma marchYear_spec (z : ℤ) :
    daysBefore (marchYear z) ≤ z ∧ z < daysBefore (marchYear z + 1) := by
  -- A year has 146097 / 400 days on average, and no two years' starts are off by more than a day.
  have hmean (y : ℤ) : 146097 * y - 700 ≤ 400 * daysBefore y ∧ 400 * daysBefore y ≤ 146097 * y + 400 := by
    unfold daysBefore
    omega
  have hprev := hmean (400 * z / 146097 - 1)
  have hnext := hmean (400 * z / 146097 + 1 + 1)
  unfold marchYear
  dsimp only
  split
  · rw [sub_add_cancel]
    omega
  · split <;> omega

lemma monthStart_lt_succ (m : ℤ) : monthStart m < monthStart (m + 1) := by
  unfold monthStart daysBefore
  omega

lemma monthStart_strictMono : StrictMono monthStart := strictMono_int_of_lt_succ monthStart_lt_succ

/-- The first day of a month, by its year from March. -/
lemma monthStart_eq {y k : ℤ} (h : 0 ≤ k ∧ k ≤ 11) :
    monthStart (12 * y + 2 + k) = daysBefore y + (153 * k + 2) / 5 - 719468 := by
  unfold monthStart
  rw [show (12 * y + 2 + k - 2) / 12 = y by omega, show (12 * y + 2 + k - 2) % 12 = k by omega]

/-- The first day of the month after, likewise. -/
lemma monthStart_succ {y k : ℤ} (h : 0 ≤ k ∧ k ≤ 11) : monthStart (12 * y + 2 + k + 1) =
    (if k = 11 then daysBefore (y + 1) else daysBefore y + (153 * (k + 1) + 2) / 5) - 719468 := by
  split
  · rw [show 12 * y + 2 + k + 1 = 12 * (y + 1) + 2 + 0 by omega, monthStart_eq (by omega)]
    omega
  · rw [add_assoc _ k, monthStart_eq (by omega)]

/-- A day lies within its month. -/
lemma monthOf_spec (day : ℤ) : monthStart (monthOf day) ≤ day ∧ day < monthStart (monthOf day + 1) := by
  obtain ⟨hle, hlt⟩ := marchYear_spec (day + 719468)
  unfold monthOf
  dsimp only
  generalize marchYear (day + 719468) = y at hle hlt ⊢
  obtain ⟨d, hd⟩ : ∃ d, d = day + 719468 - daysBefore y := ⟨_, rfl⟩
  have hyear : daysBefore (y + 1) - daysBefore y ≤ 366 := by
    unfold daysBefore
    omega
  have hk : 0 ≤ (5 * d + 2) / 153 ∧ (5 * d + 2) / 153 ≤ 11 := by omega
  rw [← hd, monthStart_eq hk, monthStart_succ hk]
  refine ⟨by omega, ?_⟩
  split <;> omega

/-- Days are in the order of their months. -/
lemma monthOf_mono : Monotone monthOf := by
  intro d d' h
  by_contra hlt
  have hle : monthStart (monthOf d' + 1) ≤ monthStart (monthOf d) :=
    monthStart_strictMono.monotone (by omega)
  have hd := (monthOf_spec d).1
  have hd' := (monthOf_spec d').2
  omega

lemma le_monthOf_iff {m d : ℤ} : m ≤ monthOf d ↔ monthStart m ≤ d := by
  constructor
  · exact fun h => (monthStart_strictMono.monotone h).trans (monthOf_spec d).1
  · intro h
    by_contra hlt
    have hle : monthStart (monthOf d + 1) ≤ monthStart m :=
      monthStart_strictMono.monotone (by omega)
    have := (monthOf_spec d).2
    omega

/-- A month has 31 days at most. -/
lemma monthStart_succ_le (m : ℤ) : monthStart (m + 1) ≤ monthStart m + 31 := by
  obtain ⟨y, k, hk, rfl⟩ : ∃ y k, (0 ≤ k ∧ k ≤ 11) ∧ m = 12 * y + 2 + k :=
    ⟨(m - 2) / 12, (m - 2) % 12, by omega, by omega⟩
  rw [monthStart_eq hk, monthStart_succ hk]
  split
  · unfold daysBefore
    omega
  · omega

/-! ### Texts -/

/-- `%Y`: the years 0 to 9999 have four digits, others have a sign. -/
def yearText (y : ℤ) : List Char :=
  if 0 ≤ y ∧ y ≤ 9999 then padded 4 y.toNat
  else (if 0 ≤ y then '+' else '-') :: (Nat.toDigits 10 y.natAbs).leftpad 4 '0'

/-- `%F` -/
def dateText (day : ℤ) : List Char :=
  let m := monthOf day
  yearText (m / 12) ++ '-' :: (padded 2 (m % 12 + 1).toNat ++ '-' ::
    padded 2 (day - monthStart m + 1).toNat)

/-- `%.f`: nothing, or three, six or nine digits after a point. -/
def fractionText (n : ℕ) : List Char :=
  if n = 0 then []
  else if n % 1000000 = 0 then '.' :: padded 3 (n / 1000000)
  else if n % 1000 = 0 then '.' :: padded 6 (n / 1000)
  else '.' :: padded 9 n

/-- `%T%.f`, by the nanoseconds of the day. -/
def timeText (n : ℕ) : List Char :=
  padded 2 (n / 3600000000000) ++ ':' :: (padded 2 (n / 60000000000 % 60) ++ ':' ::
    (padded 2 (n / 1000000000 % 60) ++ fractionText (n % 1000000000)))

/-- `%F %T%.f`, by the nanoseconds since 1970. -/
def dateTimeText (t : ℤ) : List Char :=
  dateText (t / 86400000000000) ++ ' ' :: timeText (t % 86400000000000).toNat

example : String.ofList (dateTimeText 951782400000000000) = "2000-02-29 00:00:00" := by decide +kernel
example : String.ofList (dateTimeText 253402300800500000000) = "+10000-01-01 00:00:00.500" := by
  decide +kernel

/-! ### The order of texts -/

lemma fractionText_eq {n : ℕ} (h : n ≠ 0) : ∃ w k, fractionText n = '.' :: padded w k ∧
    (w = 3 ∧ n = k * 1000000 ∨ w = 6 ∧ n = k * 1000 ∨ w = 9 ∧ n = k) := by
  unfold fractionText
  rw [if_neg h]
  split
  · exact ⟨3, n / 1000000, rfl, by omega⟩
  · split
    · exact ⟨6, n / 1000, rfl, by omega⟩
    · exact ⟨9, n, rfl, by omega⟩

lemma fractionText_lt {n m : ℕ} (h : n < m) (hm : m < 1000000000) :
    fractionText n < fractionText m := by
  obtain ⟨w', k', hm', hw'⟩ := fractionText_eq (by omega : m ≠ 0)
  rcases eq_or_ne n 0 with rfl | hn
  · rw [hm']
    exact List.nil_lt_cons _ _
  · obtain ⟨w, k, hn', hw⟩ := fractionText_eq hn
    rw [hn', hm', List.cons_lt_cons_iff]
    refine .inr ⟨rfl, ?_⟩
    rcases hw with ⟨rfl, rfl⟩ | ⟨rfl, rfl⟩ | ⟨rfl, rfl⟩ <;>
      rcases hw' with ⟨rfl, rfl⟩ | ⟨rfl, rfl⟩ | ⟨rfl, rfl⟩ <;>
        refine padded_lt_of_fraction ?_ ?_ ?_ <;> norm_num <;> linarith

/-- Texts with a number in front are ordered by it first. -/
lemma padded_append_lt {w n m : ℕ} {x y : List Char} (hn : n < 10 ^ w) (hm : m < 10 ^ w)
    (h : n < m ∨ n = m ∧ x < y) : padded w n ++ x < padded w m ++ y := by
  rw [append_lt_append_iff (by simp), padded_lt_iff hn hm]
  rcases h with h | ⟨rfl, h⟩
  · exact .inl h
  · exact .inr ⟨rfl, h⟩

lemma timeText_lt {n m : ℕ} (h : n < m) (hm : m < 86400000000000) : timeText n < timeText m := by
  have hcolon {x y : List Char} (hxy : x < y) : ':' :: x < ':' :: y :=
    List.cons_lt_cons_iff.mpr (.inr ⟨rfl, hxy⟩)
  unfold timeText
  refine padded_append_lt (by omega) (by omega) ?_
  by_cases hh : n / 3600000000000 = m / 3600000000000
  swap
  · exact .inl (by omega)
  refine .inr ⟨hh, hcolon (padded_append_lt (by omega) (by omega) ?_)⟩
  by_cases hmin : n / 60000000000 % 60 = m / 60000000000 % 60
  swap
  · exact .inl (by omega)
  refine .inr ⟨hmin, hcolon (padded_append_lt (by omega) (by omega) ?_)⟩
  by_cases hsec : n / 1000000000 % 60 = m / 1000000000 % 60
  · exact .inr ⟨hsec, fractionText_lt (by omega) (by omega)⟩
  · exact .inl (by omega)

/-- Within a day texts are ordered as the instants are, in any year. -/
theorem dateTimeText_le_of_sameDay {t t' : ℤ} (h : t ≤ t')
    (hday : t / 86400000000000 = t' / 86400000000000) : dateTimeText t ≤ dateTimeText t' := by
  rcases h.eq_or_lt with rfl | hlt
  · exact le_rfl
  · refine le_of_lt ?_
    unfold dateTimeText
    rw [hday, append_lt_append_iff rfl, List.cons_lt_cons_iff]
    exact .inr ⟨rfl, .inr ⟨rfl, timeText_lt (by omega) (by omega)⟩⟩

/-- The nanoseconds of the years 0 to 9999. -/
def FourDigitYear (t : ℤ) : Prop := -62167219200000000000 ≤ t ∧ t < 253402300800000000000

instance (t : ℤ) : Decidable (FourDigitYear t) := inferInstanceAs (Decidable (_ ∧ _))

lemma fourDigitYear_iff {t : ℤ} :
    FourDigitYear t ↔ 0 ≤ monthOf (t / 86400000000000) / 12 ∧ monthOf (t / 86400000000000) / 12 ≤ 9999 := by
  have hfirst : 0 ≤ monthOf (t / 86400000000000) ↔ -719528 ≤ t / 86400000000000 := le_monthOf_iff
  have hlast : 120000 ≤ monthOf (t / 86400000000000) ↔ 2932897 ≤ t / 86400000000000 := le_monthOf_iff
  unfold FourDigitYear
  omega

/-- **In the years 0 to 9999 texts are ordered as the instants are.** -/
theorem dateTimeText_lt {t t' : ℤ} (h : t < t') (ht : FourDigitYear t) (ht' : FourDigitYear t') :
    dateTimeText t < dateTimeText t' := by
  have hdash {x y : List Char} (hxy : x < y) : '-' :: x < '-' :: y :=
    List.cons_lt_cons_iff.mpr (.inr ⟨rfl, hxy⟩)
  have hy := fourDigitYear_iff.mp ht
  have hy' := fourDigitYear_iff.mp ht'
  unfold dateTimeText dateText
  dsimp only
  have hdays : t / 86400000000000 ≤ t' / 86400000000000 := by omega
  have hmonths := monthOf_mono hdays
  have hspec := monthOf_spec (t / 86400000000000)
  have hspec' := monthOf_spec (t' / 86400000000000)
  have hlen := monthStart_succ_le (monthOf (t / 86400000000000))
  have hlen' := monthStart_succ_le (monthOf (t' / 86400000000000))
  rw [yearText, yearText, if_pos hy, if_pos hy']
  simp only [List.append_assoc, List.cons_append]
  refine padded_append_lt (by omega) (by omega) ?_
  by_cases hyear : monthOf (t / 86400000000000) / 12 = monthOf (t' / 86400000000000) / 12
  swap
  · exact .inl (by omega)
  refine .inr ⟨by rw [hyear], hdash (padded_append_lt (by omega) (by omega) ?_)⟩
  by_cases hmonth : monthOf (t / 86400000000000) = monthOf (t' / 86400000000000)
  swap
  · exact .inl (by omega)
  rw [hmonth] at hspec hlen ⊢
  refine .inr ⟨rfl, hdash (padded_append_lt (by omega) (by omega) ?_)⟩
  by_cases hday : t / 86400000000000 = t' / 86400000000000
  · refine .inr ⟨by rw [hday], List.cons_lt_cons_iff.mpr (.inr ⟨rfl, timeText_lt ?_ ?_⟩)⟩ <;> omega
  · exact .inl (by omega)

lemma sign_lt_digit {n : ℕ} (h : n < 10) : '+' < digit n ∧ '-' < digit n := by
  interval_cases n <;> decide

/-- The text of an instant in another year comes before all of them. -/
theorem dateTimeText_lt_of_sign {t t' : ℤ} (ht : ¬ FourDigitYear t) (ht' : FourDigitYear t') :
    dateTimeText t < dateTimeText t' := by
  rw [fourDigitYear_iff] at ht ht'
  have hfour (n : ℕ) : padded 4 n = digit (n / 1000 % 10) :: padded 3 n := padded_add 1 3 n
  unfold dateTimeText dateText
  dsimp only
  rw [yearText, yearText, if_neg ht, if_pos ht', hfour]
  simp only [List.cons_append]
  refine List.cons_lt_cons_iff.mpr (.inl ?_)
  have hsign := sign_lt_digit (Nat.mod_lt ((monthOf (t' / 86400000000000) / 12).toNat / 1000)
    (by decide : 0 < 10))
  split
  · exact hsign.1
  · exact hsign.2

/-- A text that comes after one of the years 0 to 9999 is of a later instant in these years. -/
theorem le_of_dateTimeText_le {t t' : ℤ} (h : dateTimeText t ≤ dateTimeText t')
    (ht : FourDigitYear t) : FourDigitYear t' ∧ t ≤ t' := by
  have ht' : FourDigitYear t' := by
    by_contra hsign
    exact absurd (dateTimeText_lt_of_sign hsign ht) (not_lt.mpr h)
  refine ⟨ht', ?_⟩
  by_contra hlt
  exact absurd (dateTimeText_lt (not_le.mp hlt) ht' ht) (not_lt.mpr h)

end Rebuilderd.Lib
