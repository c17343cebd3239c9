import Mathlib
import Rebuilderd.Lib.Query

/-!
`LIKE` and substring search. They agree on the texts without wildcards; a wildcard also matches what
does not stand there.
-/

namespace Rebuilderd.Lib

/-- The characters `LIKE` does not read literally. -/
def isWildcard (c : Char) : Bool := c == '%' || c == '_'

/-- A text without wildcards. -/
def Plain (p : List Char) : Prop := ∀ c ∈ p, isWildcard c = false

/-- The text up to ASCII case. -/
def lower (s : List Char) : List Char := s.map Char.toLower

/-- The text with `c` in the place of each wildcard. -/
def fill (c : Char) (p : List Char) : List Char := p.map fun d => if isWildcard d then c else d

variable {p q s t : List Char} {c d : Char}

@[simp] lemma lower_append (s t : List Char) : lower (s ++ t) = lower s ++ lower t := List.map_append

@[simp] lemma length_lower (s : List Char) : (lower s).length = s.length := List.length_map _

@[simp] lemma length_fill (c : Char) (p : List Char) : (fill c p).length = p.length :=
  List.length_map _

/-- No letter is a wildcard. -/
lemma isWildcard_of_isAlpha (h : c.isAlpha = true) : isWildcard c = false := by
  simp only [isWildcard, Bool.or_eq_false_iff, beq_eq_false_iff_ne]
  constructor <;> rintro rfl <;> exact absurd h (by decide)

lemma isWildcard_toLower (c : Char) : isWildcard c.toLower = isWildcard c := by
  by_cases h : c.isUpper = true
  · have halpha : c.isAlpha = true := by rw [Char.isAlpha, h, Bool.true_or]
    rw [isWildcard_of_isAlpha halpha, isWildcard_of_isAlpha (by simpa using halpha)]
  · rw [Char.toLower_eq_of_not_isUpper h]

lemma Plain.of_lower (h : Plain q) (hp : lower p = lower q) : Plain p := by
  intro c hc
  obtain ⟨d, hd, hcd⟩ := List.mem_map.mp (hp ▸ List.mem_map_of_mem hc : c.toLower ∈ lower q)
  rw [← isWildcard_toLower, ← hcd, isWildcard_toLower, h d hd]

/-! ### The pattern piece by piece -/

lemma like_percent : like ('%' :: p) s = true ↔ ∃ u, u <:+ s ∧ like p u = true := by
  rw [like, List.any_eq_true]
  simp only [List.mem_tails]

lemma like_cons (h : c ≠ '%') : like (c :: p) (d :: s) = true ↔
    (c = '_' ∨ c.toLower = d.toLower) ∧ like p s = true := by
  rw [like.eq_4 _ _ _ _ h]
  simp

lemma like_append : like (p ++ q) s = true ↔
    ∃ u v, s = u ++ v ∧ like p u = true ∧ like q v = true := by
  induction p generalizing s with
  | nil => simp [like]
  | cons c p ih =>
    by_cases hc : c = '%'
    · subst hc
      simp only [List.cons_append, like_percent, ih]
      constructor
      · rintro ⟨_, ⟨w, rfl⟩, u, v, rfl, hu, hv⟩
        exact ⟨w ++ u, v, (List.append_assoc w u v).symm, ⟨u, List.suffix_append w u, hu⟩, hv⟩
      · rintro ⟨_, v, rfl, ⟨u, ⟨w, rfl⟩, hu⟩, hv⟩
        exact ⟨u ++ v, ⟨w, (List.append_assoc w u v).symm⟩, u, v, rfl, hu, hv⟩
    · cases s with
      | nil =>
        have hnone (l : List Char) : like (c :: l) [] = false := by
          rw [like]
          exact hc
        simp only [List.cons_append, hnone, Bool.false_eq_true, false_iff]
        rintro ⟨u, v, huv, hu, -⟩
        rw [(List.append_eq_nil_iff.mp huv.symm).1, hnone] at hu
        exact Bool.false_ne_true hu
      | cons d s =>
        rw [List.cons_append, like_cons hc, ih]
        constructor
        · rintro ⟨hd, u, v, rfl, hu, hv⟩
          exact ⟨d :: u, v, rfl, (like_cons hc).mpr ⟨hd, hu⟩, hv⟩
        · rintro ⟨u, v, huv, hu, hv⟩
          rcases u with _ | ⟨e, u⟩
          · rw [like] at hu
            · exact absurd hu Bool.false_ne_true
            · exact hc
          · obtain ⟨rfl, rfl⟩ := List.cons.inj huv
            obtain ⟨hd, hu⟩ := (like_cons hc).mp hu
            exact ⟨hd, u, v, rfl, hu, hv⟩

/-- A text without wildcards matches itself, up to case. -/
lemma Plain.like_iff (h : Plain p) : like p s = true ↔ lower p = lower s := by
  induction p generalizing s with
  | nil => cases s <;> simp [like, lower]
  | cons c p ih =>
    have hc : c ≠ '%' ∧ c ≠ '_' := by simpa [isWildcard] using h c List.mem_cons_self
    cases s with
    | nil =>
      rw [like]
      · simp [lower]
      · exact hc.1
    | cons d s =>
      rw [like_cons hc.1, ih fun e he => h e (List.mem_cons_of_mem c he)]
      simp [lower, hc.2]

lemma like_any (s : List Char) : like ['%'] s = true :=
  like_percent.mpr ⟨[], List.nil_suffix, rfl⟩

/-! ### Searches -/

/-- The pattern of a search for texts that contain `p`. -/
def containing (p : List Char) : List Char := '%' :: (p ++ ['%'])

/-- The pattern of a search for texts that begin with `p`. -/
def startingWith (p : List Char) : List Char := p ++ ['%']

lemma like_startingWith : like (startingWith p) s = true ↔ ∃ u, u <+: s ∧ like p u = true := by
  rw [startingWith, like_append]
  constructor
  · rintro ⟨u, v, rfl, hu, -⟩
    exact ⟨u, List.prefix_append u v, hu⟩
  · rintro ⟨u, ⟨v, rfl⟩, hu⟩
    exact ⟨u, v, rfl, hu, like_any v⟩

lemma like_containing : like (containing p) s = true ↔ ∃ u, u <:+: s ∧ like p u = true := by
  rw [containing, like_percent]
  constructor
  · rintro ⟨v, hv, h⟩
    obtain ⟨u, hu, hlike⟩ := like_startingWith.mp h
    exact ⟨u, hu.isInfix.trans hv.isInfix, hlike⟩
  · rintro ⟨u, hu, hlike⟩
    obtain ⟨v, hu, hv⟩ := List.infix_iff_prefix_suffix.mp hu
    exact ⟨v, hv, like_startingWith.mpr ⟨u, hu, hlike⟩⟩

/-- Without wildcards, `LIKE` looks for the text itself. -/
lemma Plain.startingWith_iff (h : Plain p) :
    like (startingWith p) s = true ↔ lower p <+: lower s := by
  rw [like_startingWith]
  constructor
  · rintro ⟨u, hu, hlike⟩
    rw [h.like_iff.mp hlike]
    exact hu.map Char.toLower
  · intro hs
    obtain ⟨u, hu, heq⟩ := List.prefix_map_iff.mp hs
    exact ⟨u, hu, h.like_iff.mpr heq⟩

lemma Plain.containing_iff (h : Plain p) :
    like (containing p) s = true ↔ lower p <:+: lower s := by
  rw [like_containing]
  constructor
  · rintro ⟨u, hu, hlike⟩
    rw [h.like_iff.mp hlike]
    exact hu.map Char.toLower
  · intro hs
    obtain ⟨u, hu, heq⟩ := List.infix_map_iff.mp hs
    exact ⟨u, hu, h.like_iff.mpr heq⟩

/-- A piece of the pattern without wildcards stands in every text that is found. -/
lemma infix_of_like (hq : lower q <:+: lower p) (h : Plain q)
    (hs : like (containing p) s = true) : lower q <:+: lower s := by
  obtain ⟨r, hr, heq⟩ := List.infix_map_iff.mp hq
  have hplain : Plain r := h.of_lower heq.symm
  obtain ⟨u, hu, hlike⟩ := like_containing.mp hs
  obtain ⟨a, b, rfl⟩ := hr
  obtain ⟨u, w, rfl, hlike, -⟩ := like_append.mp hlike
  obtain ⟨v, u, rfl, -, hlike⟩ := like_append.mp hlike
  have hlower : lower q = lower u := heq.trans (hplain.like_iff.mp hlike)
  rw [hlower]
  exact (List.IsInfix.trans ⟨v, w, rfl⟩ hu).map Char.toLower

/-! ### What a wildcard finds -/

/-- Any character can stand for a wildcard. -/
lemma like_fill (c : Char) (p : List Char) : like p (fill c p) = true := by
  induction p with
  | nil => rfl
  | cons d p ih =>
    by_cases hd : d = '%'
    · subst hd
      exact like_percent.mpr ⟨fill c p, List.suffix_cons _ _, ih⟩
    · refine (like_cons hd).mpr ⟨?_, ih⟩
      by_cases hwild : d = '_'
      · exact .inl hwild
      · have hplain : isWildcard d = false := by simp [isWildcard, hd, hwild]
        dsimp only
        rw [hplain]
        exact .inr rfl

lemma startingWith_fill (c : Char) (p : List Char) : like (startingWith p) (fill c p) = true :=
  like_startingWith.mpr ⟨_, List.prefix_rfl, like_fill c p⟩

lemma containing_fill (c : Char) (p : List Char) : like (containing p) (fill c p) = true :=
  like_containing.mpr ⟨_, List.infix_rfl, like_fill c p⟩

/-- A text that is literally found where its wildcards are replaced has none. -/
lemma plain_of_infix_fill (hc : isWildcard c = false) (h : lower p <:+: lower (fill c p)) : Plain p := by
  have heq : lower p = lower (fill c p) := h.eq_of_length (by simp)
  intro d hd
  rw [lower, lower, fill, List.map_map] at heq
  have hd := List.map_inj_left.mp heq d hd
  by_contra hwild
  have hd : d.toLower = c.toLower := by simpa [Bool.eq_true_of_not_eq_false hwild] using hd
  exact hwild (by rw [← isWildcard_toLower, hd, isWildcard_toLower, hc])

/-- A text that is not too long leaves a character out that can stand for a wildcard. -/
lemma exists_new (s : List Char) (h : s.length < 2 ^ 20) :
    ∃ c, isWildcard c = false ∧ c.toLower ∉ s := by
  have hvalid (i : ℕ) (hi : i < 2 ^ 20) : (Char.ofNat (0x10000 + i)).toNat = 0x10000 + i := by
    have hchar : Nat.isValidChar (0x10000 + i) := .inr ⟨by omega, by omega⟩
    rw [Char.toNat_ofNat, if_pos hchar]
  obtain ⟨c, hc, hnew⟩ : ∃ c ∈ (Finset.range (2 ^ 20)).image fun i => Char.ofNat (0x10000 + i),
      c ∉ s.toFinset := by
    refine Finset.exists_mem_notMem_of_card_lt_card (lt_of_le_of_lt s.toFinset_card_le ?_)
    rw [Finset.card_image_of_injOn, Finset.card_range]
    · exact h
    · intro i hi j hj hij
      have hij : 0x10000 + i = 0x10000 + j := by
        rw [← hvalid i (by simpa using hi), ← hvalid j (by simpa using hj)]
        exact congrArg Char.toNat hij
      omega
  obtain ⟨i, hi, rfl⟩ := Finset.mem_image.mp hc
  have hlarge := hvalid i (Finset.mem_range.mp hi)
  have hother (d : Char) (hd : d.toNat < 0x10000) : Char.ofNat (0x10000 + i) ≠ d := by
    rintro rfl
    omega
  have hupper : (Char.ofNat (0x10000 + i)).isUpper = false := by
    rw [Char.isUpper, decide_eq_false_iff_not]
    rintro ⟨-, hle⟩
    have hle : (Char.ofNat (0x10000 + i)).toNat ≤ 90 := UInt32.le_iff_toNat_le.mp hle
    omega
  refine ⟨Char.ofNat (0x10000 + i), ?_, fun hmem => hnew (List.mem_toFinset.mpr ?_)⟩
  · simp [isWildcard, hother]
  · rwa [Char.toLower_eq_of_not_isUpper (by simp [hupper])] at hmem

/-- What stands in a text whose wildcards are replaced by a new character stands in a piece without
wildcards. -/
lemma occurs_of_infix_fill (hc : c.toLower ∉ lower q) (h : lower q <:+: lower (fill c p)) :
    Plain q ∧ lower q <:+: lower p := by
  rw [lower, lower, fill, List.map_map] at h
  obtain ⟨u, hu, heq⟩ := List.infix_map_iff.mp h
  have hplain : Plain u := by
    intro d hd
    by_contra hwild
    refine hc ?_
    rw [lower, heq]
    refine List.mem_map.mpr ⟨d, hd, ?_⟩
    simp [Bool.eq_true_of_not_eq_false hwild]
  have hlower : lower q = lower u := by
    rw [lower, heq]
    refine List.map_congr_left fun d hd => ?_
    simp [hplain d hd]
  refine ⟨hplain.of_lower hlower, ?_⟩
  rw [hlower]
  exact hu.map Char.toLower

end Rebuilderd.Lib
