import Rebuilderd.Lib.Text

/-!
Texts that are put together from pieces with a separator, and taken apart again.
-/

namespace Rebuilderd.Lib.Text

variable {sep : Text} {x y : Char}

/-! ### One separator -/

lemma isPrefixOf_ne {c : Char} {p s : Text} (h : x ≠ c) : (x :: p).isPrefixOf (c :: s) = false := by
  rw [← Bool.not_eq_true, List.isPrefixOf_iff_prefix, List.cons_prefix_cons]
  exact fun hbegins => h hbegins.1

lemma splitOnce_eq_some {s a b : Text} (h : splitOnce sep s = some (a, b)) : s = a ++ sep ++ b := by
  induction s generalizing a with
  | nil =>
    unfold splitOnce at h
    split at h
    · rename_i hsep
      cases h
      rw [hsep]
      rfl
    · cases h
  | cons c cs ih =>
    unfold splitOnce at h
    split at h
    · rename_i hsep
      cases h
      exact (List.prefix_iff_eq_append.mp (List.isPrefixOf_iff_prefix.mp hsep)).symm
    · rename_i hsep
      obtain ⟨⟨a', b'⟩, hrest, heq⟩ := Option.map_eq_some_iff.mp h
      cases heq
      rw [ih hrest]
      rfl

/-- The first separator is the one in front of which its first character does not stand. -/
lemma splitOnce_append {a b : Text} (h : x ∉ a) :
    splitOnce (x :: sep) (a ++ (x :: sep) ++ b) = some (a, b) := by
  induction a with
  | nil =>
    have hbegins : (x :: sep).isPrefixOf (x :: sep ++ b) = true :=
      List.isPrefixOf_iff_prefix.mpr (List.prefix_append _ _)
    rw [List.nil_append, List.cons_append, splitOnce, ← List.cons_append, if_pos hbegins,
      List.drop_left]
  | cons c a ih =>
    obtain ⟨hc, ha⟩ := List.ne_and_not_mem_of_not_mem_cons h
    have hbegins := isPrefixOf_ne (s := a ++ (x :: sep) ++ b) (p := sep) hc
    rw [List.cons_append, List.cons_append, splitOnce, hbegins, ih ha]
    rfl

/-! ### Many separators -/

lemma splitFrom_ne_nil (sep : Text) (n : ℕ) (s : Text) : splitFrom sep n s ≠ [] := by
  induction s generalizing n with
  | nil => cases n <;> simp [splitFrom]
  | cons c cs ih =>
    cases n with
    | succ n => exact ih n
    | zero =>
      unfold splitFrom
      split
      · exact List.cons_ne_nil _ _
      · split
        · exact List.cons_ne_nil _ _
        · exact List.cons_ne_nil _ _

lemma splitFrom_drop (sep l s : Text) : splitFrom sep l.length (l ++ s) = splitFrom sep 0 s := by
  induction l with
  | nil => rfl
  | cons c l ih => exact ih

lemma split_sep (s : Text) : split (x :: sep) ((x :: sep) ++ s) = [] :: split (x :: sep) s := by
  have hbegins : (x :: sep).isPrefixOf (x :: (sep ++ s)) = true :=
    List.isPrefixOf_iff_prefix.mpr (List.prefix_append (x :: sep) s)
  rw [split, List.cons_append, splitFrom, if_pos hbegins, List.length_cons, Nat.add_sub_cancel,
    splitFrom_drop]
  rfl

/-- A text in front, if no separator begins in it. -/
lemma split_append {l s : Text}
    (h : ∀ c cs, c :: cs <:+ l → sep.isPrefixOf (c :: (cs ++ s)) = false) :
    split sep (l ++ s) = (split sep s).modifyHead (l ++ ·) := by
  induction l with
  | nil =>
    rcases hs : split sep s with _ | ⟨p, ps⟩
    · exact absurd hs (splitFrom_ne_nil sep 0 s)
    · rw [List.nil_append, hs]
      rfl
  | cons c l ih =>
    have hrest := ih fun d cs hcs => h d cs (hcs.trans (List.suffix_cons c l))
    rw [split, List.cons_append, splitFrom, h c l (List.suffix_refl _), ← split, hrest]
    rcases hs : split sep s with _ | ⟨p, ps⟩
    · exact absurd hs (splitFrom_ne_nil sep 0 s)
    · rfl

/-- A separator of one character does not begin in a text without it. -/
lemma split_append_one {l s : Text} (h : x ∉ l) :
    split [x] (l ++ s) = (split [x] s).modifyHead (l ++ ·) := by
  refine split_append fun c cs hcs => ?_
  exact isPrefixOf_ne fun heq => h (heq ▸ hcs.subset List.mem_cons_self)

/-- A separator of two characters does not begin in a text without it, not even if it is followed
by one. -/
lemma split_append_two {l s : Text} (hxy : x ≠ y) (h : ¬ [x, y] <:+: l)
    (hs : ∀ c ∈ s.head?, c = x) :
    split [x, y] (l ++ s) = (split [x, y] s).modifyHead (l ++ ·) := by
  refine split_append fun c cs hcs => ?_
  rw [← Bool.not_eq_true, List.isPrefixOf_iff_prefix]
  intro hbegins
  rcases cs with _ | ⟨d, cs⟩
  · rcases s with _ | ⟨d, s⟩
    · simpa using hbegins.length_le
    · obtain rfl := hs d rfl
      simp only [List.nil_append, List.cons_prefix_cons] at hbegins
      exact hxy hbegins.2.1.symm
  · simp only [List.cons_append, List.cons_prefix_cons] at hbegins
    obtain ⟨rfl, rfl, -⟩ := hbegins
    exact h (List.IsInfix.trans ⟨[], cs, by simp⟩ hcs.isInfix)

/-- Pieces that are joined by a separator of two characters. -/
lemma split_intercalate (hxy : x ≠ y) (l : Text) (ls : List Text)
    (h : ∀ p ∈ l :: ls, ¬ [x, y] <:+: p) :
    split [x, y] (l ++ ls.flatMap ([x, y] ++ ·)) = l :: ls := by
  induction ls generalizing l with
  | nil =>
    have hl := split_append_two (s := []) hxy (h l List.mem_cons_self) (by simp)
    rw [List.flatMap_nil, hl]
    simp [split, splitFrom]
  | cons p ls ih =>
    rw [List.flatMap_cons, List.append_assoc,
      split_append_two hxy (h l List.mem_cons_self) (by simp), split_sep,
      ih p fun q hq => h q (List.mem_cons_of_mem l hq)]
    simp

/-! ### Lines -/

/-- A line without the carriage return it may end with. -/
def chomp (line : Text) : Text := (stripSuffix ['\r'] line).getD line

/-- Lines, each ended by a line feed. -/
def unlines (ls : List Text) : Text := ls.flatMap (· ++ ['\n'])

lemma chomp_of_not_mem {line : Text} (h : '\r' ∉ line) : chomp line = line := by
  have hsuffix : ['\r'].isSuffixOf line = false := by
    rw [← Bool.not_eq_true, List.isSuffixOf_iff_suffix]
    exact fun hs => h (hs.subset List.mem_cons_self)
  rw [chomp, stripSuffix, hsuffix]
  rfl

lemma chomp_prefix (line : Text) : chomp line <+: line := by
  unfold chomp stripSuffix
  split
  · exact List.take_prefix _ _
  · exact List.prefix_refl line

lemma split_unlines {ls : List Text} (h : ∀ l ∈ ls, '\n' ∉ l) : split ['\n'] (unlines ls) = ls ++ [[]] := by
  induction ls with
  | nil => rfl
  | cons l ls ih =>
    obtain ⟨hl, hls⟩ := List.forall_mem_cons.mp h
    rw [unlines, List.flatMap_cons, ← unlines, List.append_assoc, split_append_one hl, split_sep,
      ih hls]
    simp

/-- The lines of a text are those it was put together from, without carriage returns. -/
lemma lines_unlines {ls : List Text} (h : ∀ l ∈ ls, '\n' ∉ l) : lines (unlines ls) = ls.map chomp := by
  rw [lines, split_unlines h, List.getLast?_concat, List.dropLast_concat]
  rfl

end Rebuilderd.Lib.Text
