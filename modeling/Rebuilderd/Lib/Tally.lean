import Mathlib

/-!
Counting by classes: each item has a class at most, and the counts are read back for a list of
classes.

What is read back adds up to the number of the items that have a class exactly if no class with an
item is read back twice.
-/

namespace Rebuilderd.Lib

variable {α κ : Type} [DecidableEq κ] {f : α → Option κ} {l : List α} {ks : List κ}

/-- The number of the items of a class. -/
def tally (f : α → Option κ) (l : List α) (k : κ) : ℕ := l.countP fun a => f a == some k

@[simp] lemma tally_nil (f : α → Option κ) (k : κ) : tally f [] k = 0 := rfl

lemma tally_concat {a : α} {k : κ} :
    tally f (l ++ [a]) k = tally f l k + if f a = some k then 1 else 0 := by
  rw [tally, List.countP_append, List.countP_singleton]
  simp [tally]

lemma tally_cons {a : α} {k : κ} :
    tally f (a :: l) k = tally f l k + if f a = some k then 1 else 0 := by
  rw [tally, List.countP_cons]
  simp [tally]

lemma tally_le {k : κ} : tally f l k ≤ l.length := List.countP_le_length

/-- How often a class is read back. -/
def readings (ks : List κ) (c : Option κ) : ℕ := c.elim 0 (ks.count ·)

lemma sum_class (ks : List κ) (c : Option κ) :
    (ks.map fun k => if c = some k then 1 else 0).sum = readings ks c := by
  rcases c with _ | k
  · simp [readings]
  · induction ks with
    | nil => rfl
    | cons k' ks ih =>
      rw [List.map_cons, List.sum_cons, ih, readings, readings, Option.elim_some, Option.elim_some,
        List.count_cons, Nat.add_comm]
      by_cases h : k = k'
      · simp [h]
      · simp [h, Ne.symm h]

/-- Each item is read back as often as its class. -/
lemma sum_tally : (ks.map fun k => tally f l k).sum = (l.map fun a => readings ks (f a)).sum := by
  induction l with
  | nil => simp
  | cons a l ih =>
    simp only [tally_cons, List.sum_map_add, ih, sum_class, List.map_cons, List.sum_cons]
    exact Nat.add_comm _ _

/-- What is read back is the number of the items with a class exactly if it reads no class with an
item twice. -/
lemma sum_tally_eq_iff (hks : ∀ a ∈ l, ∀ k, f a = some k → k ∈ ks) :
    (ks.map fun k => tally f l k).sum = (l.countP fun a => (f a).isSome) ↔
      ∀ a ∈ l, ∀ k, f a = some k → ks.count k = 1 := by
  rw [sum_tally]
  -- Every item with a class is read back at least once, so that nothing makes up for a second time.
  suffices (l.countP fun a => (f a).isSome) ≤ (l.map fun a => readings ks (f a)).sum ∧
      ((l.map fun a => readings ks (f a)).sum = (l.countP fun a => (f a).isSome) ↔
        ∀ a ∈ l, ∀ k, f a = some k → ks.count k = 1) from this.2
  induction l with
  | nil => simp
  | cons a l ih =>
    obtain ⟨hle, hiff⟩ := ih fun b hb => hks b (List.mem_cons_of_mem a hb)
    rw [List.map_cons, List.sum_cons, List.countP_cons, List.forall_mem_cons, ← hiff]
    rcases hk : f a with _ | k
    · simpa [readings] using hle
    · have hpos : 0 < ks.count k := List.count_pos_iff.mpr (hks a List.mem_cons_self k hk)
      have hread : readings ks (some k) = ks.count k := rfl
      simp only [hread, Option.isSome_some, if_true, Option.some.injEq, forall_eq']
      omega

end Rebuilderd.Lib
