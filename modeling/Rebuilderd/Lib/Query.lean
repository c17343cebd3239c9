import Mathlib

/-!
Pieces of SQL queries: null-aware comparison, left joins, and ORDER BY with its ties.
-/

namespace Rebuilderd.Lib

variable {α β κ : Type}

/-- `x < y` in SQL: not true when one side is NULL. -/
def sqlLt [LT α] [DecidableLT α] : Option α → Option α → Bool
  | some a, some b => decide (a < b)
  | _, _ => false

/-- `x = y` in SQL: not true when one side is NULL. -/
def sqlEq [DecidableEq α] : Option α → Option α → Bool
  | some a, some b => decide (a = b)
  | _, _ => false

/-- The right-hand sides a LEFT JOIN pairs a row with: the matching rows, or one NULL. -/
def leftJoin (l : List β) (on : β → Bool) : List (Option β) :=
  if l.any on then (l.filter on).map some else [none]

lemma mem_leftJoin {l : List β} {on : β → Bool} {o : Option β} :
    o ∈ leftJoin l on ↔
      (∃ b ∈ l, on b = true ∧ o = some b) ∨ ((∀ b ∈ l, on b = false) ∧ o = none) := by
  unfold leftJoin
  split
  · rename_i h
    obtain ⟨b, hb, hon⟩ := List.any_eq_true.mp h
    constructor
    · intro ho
      obtain ⟨c, hc, rfl⟩ := List.mem_map.mp ho
      exact .inl ⟨c, (List.mem_filter.mp hc).1, (List.mem_filter.mp hc).2, rfl⟩
    · rintro (⟨c, hc, hcon, rfl⟩ | ⟨hall, -⟩)
      · exact List.mem_map.mpr ⟨c, List.mem_filter.mpr ⟨hc, hcon⟩, rfl⟩
      · simp [hall b hb] at hon
  · rename_i h
    have hall : ∀ b ∈ l, on b = false := by simpa using h
    constructor
    · intro ho
      exact .inr ⟨hall, by simpa using ho⟩
    · rintro (⟨c, hc, hcon, -⟩ | ⟨-, rfl⟩)
      · simp [hall c hc] at hcon
      · simp

lemma leftJoin_eq_map {l : List β} {on : β → Bool} (h : l.filter on ≠ []) :
    leftJoin l on = (l.filter on).map some := by
  obtain ⟨b, hb⟩ := List.exists_mem_of_ne_nil _ h
  obtain ⟨hb, hon⟩ := List.mem_filter.mp hb
  rw [leftJoin, if_pos (List.any_eq_true.mpr ⟨b, hb, hon⟩)]

lemma leftJoin_eq_none {l : List β} {on : β → Bool} (h : l.filter on = []) :
    leftJoin l on = [none] := by
  have hnone : l.any on = false :=
    List.any_eq_false.mpr fun b hb hon => List.filter_eq_nil_iff.mp h b hb hon
  rw [leftJoin, hnone]
  rfl

/-- A LEFT JOIN of which only the NULL is kept: the anti-join. -/
lemma antiJoin (l : List β) (on : β → Bool) (a : α) :
    ((leftJoin l on).flatMap fun o => if o.isNone then [a] else []) = if l.any on then [] else [a] := by
  rcases hl : l.filter on with _ | ⟨b, bs⟩
  · have hnone : l.any on = false :=
      List.any_eq_false.mpr fun b hb hon => List.filter_eq_nil_iff.mp hl b hb hon
    rw [leftJoin_eq_none hl, hnone]
    rfl
  · have hne : l.filter on ≠ [] := by simp [hl]
    obtain ⟨c, hc⟩ := List.exists_mem_of_ne_nil _ hne
    obtain ⟨hc, hon⟩ := List.mem_filter.mp hc
    rw [leftJoin_eq_map hne, if_pos (List.any_eq_true.mpr ⟨c, hc, hon⟩), List.flatMap_map]
    exact List.flatMap_eq_nil_iff.mpr fun x _ => rfl

/-- SQLite's `LIKE`: `%` is any text, `_` any character, and ASCII case is ignored. -/
def like : List Char → List Char → Bool
  | [], s => s.isEmpty
  | '%' :: p, s => s.tails.any (like p)
  | _ :: _, [] => false
  | c :: p, d :: s => (c == '_' || c.toLower == d.toLower) && like p s

/-- The invariant of a loop that can fail: `I done c` after the elements `done`. -/
lemma foldlM_ok {ε : Type} {f : α → β → Except ε α} {I : List β → α → Prop} {bs : List β}
    {a a' : α} (h : bs.foldlM f a = .ok a') (h0 : I [] a)
    (hf : ∀ done b c c', b ∈ bs → I done c → f c b = .ok c' → I (done ++ [b]) c') :
    I bs a' := by
  suffices ∀ rest done c, done ++ rest = bs → I done c → rest.foldlM f c = .ok a' → I bs a' from
    this bs [] a rfl h0 h
  intro rest
  induction rest with
  | nil =>
    rintro done c rfl hc h
    cases h
    simpa using hc
  | cons b rest ih =>
    rintro done c rfl hc h
    rw [List.foldlM_cons] at h
    rcases hb : f c b with e | c'
    · simp [hb, bind, Except.bind] at h
    · refine ih (done ++ [b]) c' (by simp) (hf done b c c' (by simp) hc hb) ?_
      simpa [hb, bind, Except.bind] using h

/-- A list is read to its end if no element fails. -/
lemma mapM_ok {ε : Type} {f : α → Except ε β} {l : List α} (h : ∀ a ∈ l, ∃ b, f a = .ok b) :
    ∃ bs, l.mapM f = .ok bs ∧ ∀ b, b ∈ bs ↔ ∃ a ∈ l, f a = .ok b := by
  induction l with
  | nil => exact ⟨[], rfl, by simp⟩
  | cons a l ih =>
    obtain ⟨b, hb⟩ := h a List.mem_cons_self
    obtain ⟨bs, hbs, hmem⟩ := ih fun a' ha' => h a' (List.mem_cons_of_mem a ha')
    refine ⟨b :: bs, ?_, fun b' => ?_⟩
    · rw [List.mapM_cons, hb, hbs]
      rfl
    · rw [List.mem_cons, hmem]
      simp [hb, eq_comm]

/-- A map built from rows has the last row of every key. -/
lemma lookup_foldl_insert [DecidableEq κ] (rows : List (Sigma fun _ : κ => α))
    (map : AList fun _ : κ => α) (key : κ) :
    (rows.foldl (fun map e => map.insert e.1 e.2) map).lookup key =
      (rows.reverse.dlookup key).or (map.lookup key) := by
  induction rows using List.reverseRecOn with
  | nil => rfl
  | append_singleton rows e ih =>
    rw [List.foldl_append, List.reverse_append]
    obtain ⟨k, v⟩ := e
    by_cases hk : key = k
    · subst hk
      simp [AList.lookup_insert]
    · rw [List.foldl_cons, List.foldl_nil, AList.lookup_insert_ne hk, ih, List.reverse_singleton,
        List.singleton_append, List.dlookup_cons_ne _ _ hk]

/-- NULLs come first in SQLite's ascending order. -/
def nullsFirst : Option α → WithBot α
  | none => ⊥
  | some a => a

/-- Which of `n` rows that an ORDER BY leaves tied comes first, by its position in the table. -/
structure Ties where
  pick : ℕ → ℕ
  lt : ∀ n, 0 < n → pick n < n

namespace Ties

/-- Tied rows come in table order. -/
def inOrder : Ties := ⟨fun _ => 0, fun _ h => h⟩

variable [LinearOrder κ]

/-- The rows with the least key. -/
def least (key : α → κ) (l : List α) : List α :=
  l.filter fun a => l.all fun b => decide (key a ≤ key b)

/-- `ORDER BY key LIMIT 1`. -/
def firstBy (T : Ties) (key : α → κ) (l : List α) : Option α :=
  (least key l)[T.pick (least key l).length]?

lemma mem_least {key : α → κ} {l : List α} {a : α} :
    a ∈ least key l ↔ a ∈ l ∧ ∀ b ∈ l, key a ≤ key b := by
  simp [least]

lemma least_ne_nil (key : α → κ) {l : List α} (h : l ≠ []) : least key l ≠ [] := by
  obtain ⟨a, ha, hmin⟩ := Multiset.exists_min_image key (s := (l : Multiset α)) (by simpa using h)
  exact List.ne_nil_of_mem (mem_least.mpr ⟨ha, by simpa using hmin⟩)

variable {T : Ties}

lemma firstBy_mem {key : α → κ} {l : List α} {a : α} (h : T.firstBy key l = some a) :
    a ∈ l ∧ ∀ b ∈ l, key a ≤ key b :=
  mem_least.mp (List.mem_of_getElem? h)

lemma firstBy_eq_none {key : α → κ} {l : List α} : T.firstBy key l = none ↔ l = [] := by
  constructor
  · intro h
    by_contra hl
    have hpos := List.length_pos_iff.mpr (least_ne_nil key hl)
    exact absurd (T.lt _ hpos) (Nat.not_lt.mpr (List.getElem?_eq_none_iff.mp h))
  · rintro rfl
    rfl

lemma least_concat {key : α → κ} {l : List α} {a : α} (h : ∀ b ∈ l, key a < key b) :
    least key (l ++ [a]) = [a] := by
  have hnone : l.filter (fun b => (l ++ [a]).all fun c => decide (key b ≤ key c)) = [] := by
    refine List.filter_eq_nil_iff.mpr fun b hb hall => ?_
    have hle := List.all_eq_true.mp hall a (by simp)
    exact absurd (of_decide_eq_true hle) (not_le.mpr (h b hb))
  have hself : ((l ++ [a]).all fun c => decide (key a ≤ key c)) = true := by
    simp only [List.all_append, List.all_cons, List.all_nil, le_refl, decide_true, Bool.and_true,
      List.all_eq_true, decide_eq_true_eq]
    exact fun b hb => (h b hb).le
  rw [least, List.filter_append, hnone, List.filter_singleton, hself]
  rfl

/-- A row with a smaller key than all others comes first, whatever the order of ties. -/
lemma firstBy_concat {key : α → κ} {l : List α} {a : α} (h : ∀ b ∈ l, key a < key b) :
    T.firstBy key (l ++ [a]) = some a := by
  have hpick : T.pick 1 = 0 := Nat.lt_one_iff.mp (T.lt 1 Nat.one_pos)
  simp [firstBy, least_concat h, hpick]

end Ties

end Rebuilderd.Lib
