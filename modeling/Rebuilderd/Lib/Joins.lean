import Rebuilderd.Lib.Query
import Rebuilderd.Lib.Table

/-!
Joins that give each row once: along a foreign key, and of a table with itself, of which the rows
are kept that no other row exceeds. Joins that do not, of which the rows are counted.
-/

namespace Rebuilderd.Lib

/-! ### Foreign keys -/

section
variable {α β κ : Type} [DecidableEq κ]

lemma filter_or_perm {p q : β → Bool} {l : List β} (h : ∀ b ∈ l, p b = true → q b = false) :
    (l.filter p ++ l.filter q).Perm (l.filter fun b => p b || q b) := by
  induction l with
  | nil => exact .refl _
  | cons b l ih =>
    have hrest := ih fun c hc => h c (List.mem_cons_of_mem b hc)
    rcases hp : p b with _ | _
    · rcases hq : q b with _ | _
      · simpa [hp, hq] using hrest
      · simpa [hp, hq] using List.perm_middle.trans (hrest.cons b)
    · have hq := h b List.mem_cons_self hp
      simpa [hp, hq] using hrest.cons b

/-- Rows joined with a table along its key: each row that has a partner, once. -/
lemma flatMap_key_perm {key : α → κ} {f : β → κ} {p : α → β → Bool} {ts : List α} {l : List β}
    (h : (ts.map key).Nodup) :
    (ts.flatMap fun a => l.filter fun b => f b == key a && p a b).Perm
      (l.filter fun b => ts.any fun a => f b == key a && p a b) := by
  induction ts with
  | nil => simp
  | cons a ts ih =>
    rw [List.map_cons, List.nodup_cons] at h
    rw [List.flatMap_cons]
    simp only [List.any_cons]
    refine ((ih h.2).append_left _).trans (filter_or_perm fun b _ hb => ?_)
    refine List.any_eq_false.mpr fun a' ha' hb' => h.1 ?_
    simp only [Bool.and_eq_true, beq_iff_eq] at hb hb'
    exact List.mem_map.mpr ⟨a', ha', hb'.1.symm.trans hb.1⟩

end

section
variable {ρ α : Type} [Row ρ] {t : Table ρ}

lemma Table.nodup_keys (t : Table ρ) : (t.rows.map key).Nodup :=
  List.pairwise_map.mpr (t.sorted.imp fun hlt => hlt.ne)

/-- A join with the row of a key, of which what the row does not satisfy is left out. -/
lemma Table.flatMap_key (t : Table ρ) (k : ℕ) (p : ρ → Bool) (a : α) :
    ((t.rows.filter (key · == k)).flatMap fun r => if p r then [a] else []) =
      if t.rows.any fun r => key r == k && p r then [a] else [] := by
  rcases Table.filter_key_cases t k with hnone | ⟨r, -, hsome⟩
  · rw [← List.any_filter, hnone]
    rfl
  · rw [← List.any_filter, hsome]
    simp

end

/-! ### The greatest row -/

section
variable {α κ : Type} [LinearOrder κ]

/-- With distinct keys, no other row exceeds the one with the greatest key, and only that one. -/
lemma filter_greatest {key : α → κ} {l : List α} (h : (l.map key).Nodup) :
    (l.filter fun a => !l.any fun b => decide (key a < key b)) = (l.argmax key).toList := by
  classical
  have hkeep (a : α) (ha : a ∈ l) : (!l.any fun b => decide (key a < key b)) = true ↔
      a ∈ l.argmax key := by
    rw [Bool.not_eq_true', List.any_eq_false, List.mem_argmax_iff]
    constructor
    · intro hmax
      have hle (b : α) (hb : b ∈ l) : key b ≤ key a := by simpa using hmax b hb
      refine ⟨ha, hle, fun b hb hab => ?_⟩
      rw [List.inj_on_of_nodup_map h ha hb (le_antisymm hab (hle b hb))]
    · rintro ⟨-, hle, -⟩ b hb
      simpa using hle b hb
  have hnodup := h.of_map
  rcases hmax : l.argmax key with _ | m
  · rw [List.argmax_eq_none] at hmax
    rw [hmax]
    rfl
  · have hm : m ∈ l := List.argmax_mem hmax
    rw [Option.toList_some, ← List.perm_singleton]
    refine (List.perm_ext_iff_of_nodup (hnodup.filter _) (List.nodup_singleton m)).mpr fun a => ?_
    rw [List.mem_filter, List.mem_singleton]
    constructor
    · rintro ⟨ha, hno⟩
      exact Option.some.inj ((hmax.symm.trans ((hkeep a ha).mp hno)).symm)
    · rintro rfl
      exact ⟨hm, (hkeep a hm).mpr hmax⟩

/-- The same, where a group without rows has a NULL. -/
lemma leftJoin_greatest {key : α → κ} {l : List α} {on : α → Bool}
    (h : ((l.filter on).map key).Nodup) :
    ((leftJoin l on).filter fun o =>
      !(l.filter on).any fun b => o.any fun a => decide (key a < key b)) =
        [(l.filter on).argmax key] := by
  by_cases hnone : l.filter on = []
  · rw [leftJoin_eq_none hnone, hnone]
    rfl
  · obtain ⟨m, hm⟩ : ∃ m, (l.filter on).argmax key = some m :=
      Option.ne_none_iff_exists'.mp fun heq => hnone (List.argmax_eq_none.mp heq)
    rw [leftJoin_eq_map hnone, List.filter_map, hm]
    change ((l.filter on).filter fun a => !(l.filter on).any fun b => decide (key a < key b)).map _ = _
    rw [filter_greatest h, hm]
    rfl

end

/-- A LEFT JOIN with rows that were rewritten. -/
lemma leftJoin_map {α β : Type} (f : α → β) (l : List α) (on : β → Bool) :
    leftJoin (l.map f) on = (leftJoin l (on ∘ f)).map (Option.map f) := by
  unfold leftJoin
  rw [List.any_map, List.filter_map]
  split
  · rw [List.map_map, List.map_map]
    rfl
  · rfl

/-! ### Counting groups by one of their rows -/

section
variable {β γ : Type} [DecidableEq γ] {p : γ → Bool}

lemma countP_cons_erase {l : List γ} {a : γ} (ha : a ∈ l) :
    l.countP p = (l.erase a).countP p + if p a then 1 else 0 := by
  rw [(List.perm_cons_erase ha).countP_eq p, List.countP_cons]

lemma countP_ge_one {l : List γ} {a : γ} (ha : a ∈ l) : (if p a then 1 else 0) ≤ l.countP p := by
  rw [countP_cons_erase ha]
  omega

/-- No more rows than a given one count exactly if no other one counts. -/
lemma countP_le_one_iff {l : List γ} {a : γ} (hnodup : l.Nodup) (ha : a ∈ l) :
    l.countP p ≤ (if p a then 1 else 0) ↔ ∀ x ∈ l, x ≠ a → p x = false := by
  have hzero : l.countP p ≤ (if p a then 1 else 0) ↔ (l.erase a).countP p = 0 := by
    rw [countP_cons_erase ha]
    omega
  rw [hzero, List.countP_eq_zero]
  constructor
  · intro h x hx hne
    simpa using h x ((hnodup.mem_erase_iff).mpr ⟨hne, hx⟩)
  · intro h x hx
    obtain ⟨hne, hx⟩ := hnodup.mem_erase_iff.mp hx
    simp [h x hx hne]

lemma countP_flatMap_ge {f : β → List γ} {top : β → γ} {l : List β}
    (htop : ∀ b ∈ l, top b ∈ f b) :
    l.countP (fun b => p (top b)) ≤ (l.flatMap f).countP p := by
  induction l with
  | nil => simp
  | cons b l ih =>
    have hb : (if p (top b) then 1 else 0) ≤ (f b).countP p :=
      countP_ge_one (htop b List.mem_cons_self)
    have hl := ih fun b' hb' => htop b' (List.mem_cons_of_mem b hb')
    rw [List.flatMap_cons, List.countP_append, List.countP_cons]
    omega

/-- No more rows than groups count exactly if none but the groups' own rows counts. -/
lemma countP_flatMap_le_iff {f : β → List γ} {top : β → γ} {l : List β}
    (hnodup : ∀ b ∈ l, (f b).Nodup) (htop : ∀ b ∈ l, top b ∈ f b) :
    (l.flatMap f).countP p ≤ l.countP (fun b => p (top b)) ↔
      ∀ b ∈ l, ∀ x ∈ f b, x ≠ top b → p x = false := by
  induction l with
  | nil => simp
  | cons b l ih =>
    have hl := ih (fun b' hb' => hnodup b' (List.mem_cons_of_mem b hb'))
      fun b' hb' => htop b' (List.mem_cons_of_mem b hb')
    have hrest : l.countP (fun b' => p (top b')) ≤ (l.flatMap f).countP p :=
      countP_flatMap_ge fun b' hb' => htop b' (List.mem_cons_of_mem b hb')
    have hb : (if p (top b) then 1 else 0) ≤ (f b).countP p :=
      countP_ge_one (htop b List.mem_cons_self)
    rw [List.forall_mem_cons, ← hl,
      ← countP_le_one_iff (hnodup b List.mem_cons_self) (htop b List.mem_cons_self),
      List.flatMap_cons, List.countP_append, List.countP_cons]
    omega

end

/-! ### Filters -/

/-- Two filters select the same exactly if they agree on every row. -/
lemma map_filter_perm_iff {α β : Type} {p q : α → Bool} {g : α → β} {l : List α}
    (hg : ∀ a ∈ l, ∀ b ∈ l, g a = g b → a = b) :
    ((l.filter p).map g).Perm ((l.filter q).map g) ↔ ∀ a ∈ l, p a = q a := by
  constructor
  · intro h a ha
    have hmem (p q : α → Bool) (h : ((l.filter p).map g).Perm ((l.filter q).map g))
        (hp : p a = true) : q a = true := by
      have hsel : g a ∈ (l.filter p).map g := List.mem_map_of_mem (List.mem_filter.mpr ⟨ha, hp⟩)
      obtain ⟨b, hb, hgb⟩ := List.mem_map.mp (h.mem_iff.mp hsel)
      obtain ⟨hb, hq⟩ := List.mem_filter.mp hb
      exact hg b hb a ha hgb ▸ hq
    exact Bool.eq_iff_iff.mpr ⟨hmem p q h, hmem q p h.symm⟩
  · intro h
    rw [List.filter_congr h]

/-- A filter before a projection selects what one after it does exactly if they agree on every row. -/
lemma map_filter_perm_filter_map_iff {α β : Type} [DecidableEq β] {p : α → Bool} {q : β → Bool}
    {g : α → β} {l : List α} :
    ((l.filter p).map g).Perm ((l.map g).filter q) ↔ ∀ a ∈ l, p a = q (g a) := by
  rw [List.filter_map]
  constructor
  · intro h a ha
    -- Of the rows projected to the same as `a`, both select all or none.
    have hcount : l.countP (fun x => p x && g x == g a) = l.countP (fun x => q (g x) && g x == g a) := by
      have hboth := h.countP_eq fun b => b == g a
      rw [List.countP_map, List.countP_map, List.countP_filter, List.countP_filter] at hboth
      simpa only [Function.comp, Bool.and_comm] using hboth
    rcases hq : q (g a) with _ | _
    · have hnone : l.countP (fun x => p x && g x == g a) = 0 := by
        rw [hcount, List.countP_eq_zero]
        intro x _ hx
        rw [Bool.and_eq_true, beq_iff_eq] at hx
        rw [hx.2, hq] at hx
        cases hx.1
      simpa using List.countP_eq_zero.mp hnone a ha
    · have hall : l.countP (fun x => p x && g x == g a) = l.countP fun x => g x == g a := by
        rw [hcount]
        refine List.countP_congr fun x _ => ?_
        rw [Bool.and_eq_true, beq_iff_eq]
        exact and_iff_right_of_imp fun hx => hx ▸ hq
      have hsub := (List.monotone_filter_right l (p := fun x => p x && g x == g a)
        (q := fun x => g x == g a) fun x hx => (Bool.and_eq_true_iff.mp hx).2)
      rw [List.countP_eq_length_filter, List.countP_eq_length_filter] at hall
      have hmem : a ∈ l.filter fun x => p x && g x == g a := by
        rw [hsub.eq_of_length hall]
        simpa using ha
      exact (Bool.and_eq_true_iff.mp (List.mem_filter.mp hmem).2).1
  · intro h
    rw [List.filter_congr (q := q ∘ g) h]

end Rebuilderd.Lib
