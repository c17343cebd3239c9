import Mathlib

/-!
Runs of a partial step. A run halts where there is no next state; over finitely many states it halts
exactly if no state comes twice.
-/

namespace Rebuilderd.Lib

variable {σ τ : Type}

/-- The state after `n` steps; none if the run has halted before. -/
def steps (f : σ → Option σ) : ℕ → σ → Option σ
  | 0, s => some s
  | n + 1, s => (steps f n s).bind f

/-- After some number of steps there is no next state. -/
def Halts (f : σ → Option σ) (s : σ) : Prop := ∃ n, steps f n s = none

variable {f : σ → Option σ} {g : τ → Option τ} {s t : σ} {m n : ℕ}

@[simp] lemma steps_zero : steps f 0 s = some s := rfl

lemma steps_succ : steps f (n + 1) s = (steps f n s).bind f := rfl

lemma steps_add (m n : ℕ) : steps f (m + n) s = (steps f m s).bind (steps f n) := by
  induction n with
  | zero => cases steps f m s <;> rfl
  | succ n ih =>
    rw [← Nat.add_assoc, steps_succ, ih, Option.bind_assoc]
    rfl

lemma steps_succ' : steps f (n + 1) s = (f s).bind (steps f n) := by
  rw [Nat.add_comm, steps_add]
  rfl

/-- A run that halts does so in a state without a next one. -/
lemma halts_iff : Halts f s ↔ ∃ n t, steps f n s = some t ∧ f t = none := by
  constructor
  · rintro ⟨n, h⟩
    induction n with
    | zero => cases h
    | succ n ih =>
      rcases ht : steps f n s with _ | t
      · exact ih ht
      · exact ⟨n, t, ht, by simpa [steps_succ, ht] using h⟩
  · rintro ⟨n, t, ht, h⟩
    exact ⟨n + 1, by rw [steps_succ, ht, Option.bind_some, h]⟩

lemma steps_isSome_of_le (h : m ≤ n) (hn : steps f n s ≠ none) : steps f m s ≠ none := by
  obtain ⟨k, rfl⟩ := Nat.exists_eq_add_of_le h
  intro hm
  rw [steps_add, hm] at hn
  exact hn rfl

/-- A run that comes back to a state goes on for ever. -/
lemma not_halts_of_repeat (hmn : m < n) (hm : steps f m s = some t) (hn : steps f n s = some t) :
    ¬ Halts f s := by
  obtain ⟨k, rfl⟩ := Nat.exists_eq_add_of_lt hmn
  have hcycle : steps f (k + 1) t = some t := by
    rwa [Nat.add_assoc, steps_add, hm, Option.bind_some] at hn
  have hrounds (i : ℕ) : steps f (i * (k + 1)) t = some t := by
    induction i with
    | zero => simp
    | succ i ih => rw [Nat.add_mul, Nat.one_mul, steps_add, ih, Option.bind_some, hcycle]
  rintro ⟨l, hl⟩
  have hlong : steps f (m + l * (k + 1)) s = some t := by
    rw [steps_add, hm, Option.bind_some, hrounds]
  have hle : l ≤ m + l * (k + 1) :=
    (Nat.le_mul_of_pos_right l k.succ_pos).trans (Nat.le_add_left _ m)
  exact steps_isSome_of_le hle (by rw [hlong]; exact Option.some_ne_none t) hl

/-- Over finitely many states, a run halts exactly if no state comes twice. -/
lemma halts_iff_of_finite {S : Set σ} (hS : S.Finite) (hmem : ∀ n t, steps f n s = some t → t ∈ S) :
    Halts f s ↔ ∀ m n t, steps f m s = some t → steps f n s = some t → m = n := by
  constructor
  · intro h m n t hm hn
    rcases lt_trichotomy m n with hlt | heq | hgt
    · exact absurd h (not_halts_of_repeat hlt hm hn)
    · exact heq
    · exact absurd h (not_halts_of_repeat hgt hn hm)
  · intro h
    by_contra hgoes
    have hstate (n : ℕ) : ∃ t, steps f n s = some t :=
      Option.ne_none_iff_exists'.mp fun hnone => hgoes ⟨n, hnone⟩
    choose state hstate using hstate
    obtain ⟨m, n, hmn, heq⟩ := hS.exists_lt_map_eq_of_forall_mem fun n => hmem n _ (hstate n)
    exact hmn.ne (h m n (state m) (hstate m) (heq ▸ hstate n))

/-- A rank that falls with each step bounds the run. -/
lemma steps_rank {rank : σ → ℕ} (h : ∀ s t, f s = some t → rank t < rank s) (s : σ) :
    steps f (rank s + 1) s = none := by
  induction hr : rank s using Nat.strong_induction_on generalizing s with
  | _ r ih =>
    rw [steps_succ']
    rcases ht : f s with _ | t
    · rfl
    · have hlt : rank t < r := hr ▸ h s t ht
      rw [Option.bind_some]
      by_contra hgoes
      exact steps_isSome_of_le hlt hgoes (ih (rank t) hlt t rfl)

/-- A view of the state that makes its own steps. -/
lemma steps_map {view : σ → τ} (h : ∀ s, (f s).map view = g (view s)) (n : ℕ) :
    (steps f n s).map view = steps g n (view s) := by
  induction n with
  | zero => rfl
  | succ n ih =>
    rw [steps_succ, steps_succ, ← ih]
    cases steps f n s with
    | none => rfl
    | some t => exact h t

lemma halts_map {view : σ → τ} (h : ∀ s, (f s).map view = g (view s)) :
    Halts f s ↔ Halts g (view s) := by
  refine exists_congr fun n => ?_
  rw [← steps_map h, Option.map_eq_none_iff]

end Rebuilderd.Lib
