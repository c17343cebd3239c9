import Rebuilderd.Lib.Pool

/-!
Programs over one kind of statements among programs over two kinds.

What is known of a program holds on when it runs next to programs that have other statements: its
steps are the same, marked as being of the first kind.
-/

namespace Rebuilderd.Lib

open Prog

variable {S T : Type} {A : S → Type} {B : T → Type} {ε ι σ κ α : Type}

/-- Statements of two kinds. -/
def Exec.sum (E : Exec S A ε ι σ) (E' : Exec T B ε ι σ) : Exec (S ⊕ T) (Sum.elim A B) ε ι σ
  | i, .inl s, x => E i s x
  | i, .inr s, x => E' i s x

/-- A program of the first kind. -/
def Prog.inl : Prog S A ε α → Prog (S ⊕ T) (Sum.elim A B) ε α
  | .ret a => .ret a
  | .fail e => .fail e
  | .op s k => .op (.inl s) fun r => (k r).inl

/-- A step of the first kind. -/
def Step.inl (a : Step S A ε ι) : Step (S ⊕ T) (Sum.elim A B) ε ι := ⟨a.input, .inl a.stmt, a.answer⟩

/-- A step of the second kind. -/
def Step.inr (a : Step T B ε ι) : Step (S ⊕ T) (Sum.elim A B) ε ι := ⟨a.input, .inr a.stmt, a.answer⟩

lemma Step.inl_inj {a b : Step S A ε ι} :
    (Step.inl a : Step (S ⊕ T) (Sum.elim A B) ε ι) = Step.inl b ↔ a = b := by
  refine ⟨fun h => ?_, fun h => h ▸ rfl⟩
  obtain ⟨i, s, r⟩ := a
  obtain ⟨j, s', r'⟩ := b
  obtain ⟨rfl, hs, hr⟩ := Step.mk.inj h
  obtain rfl := Sum.inl.inj hs
  obtain rfl : r = r' := eq_of_heq hr
  rfl

lemma Exec.answer_inl (E : Exec S A ε ι σ) (E' : Exec T B ε ι σ) (i : ι) (s : S) (x : σ) :
    (E.sum E').answer i (.inl s) x = E.answer i s x := by
  rcases h : E i s x with e | a <;> simp [Exec.answer, Exec.sum, h]

lemma Exec.answer_inr (E : Exec S A ε ι σ) (E' : Exec T B ε ι σ) (i : ι) (s : T) (x : σ) :
    (E.sum E').answer i (.inr s) x = E'.answer i s x := by
  rcases h : E' i s x with e | a <;> simp [Exec.answer, Exec.sum, h]

/-- A statement that was executed is of one of the two kinds. -/
lemma Event.kinds {E : Exec S A ε ι σ} {E' : Exec T B ε ι σ}
    {e : Event (S ⊕ T) (Sum.elim A B) ε ι σ κ}
    (h : e.answer = ((E.sum E').answer e.input e.stmt e.before).1) :
    (∃ s, e.toStep = Step.inl ⟨e.input, s, (E.answer e.input s e.before).1⟩ ∧
        e.after (E.sum E') = (E.answer e.input s e.before).2) ∨
      ∃ s, e.toStep = Step.inr ⟨e.input, s, (E'.answer e.input s e.before).1⟩ ∧
        e.after (E.sum E') = (E'.answer e.input s e.before).2 := by
  obtain ⟨⟨i, s, r⟩, n, c, x⟩ := e
  rcases s with s | s
  · refine .inl ⟨s, congrArg (Step.mk (S := S ⊕ T) (A := Sum.elim A B) i (.inl s)) ?_, ?_⟩
    · exact h.trans (by rw [Exec.answer_inl])
    · rw [Event.after, Exec.answer_inl]
  · refine .inr ⟨s, congrArg (Step.mk (S := S ⊕ T) (A := Sum.elim A B) i (.inr s)) ?_, ?_⟩
    · exact h.trans (by rw [Exec.answer_inr])
    · rw [Event.after, Exec.answer_inr]

variable {ok ok' : List (Step S A ε ι) → ι → S → Prop} {own : List (Step S A ε ι)}
  {Q Q' : List (Step S A ε ι) → α → Prop} {F F' : List (Step S A ε ι) → ε → Prop} {p : Prog S A ε α}

/-- What two proofs allow a program to execute, taken together. -/
lemma wp_both (h : wp (.journal ok) p Q F own) (h' : wp (.journal ok') p Q' F' own) :
    wp (.journal fun own i s => ok own i s ∧ ok' own i s) p Q F own := by
  induction p generalizing own with
  | ret a => exact h
  | fail e => exact h
  | op s k ih =>
    exact fun i => ⟨⟨(h i).1, (h' i).1⟩, fun r y hy => ih r ((h i).2 r y hy) ((h' i).2 r y hy)⟩

/-- The statements of a program are allowed if they are among those that it executes at most. -/
lemma wp_only {P : S → Prop} (h : wp (.journal ok) p Q F own) (hp : Only P p)
    (hok : ∀ own i s, ok own i s → P s → ok' own i s) : wp (.journal ok') p Q F own := by
  induction p generalizing own with
  | ret a => exact h
  | fail e => exact h
  | op s k ih =>
    exact fun i => ⟨hok _ _ _ (h i).1 hp.1, fun r y hy => ih r ((h i).2 r y hy) (hp.2 r)⟩

/-- A program of the first kind does what it did. -/
lemma wp_inl {okSum : List (Step (S ⊕ T) (Sum.elim A B) ε ι) → ι → S ⊕ T → Prop}
    (h : wp (.journal ok) p Q F own)
    (hok : ∀ own i s, ok own i s → okSum (own.map Step.inl) i (.inl s)) :
    wp (.journal okSum) (p.inl : Prog (S ⊕ T) (Sum.elim A B) ε α)
      (fun own' a => ∃ own, own' = own.map Step.inl ∧ Q own a)
      (fun own' e => ∃ own, own' = own.map Step.inl ∧ F own e) (own.map Step.inl) := by
  induction p generalizing own with
  | ret a => exact ⟨own, rfl, h⟩
  | fail e => exact ⟨own, rfl, h⟩
  | op s k ih =>
    refine fun i => ⟨hok _ _ _ (h i).1, ?_⟩
    rintro r own' rfl
    have hnext := ih r ((h i).2 r _ rfl)
    rw [List.map_append] at hnext
    exact hnext

end Rebuilderd.Lib
