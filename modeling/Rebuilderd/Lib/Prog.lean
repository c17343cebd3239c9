import Rebuilderd.Lib.Table

/-!
Programs over atomic statements.

A program is a tree: it executes a statement, receives the answer or an error, and goes on.
`S` is the type of statements and `A s` the type of the answers of `s`. The tree fixes where
another program can run in between, and where a statement can fail; what a statement does is
a separate parameter, so that one program has a sequential run, a run with a failing
statement and its part in a pool of threads.
-/

namespace Rebuilderd.Lib

/-- A program that executes statements `s : S`, each answering in `A s`. -/
inductive Prog (S : Type) (A : S → Type) (ε α : Type) where
  | ret (a : α)
  | fail (e : ε)
  | op (s : S) (k : Except ε (A s) → Prog S A ε α)

/-- A statement that was executed: its input and its answer. -/
structure Step (S : Type) (A : S → Type) (ε ι : Type) where
  input : ι
  stmt : S
  answer : Except ε (A stmt)

/-- What a statement does at input `i`: an answer and a new state, or an error and no
change. -/
abbrev Exec (S : Type) (A : S → Type) (ε ι σ : Type) :=
  ι → (s : S) → σ → Except ε (A s × σ)

variable {S : Type} {A : S → Type} {ε ι σ α β γ : Type}

/-- The answer of a statement, and the state it leaves. -/
def Exec.answer (E : Exec S A ε ι σ) (i : ι) (s : S) (x : σ) : Except ε (A s) × σ :=
  match E i s x with
  | .ok (r, y) => (.ok r, y)
  | .error e => (.error e, x)

namespace Prog

def bind : Prog S A ε α → (α → Prog S A ε β) → Prog S A ε β
  | .ret a, f => f a
  | .fail e, _ => .fail e
  | .op s k, f => .op s fun r => (k r).bind f

instance : Monad (Prog S A ε) where
  pure := .ret
  bind := .bind

/-- Execute one statement; its error ends the program. -/
def stmt (s : S) : Prog S A ε (A s) := .op s fun
  | .ok a => .ret a
  | .error e => .fail e

/-- A computation without statements. -/
def lift : Except ε α → Prog S A ε α
  | .ok a => .ret a
  | .error e => .fail e

/-- Run `p` and hand its error to the caller. -/
def attempt : Prog S A ε α → Prog S A ε (Except ε α)
  | .ret a => .ret (.ok a)
  | .fail e => .ret (.error e)
  | .op s k => .op s fun r => (k r).attempt

/-! ### Sequential runs -/

/-- Run to the end; the `n`-th statement executes at input `t n`. -/
def run (E : Exec S A ε ι σ) : Prog S A ε α → (ℕ → ι) → σ → Except ε α × σ
  | .ret a, _, x => (.ok a, x)
  | .fail e, _, x => (.error e, x)
  | .op s k, t, x => (k (E.answer (t 0) s x).1).run E (fun n => t (n + 1)) (E.answer (t 0) s x).2

/-- How a run with an injected error ended: it was over before the error, or the error was
reached and the program went on from there. -/
inductive Faulted (ε α σ : Type) where
  | over (r : Except ε α) (x : σ)
  | hit (r : Except ε α) (x : σ)

/-- The state such a run ended in, if the error was reached. -/
def Faulted.hitState : Faulted ε α σ → Option σ
  | .over _ _ => none
  | .hit _ x => some x

/-- Run with statement number `n` failing with `e` instead of executing. -/
def runFault (E : Exec S A ε ι σ) (e : ε) :
    ℕ → Prog S A ε α → (ℕ → ι) → σ → Faulted ε α σ
  | _, .ret a, _, x => .over (.ok a) x
  | _, .fail e', _, x => .over (.error e') x
  | 0, .op _ k, t, x =>
    let out := (k (.error e)).run E (fun n => t (n + 1)) x
    .hit out.1 out.2
  | n + 1, .op s k, t, x =>
    runFault E e n (k (E.answer (t 0) s x).1) (fun n => t (n + 1)) (E.answer (t 0) s x).2

/-! ### Pre- and postconditions

`wp L p Q F a`: from the abstract state `a`, every statement of `p` is allowed by `L`, a
result satisfies `Q` and an error `F`, whatever the statements answer within `L`. The
abstract state may be the real one, a ghost history or only a phase of the program. -/

/-- Which statements are allowed in an abstract state, and what they may answer and lead to. -/
structure Rules (S : Type) (A : S → Type) (ε ι φ : Type) where
  ok : φ → ι → S → Prop
  may : φ → ι → (s : S) → Except ε (A s) → φ → Prop

variable {φ : Type}

def wp (L : Rules S A ε ι φ) : Prog S A ε α → (φ → α → Prop) → (φ → ε → Prop) → φ → Prop
  | .ret a, Q, _, x => Q x a
  | .fail e, _, F, x => F x e
  | .op s k, Q, F, x =>
    ∀ i, L.ok x i s ∧ ∀ r y, L.may x i s r y → wp L (k r) Q F y

variable {L : Rules S A ε ι φ} {Q Q' : φ → α → Prop} {F F' : φ → ε → Prop} {x : φ}

@[simp] lemma wp_ret (a : α) : wp L (.ret a) Q F x ↔ Q x a := Iff.rfl
@[simp] lemma wp_pure (a : α) : wp L (pure a) Q F x ↔ Q x a := Iff.rfl
@[simp] lemma wp_fail (e : ε) : wp L (.fail e : Prog S A ε α) Q F x ↔ F x e := Iff.rfl

lemma wp_stmt (s : S) {Q : φ → A s → Prop} :
    wp L (stmt s) Q F x ↔ ∀ i, L.ok x i s ∧ ∀ r y, L.may x i s r y →
      (∀ a, r = .ok a → Q y a) ∧ (∀ e, r = .error e → F y e) := by
  refine forall_congr' fun i => and_congr_right fun _ => forall_congr' fun r =>
    forall_congr' fun y => imp_congr_right fun _ => ?_
  cases r <;> simp [wp]

lemma wp_lift (r : Except ε α) :
    wp L (lift r) Q F x ↔ (∀ a, r = .ok a → Q x a) ∧ (∀ e, r = .error e → F x e) := by
  cases r <;> simp [lift]

lemma wp_bind (p : Prog S A ε α) (f : α → Prog S A ε β) {Q : φ → β → Prop} :
    wp L (p >>= f) Q F x ↔ wp L p (fun y a => wp L (f a) Q F y) F x := by
  change wp L (p.bind f) Q F x ↔ _
  induction p generalizing x with
  | ret a => rfl
  | fail e => rfl
  | op s k ih =>
    simp only [bind, wp]
    exact forall_congr' fun i => and_congr_right fun _ => forall_congr' fun r =>
      forall_congr' fun y => imp_congr_right fun _ => ih r

lemma wp_attempt (p : Prog S A ε α) {Q : φ → Except ε α → Prop} :
    wp L p.attempt Q F x ↔ wp L p (fun y a => Q y (.ok a)) (fun y e => Q y (.error e)) x := by
  induction p generalizing x with
  | ret a => rfl
  | fail e => rfl
  | op s k ih =>
    simp only [attempt, wp]
    exact forall_congr' fun i => and_congr_right fun _ => forall_congr' fun r =>
      forall_congr' fun y => imp_congr_right fun _ => ih r

lemma wp_mono {p : Prog S A ε α} (h : wp L p Q F x) (hQ : ∀ y a, Q y a → Q' y a)
    (hF : ∀ y e, F y e → F' y e) : wp L p Q' F' x := by
  induction p generalizing x with
  | ret a => exact hQ _ _ h
  | fail e => exact hF _ _ h
  | op s k ih => exact fun i => ⟨(h i).1, fun r y hm => ih r ((h i).2 r y hm)⟩

/-- Two postconditions proved apart hold together. -/
lemma wp_and {p : Prog S A ε α} (h : wp L p Q F x) (h' : wp L p Q' F' x) :
    wp L p (fun y a => Q y a ∧ Q' y a) (fun y e => F y e ∧ F' y e) x := by
  induction p generalizing x with
  | ret a => exact ⟨h, h'⟩
  | fail e => exact ⟨h, h'⟩
  | op s k ih => exact fun i => ⟨(h i).1, fun r y hm => ih r ((h i).2 r y hm) ((h' i).2 r y hm)⟩

/-- Weaker rules that allow no more answers are met by the same programs. -/
lemma wp_rules {L' : Rules S A ε ι φ} {p : Prog S A ε α} (h : wp L p Q F x)
    (hok : ∀ y i s, L.ok y i s → L'.ok y i s)
    (hmay : ∀ y i s r z, L'.may y i s r z → L.may y i s r z) : wp L' p Q F x := by
  induction p generalizing x with
  | ret a => exact h
  | fail e => exact h
  | op s k ih =>
    exact fun i => ⟨hok _ _ _ (h i).1, fun r y hm => ih r ((h i).2 r y (hmay _ _ _ _ _ hm))⟩

/-- The rule of a loop: `I` relates the state, the accumulator and what is left to do. -/
lemma wp_foldlM {f : γ → β → Prog S A ε γ} (I : φ → γ → List β → Prop)
    (hf : ∀ y c b bs, I y c (b :: bs) → wp L (f c b) (fun z c' => I z c' bs) F y)
    (bs : List β) (c : γ) (h : I x c bs) :
    wp L (bs.foldlM f c) (fun z c' => I z c' []) F x := by
  induction bs generalizing x c with
  | nil => exact h
  | cons b bs ih =>
    rw [List.foldlM_cons, wp_bind]
    exact wp_mono (hf x c b bs h) (fun y c' hy => ih c' hy) fun _ _ => id

/-- Rules that hold in every state: a program all of whose statements are fine meets them. -/
lemma wp_true (hok : ∀ y i s, L.ok y i s) (p : Prog S A ε α) :
    wp L p (fun _ _ => True) (fun _ _ => True) x := by
  induction p generalizing x with
  | ret a => trivial
  | fail e => trivial
  | op s k ih => exact fun i => ⟨hok _ _ _, fun r y _ => ih r⟩

/-! ### Invariants of programs -/

/-- `p` executes only statements `L` allows, and `I` holds after each of them. -/
def Keeps (L : Rules S A ε ι φ) (I : φ → Prop) (p : Prog S A ε α) : Prop :=
  ∀ x, I x → wp L p (fun y _ => I y) (fun y _ => I y) x

namespace Keeps

variable {I : φ → Prop}

lemma pure (a : α) : Keeps L I (pure a : Prog S A ε α) := fun _ h => h
lemma fail (e : ε) : Keeps L I (.fail e : Prog S A ε α) := fun _ h => h

lemma lift (r : Except ε α) : Keeps L I (Prog.lift r : Prog S A ε α) := by
  cases r
  · exact fail _
  · exact pure _

lemma stmt (s : S) (h : ∀ x i, I x → L.ok x i s ∧ ∀ r y, L.may x i s r y → I y) :
    Keeps L I (Prog.stmt s : Prog S A ε (A s)) := by
  intro x hx
  rw [wp_stmt]
  intro i
  refine ⟨(h x i hx).1, fun r y hy => ?_⟩
  have := (h x i hx).2 r y hy
  exact ⟨fun _ _ => this, fun _ _ => this⟩

lemma bind {p : Prog S A ε α} {f : α → Prog S A ε β} (hp : Keeps L I p)
    (hf : ∀ a, Keeps L I (f a)) : Keeps L I (p >>= f) := by
  intro x hx
  rw [wp_bind]
  exact wp_mono (hp x hx) (fun y a hy => hf a y hy) fun _ _ h => h

/-- If every statement is allowed and keeps `I`, so is every program. -/
lemma of_stmts (h : ∀ x i s, I x → L.ok x i s ∧ ∀ r y, L.may x i s r y → I y)
    (p : Prog S A ε α) : Keeps L I p := by
  intro x hx
  induction p generalizing x with
  | ret a => exact hx
  | fail e => exact hx
  | op s k ih => exact fun i => ⟨(h x i s hx).1, fun r y hy => ih r y ((h x i s hx).2 r y hy)⟩

lemma map {p : Prog S A ε α} (hp : Keeps L I p) (f : α → β) : Keeps L I (f <$> p) :=
  bind hp fun a => pure (f a)

lemma foldlM {f : γ → β → Prog S A ε γ} {bs : List β} (hf : ∀ c, ∀ b ∈ bs, Keeps L I (f c b))
    (c : γ) : Keeps L I (bs.foldlM f c) := by
  induction bs generalizing c with
  | nil => exact pure c
  | cons b bs ih =>
    rw [List.foldlM_cons]
    exact bind (hf c b (by simp)) fun c' => ih (fun c b hb => hf c b (by simp [hb])) c'

end Keeps

/-! ### The statements of a program -/

/-- Whatever its statements answer, the program executes none but those that satisfy `ok`. -/
def Only (ok : S → Prop) : Prog S A ε α → Prop
  | .ret _ => True
  | .fail _ => True
  | .op s k => ok s ∧ ∀ r, Only ok (k r)

namespace Only

variable {ok : S → Prop}

lemma pure (a : α) : Only ok (pure a : Prog S A ε α) := trivial

lemma lift (r : Except ε α) : Only ok (Prog.lift r : Prog S A ε α) := by
  cases r <;> trivial

lemma mono {ok' : S → Prop} {p : Prog S A ε α} (hp : Only ok p) (h : ∀ s, ok s → ok' s) :
    Only ok' p := by
  induction p with
  | ret a => trivial
  | fail e => trivial
  | op s k ih => exact ⟨h s hp.1, fun r => ih r (hp.2 r)⟩

lemma stmt {s : S} (h : ok s) : Only ok (Prog.stmt s : Prog S A ε (A s)) :=
  ⟨h, fun r => by cases r <;> trivial⟩

lemma bind {p : Prog S A ε α} {f : α → Prog S A ε β} (hp : Only ok p)
    (hf : ∀ a, Only ok (f a)) : Only ok (p >>= f) := by
  change Only ok (p.bind f)
  induction p with
  | ret a => exact hf a
  | fail e => trivial
  | op s k ih => exact ⟨hp.1, fun r => ih r (hp.2 r)⟩

lemma map {p : Prog S A ε α} (hp : Only ok p) (f : α → β) : Only ok (f <$> p) :=
  bind hp fun a => pure (f a)

lemma attempt {p : Prog S A ε α} (hp : Only ok p) : Only ok p.attempt := by
  induction p with
  | ret a => trivial
  | fail e => trivial
  | op s k ih => exact ⟨hp.1, fun r => ih r (hp.2 r)⟩

lemma foldlM {f : γ → β → Prog S A ε γ} {bs : List β} (hf : ∀ c b, Only ok (f c b)) (c : γ) :
    Only ok (bs.foldlM f c) := by
  induction bs generalizing c with
  | nil => exact pure c
  | cons b bs ih =>
    rw [List.foldlM_cons]
    exact bind (hf c b) ih

/-- An invariant of the statements of a program is one of the program. -/
lemma keeps {p : Prog S A ε α} (hp : Only ok p) {I : φ → Prop}
    (h : ∀ x i s, ok s → I x → L.ok x i s ∧ ∀ r y, L.may x i s r y → I y) : Keeps L I p := by
  intro x hx
  induction p generalizing x with
  | ret a => exact hx
  | fail e => exact hx
  | op s k ih =>
    exact fun i => ⟨(h x i s hp.1 hx).1, fun r y hy => ih r (hp.2 r) y ((h x i s hp.1 hx).2 r y hy)⟩

end Only

end Prog

open Prog

/-- The rules that look at the program alone: `ok own i s` says whether it may execute `s` after
the statements `own`. -/
def Prog.Rules.journal (ok : List (Step S A ε ι) → ι → S → Prop) :
    Rules S A ε ι (List (Step S A ε ι)) where
  ok := ok
  may own i s r own' := own' = own ++ [⟨i, s, r⟩]

/-- The rules of the real semantics: a statement answers as it executes. -/
def Exec.rules (E : Exec S A ε ι σ) : Rules S A ε ι σ where
  ok _ _ _ := True
  may x i s r y := E.answer i s x = (r, y)

/-- The rules of the real semantics, for runs whose statements execute at inputs of `P`. -/
def Exec.rulesIn (E : Exec S A ε ι σ) (P : ι → Prop) : Rules S A ε ι σ where
  ok _ _ _ := True
  may x i s r y := P i ∧ E.answer i s x = (r, y)

/-- The rules of a run in which one statement fails with `e`: the abstract state is the real one
and how many statements there are still before that one, or `none` once it has failed. -/
def Exec.faultRules (E : Exec S A ε ι σ) (e : ε) : Rules S A ε ι (σ × Option ℕ) where
  ok _ _ _ := True
  may x i s r y :=
    match x.2 with
    | some 0 => r = .error e ∧ y = (x.1, none)
    | some (n + 1) => E.answer i s x.1 = (r, y.1) ∧ y.2 = some n
    | none => E.answer i s x.1 = (r, y.1) ∧ y.2 = none

namespace Prog

variable {E : Exec S A ε ι σ}

@[simp] lemma run_pure (a : α) (t : ℕ → ι) (x : σ) :
    (pure a : Prog S A ε α).run E t x = (.ok a, x) := rfl

lemma bind_assoc (p : Prog S A ε α) (f : α → Prog S A ε β) (g : β → Prog S A ε γ) :
    p >>= f >>= g = p >>= fun a => f a >>= g := by
  induction p with
  | ret a => rfl
  | fail e => rfl
  | op s k ih => exact congrArg (Prog.op s) (funext ih)

/-- A run goes on with the answer of its first statement, or ends with its error. -/
lemma run_stmt_bind (s : S) (f : A s → Prog S A ε β) (t : ℕ → ι) (x : σ) :
    (stmt s >>= f).run E t x =
      match E (t 0) s x with
      | .ok (a, y) => (f a).run E (fun n => t (n + 1)) y
      | .error e => (.error e, x) := by
  change ((stmt s).bind f).run E t x = _
  rcases hE : E (t 0) s x with e | ⟨a, y⟩ <;> simp [stmt, bind, run, Exec.answer, hE]

/-- A run goes on where the first part has ended, with the inputs that are left. -/
lemma run_bind_ok {p : Prog S A ε α} {t : ℕ → ι} {x y : σ} {a : α}
    (h : p.run E t x = (.ok a, y)) (f : α → Prog S A ε β) :
    ∃ m, (p >>= f).run E t x = (f a).run E (fun n => t (n + m)) y := by
  induction p generalizing x t with
  | ret b =>
    cases h
    exact ⟨0, rfl⟩
  | fail e => cases h
  | op s k ih =>
    obtain ⟨m, hm⟩ := ih _ h
    exact ⟨m + 1, hm.trans (by simp only [Nat.add_assoc])⟩

/-- A program that only changes the answer of another one. -/
lemma run_bind_pure (p : Prog S A ε α) (g : α → β) (t : ℕ → ι) (x : σ) :
    (p >>= fun a => pure (g a)).run E t x = ((p.run E t x).1.map g, (p.run E t x).2) := by
  induction p generalizing x t with
  | ret a => rfl
  | fail e => rfl
  | op s k ih => exact ih _ _ _

/-- A program that handles the error of another one goes on where that has ended. -/
lemma run_attempt_bind (p : Prog S A ε α) (f : Except ε α → Prog S A ε β) (t : ℕ → ι) (x : σ) :
    ∃ m, (p.attempt >>= f).run E t x =
      (f (p.run E t x).1).run E (fun n => t (n + m)) (p.run E t x).2 := by
  induction p generalizing x t with
  | ret a => exact ⟨0, rfl⟩
  | fail e => exact ⟨0, rfl⟩
  | op s k ih =>
    obtain ⟨m, hm⟩ := ih (E.answer (t 0) s x).1 (fun n => t (n + 1)) (E.answer (t 0) s x).2
    exact ⟨m + 1, hm.trans (by simp only [Nat.add_assoc]; rfl)⟩

/-- **A postcondition proved by `wp` holds of the run.** -/
theorem run_of_wp {p : Prog S A ε α} {Q : σ → α → Prop} {F : σ → ε → Prop} {x : σ}
    (h : wp E.rules p Q F x) (t : ℕ → ι) :
    (∀ a, (p.run E t x).1 = .ok a → Q (p.run E t x).2 a) ∧
      (∀ e, (p.run E t x).1 = .error e → F (p.run E t x).2 e) := by
  induction p generalizing x t with
  | ret a =>
    refine ⟨fun b hb => ?_, nofun⟩
    cases hb; exact h
  | fail e =>
    refine ⟨nofun, fun e' he => ?_⟩
    cases he; exact h
  | op s k ih => exact ih _ ((h (t 0)).2 _ _ rfl) _

/-- A program that cannot fail has an answer. -/
lemma run_ok_of_wp {p : Prog S A ε α} {Q : σ → α → Prop} {x : σ}
    (h : wp E.rules p Q (fun _ _ => False) x) (t : ℕ → ι) :
    ∃ a y, p.run E t x = (.ok a, y) ∧ Q y a := by
  obtain ⟨hok, herror⟩ := run_of_wp h t
  rcases hrun : p.run E t x with ⟨e | a, y⟩
  · rw [hrun] at herror
    exact (herror e rfl).elim
  · rw [hrun] at hok
    exact ⟨a, y, rfl, hok a rfl⟩

/-- A postcondition holds of the run, if the inputs of its statements are those it is proved for. -/
theorem run_of_wp_in {P : ι → Prop} {p : Prog S A ε α} {Q : σ → α → Prop} {F : σ → ε → Prop} {x : σ}
    (h : wp (E.rulesIn P) p Q F x) {t : ℕ → ι} (ht : ∀ n, P (t n)) :
    (∀ a, (p.run E t x).1 = .ok a → Q (p.run E t x).2 a) ∧
      (∀ e, (p.run E t x).1 = .error e → F (p.run E t x).2 e) := by
  induction p generalizing x t with
  | ret a =>
    refine ⟨fun b hb => ?_, nofun⟩
    cases hb; exact h
  | fail e =>
    refine ⟨nofun, fun e' he => ?_⟩
    cases he; exact h
  | op s k ih => exact ih _ ((h (t 0)).2 _ _ ⟨ht 0, rfl⟩) fun n => ht (n + 1)

/-- What holds of every run holds of those at inputs of `P`. -/
lemma wp_in {P : ι → Prop} {p : Prog S A ε α} {Q : σ → α → Prop} {F : σ → ε → Prop} {x : σ}
    (h : wp E.rules p Q F x) : wp (E.rulesIn P) p Q F x :=
  wp_rules h (fun _ _ _ _ => trivial) fun _ _ _ _ _ hmay => hmay.2

lemma wp_stmt_in {P : ι → Prop} {s : S} {x : σ} {Q : σ → A s → Prop} {F : σ → ε → Prop}
    (hok : ∀ i a y, P i → E i s x = .ok (a, y) → Q y a)
    (herr : ∀ i e, P i → E i s x = .error e → F x e) :
    wp (E.rulesIn P) (stmt s) Q F x := by
  rw [wp_stmt]
  refine fun i => ⟨trivial, fun r y hmay => ?_⟩
  obtain ⟨hi, hy⟩ := hmay
  rcases hE : E i s x with e | ⟨a, z⟩ <;> simp only [Exec.answer, hE, Prod.mk.injEq] at hy <;>
    obtain ⟨rfl, rfl⟩ := hy
  · refine ⟨nofun, fun e' he => ?_⟩
    obtain rfl : e = e' := Except.error.inj he
    exact herr i e hi hE
  · refine ⟨fun b hb => ?_, nofun⟩
    obtain rfl : a = b := Except.ok.inj hb
    exact hok i a _ hi hE

/-- One statement of a run: it is executed, or it fails and changes nothing. -/
lemma wp_stmt_run {s : S} {x : σ} {Q : σ → A s → Prop} {F : σ → ε → Prop}
    (hok : ∀ i a y, E i s x = .ok (a, y) → Q y a) (herr : ∀ i e, E i s x = .error e → F x e) :
    wp E.rules (stmt s) Q F x := by
  rw [wp_stmt]
  refine fun i => ⟨trivial, fun r y hy => ?_⟩
  rcases hE : E i s x with e | ⟨a, z⟩ <;> simp only [Exec.rules, Exec.answer, hE, Prod.mk.injEq] at hy <;>
    obtain ⟨rfl, rfl⟩ := hy
  · refine ⟨nofun, fun e' he => ?_⟩
    obtain rfl : e = e' := Except.error.inj he
    exact herr i e hE
  · refine ⟨fun b hb => ?_, nofun⟩
    obtain rfl : a = b := Except.ok.inj hb
    exact hok i a _ hE

/-- One statement of a run with an error: it is the one that fails, or it is executed. -/
lemma wp_stmt_fault {e : ε} {s : S} {x : σ} {n : ℕ} {Q : σ × Option ℕ → A s → Prop}
    {F : σ × Option ℕ → ε → Prop} (h0 : n = 0 → F (x, none) e)
    (hok : ∀ m i a y, n = m + 1 → E i s x = .ok (a, y) → Q (y, some m) a)
    (herr : ∀ m e', n = m + 1 → F (x, some m) e') :
    wp (E.faultRules e) (stmt s) Q F (x, some n) := by
  rw [wp_stmt]
  refine fun i => ⟨trivial, fun r y hy => ?_⟩
  cases n with
  | zero =>
    obtain ⟨rfl, rfl⟩ := hy
    refine ⟨nofun, fun e' he => ?_⟩
    obtain rfl : e = e' := Except.error.inj he
    exact h0 rfl
  | succ m =>
    obtain ⟨hans, hm⟩ := hy
    obtain ⟨y, c⟩ := y
    subst hm
    rcases hE : E i s x with e' | ⟨a, z⟩ <;> simp only [Exec.answer, hE, Prod.mk.injEq] at hans <;>
      obtain ⟨rfl, rfl⟩ := hans
    · exact ⟨nofun, fun _ _ => herr m _ rfl⟩
    · refine ⟨fun b hb => ?_, nofun⟩
      obtain rfl : a = b := Except.ok.inj hb
      exact hok m i a _ rfl hE

/-- A postcondition that holds once the error was hit holds at the end of the run. -/
theorem runFault_of_wp {e : ε} {p : Prog S A ε α} {Q : σ × Option ℕ → α → Prop}
    {F : σ × Option ℕ → ε → Prop} {x : σ} {n : ℕ} (h : wp (E.faultRules e) p Q F (x, some n))
    (t : ℕ → ι) {r : Except ε α} {y : σ} (hrun : runFault E e n p t x = .hit r y) :
    (∀ a, r = .ok a → Q (y, none) a) ∧ (∀ e', r = .error e' → F (y, none) e') := by
  -- After the error the rest of the program runs as usual.
  have hafter (q : Prog S A ε α) (t : ℕ → ι) (z : σ) (hq : wp (E.faultRules e) q Q F (z, none)) :
      (∀ a, (q.run E t z).1 = .ok a → Q ((q.run E t z).2, none) a) ∧
        (∀ e', (q.run E t z).1 = .error e' → F ((q.run E t z).2, none) e') := by
    induction q generalizing z t with
    | ret a => exact ⟨fun b hb => by cases hb; exact hq, nofun⟩
    | fail e' => exact ⟨nofun, fun e'' he => by cases he; exact hq⟩
    | op s k ih => exact ih _ _ _ ((hq (t 0)).2 _ (_, none) ⟨rfl, rfl⟩)
  induction p generalizing x t n with
  | ret a => cases n <;> cases hrun
  | fail e' => cases n <;> cases hrun
  | op s k ih =>
    cases n with
    | zero =>
      cases hrun
      exact hafter _ _ _ ((h (t 0)).2 _ _ ⟨rfl, rfl⟩)
    | succ n => exact ih _ ((h (t 0)).2 _ (_, some n) ⟨rfl, rfl⟩) _ hrun

/-- An invariant of every statement is an invariant of every run. -/
theorem run_inv {I : σ → Prop} (hI : ∀ i s x, I x → I (E.answer i s x).2)
    (p : Prog S A ε α) (t : ℕ → ι) {x : σ} (h : I x) : I (p.run E t x).2 := by
  induction p generalizing x t with
  | ret a => exact h
  | fail e => exact h
  | op s k ih => exact ih _ _ (hI _ _ _ h)

end Prog

/-- An error changes nothing, so a property kept by successful statements is kept by all. -/
lemma Exec.answer_inv {E : Exec S A ε ι σ} {I : σ → Prop} {i : ι} {s : S} {x : σ} (hx : I x)
    (h : ∀ r y, E i s x = .ok (r, y) → I y) : I (E.answer i s x).2 := by
  unfold Exec.answer
  rcases hE : E i s x with e | ⟨r, y⟩
  · exact hx
  · exact h r y hE

lemma Exec.answer_ok {E : Exec S A ε ι σ} {i : ι} {s : S} {x y : σ} {r : A s} :
    E.answer i s x = (.ok r, y) ↔ E i s x = .ok (r, y) := by
  unfold Exec.answer
  rcases hE : E i s x with e | ⟨r, y⟩ <;> simp

lemma Exec.answer_error {E : Exec S A ε ι σ} {i : ι} {s : S} {x y : σ} {e : ε} :
    E.answer i s x = (.error e, y) ↔ E i s x = .error e ∧ y = x := by
  unfold Exec.answer
  rcases hE : E i s x with e | ⟨r, y⟩ <;> simp [eq_comm]

end Rebuilderd.Lib
