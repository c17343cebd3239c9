import Rebuilderd.Lib.Pool

/-!
Serial runs: one step after the other, each allowed in the state it starts from.

Requests served one at a time are one way to schedule a pool, so whatever holds in every state of
a pool holds in every state of a serial run.
-/

namespace Rebuilderd.Lib

open Prog

variable {S : Type} {A : S → Type} {ε ι σ τ α κ κ' : Type}

/-- The states that steps allowed by `ok` lead to from `x`. -/
inductive Runs (step : σ → κ → σ) (ok : σ → κ → Prop) (x : σ) : σ → Prop
  | start : Runs step ok x x
  | next {y : σ} (h : Runs step ok x y) {c : κ} (hc : ok y c) : Runs step ok x (step y c)

namespace Runs

variable {step : σ → κ → σ} {ok : σ → κ → Prop} {x y : σ}

/-- What holds at the start and is kept by every step holds after every run. -/
theorem inv {I : σ → Prop} (h : Runs step ok x y) (hx : I x)
    (hstep : ∀ y c, Runs step ok x y → I y → ok y c → I (step y c)) : I y := by
  induction h with
  | start => exact hx
  | next h hc ih => exact hstep _ _ h ih hc

/-- A run seen through `f` is a run, if every step is one. -/
theorem map {step' : τ → κ' → τ} {ok' : τ → κ' → Prop} (f : σ → τ) (h : Runs step ok x y)
    (hstep : ∀ y c, ok y c → ∃ c', ok' (f y) c' ∧ f (step y c) = step' (f y) c') :
    Runs step' ok' (f x) (f y) := by
  induction h with
  | start => exact .start
  | next h hc ih =>
    obtain ⟨c', hc', heq⟩ := hstep _ _ hc
    rw [heq]
    exact .next ih hc'

/-- A run of steps that are allowed in every state. -/
theorem of_forall {ok : κ → Prop} {cs : List κ} (h : ∀ c ∈ cs, ok c) :
    Runs step (fun _ c => ok c) x (cs.foldl step x) := by
  induction cs using List.reverseRecOn with
  | nil => exact .start
  | append_singleton cs c ih =>
    rw [List.foldl_append]
    exact .next (ih fun c hc => h c (List.mem_append_left _ hc)) (h c (by simp))

/-- Whether each of the steps is allowed in the state the ones before it lead to. -/
def allowed (step : σ → κ → σ) (ok : σ → κ → Bool) : σ → List κ → Bool
  | _, [] => true
  | x, c :: cs => ok x c && allowed step ok (step x c) cs

theorem of_allowed {ok : σ → κ → Bool} {cs : List κ} (h : allowed step ok x cs = true) :
    Runs step (fun x c => ok x c = true) x (cs.foldl step x) := by
  suffices ∀ y, Runs step (fun x c => ok x c = true) x y → allowed step ok y cs = true →
      Runs step (fun x c => ok x c = true) x (cs.foldl step y) from this x .start h
  clear h
  induction cs with
  | nil => exact fun y hy _ => hy
  | cons c cs ih =>
    intro y hy hall
    obtain ⟨hc, hall⟩ := Bool.and_eq_true_iff.mp hall
    exact ih _ (.next hy hc) hall

end Runs

/-- Each of the steps is allowed in the state the ones before it lead to. -/
def Along (step : σ → κ → σ) (ok : σ → κ → Prop) : σ → List κ → Prop
  | _, [] => True
  | x, c :: cs => ok x c ∧ Along step ok (step x c) cs

lemma Along.append {step : σ → κ → σ} {ok : σ → κ → Prop} {x : σ} {cs ds : List κ} :
    Along step ok x (cs ++ ds) ↔ Along step ok x cs ∧ Along step ok (cs.foldl step x) ds := by
  induction cs generalizing x with
  | nil => simp [Along]
  | cons c cs ih => exact (and_congr_right fun _ => ih).trans and_assoc.symm

lemma Along.of_allowed {step : σ → κ → σ} {ok' : σ → κ → Bool} {ok : σ → κ → Prop} {x : σ} {cs : List κ}
    (h : Runs.allowed step ok' x cs = true) (hok : ∀ c ∈ cs, ∀ y, ok' y c = true → ok y c) :
    Along step ok x cs := by
  induction cs generalizing x with
  | nil => trivial
  | cons c cs ih =>
    obtain ⟨hc, hcs⟩ := Bool.and_eq_true_iff.mp h
    exact ⟨hok c List.mem_cons_self x hc, ih hcs fun c' h' => hok c' (List.mem_cons_of_mem _ h')⟩

/-! ### Requests served one at a time -/

/-- Serve a request: its program runs to the end, statement number `n` at input `t n`. -/
def serve (E : Exec S A ε ι σ) (handler : κ → Prog S A ε α) (x : σ) (c : κ × (ℕ → ι)) :
    Except ε α × σ :=
  (handler c.1).run E c.2 x

namespace Prog

variable {E : Exec S A ε ι σ}

/-- An invariant of the statements a program executes and of their answers is one of its runs. -/
theorem run_of_journal_own {ok : List (Step S A ε ι) → ι → S → Prop} {p : Prog S A ε α}
    {Q : List (Step S A ε ι) → α → Prop} {F : List (Step S A ε ι) → ε → Prop}
    {own : List (Step S A ε ι)} (h : wp (.journal ok) p Q F own)
    {I : List (Step S A ε ι) → σ → Prop}
    (hI : ∀ own i s x, ok own i s → I own x →
      I (own ++ [⟨i, s, (E.answer i s x).1⟩]) (E.answer i s x).2)
    (t : ℕ → ι) {x : σ} (hx : I own x) : ∃ own', I own' (p.run E t x).2 := by
  induction p generalizing own t x with
  | ret a => exact ⟨own, hx⟩
  | fail e => exact ⟨own, hx⟩
  | op s k ih =>
    obtain ⟨hok, hnext⟩ := h (t 0)
    exact ih _ (hnext _ _ rfl) _ (hI own _ _ _ hok hx)

/-- An invariant of the statements a program is known to execute is one of its runs. -/
theorem run_of_journal {ok : List (Step S A ε ι) → ι → S → Prop} {p : Prog S A ε α}
    {own : List (Step S A ε ι)}
    (h : wp (.journal ok) p (fun _ _ => True) (fun _ _ => True) own) {I : σ → Prop}
    (hI : ∀ own i s x, ok own i s → I x → I (E.answer i s x).2) (t : ℕ → ι) {x : σ} (hx : I x) :
    I (p.run E t x).2 :=
  (run_of_journal_own h (I := fun _ => I) hI t hx).elim fun _ hx => hx

/-- A thread that is scheduled until it is over does what its program does. -/
lemma run_eq_pool (handler : κ → Prog S A ε α) (c : κ) (i : ℕ) (prog : Prog S A ε α) (t : ℕ → ι)
    (p : Pool S A ε α κ σ) (hp : p.threads[i]? = some ⟨c, prog⟩) :
    ∃ as : List (Action κ ι), (Pool.run E handler p as).state = (prog.run E t p.state).2 := by
  induction prog generalizing p t with
  | ret a => exact ⟨[], rfl⟩
  | fail e => exact ⟨[], rfl⟩
  | op s k ih =>
    have hi : i < p.threads.length := (List.getElem?_eq_some_iff.mp hp).1
    have hnext : Pool.next E handler p (.step i (t 0)) = ⟨(E.answer (t 0) s p.state).2,
        p.threads.set i ⟨c, k (E.answer (t 0) s p.state).1⟩⟩ := by
      simp [Pool.next, Pool.fire, hp]
    obtain ⟨as, has⟩ := ih (E.answer (t 0) s p.state).1 (fun n => t (n + 1))
      ⟨(E.answer (t 0) s p.state).2, p.threads.set i ⟨c, k (E.answer (t 0) s p.state).1⟩⟩
      (List.getElem?_set_self hi)
    exact ⟨.step i (t 0) :: as, by rw [Pool.run_cons, hnext]; exact has⟩

end Prog

/-- **Serving requests one at a time is a schedule of the pool.** -/
theorem Runs.pool {E : Exec S A ε ι σ} {handler : κ → Prog S A ε α}
    {ok : σ → κ × (ℕ → ι) → Prop} {x y : σ}
    (h : Runs (fun x c => (serve E handler x c).2) ok x y) :
    ∃ as, (Pool.run E handler (Pool.start x) as).state = y := by
  induction h with
  | start => exact ⟨[], rfl⟩
  | @next y h c hc ih =>
    obtain ⟨as, rfl⟩ := ih
    obtain ⟨bs, hbs⟩ := run_eq_pool (E := E) handler c.1
      (Pool.run E handler (Pool.start x) as).threads.length (handler c.1) c.2
      (Pool.next E handler (Pool.run E handler (Pool.start x) as) (.call c.1)) (by simp [Pool.next])
    exact ⟨as ++ .call c.1 :: bs, by rw [Pool.run_append, Pool.run_cons]; exact hbs⟩

end Rebuilderd.Lib
