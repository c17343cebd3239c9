import Rebuilderd.Lib.Prog

/-!
Pools of threads: calls started at any time, their statements interleaved in any order.

A schedule is a list of actions: a new call, or one statement of one thread. A pool keeps
every thread it ever started, so a thread is named by its position. The trace of a schedule
lists the statements executed, each with its thread, its call, its answer and the state it
was executed in.
-/

namespace Rebuilderd.Lib

open Prog

variable {S : Type} {A : S → Type} {ε ι σ α κ : Type}

/-- A call and what is left to do for it. -/
structure Thread (S : Type) (A : S → Type) (ε α κ : Type) where
  call : κ
  prog : Prog S A ε α

structure Pool (S : Type) (A : S → Type) (ε α κ σ : Type) where
  state : σ
  threads : List (Thread S A ε α κ)

/-- What a thread that is over has returned. -/
def Thread.result (th : Thread S A ε α κ) : Option α :=
  match th.prog with
  | .ret a => some a
  | _ => none

/-- One action of a schedule: a call arrives, or thread `i` executes its next statement. -/
inductive Action (κ ι : Type)
  | call (c : κ)
  | step (i : ℕ) (t : ι)

/-- A statement that was executed, by which thread and for which call, and in which state. -/
structure Event (S : Type) (A : S → Type) (ε ι σ κ : Type) extends Step S A ε ι where
  thread : ℕ
  call : κ
  before : σ

namespace Pool

def start (x : σ) : Pool S A ε α κ σ := ⟨x, []⟩

/-- The call of thread `i` and what it has returned, once it is over. -/
def answerOf (p : Pool S A ε α κ σ) (i : ℕ) : Option (κ × α) :=
  p.threads[i]?.bind fun th => th.result.map (th.call, ·)

lemma answerOf_eq {p : Pool S A ε α κ σ} {i : ℕ} {c : κ} {a : α} (h : p.answerOf i = some (c, a)) :
    p.threads[i]? = some ⟨c, .ret a⟩ := by
  obtain ⟨⟨c', prog⟩, hth, hres⟩ := Option.bind_eq_some_iff.mp h
  cases prog with
  | ret a' =>
    cases hres
    exact hth
  | fail e => cases hres
  | op s k => cases hres

variable (E : Exec S A ε ι σ) (handler : κ → Prog S A ε α)

/-- The statement thread `i` executes next, with its answer, and the pool after it. -/
def fire (p : Pool S A ε α κ σ) (i : ℕ) (t : ι) :
    Option (Event S A ε ι σ κ × Pool S A ε α κ σ) :=
  match p.threads[i]? with
  | some ⟨c, .op s k⟩ =>
    let r := E.answer t s p.state
    some (⟨⟨t, s, r.1⟩, i, c, p.state⟩, ⟨r.2, p.threads.set i ⟨c, k r.1⟩⟩)
  | _ => none

def next (p : Pool S A ε α κ σ) : Action κ ι → Pool S A ε α κ σ
  | .call c => { p with threads := p.threads ++ [⟨c, handler c⟩] }
  | .step i t => ((fire E p i t).map (·.2)).getD p

def run (p : Pool S A ε α κ σ) (as : List (Action κ ι)) : Pool S A ε α κ σ :=
  as.foldl (next E handler) p

/-- The statements an action executes: one, or none if the thread is absent or over. -/
def emit (p : Pool S A ε α κ σ) : Action κ ι → List (Event S A ε ι σ κ)
  | .call _ => []
  | .step i t => ((fire E p i t).map (·.1)).toList

/-- The statements executed by a schedule, in order. -/
def trace (p : Pool S A ε α κ σ) : List (Action κ ι) → List (Event S A ε ι σ κ)
  | [] => []
  | a :: as => emit E p a ++ trace (next E handler p a) as

variable {E handler}

@[simp] lemma run_nil (p : Pool S A ε α κ σ) : run E handler p [] = p := rfl
@[simp] lemma run_cons (p : Pool S A ε α κ σ) (a : Action κ ι) (as : List (Action κ ι)) :
    run E handler p (a :: as) = run E handler (next E handler p a) as := rfl
lemma run_append (p : Pool S A ε α κ σ) (as bs : List (Action κ ι)) :
    run E handler p (as ++ bs) = run E handler (run E handler p as) bs := by
  simp [run, List.foldl_append]

lemma trace_append (p : Pool S A ε α κ σ) (as bs : List (Action κ ι)) :
    trace E handler p (as ++ bs) =
      trace E handler p as ++ trace E handler (run E handler p as) bs := by
  induction as generalizing p with
  | nil => rfl
  | cons a as ih => simp [trace, ih]

lemma trace_snoc (p : Pool S A ε α κ σ) (as : List (Action κ ι)) (a : Action κ ι) :
    trace E handler p (as ++ [a]) = trace E handler p as ++ emit E (run E handler p as) a := by
  rw [trace_append]; simp [trace]

/-- Every event of a trace is the last one of the trace of a shorter schedule. -/
lemma exists_take {p : Pool S A ε α κ σ} {as : List (Action κ ι)} {pre post : List (Event S A ε ι σ κ)}
    {e : Event S A ε ι σ κ} (h : trace E handler p as = pre ++ e :: post) :
    ∃ n, trace E handler p (as.take n) = pre ++ [e] := by
  induction as using List.reverseRecOn generalizing post with
  | nil => simp [trace] at h
  | append_singleton as a ih =>
    have hshort {post} (h : trace E handler p as = pre ++ e :: post) :
        ∃ n, trace E handler p ((as ++ [a]).take n) = pre ++ [e] := by
      obtain ⟨n, hn⟩ := ih h
      refine ⟨min n as.length, ?_⟩
      rw [List.take_append_of_le_length (min_le_right _ _), ← List.take_eq_take_min]
      exact hn
    have hemit : (emit E (run E handler p as) a).length ≤ 1 := by
      cases a with
      | call c => exact Nat.zero_le 1
      | step i t => exact Option.length_toList_le
    rw [trace_snoc] at h
    rcases he : emit E (run E handler p as) a with _ | ⟨x, xs⟩
    · exact hshort (by simpa [he] using h)
    · obtain rfl : xs = [] := by
        rw [he] at hemit
        exact List.eq_nil_of_length_eq_zero (by simpa using hemit)
      rcases List.eq_nil_or_concat post with rfl | ⟨post', y, rfl⟩
      · exact ⟨as.length + 1, by rw [List.take_of_length_le (by simp), trace_snoc]; exact h⟩
      · rw [he, List.concat_eq_append, ← List.cons_append, ← List.append_assoc] at h
        exact hshort (List.append_inj' h rfl).1

variable (E handler) in
/-- What an action does: a call adds a thread, a step executes a statement or nothing. -/
lemma next_cases (p : Pool S A ε α κ σ) (a : Action κ ι) :
    (∃ c, a = .call c ∧ next E handler p a = ⟨p.state, p.threads ++ [⟨c, handler c⟩]⟩ ∧
        emit E p a = []) ∨
      (∃ i t c s k, a = .step i t ∧ p.threads[i]? = some ⟨c, .op s k⟩ ∧
        next E handler p a = ⟨(E.answer t s p.state).2,
          p.threads.set i ⟨c, k (E.answer t s p.state).1⟩⟩ ∧
        emit E p a = [⟨⟨t, s, (E.answer t s p.state).1⟩, i, c, p.state⟩]) ∨
      (next E handler p a = p ∧ emit E p a = []) := by
  rcases a with c | ⟨i, t⟩
  · exact .inl ⟨c, rfl, rfl, rfl⟩
  · right
    rcases hi : p.threads[i]? with _ | ⟨c, a | e | ⟨s, k⟩⟩
    · exact .inr ⟨by simp [next, fire, hi], by simp [emit, fire, hi]⟩
    · exact .inr ⟨by simp [next, fire, hi], by simp [emit, fire, hi]⟩
    · exact .inr ⟨by simp [next, fire, hi], by simp [emit, fire, hi]⟩
    · exact .inl ⟨i, t, c, s, k, rfl, hi, by simp [next, fire, hi], by simp [emit, fire, hi]⟩

/-- A statement is executed in a state of the run. -/
lemma exists_before {p : Pool S A ε α κ σ} {as : List (Action κ ι)} {e : Event S A ε ι σ κ}
    (h : e ∈ trace E handler p as) : ∃ bs, (run E handler p bs).state = e.before := by
  induction as generalizing p with
  | nil => simp [trace] at h
  | cons a as ih =>
    rcases List.mem_append.mp h with h | h
    · rcases next_cases E handler p a with
        ⟨c, -, -, he⟩ | ⟨i, t, c, s, k, -, -, -, he⟩ | ⟨-, he⟩ <;> rw [he] at h
      · cases h
      · rw [List.mem_singleton.mp h]
        exact ⟨[], rfl⟩
      · cases h
    · obtain ⟨bs, hbs⟩ := ih h
      exact ⟨a :: bs, hbs⟩

/-- An invariant of every statement holds in every state of every schedule. -/
theorem run_inv {I : σ → Prop} (hI : ∀ i s x, I x → I (E.answer i s x).2)
    {p : Pool S A ε α κ σ} (h : I p.state) (as : List (Action κ ι)) :
    I (run E handler p as).state := by
  induction as generalizing p with
  | nil => exact h
  | cons a as ih =>
    refine ih ?_
    rcases next_cases E handler p a with
      ⟨c, -, hn, -⟩ | ⟨i, t, c, s, k, -, -, hn, -⟩ | ⟨hn, -⟩ <;> rw [hn]
    · exact h
    · exact hI _ _ _ h
    · exact h

end Pool

/-! ### Histories

A history is what a trace is known to be when the programs are forgotten: every statement
was executed in the state the one before left, and its thread was allowed to execute it after
what it had executed so far. -/

def Event.after (E : Exec S A ε ι σ) (e : Event S A ε ι σ κ) : σ :=
  (E.answer e.input e.stmt e.before).2

/-- The statements of thread `i`. -/
def own (i : ℕ) (tr : List (Event S A ε ι σ κ)) : List (Step S A ε ι) :=
  (tr.filter (·.thread == i)).map (·.toStep)

/-- The state a trace from `x` ends in. -/
def stateAfter (E : Exec S A ε ι σ) (x : σ) (tr : List (Event S A ε ι σ κ)) : σ :=
  tr.foldl (fun _ e => e.after E) x

section
variable {E : Exec S A ε ι σ} {x : σ}

@[simp] lemma stateAfter_nil : stateAfter E x ([] : List (Event S A ε ι σ κ)) = x := rfl
@[simp] lemma stateAfter_snoc (tr : List (Event S A ε ι σ κ)) (e : Event S A ε ι σ κ) :
    stateAfter E x (tr ++ [e]) = e.after E := by
  simp [stateAfter]

/-- A list at one of its positions. -/
lemma eq_take_cons_drop {l : List α} {n : ℕ} {a : α} (h : l[n]? = some a) :
    l = l.take n ++ a :: l.drop (n + 1) := by
  obtain ⟨hn, rfl⟩ := List.getElem?_eq_some_iff.mp h
  rw [List.getElem_cons_drop, List.take_append_drop]

@[simp] lemma own_nil (i : ℕ) : own i ([] : List (Event S A ε ι σ κ)) = [] := rfl
lemma own_append (i : ℕ) (tr tr' : List (Event S A ε ι σ κ)) :
    own i (tr ++ tr') = own i tr ++ own i tr' := by
  simp [own]

/-- A statement of thread `i`, at its place in the trace. -/
lemma own_append_cons {i : ℕ} {tr : List (Event S A ε ι σ κ)} {xs ys : List (Step S A ε ι)}
    {a : Step S A ε ι} (h : own i tr = xs ++ a :: ys) :
    ∃ pre e post, tr = pre ++ e :: post ∧ e.thread = i ∧ e.toStep = a ∧ own i pre = xs ∧
      own i post = ys := by
  obtain ⟨l, l', hl, rfl, hl'⟩ := List.map_eq_append_iff.mp h
  obtain ⟨e, l', rfl, rfl, rfl⟩ := List.map_eq_cons_iff.mp hl'
  obtain ⟨pre, rest, rfl, rfl, hrest⟩ := List.filter_eq_append_iff.mp hl
  obtain ⟨mid, post, rfl, hmid, he, rfl⟩ := List.filter_eq_cons_iff.mp hrest
  have hnone : mid.filter (·.thread == i) = [] := List.filter_eq_nil_iff.mpr hmid
  exact ⟨pre ++ mid, e, post, by simp, by simpa using he, rfl, by simp [own, hnone], rfl⟩

lemma mem_own {i : ℕ} {tr : List (Event S A ε ι σ κ)} {a : Step S A ε ι} :
    a ∈ own i tr ↔ ∃ e ∈ tr, e.thread = i ∧ e.toStep = a := by
  simp [own, and_assoc]

end

/-- `ok c own i s`: a thread that serves `c` may execute `s` after its statements `own`. -/
inductive History (E : Exec S A ε ι σ) (ok : κ → List (Step S A ε ι) → ι → S → Prop) (x : σ) :
    List (Event S A ε ι σ κ) → Prop
  | nil : History E ok x []
  | snoc {tr : List (Event S A ε ι σ κ)} {e : Event S A ε ι σ κ} (h : History E ok x tr)
      (before : e.before = stateAfter E x tr)
      (answer : e.answer = (E.answer e.input e.stmt e.before).1)
      (allowed : ok e.call (own e.thread tr) e.input e.stmt)
      (call : ∀ e' ∈ tr, e'.thread = e.thread → e'.call = e.call) : History E ok x (tr ++ [e])

namespace History

variable {E : Exec S A ε ι σ} {ok : κ → List (Step S A ε ι) → ι → S → Prop} {x : σ}
  {tr tr' : List (Event S A ε ι σ κ)} {e : Event S A ε ι σ κ}

lemma of_append (h : History E ok x (tr ++ tr')) : History E ok x tr := by
  induction tr' using List.reverseRecOn with
  | nil => simpa using h
  | append_singleton tr' e ih =>
    rw [← List.append_assoc] at h
    generalize hl : tr ++ tr' ++ [e] = l at h
    cases h with
    | nil => simp at hl
    | snoc h =>
      obtain ⟨rfl, -⟩ := List.append_inj' hl rfl
      exact ih h

/-- What is known of the last event. -/
lemma last (h : History E ok x (tr ++ [e])) :
    e.before = stateAfter E x tr ∧ e.answer = (E.answer e.input e.stmt e.before).1 ∧
      ok e.call (own e.thread tr) e.input e.stmt ∧
      ∀ e' ∈ tr, e'.thread = e.thread → e'.call = e.call := by
  generalize hl : tr ++ [e] = l at h
  cases h with
  | nil => simp at hl
  | snoc h hb ha hok hc =>
    obtain ⟨rfl, he⟩ := List.append_inj' hl rfl
    obtain rfl : e = _ := by simpa using he
    exact ⟨hb, ha, hok, hc⟩

/-- What is known of any event, given the trace up to it. -/
lemma event (h : History E ok x (tr ++ e :: tr')) :
    e.before = stateAfter E x tr ∧ e.answer = (E.answer e.input e.stmt e.before).1 ∧
      ok e.call (own e.thread tr) e.input e.stmt ∧
      ∀ e' ∈ tr, e'.thread = e.thread → e'.call = e.call := by
  have h' : History E ok x (tr ++ [e] ++ tr') := by simpa using h
  exact last (of_append h')

/-- What holds at the start, and every event keeps, holds at the end. -/
lemma invariant {I : List (Event S A ε ι σ κ) → σ → Prop} (h : History E ok x tr) (hstart : I [] x)
    (hstep : ∀ {tr e}, History E ok x (tr ++ [e]) → I tr e.before → I (tr ++ [e]) (e.after E)) :
    I tr (stateAfter E x tr) := by
  induction tr using List.reverseRecOn with
  | nil => exact hstart
  | append_singleton tr e ih =>
    have hbefore := ih (of_append h)
    rw [← (last h).1] at hbefore
    rw [stateAfter_snoc]
    exact hstep h hbefore

/-- A property that every statement keeps holds on until the end. -/
lemma stable {I : σ → Prop} (hI : ∀ i s y, I y → I (E.answer i s y).2)
    (h : History E ok x (tr ++ tr')) (hI0 : I (stateAfter E x tr)) :
    I (stateAfter E x (tr ++ tr')) := by
  induction tr' using List.reverseRecOn with
  | nil => simpa using hI0
  | append_singleton tr' e ih =>
    rw [← List.append_assoc] at h ⊢
    rw [stateAfter_snoc]
    refine hI _ _ _ ?_
    rw [(last h).1]
    exact ih (of_append h)

/-- What relates the states before and after every statement relates the first state to the last, if
it is reflexive and transitive. -/
lemma related {R : σ → σ → Prop} (hrefl : ∀ y, R y y) (htrans : ∀ y y' y'', R y y' → R y' y'' → R y y'')
    (h : History E ok x (tr ++ tr')) (hR : ∀ e ∈ tr', e.answer = (E.answer e.input e.stmt e.before).1 →
      R e.before (e.after E)) :
    R (stateAfter E x tr) (stateAfter E x (tr ++ tr')) := by
  induction tr' using List.reverseRecOn with
  | nil => simpa using hrefl _
  | append_singleton tr' e ih =>
    rw [← List.append_assoc] at h ⊢
    have hbefore := ih (of_append h) fun e' he' => hR e' (List.mem_append_left _ he')
    have hstep := hR e (by simp) (last h).2.1
    rw [stateAfter_snoc]
    rw [← (last h).1] at hbefore
    exact htrans _ _ _ hbefore hstep

/-- What holds in the state of one event, and every statement keeps, holds in that of a later one. -/
lemma between {I : σ → Prop} (hI : ∀ i s y, I y → I (E.answer i s y).2) {mid : List (Event S A ε ι σ κ)}
    {e' : Event S A ε ι σ κ} (h : History E ok x (tr ++ e :: (mid ++ e' :: tr'))) (he : I e.before) :
    I e'.before := by
  have h' : History E ok x (tr ++ e :: mid ++ e' :: tr') := by simpa using h
  rw [h'.event.1]
  exact stable hI h'.of_append (h.event.1 ▸ he)

/-- What holds at the end, and did not at the start, was brought about by some event. -/
lemma origin {P : σ → Prop} (h : History E ok x tr) (hstart : ¬ P x)
    (hend : P (stateAfter E x tr)) :
    ∃ pre e post, tr = pre ++ e :: post ∧ ¬ P e.before ∧ P (e.after E) := by
  induction tr using List.reverseRecOn with
  | nil => exact absurd hend hstart
  | append_singleton tr e ih =>
    by_cases hbefore : P e.before
    · rw [(last h).1] at hbefore
      obtain ⟨pre, e', post, rfl, hnot, hafter⟩ := ih (of_append h) hbefore
      exact ⟨pre, e', post ++ [e], by simp, hnot, hafter⟩
    · exact ⟨tr, e, [], rfl, hbefore, by simpa using hend⟩

end History

lemma exists_of_forall₂ {α β : Type} {R : α → β → Prop} {as : List α} {bs : List β}
    (h : List.Forall₂ R as bs) {a : α} (ha : a ∈ as) : ∃ b ∈ bs, R a b := by
  induction h with
  | nil => cases ha
  | cons hab _ ih =>
    rcases List.mem_cons.mp ha with rfl | ha
    · exact ⟨_, List.mem_cons_self, hab⟩
    · obtain ⟨b, hb, hab⟩ := ih ha
      exact ⟨b, List.mem_cons_of_mem _ hb, hab⟩

/-- Of two members of a list, one comes first. -/
lemma mem_order {l : List α} {a b : α} (ha : a ∈ l) (hb : b ∈ l) :
    a = b ∨ (∃ pre mid post, l = pre ++ a :: (mid ++ b :: post)) ∨
      ∃ pre mid post, l = pre ++ b :: (mid ++ a :: post) := by
  obtain ⟨pre, post, rfl⟩ := List.append_of_mem ha
  rcases List.mem_append.mp hb with hb | hb
  · obtain ⟨pre, mid, rfl⟩ := List.append_of_mem hb
    exact .inr (.inr ⟨pre, mid, post, by simp⟩)
  · rcases List.mem_cons.mp hb with rfl | hb
    · exact .inl rfl
    · obtain ⟨mid, post, rfl⟩ := List.append_of_mem hb
      exact .inr (.inl ⟨pre, mid, post, rfl⟩)

open Pool in
/-- **What every thread of a pool can still do**: its program keeps to what `ok` allows, after what
it has executed, and ends with what its handler ends with. -/
theorem Pool.progress {E : Exec S A ε ι σ} {handler : κ → Prog S A ε α}
    {ok : κ → List (Step S A ε ι) → ι → S → Prop} {Q : κ → List (Step S A ε ι) → α → Prop}
    {F : κ → List (Step S A ε ι) → ε → Prop}
    (hok : ∀ c, wp (.journal (ok c)) (handler c) (Q c) (F c) []) (x : σ) (as : List (Action κ ι)) :
    (History E ok x (trace E handler (start x) as) ∧
      (run E handler (start x) as).state = stateAfter E x (trace E handler (start x) as)) ∧
      ∀ i th, (run E handler (start x) as).threads[i]? = some th →
        wp (.journal (ok th.call)) th.prog (Q th.call) (F th.call)
          (own i (trace E handler (start x) as)) ∧
        ∀ e ∈ trace E handler (start x) as, e.thread = i → e.call = th.call := by
  suffices h : ∀ p tr, run E handler (start x) as = p → trace E handler (start x) as = tr →
      (History E ok x tr ∧ p.state = stateAfter E x tr) ∧ (∀ e ∈ tr, e.thread < p.threads.length) ∧
      ∀ i th, p.threads[i]? = some th →
        wp (.journal (ok th.call)) th.prog (Q th.call) (F th.call) (own i tr) ∧
          ∀ e ∈ tr, e.thread = i → e.call = th.call from
    ⟨(h _ _ rfl rfl).1, (h _ _ rfl rfl).2.2⟩
  induction as using List.reverseRecOn with
  | nil =>
    rintro p tr rfl rfl
    exact ⟨⟨.nil, rfl⟩, by simp [trace], by simp [start]⟩
  | append_singleton as a ih =>
    rintro p tr rfl rfl
    obtain ⟨⟨hh, hs⟩, hlt, hth⟩ := ih _ _ rfl rfl
    rw [trace_snoc, run_append, run_cons, run_nil]
    generalize run E handler (start x) as = p at *
    generalize trace E handler (start x) as = tr at *
    rcases next_cases E handler p a with
      ⟨c, -, hn, he⟩ | ⟨i, t, c, s, k, -, hi, hn, he⟩ | ⟨hn, he⟩ <;> rw [hn, he]
    · simp only [List.append_nil, List.length_append, List.length_singleton]
      refine ⟨⟨hh, hs⟩, fun e he => Nat.lt_succ_of_lt (hlt e he), fun i th hi => ?_⟩
      rcases Nat.lt_or_ge i p.threads.length with hil | hil
      · rw [List.getElem?_append_left hil] at hi
        exact hth i th hi
      · rw [List.getElem?_append_right hil] at hi
        obtain ⟨rfl, rfl⟩ : i = p.threads.length ∧ th = ⟨c, handler c⟩ := by
          rcases Nat.eq_or_lt_of_le hil with h | h
          · subst h
            exact ⟨rfl, by simpa using hi.symm⟩
          · rw [List.getElem?_eq_none (by simp; omega)] at hi
            cases hi
        have hnone : own p.threads.length tr = [] := by
          simp only [own, List.map_eq_nil_iff, List.filter_eq_nil_iff, beq_iff_eq]
          exact fun e he => (hlt e he).ne
        exact ⟨by simpa [hnone] using hok c, fun e he h => absurd h (hlt e he).ne⟩
    · obtain ⟨hwp, hcall⟩ := hth i _ hi
      have hil : i < p.threads.length := (List.getElem?_eq_some_iff.mp hi).1
      refine ⟨⟨.snoc hh hs rfl (hwp t).1 hcall, by simp [Event.after]⟩, ?_, ?_⟩
      · intro e he
        rw [List.length_set]
        rcases List.mem_append.mp he with he | he
        · exact hlt e he
        · rw [List.mem_singleton.mp he]; exact hil
      · intro j th hj
        rcases eq_or_ne i j with rfl | hij
        · rw [List.getElem?_set_self hil] at hj
          obtain rfl : th = _ := (Option.some.inj hj).symm
          refine ⟨?_, ?_⟩
          · rw [own_append]
            exact (hwp t).2 _ _ (by simp [own, Rules.journal])
          · intro e he h
            rcases List.mem_append.mp he with he | he
            · exact hcall e he h
            · rw [List.mem_singleton.mp he]
        · rw [List.getElem?_set_ne hij] at hj
          obtain ⟨hwp', hcall'⟩ := hth j th hj
          refine ⟨?_, ?_⟩
          · rw [own_append]
            simpa [own, hij] using hwp'
          · intro e he h
            rcases List.mem_append.mp he with he | he
            · exact hcall' e he h
            · rw [List.mem_singleton.mp he] at h
              exact absurd h hij
    · simpa using ⟨⟨hh, hs⟩, hlt, hth⟩

open Pool in
/-- What a thread that is over has executed, by what its handler ends with. -/
theorem Pool.outcome {E : Exec S A ε ι σ} {handler : κ → Prog S A ε α}
    {ok : κ → List (Step S A ε ι) → ι → S → Prop} {Q : κ → List (Step S A ε ι) → α → Prop}
    {F : κ → List (Step S A ε ι) → ε → Prop}
    (hok : ∀ c, wp (.journal (ok c)) (handler c) (Q c) (F c) []) (x : σ) (as : List (Action κ ι))
    {i : ℕ} {c : κ} {a : α} (h : (run E handler (start x) as).answerOf i = some (c, a)) :
    Q c (own i (trace E handler (start x) as)) a ∧
      ∀ e ∈ trace E handler (start x) as, e.thread = i → e.call = c :=
  (Pool.progress hok x as).2 i _ (answerOf_eq h)

open Pool in
/-- **The trace of a pool is a history**, if the programs keep to what `ok` allows. -/
theorem Pool.history {E : Exec S A ε ι σ} {handler : κ → Prog S A ε α}
    {ok : κ → List (Step S A ε ι) → ι → S → Prop}
    (hok : ∀ c, wp (.journal (ok c)) (handler c) (fun _ _ => True) (fun _ _ => True) [])
    (x : σ) (as : List (Action κ ι)) :
    History E ok x (trace E handler (start x) as) ∧
      (run E handler (start x) as).state = stateAfter E x (trace E handler (start x) as) :=
  (Pool.progress (Q := fun _ _ _ => True) (F := fun _ _ _ => True) hok x as).1

/-! ### Statements that are refused -/

/-- The statements of a store that refuses what would leave a state that is not valid. -/
def Exec.enforce (E : Exec S A ε ι σ) (valid : σ → Prop) [DecidablePred valid] (e : ε) :
    Exec S A ε ι σ := fun i s x =>
  match E i s x with
  | .ok (a, y) => if valid y then .ok (a, y) else .error e
  | .error e' => .error e'

section
variable {E : Exec S A ε ι σ} {handler : κ → Prog S A ε α} {valid : σ → Prop} [DecidablePred valid]
  {e : ε}

/-- A statement that leaves a valid state is not refused. -/
lemma Exec.answer_enforce {i : ι} {s : S} {x : σ} (h : valid (E.answer i s x).2) :
    (E.enforce valid e).answer i s x = E.answer i s x := by
  unfold Exec.answer Exec.enforce at *
  rcases hE : E i s x with e' | ⟨a, y⟩
  · rfl
  · rw [hE] at h
    dsimp only
    rw [if_pos h]

lemma Pool.next_enforce {p : Pool S A ε α κ σ} {a : Action κ ι}
    (h : valid (next E handler p a).state) :
    next (E.enforce valid e) handler p a = next E handler p a := by
  cases a with
  | call c => rfl
  | step i t =>
    rcases hth : p.threads[i]? with _ | ⟨c, _ | _ | ⟨s, k⟩⟩
    · simp only [next, fire, hth]
    · simp only [next, fire, hth]
    · simp only [next, fire, hth]
    · simp only [next, fire, hth, Option.map_some, Option.getD_some] at h ⊢
      rw [Exec.answer_enforce h]

/-- **If every state of a run is valid, nothing is refused in it.** -/
theorem Pool.run_enforce {p : Pool S A ε α κ σ} {as : List (Action κ ι)}
    (h : ∀ n, valid (run E handler p (as.take n)).state) :
    run (E.enforce valid e) handler p as = run E handler p as := by
  induction as using List.reverseRecOn with
  | nil => rfl
  | append_singleton as a ih =>
    have hbefore : run (E.enforce valid e) handler p as = run E handler p as := by
      refine ih fun n => ?_
      have hn := h (min n as.length)
      rwa [List.take_append_of_le_length (min_le_right _ _), ← List.take_eq_take_min] at hn
    have hlast := h (as.length + 1)
    rw [List.take_of_length_le (by simp), run_append] at hlast
    rw [run_append, run_append, hbefore]
    exact next_enforce hlast

end

end Rebuilderd.Lib
