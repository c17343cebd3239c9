import Rebuilderd.Lib.Pool

/-!
Requests sent in turn: a thread executes nothing before the ones started earlier have given their
answer, and may go on afterwards.

What a program does without an error, it does as a thread of a pool as well, to its end or up to a
point where it waits while the others go on.
-/

namespace Rebuilderd.Lib

open Prog

variable {S : Type} {A : S → Type} {ε ι σ α β κ : Type}

/-- The rules of the real semantics, for programs none of whose statements fails. -/
def Exec.faultless (E : Exec S A ε ι σ) : Rules S A ε ι σ where
  ok x i s := ∃ a y, E i s x = .ok (a, y)
  may x i s r y := E.answer i s x = (r, y)

/-- A statement of a program that looks at its own statements only. -/
lemma Prog.wp_stmt_journal {ok : List (Step S A ε ι) → ι → S → Prop} {own : List (Step S A ε ι)} {s : S}
    {Q : List (Step S A ε ι) → A s → Prop} {F : List (Step S A ε ι) → ε → Prop} :
    wp (.journal ok) (stmt s) Q F own ↔ ∀ t, ok own t s ∧ (∀ a, Q (own ++ [⟨t, s, .ok a⟩]) a) ∧
      ∀ e, F (own ++ [⟨t, s, .error e⟩]) e := by
  rw [wp_stmt]
  refine forall_congr' fun t => and_congr_right fun _ => ⟨fun h => ⟨fun a => ?_, fun e => ?_⟩, ?_⟩
  · exact (h (.ok a) _ rfl).1 a rfl
  · exact (h (.error e) _ rfl).2 e rfl
  · rintro ⟨hok, herr⟩ reply own' rfl
    refine ⟨?_, ?_⟩
    · rintro a rfl
      exact hok a
    · rintro e rfl
      exact herr e

/-- No statement of the trace has failed. -/
def Faultless (tr : List (Event S A ε ι σ κ)) : Prop := ∀ e ∈ tr, ∃ a, e.answer = .ok a

/-- Thread `i` has given its answer, by a statement `answers`. -/
def Answered (answers : S → Prop) (tr : List (Event S A ε ι σ κ)) (i : ℕ) : Prop :=
  ∃ e ∈ tr, e.thread = i ∧ answers e.stmt

/-- Before a thread executes a statement, the threads started earlier have given their answers. -/
def InTurn (answers : S → Prop) (tr : List (Event S A ε ι σ κ)) : Prop :=
  ∀ pre e post, tr = pre ++ e :: post → ∀ i < e.thread, Answered answers pre i

section
variable {answers : S → Prop} {tr tr' : List (Event S A ε ι σ κ)}

lemma Answered.append {i : ℕ} (h : Answered answers tr i) : Answered answers (tr ++ tr') i := by
  obtain ⟨e, he, hi⟩ := h
  exact ⟨e, List.mem_append_left _ he, hi⟩

lemma InTurn.append (h : InTurn answers tr)
    (h' : ∀ e ∈ tr', ∀ i < e.thread, Answered answers tr i) : InTurn answers (tr ++ tr') := by
  intro pre e post heq i hi
  rcases List.append_eq_append_iff.mp heq with ⟨mid, rfl, hmid⟩ | ⟨mid, hmid, hpost⟩
  · refine (h' e ?_ i hi).append
    rw [hmid]
    simp
  · cases mid with
    | nil =>
      obtain rfl : tr = pre := by simpa using hmid
      have he : e ∈ tr' := by
        rw [← List.nil_append tr', ← hpost]
        exact List.mem_cons_self
      exact h' e he i hi
    | cons e' mid =>
      obtain ⟨rfl, -⟩ := List.cons_eq_cons.mp hpost
      exact h pre e mid hmid i hi

end

namespace Pool

variable {E : Exec S A ε ι σ} {handler : κ → Prog S A ε α} {ok : List (Step S A ε ι) → ι → S → Prop}

variable (handler) in
/-- A thread whose program meets its postcondition without an error can be scheduled to its end, or
to the point where `p` is done. -/
lemma run_faultless {p : Prog S A ε β} {f : β → Prog S A ε α} {Q : σ → β → Prop}
    {Q' : List (Step S A ε ι) → β → Prop} {F' : List (Step S A ε ι) → ε → Prop} {x : σ}
    {own₀ : List (Step S A ε ι)} (t : ι) (hp : wp E.faultless p Q (fun _ _ => False) x)
    (hj : wp (.journal ok) p Q' F' own₀) {c : κ} {i : ℕ} {threads : List (Thread S A ε α κ)}
    (hth : threads[i]? = some ⟨c, p >>= f⟩) :
    ∃ as y a, run E handler ⟨x, threads⟩ as = ⟨y, threads.set i ⟨c, f a⟩⟩ ∧ Q y a ∧
      (∀ e ∈ trace E handler ⟨x, threads⟩ as, e.thread = i ∧ ∃ b, e.answer = .ok b) ∧
      Q' (own₀ ++ own i (trace E handler ⟨x, threads⟩ as)) a := by
  induction p generalizing x own₀ threads with
  | ret a =>
    refine ⟨[], x, a, ?_, hp, by simp [trace], by simpa [trace] using hj⟩
    obtain ⟨hi, hget⟩ := List.getElem?_eq_some_iff.mp hth
    change threads[i] = ⟨c, f a⟩ at hget
    rw [run_nil, ← hget, List.set_getElem_self]
  | fail e => exact hp.elim
  | op s k ih =>
    have hi : i < threads.length := (List.getElem?_eq_some_iff.mp hth).1
    obtain ⟨⟨b, y, hE⟩, hnext⟩ := hp t
    have hans : E.answer t s x = (.ok b, y) := by simp [Exec.answer, hE]
    have hfire : fire E ⟨x, threads⟩ i t =
        some (⟨⟨t, s, .ok b⟩, i, c, x⟩, ⟨y, threads.set i ⟨c, k (.ok b) >>= f⟩⟩) := by
      have hth' : threads[i]? = some ⟨c, .op s fun r => (k r).bind f⟩ := hth
      simp only [fire, hth', hans]
      rfl
    obtain ⟨as, z, a, hrun, hQ, htr, hQ'⟩ := ih (.ok b) (hnext _ _ hans) ((hj t).2 (.ok b) _ rfl)
      (List.getElem?_set_self hi)
    have hstep : next E handler ⟨x, threads⟩ (.step i t) =
        ⟨y, threads.set i ⟨c, k (.ok b) >>= f⟩⟩ := by
      simp [next, hfire]
    have hemit : emit E ⟨x, threads⟩ (.step (κ := κ) i t) = [⟨⟨t, s, .ok b⟩, i, c, x⟩] := by
      simp [emit, hfire]
    refine ⟨.step i t :: as, z, a, ?_, hQ, ?_, ?_⟩
    · rw [run_cons, hstep, hrun, List.set_set]
    · rw [trace, hemit, hstep]
      exact List.forall_mem_cons.mpr ⟨⟨rfl, b, rfl⟩, htr⟩
    · rw [trace, hemit, hstep, own_append, ← List.append_assoc]
      simpa [own] using hQ'

/-- Every event is one of a thread of the pool. -/
lemma exists_thread {x : σ} (as : List (Action κ ι)) {e : Event S A ε ι σ κ}
    (he : e ∈ trace E handler (start x) as) :
    ∃ th, (run E handler (start x) as).threads[e.thread]? = some th ∧ th.call = e.call := by
  induction as using List.reverseRecOn with
  | nil => simp [trace] at he
  | append_singleton as a ih =>
    rw [trace_snoc] at he
    rw [run_append, run_cons, run_nil]
    generalize run E handler (start x) as = p at ih he ⊢
    rcases next_cases E handler p a with
      ⟨c, -, hn, hem⟩ | ⟨i, t, c, s, k, -, hi, hn, hem⟩ | ⟨hn, hem⟩ <;> rw [hem] at he <;> rw [hn]
    · obtain ⟨th, hth, hcall⟩ := ih (by simpa using he)
      have hlt := (List.getElem?_eq_some_iff.mp hth).1
      exact ⟨th, by rw [List.getElem?_append_left hlt, hth], hcall⟩
    · have hlt := (List.getElem?_eq_some_iff.mp hi).1
      rcases List.mem_append.mp he with he | he
      · obtain ⟨th, hth, hcall⟩ := ih he
        rcases eq_or_ne i e.thread with rfl | hne
        · rw [hi] at hth
          cases hth
          exact ⟨_, List.getElem?_set_self hlt, hcall⟩
        · exact ⟨th, by rw [List.getElem?_set_ne hne, hth], hcall⟩
      · obtain rfl := List.mem_singleton.mp he
        exact ⟨_, List.getElem?_set_self hlt, rfl⟩
    · exact ih (by simpa using he)

variable (E handler) in
/-- The pool is reached from `x` by requests sent in turn, without an error; each of them has been
answered. -/
def Reached (answers : S → Prop) (x : σ) (p : Pool S A ε α κ σ) : Prop :=
  ∃ as, run E handler (start x) as = p ∧ InTurn answers (trace E handler (start x) as) ∧
    Faultless (trace E handler (start x) as) ∧
    ∀ i < p.threads.length, Answered answers (trace E handler (start x) as) i

namespace Reached

variable {answers : S → Prop} {x y : σ} {threads : List (Thread S A ε α κ)}

lemma start : Reached E handler answers x (Pool.start x) :=
  ⟨[], rfl, by simp [InTurn, trace], by simp [Faultless, trace], by simp [Pool.start]⟩

/-- A thread that waits goes on. -/
lemma resume (h : Reached E handler answers x ⟨y, threads⟩) (t : ι) {c : κ} {i : ℕ}
    {p : Prog S A ε β} {f : β → Prog S A ε α} (hth : threads[i]? = some ⟨c, p >>= f⟩)
    {Q : σ → β → Prop} (hp : wp E.faultless p Q (fun _ _ => False) y) :
    ∃ z a, Q z a ∧ Reached E handler answers x ⟨z, threads.set i ⟨c, f a⟩⟩ := by
  obtain ⟨as, hrun, hturn, hfault, hans⟩ := h
  have hi : i < threads.length := (List.getElem?_eq_some_iff.mp hth).1
  have hany : wp (.journal fun _ _ _ => True) p (fun _ _ => True) (fun _ _ => True)
      ([] : List (Step S A ε ι)) := wp_true (fun _ _ _ => trivial) p
  obtain ⟨bs, z, a, hrun', hQ, htr, -⟩ := run_faultless handler t hp hany hth
  refine ⟨z, a, hQ, as ++ bs, ?_, ?_, ?_, ?_⟩
  · rw [run_append, hrun, hrun']
  · rw [trace_append, hrun]
    refine hturn.append fun e he j hj => hans j ?_
    rw [(htr e he).1] at hj
    exact hj.trans hi
  · rw [trace_append, hrun]
    intro e he
    rcases List.mem_append.mp he with he | he
    · exact hfault e he
    · exact (htr e he).2
  · rw [trace_append]
    intro j hj
    rw [List.length_set] at hj
    exact (hans j hj).append

/-- A new request is answered, and waits after `p`. -/
lemma call (h : Reached E handler answers x ⟨y, threads⟩) (t : ι) {c : κ}
    {p : Prog S A ε β} {f : β → Prog S A ε α} (hc : handler c = p >>= f)
    {Q : σ → β → Prop} (hp : wp E.faultless p Q (fun _ _ => False) y)
    {Q' : List (Step S A ε ι) → β → Prop} {F' : List (Step S A ε ι) → ε → Prop}
    (hj : wp (.journal ok) p Q' F' [])
    (hgiven : ∀ z a own, Q z a → Q' own a → ∃ s ∈ own, answers s.stmt) :
    ∃ z a, Q z a ∧ Reached E handler answers x ⟨z, threads ++ [⟨c, f a⟩]⟩ := by
  obtain ⟨as, hrun, hturn, hfault, hans⟩ := h
  have hth : (threads ++ [⟨c, p >>= f⟩])[threads.length]? = some ⟨c, p >>= f⟩ := by simp
  obtain ⟨bs, z, a, hrun', hQ, htr, hQ'⟩ := run_faultless handler t hp hj hth
  obtain ⟨s, hs, hanswer⟩ := hgiven z a _ hQ hQ'
  have hcall : next E handler ⟨y, threads⟩ (.call c) = ⟨y, threads ++ [⟨c, p >>= f⟩]⟩ := by
    simp [next, hc]
  have htrace : trace E handler (Pool.start x) (as ++ .call c :: bs) =
      trace E handler (Pool.start x) as ++ trace E handler ⟨y, threads ++ [⟨c, p >>= f⟩]⟩ bs := by
    rw [trace_append, hrun, trace, hcall]
    rfl
  refine ⟨z, a, hQ, as ++ .call c :: bs, ?_, ?_, ?_, ?_⟩
  · rw [run_append, hrun, run_cons, hcall, hrun']
    simp
  · rw [htrace]
    refine hturn.append fun e he j hj => hans j ?_
    rwa [(htr e he).1] at hj
  · rw [htrace]
    intro e he
    rcases List.mem_append.mp he with he | he
    · exact hfault e he
    · exact (htr e he).2
  · rw [htrace]
    intro j hj
    rw [List.length_append, List.length_singleton] at hj
    rcases Nat.lt_succ_iff_lt_or_eq.mp hj with hj | rfl
    · exact (hans j hj).append
    · rw [List.nil_append] at hs
      obtain ⟨e, he, hthread, rfl⟩ := mem_own.mp hs
      exact ⟨e, List.mem_append_right _ he, hthread, hanswer⟩

end Reached

end Pool

/-- Of the members of a list with a property, one comes last. -/
lemma exists_last {l : List α} {P : α → Prop} (h : ∃ a ∈ l, P a) :
    ∃ pre a post, l = pre ++ a :: post ∧ P a ∧ ∀ b ∈ post, ¬ P b := by
  induction l using List.reverseRecOn with
  | nil => simp at h
  | append_singleton l b ih =>
    by_cases hb : P b
    · exact ⟨l, b, [], rfl, hb, by simp⟩
    · obtain ⟨a, ha, hPa⟩ := h
      rcases List.mem_append.mp ha with ha | ha
      · obtain ⟨pre, a, post, rfl, hPa, hpost⟩ := ih ⟨a, ha, hPa⟩
        refine ⟨pre, a, post ++ [b], by simp, hPa, fun d hd => ?_⟩
        rcases List.mem_append.mp hd with hd | hd
        · exact hpost d hd
        · rwa [List.mem_singleton.mp hd]
      · rw [List.mem_singleton.mp ha] at hPa
        exact absurd hPa hb

namespace History

variable {E : Exec S A ε ι σ} {ok : κ → List (Step S A ε ι) → ι → S → Prop} {x : σ}
  {tr tr' : List (Event S A ε ι σ κ)} {e : Event S A ε ι σ κ}

/-- A property that the statements of the rest of the history keep holds on until the end. -/
lemma stable_on {I : σ → Prop} (h : History E ok x (tr ++ tr'))
    (hI : ∀ e ∈ tr', ∀ y, I y → I (E.answer e.input e.stmt y).2) (hI0 : I (stateAfter E x tr)) :
    I (stateAfter E x (tr ++ tr')) := by
  induction tr' using List.reverseRecOn with
  | nil => simpa using hI0
  | append_singleton tr' e ih =>
    rw [← List.append_assoc] at h ⊢
    rw [stateAfter_snoc]
    refine hI e (by simp) _ ?_
    rw [(last h).1]
    exact ih (of_append h) fun e' he' => hI e' (by simp [he'])

lemma holds_on {I : σ → Prop} (h : History E ok x tr)
    (hI : ∀ e ∈ tr, ∀ y, I y → I (E.answer e.input e.stmt y).2) (hI0 : I x) :
    I (stateAfter E x tr) := by
  rw [← List.nil_append tr] at h ⊢
  exact h.stable_on hI hI0

/-- From what holds after one event to what holds before a later one. -/
lemma until_event {I : σ → Prop} {mid : List (Event S A ε ι σ κ)} {e' : Event S A ε ι σ κ}
    (h : History E ok x (tr ++ e :: (mid ++ e' :: tr')))
    (hI : ∀ e ∈ mid, ∀ y, I y → I (E.answer e.input e.stmt y).2) (he : I (e.after E)) :
    I e'.before := by
  have h' : History E ok x (tr ++ [e] ++ mid ++ e' :: tr') := by simpa using h
  rw [h'.event.1]
  exact h'.of_append.stable_on hI (by rwa [stateAfter_snoc])

end History

end Rebuilderd.Lib
