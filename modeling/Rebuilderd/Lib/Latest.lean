import Mathlib

/-!
Reports that replace each other: of each scope, the most recent report counts.

A log lists the reports, newest first. An item belongs to one scope, and is current if the most
recent report of that scope lists it.
-/

namespace Rebuilderd.Lib

variable {ρ σ κ : Type} [DecidableEq σ]

/-- The most recent report of the scope `s`. -/
def latest (scope : ρ → σ) (log : List ρ) (s : σ) : Option ρ :=
  log.find? fun r => scope r == s

/-- The most recent report of the item's scope lists it. -/
def current (scope : ρ → σ) (lists : ρ → κ → Bool) (scopeOf : κ → σ) (log : List ρ) (k : κ) : Bool :=
  (latest scope log (scopeOf k)).any (lists · k)

variable {scope : ρ → σ} {lists : ρ → κ → Bool} {scopeOf : κ → σ} {log : List ρ} {k : κ}

@[simp] lemma current_nil : current scope lists scopeOf [] k = false := rfl

/-- A report decides about the items of its scope, and about no others. -/
lemma current_cons (r : ρ) : current scope lists scopeOf (r :: log) k =
    if scope r = scopeOf k then lists r k else current scope lists scopeOf log k := by
  unfold current latest
  rw [List.find?_cons]
  by_cases h : scope r = scopeOf k
  · simp [h]
  · rw [if_neg h]
    have hbeq : (scope r == scopeOf k) = false := by simpa using h
    rw [hbeq]

lemma current_iff : current scope lists scopeOf log k = true ↔
    ∃ r, latest scope log (scopeOf k) = some r ∧ lists r k = true := by
  unfold current
  cases latest scope log (scopeOf k) <;> simp

/-- An item is current because of a report of its scope. -/
lemma exists_of_current (h : current scope lists scopeOf log k = true) :
    ∃ r ∈ log, scope r = scopeOf k ∧ lists r k = true := by
  obtain ⟨r, hr, hk⟩ := current_iff.mp h
  refine ⟨r, List.mem_of_find?_eq_some hr, ?_, hk⟩
  simpa using List.find?_some hr

end Rebuilderd.Lib
