import Mathlib.Data.List.Basic
import Mathlib.Data.List.TakeDrop

/-!
A list of jobs that is worked through in order, where work may be left off after any job and taken
up again from a record of the keys of the jobs that are done.
-/

namespace Rebuilderd.Lib

variable {σ τ δ κ : Type} {exec : τ → σ → δ → Option δ} {jobs jobs' : List σ} {d d' d'' : δ}

/-- The jobs were done one after the other, each with an argument of its own. -/
inductive Done (exec : τ → σ → δ → Option δ) : List σ → δ → δ → Prop
  | nil (d : δ) : Done exec [] d d
  | cons {t : τ} {job : σ} {jobs : List σ} {d d' d'' : δ} (h : exec t job d = some d')
      (rest : Done exec jobs d' d'') : Done exec (job :: jobs) d d''

lemma Done.append (h : Done exec jobs d d') (h' : Done exec jobs' d' d'') :
    Done exec (jobs ++ jobs') d d'' := by
  induction h with
  | nil => exact h'
  | cons hjob _ ih => exact .cons hjob (ih h')

lemma Done.snoc {t : τ} {job : σ} (h : Done exec jobs d d') (hjob : exec t job d' = some d'') :
    Done exec (jobs ++ [job]) d d'' :=
  h.append (.cons hjob (.nil _))

/-! ### What is left to do -/

section
variable [DecidableEq κ] {f : σ → κ} {n j : ℕ}

/-- What the record says is left of the first `j` jobs, if the first `n` are done. -/
lemma filter_take_eq_drop (hjobs : (jobs.map f).Nodup) :
    ((jobs.take j).filter fun s => !((jobs.take n).map f).contains (f s)) = (jobs.take j).drop n := by
  rw [← List.take_append_drop n (jobs.take j), List.filter_append, List.take_append_drop]
  have hbefore : ((jobs.take j).take n).filter
      (fun s => !((jobs.take n).map f).contains (f s)) = [] := by
    refine List.filter_eq_nil_iff.mpr fun s hs => ?_
    rw [List.take_take, Nat.min_comm, ← List.take_take] at hs
    have hdone := List.mem_map_of_mem (f := f) (List.mem_of_mem_take hs)
    rw [Bool.not_eq_true', Bool.not_eq_false, List.contains_iff_mem]
    exact hdone
  have hafter : ((jobs.take j).drop n).filter
      (fun s => !((jobs.take n).map f).contains (f s)) = (jobs.take j).drop n := by
    refine List.filter_eq_self.mpr fun s hs => ?_
    rw [List.drop_take] at hs
    rw [← List.take_append_drop n jobs, List.map_append] at hjobs
    have hdisjoint := (List.nodup_append.mp hjobs).2.2
    have hopen := List.mem_map_of_mem (f := f) (List.mem_of_mem_take hs)
    rw [Bool.not_eq_true', ← Bool.not_eq_true, List.contains_iff_mem]
    exact fun hdone => hdisjoint _ hdone _ hopen rfl
  rw [hbefore, hafter, List.nil_append]

end

end Rebuilderd.Lib
