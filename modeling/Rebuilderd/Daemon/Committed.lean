import Rebuilderd.Daemon.BinaryListing
import Rebuilderd.Daemon.SeenBinaries

/-!
Which binary packages are seen in a run.

Package reports come from any number of tools, and their transactions are interleaved with all other
requests. What counts is the order in which they are committed.
-/

namespace Rebuilderd.Daemon

open Rebuilderd.Lib Rebuilderd.Common

/-- The package report that a statement has committed. -/
def committedBy (e : Event) : Option PackageReport :=
  match e.toStep with
  | ⟨_, .commitPackageReport _ r, .ok _⟩ => some r
  | _ => none

/-- The package reports that were committed, newest first. -/
def committed (tr : List Event) : List PackageReport := (tr.filterMap committedBy).reverse

/-- No committed report is about a release or component that is literally called PLACEHOLDER. -/
def AllPlain (tr : List Event) : Prop := ∀ r ∈ committed tr, isPlain r = true

instance (tr : List Event) : Decidable (AllPlain tr) :=
  inferInstanceAs (Decidable (∀ r ∈ committed tr, isPlain r = true))

section
variable {env : Env} {tr : List Event} {e : Event}

lemma committed_append : committed (tr ++ [e]) = (committedBy e).toList ++ committed tr := by
  unfold committed
  rw [List.filterMap_append, List.reverse_append]
  rcases h : committedBy e with _ | r <;> simp [h]

/-- A statement commits a report, or no packages change. -/
lemma committed_cases (h : e.answer = ((exec env).answer e.input e.stmt e.before).1) :
    (∃ now r, committedBy e = some r ∧ commitPackageReport env.config.schedule env.ties now r e.before =
        .ok (e.after (exec env))) ∨
      (committedBy e = none ∧ (e.after (exec env)).binaryPackages = e.before.binaryPackages ∧
        (e.after (exec env)).sourcePackages = e.before.sourcePackages ∧
        (e.after (exec env)).inputs = e.before.inputs) := by
  obtain ⟨⟨t, s, a⟩, n, c, db⟩ := e
  dsimp only at h
  by_cases hs : ∃ now r, s = .commitPackageReport now r
  · obtain ⟨now, r, rfl⟩ := hs
    subst h
    rcases hexec : exec env t (.commitPackageReport now r) db with e | ⟨u, db'⟩
    · right
      simp [committedBy, Lib.Event.after, Exec.answer, hexec]
    · left
      refine ⟨now, r, by simp [committedBy, Exec.answer, hexec], ?_⟩
      simpa [Lib.Event.after, Exec.answer, hexec] using exec_commit hexec
  · have hnone : committedBy ⟨⟨t, s, a⟩, n, c, db⟩ = none := by
      cases s with
      | commitPackageReport now r => exact absurd ⟨now, r, rfl⟩ hs
      | _ => rfl
    obtain ⟨hsources, hinputs⟩ := (exec_identities env t s db).resolve_left hs
    exact .inr ⟨hnone, (exec_binaryPackages env t s db).resolve_left hs, hsources, hinputs⟩

end

/-- What holds of the binary packages while requests are served in any order. -/
structure SeenSoFar (tr : List Event) (db : Db) : Prop where
  unique : Unique db
  linked : Linked db
  seen : ∀ k, k ∈ seenKeys db ↔ listedNow (committed tr) k = true

/-- **The seen binary packages are those that the last committed report of their scope lists**, in
every run. -/
lemma seenSoFar_trace {env : Env} {ok : Call → OwnSteps → Time → Stmt → Prop} {tr : List Event}
    (hh : History (exec env) ok env.start tr) (hplain : AllPlain tr) :
    SeenSoFar tr (stateAfter (exec env) env.start tr) := by
  induction tr using List.reverseRecOn with
  | nil =>
    refine ⟨⟨List.nodup_nil, List.nodup_nil⟩, ⟨?_, ?_, List.nodup_nil⟩, ?_⟩
    · simp [Env.start, Db.empty]
    · simp [Env.start, Db.empty]
    · simp [seenKeys, Env.start, Db.empty, listedNow, committed]
  | append_singleton tr e ih =>
    obtain ⟨hstate, hanswer, -⟩ := hh.last
    have hbefore : SeenSoFar tr e.before := by
      rw [hstate]
      exact ih hh.of_append fun r hr => hplain r (by simp [committed_append, hr])
    rw [stateAfter_snoc]
    rcases committed_cases hanswer with ⟨now, r, hr, hok⟩ | ⟨hnone, hbinaries, hsources, hinputs⟩
    · have hlog : committed (tr ++ [e]) = r :: committed tr := by rw [committed_append, hr]; rfl
      obtain ⟨hl, hseen⟩ := seenKeys_commit (hplain r (by simp [hlog])) hbefore.linked hok
      refine ⟨unique_commit hbefore.unique hok, hl, fun k => ?_⟩
      rw [hseen, hlog, listedNow, current_cons]
      split
      · rfl
      · exact hbefore.seen k
    · have hlog : committed (tr ++ [e]) = committed tr := by rw [committed_append, hnone]; rfl
      have hgrows : Grows e.before (e.after (exec env)) := .of_eq hsources hinputs
      refine ⟨hbefore.unique.congr (by rw [hsources]) hinputs,
        hgrows.linked hbefore.linked hbinaries ?_, fun k => ?_⟩
      · rw [hsources]
        exact hbefore.linked.plain
      · rw [hgrows.seenKeys hbefore.linked hbinaries, hlog]
        exact hbefore.seen k

end Rebuilderd.Daemon
