import Rebuilderd.Daemon.Invariants

/-!
The source packages a report writes.

A report looks its packages up by the unique index, which reads a NULL release or component as
the text PLACEHOLDER; everything else compares them null-aware. Where the two disagree, a report
overwrites a source package of another origin.
-/

namespace Rebuilderd.Daemon

open Rebuilderd.Lib Rebuilderd.Common

/-- What the unique index reads of a package of the report. -/
def reportedKey (r : PackageReport) (p : SourcePackageReport) :
    String × String × String × String × String :=
  (p.name, p.version, r.distribution, r.release.getD "PLACEHOLDER", r.component.getD "PLACEHOLDER")

/-- The report creates or modifies source packages of its own origin only: those of any other
origin are as before, and those that are not as before are of its origin. -/
def OriginsIsolated (r : PackageReport) (db db' : Db) : Prop :=
  (∀ s ∈ db.sourcePackages.rows, s.inOriginOf r = false → s ∈ db'.sourcePackages.rows) ∧
    ∀ s ∈ db'.sourcePackages.rows, s ∉ db.sourcePackages.rows → s.inOriginOf r = true

/-- No source package of another origin conflicts with a package of the report. -/
def noForeignConflict (r : PackageReport) (db : Db) : Bool :=
  db.sourcePackages.rows.all fun s =>
    s.inOriginOf r || !(r.packages.map (reportedKey r)).contains s.uniqueKey

/-! ### What the packages of a report do to the source packages -/

section
variable {r : PackageReport} {p : SourcePackageReport} {now : Time} {db db' : Db}

lemma conflicts_iff_reported {s : SourcePackage} :
    (newSourcePackage now r p).conflicts s = true ↔ s.uniqueKey = reportedKey r p := by
  rw [conflicts_iff]
  rfl

lemma SourcePackage.IsFrom.uniqueKey {s : SourcePackage} (h : s.IsFrom r p) :
    s.uniqueKey = reportedKey r p := by
  rw [uniqueKey_of_origin h.origin, h.name, h.version, reportedKey]

/-- The source packages `t` after the packages `ps` of a report, from `t₀`. -/
structure Merged (r : PackageReport) (ps : List SourcePackageReport) (t₀ t : Table SourcePackage) :
    Prop where
  rows : ∀ s ∈ t.rows, (∃ p ∈ ps, s.IsFrom r p) ∨
    (s ∈ t₀.rows ∧ ∀ p ∈ ps, s.uniqueKey ≠ reportedKey r p)
  kept : ∀ s ∈ t₀.rows, (∀ p ∈ ps, s.uniqueKey ≠ reportedKey r p) → s ∈ t.rows
  moved : ∀ s ∈ t₀.rows, ∀ p ∈ ps, s.uniqueKey = reportedKey r p →
    ∃ s' ∈ t.rows, s'.id = s.id ∧ ∃ p ∈ ps, s'.IsFrom r p
  listed : ∀ p ∈ ps, ∃ s ∈ t.rows, s.IsFrom r p

/-- A row after the upsert of a package: rewritten if it conflicts, else as it was. -/
lemma upsertSource_row (now : Time) (r : PackageReport) (p : SourcePackageReport)
    {s : SourcePackage} (hs : s ∈ db.sourcePackages.rows) :
    ∃ s' ∈ ((newSourcePackage now r p).upsert db).2.sourcePackages.rows, s'.id = s.id ∧
      (s.uniqueKey = reportedKey r p → s'.IsFrom r p) ∧
      (s.uniqueKey ≠ reportedKey r p → s' = s) := by
  rcases (newSourcePackage now r p).upsert_cases db with ⟨a, -, -, h⟩ | ⟨hnone, h⟩ <;> rw [h]
  · refine ⟨_, List.mem_map.mpr ⟨s, hs, rfl⟩, ?_, fun hkey => ?_, fun hkey => ?_⟩
    · split <;> rfl
    · rw [if_pos (conflicts_iff_reported.mpr hkey)]
      exact isFrom_row _ _ _ _
    · rw [if_neg fun hc => hkey (conflicts_iff_reported.mp hc)]
  · refine ⟨s, List.mem_append_left _ hs, rfl, fun hkey => ?_, fun _ => rfl⟩
    have := hnone s hs
    rw [conflicts_iff_reported.mpr hkey] at this
    cases this

/-- The source packages after one package of the report. -/
lemma Merged.upsert {ps : List SourcePackageReport} {t₀ : Table SourcePackage}
    (h : Merged r ps t₀ db.sourcePackages) :
    Merged r (ps ++ [p]) t₀ ((newSourcePackage now r p).upsert db).2.sourcePackages := by
  have hafter := (upsertSource_spec now r p db).2.2.2
  refine ⟨fun s hs => ?_, fun s hs hne => ?_, fun s hs q hq hkey => ?_, fun q hq => ?_⟩
  · by_cases hkey : s.uniqueKey = reportedKey r p
    · -- A row with the key of the package was written for it.
      rcases hafter.from_ s hs with hold | hfrom
      · obtain ⟨s', hs', hid, hmoved, -⟩ := upsertSource_row now r p hold
        rw [Table.eq_of_key hs hs' hid.symm]
        exact .inl ⟨p, by simp, hmoved hkey⟩
      · exact .inl ⟨p, by simp, hfrom⟩
    · rcases hafter.from_ s hs with hold | hfrom
      · refine (h.rows s hold).imp (fun ⟨q, hq, hfrom⟩ => ⟨q, List.mem_append_left _ hq, hfrom⟩)
          fun ⟨hs₀, hne⟩ => ⟨hs₀, fun q hq => ?_⟩
        rcases List.mem_append.mp hq with hq | hq
        · exact hne q hq
        · rw [List.mem_singleton.mp hq]
          exact hkey
      · exact absurd hfrom.uniqueKey hkey
  · have hs' := h.kept s hs fun q hq => hne q (List.mem_append_left _ hq)
    obtain ⟨s', hmem, -, -, hsame⟩ := upsertSource_row now r p hs'
    exact hsame (hne p (by simp)) ▸ hmem
  · -- The row as it was before this package: moved by an earlier one, or untouched.
    obtain ⟨s₁, hs₁, hid₁, hcase⟩ : ∃ s₁ ∈ db.sourcePackages.rows, s₁.id = s.id ∧
        ((∃ q ∈ ps, s₁.IsFrom r q) ∨ s₁.uniqueKey = reportedKey r p) := by
      by_cases hearlier : ∃ q ∈ ps, s.uniqueKey = reportedKey r q
      · obtain ⟨q', hq', hkey'⟩ := hearlier
        obtain ⟨s₁, hs₁, hid₁, hfrom⟩ := h.moved s hs q' hq' hkey'
        exact ⟨s₁, hs₁, hid₁, .inl hfrom⟩
      · have hnone : ∀ q ∈ ps, s.uniqueKey ≠ reportedKey r q := fun q hq hk => hearlier ⟨q, hq, hk⟩
        rcases List.mem_append.mp hq with hq | hq
        · exact absurd hkey (hnone q hq)
        · rw [List.mem_singleton.mp hq] at hkey
          exact ⟨s, h.kept s hs hnone, rfl, .inr hkey⟩
    obtain ⟨s', hs', hid', hmoved, hsame⟩ := upsertSource_row now r p hs₁
    refine ⟨s', hs', hid'.trans hid₁, ?_⟩
    by_cases hkey₁ : s₁.uniqueKey = reportedKey r p
    · exact ⟨p, by simp, hmoved hkey₁⟩
    · obtain ⟨q', hq', hfrom⟩ := hcase.resolve_right hkey₁
      exact ⟨q', List.mem_append_left _ hq', hsame hkey₁ ▸ hfrom⟩
  · rcases List.mem_append.mp hq with hq | hq
    · obtain ⟨s, hs, hfrom⟩ := h.listed q hq
      obtain ⟨s', hs', -, hmoved, hsame⟩ := upsertSource_row now r p hs
      refine ⟨s', hs', ?_⟩
      by_cases hkey : s.uniqueKey = reportedKey r p
      · -- Two packages with one name and version are written to one row.
        have heq := hfrom.uniqueKey.symm.trans hkey
        simp only [reportedKey, Prod.mk.injEq] at heq
        obtain ⟨hname, hversion, horigin, hseen⟩ := hmoved hkey
        exact ⟨hname.trans heq.1.symm, hversion.trans heq.2.1.symm, horigin, hseen⟩
      · exact hsame hkey ▸ hfrom
    · rw [List.mem_singleton.mp hq]
      obtain ⟨-, hmem, hfrom, -⟩ := upsertSource_spec now r p db
      exact ⟨_, hmem, hfrom⟩

/-- Of the source packages, an import writes that of its package only. -/
lemma importWithHistory_sources (now : Time) (first : Option Time) (r : PackageReport)
    (p : SourcePackageReport) (db : Db) :
    (importWithHistory now first r p db).2.sourcePackages =
      ((newSourcePackage now r p).upsert db).2.sourcePackages := by
  have hrows : (importRows now first r p db).2.sourcePackages =
      ((newSourcePackage now r p).upsert db).2.sourcePackages :=
    (importRows_other (g := Db.sourcePackages) (fun _ _ => rfl) now first r p db).trans
      (upsertInput_spec first r p _ _).1
  unfold importWithHistory
  dsimp only
  split
  · exact (copyExistingRebuilds_frame (g := Db.sourcePackages) (fun _ _ => rfl) (fun _ _ => rfl)
      _ _).trans hrows
  · exact hrows

lemma importPackage_sources {c : ScheduleConfig} {T : Ties}
    (hok : importPackage c T now r db p = .ok db') :
    db'.sourcePackages = ((newSourcePackage now r p).upsert db).2.sourcePackages := by
  obtain ⟨first, -, henq⟩ := importPackage_ok hok
  have himp := importWithHistory_imported now first r p db
  obtain ⟨⟨hs, -⟩, -⟩ := enqueueImported_queue (mem_inputs.mpr ⟨_, himp.stored, rfl, rfl, rfl⟩) henq
  exact hs.trans (importWithHistory_sources now first r p db)

/-- **The source packages after a report**, from those with the packages in scope unseen. -/
theorem merged_commit {c : ScheduleConfig} {T : Ties}
    (h : commitPackageReport c T now r db = .ok db') :
    Merged r r.packages (markScopedPackagesUnseen r db).sourcePackages db'.sourcePackages := by
  obtain ⟨db₁, hf, rfl⟩ := commitPackageReport_ok h
  refine foldlM_ok (I := fun ps d => Merged r ps (markScopedPackagesUnseen r db).sourcePackages
    d.sourcePackages) hf ?_ fun ps p d d' _ hd hok => ?_
  · exact ⟨fun s hs => .inr ⟨hs, by simp⟩, fun s hs _ => hs, by simp, by simp⟩
  · rw [importPackage_sources hok]
    exact hd.upsert

/-! ### Marking a scope as unseen -/

/-- The source package has a build input of the report's architecture. -/
def hasScopedInput (r : PackageReport) (db : Db) (s : SourcePackage) : Bool :=
  db.buildInputs.rows.any fun b => b.sourcePackageId == s.id && b.architecture == r.architecture

/-- A source package is marked if it is of the origin and has a build input in scope. -/
lemma mem_scoped_iff {s : SourcePackage} (hs : s ∈ db.sourcePackages.rows) :
    ((scopedBuildInputs r (fun _ => true) db).map (·.sourcePackageId)).contains s.id = true ↔
      s.inOriginOf r = true ∧ hasScopedInput r db s = true := by
  simp only [List.contains_iff_mem, List.mem_map, scopedBuildInputs, List.mem_filter,
    Bool.and_eq_true, beq_iff_eq, List.any_eq_true, Bool.and_true, hasScopedInput]
  constructor
  · rintro ⟨b, ⟨hb, harch, s', hs', hid', horigin⟩, hid⟩
    rw [← Table.eq_of_key hs' hs (hid'.trans hid)]
    exact ⟨horigin, b, hb, hid'.symm, harch⟩
  · rintro ⟨horigin, b, hb, hid, harch⟩
    exact ⟨b, ⟨hb, harch, s, hs, hid.symm, horigin⟩, hid⟩

/-- The source packages after marking: those in scope are unseen, the others as before. -/
lemma mem_mark {s' : SourcePackage} : s' ∈ (markScopedPackagesUnseen r db).sourcePackages.rows ↔
    ∃ s ∈ db.sourcePackages.rows, s' =
      if s.inOriginOf r && hasScopedInput r db s then { s with seenInLastSync := false } else s := by
  simp only [markScopedPackagesUnseen, Table.rows_update, List.mem_map]
  refine exists_congr fun s => and_congr_right fun hs => ?_
  rw [eq_comm]
  simp only [mem_scoped_iff hs, Bool.and_eq_true]

end

/-! ### Origins -/

/-- **A report stays within its origin exactly when no package of it conflicts with a source
package of another origin.** -/
theorem originsIsolated_iff (c : ScheduleConfig) (T : Ties) (now : Time) (r : PackageReport)
    (db db' : Db) (h : commitPackageReport c T now r db = .ok db') :
    OriginsIsolated r db db' ↔ noForeignConflict r db = true := by
  have hm := merged_commit h
  simp only [noForeignConflict, List.all_eq_true, Bool.or_eq_true, Bool.not_eq_true',
    List.contains_eq_mem, List.mem_map, decide_eq_false_iff_not, not_exists, not_and]
  constructor
  · rintro ⟨hkeep, -⟩ s hs
    by_cases horigin : s.inOriginOf r = true
    · exact .inl horigin
    · right
      intro p hp hkey
      have hs₀ : s ∈ (markScopedPackagesUnseen r db).sourcePackages.rows :=
        mem_mark.mpr ⟨s, hs, by simp [horigin]⟩
      obtain ⟨s', hs', hid, q, -, hfrom⟩ := hm.moved s hs₀ p hp hkey.symm
      have heq := Table.eq_of_key (hkeep s hs (by simpa using horigin)) hs' hid.symm
      exact horigin (heq ▸ hfrom.origin)
  · intro hnone
    refine ⟨fun s hs horigin => ?_, fun s hs hnew => ?_⟩
    · have hs₀ : s ∈ (markScopedPackagesUnseen r db).sourcePackages.rows :=
        mem_mark.mpr ⟨s, hs, by simp [horigin]⟩
      refine hm.kept s hs₀ fun p hp hkey => ?_
      rcases hnone s hs with ho | hne
      · rw [horigin] at ho
        cases ho
      · exact hne p hp hkey.symm
    · rcases hm.rows s hs with ⟨p, -, hfrom⟩ | ⟨hs₀, -⟩
      · exact hfrom.origin
      · -- A marked row that is not as before was in scope.
        obtain ⟨s₁, hs₁, rfl⟩ := mem_mark.mp hs₀
        split at hnew
        · rename_i hscope
          rw [if_pos hscope]
          exact (Bool.and_eq_true_iff.mp hscope).1
        · exact absurd hs₁ hnew

/-- A package is reported again for its own origin. -/
theorem originsIsolated_sameOrigin : ∃ db',
    commitPackageReport (openDaemon none).config.schedule .inOrder 0
      (debianReport [package "hello" "https://hello"]) (runPool (openDaemon none) handedOut).state =
        .ok db' ∧
    OriginsIsolated (debianReport [package "hello" "https://hello"])
      (runPool (openDaemon none) handedOut).state db' := by
  obtain ⟨db', hok, -⟩ := exists_ok (P := fun _ => true)
    (x := commitPackageReport (openDaemon none).config.schedule .inOrder 0
      (debianReport [package "hello" "https://hello"]) (runPool (openDaemon none) handedOut).state)
    (by decide +kernel)
  exact ⟨db', hok, (originsIsolated_iff (openDaemon none).config.schedule .inOrder 0 _ _ _ hok).mpr
    (by decide +kernel)⟩

/-- **A report overwrites another origin**: the package imported without a release is taken over
by a report for the release PLACEHOLDER. -/
theorem placeholderRelease_overwrites : ¬ ∀ env now r db db', Reachable env db →
    commitPackageReport env.config.schedule env.ties now r db = .ok db' →
      OriginsIsolated r db db' := by
  intro h
  let report : PackageReport :=
    ⟨"debian", some "PLACEHOLDER", none, "amd64", [package "hello" "https://hello"]⟩
  obtain ⟨db', hok, hlost⟩ := exists_ok
    (P := fun d => (runPool (openDaemon none) handedOut).state.sourcePackages.rows.any fun s =>
      !s.inOriginOf report && !d.sourcePackages.rows.contains s)
    (x := commitPackageReport (openDaemon none).config.schedule .inOrder 0 report
      (runPool (openDaemon none) handedOut).state)
    (by decide +kernel)
  obtain ⟨hkeep, -⟩ := h (openDaemon none) 0 report _ db' ⟨handedOut, rfl⟩ hok
  obtain ⟨s, hs, hs'⟩ := List.any_eq_true.mp hlost
  simp only [Bool.and_eq_true, Bool.not_eq_true', List.contains_eq_mem, decide_eq_false_iff_not] at hs'
  exact hs'.2 (hkeep s hs hs'.1)

end Rebuilderd.Daemon
