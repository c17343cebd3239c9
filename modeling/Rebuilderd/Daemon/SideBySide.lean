import Rebuilderd.Daemon.SeenBinaries

/-!
Reports about different scopes leave each other's binary packages seen, if their releases are all
null or all set, and so are their components. This needs no assumption about the names: two
reports that the unique index confuses are then about the same release and component.
-/

namespace Rebuilderd.Daemon

open Rebuilderd.Lib Rebuilderd.Common

/-- The releases are both null or both set, and so are the components. -/
def Alike (s s' : Scope) : Prop :=
  s.release.isSome = s'.release.isSome ∧ s.component.isSome = s'.component.isSome

/-- The binary packages the report lists are all seen. -/
def AllSeen (db : Db) (r : PackageReport) : Prop :=
  ∀ p ∈ r.packages, ∀ a ∈ p.artifacts, artifactKey r p a ∈ seenKeys db

section
variable {r : PackageReport} {p : SourcePackageReport} {now : Time} {db db' : Db} {k : BinaryKey}

lemma getD_injective {o o' : Option String} (h : o.isSome = o'.isSome) {d : String}
    (hd : o.getD d = o'.getD d) : o = o' := by
  cases o <;> cases o' <;> simp_all

/-- A source package with the key of a package of the report is that of the report. -/
lemma identity_eq_of_key {s s' : SourcePackage} {a : String} (hs : Alike (s.identity.scope a) r.scope)
    (hkey : s.uniqueKey = reportedKey r p) (hfrom : s'.IsFrom r p) : s'.identity = s.identity := by
  simp only [SourcePackage.uniqueKey, reportedKey, Prod.mk.injEq] at hkey
  obtain ⟨hn, hv, hd, hre, hc⟩ := hkey
  have hrelease : s.release = r.release := getD_injective hs.1 hre
  have hcomponent : s.component = r.component := getD_injective hs.2 hc
  rw [hfrom.identity, SourcePackage.identity, hn, hv, hd, hrelease, hcomponent]

/-- The import of a source package leaves the names of those that are alike. -/
lemma sourceIdentities_upsert {i : ℕ} {s : SourceIdentity} {a : String}
    (hs : Alike (s.scope a) r.scope) (h : (i, s) ∈ db.sourceIdentities) :
    (i, s) ∈ ((newSourcePackage now r p).upsert db).2.sourceIdentities := by
  obtain ⟨row, hrow, rfl, rfl⟩ := mem_sourceIdentities.mp h
  obtain ⟨row', hrow', hid, hmoved, hsame⟩ := upsertSource_row now r p hrow
  refine mem_sourceIdentities.mpr ⟨row', hrow', hid, ?_⟩
  by_cases hkey : row.uniqueKey = reportedKey r p
  · exact identity_eq_of_key hs hkey (hmoved hkey)
  · rw [hsame hkey]

lemma seenKeys_subset_upsertBinaries {input : BuildInput} (as : List BinaryPackageReport)
    (hk : k ∈ seenKeys db) :
    k ∈ seenKeys (as.foldl (fun db a => (newBinaryPackage r input a).upsert db) db) := by
  induction as generalizing db with
  | nil => exact hk
  | cons a as ih => exact ih (seenKeys_subset_upsertBinary hk)

lemma artifactKey_mem_upsertBinaries {input : BuildInput} (as : List BinaryPackageReport)
    {a : BinaryPackageReport} (ha : a ∈ as)
    (hs : (input.sourcePackageId, (artifactKey r p a).source) ∈ db.sourceIdentities)
    (hi : (input.id, input.sourcePackageId, reportedGroup r p) ∈ db.inputs) :
    artifactKey r p a ∈
      seenKeys (as.foldl (fun db a => (newBinaryPackage r input a).upsert db) db) := by
  induction as generalizing db with
  | nil => cases ha
  | cons a' as ih =>
    rcases List.mem_cons.mp ha with rfl | ha
    · exact seenKeys_subset_upsertBinaries as (artifactKey_mem_upsertBinary hs hi)
    · exact ih ha hs hi

/-- The rows of a package: what was seen and is alike is seen, and so are the artifacts. -/
lemma seenKeys_rows (now : Time) (first : Option Time) (r : PackageReport)
    (p : SourcePackageReport) (db : Db) :
    (∀ k ∈ seenKeys db, Alike k.scope r.scope → k ∈ seenKeys (importRows now first r p db).2) ∧
      ∀ a ∈ p.artifacts, artifactKey r p a ∈ seenKeys (importRows now first r p db).2 := by
  obtain ⟨hinputs, hmem, hfrom, -⟩ := upsertSource_spec now r p db
  have hnames (i : ℕ) (s : SourceIdentity) (a : String) (hs : Alike (s.scope a) r.scope)
      (h : (i, s) ∈ db.sourceIdentities) :
      (i, s) ∈ ((newSourcePackage now r p).upsert db).2.sourceIdentities :=
    sourceIdentities_upsert hs h
  have hbinaries : ((newSourcePackage now r p).upsert db).2.binaryPackages = db.binaryPackages := rfl
  unfold importRows
  generalize (newSourcePackage now r p).upsert db = source at hinputs hmem hfrom hnames hbinaries
  obtain ⟨source, db₁⟩ := source
  dsimp only at hinputs hmem hfrom hnames hbinaries ⊢
  obtain ⟨hsrc, hstored, hid, hgroup, hin⟩ := upsertInput_spec first r p source.id db₁
  have hbinaries' := upsertInput_binaries (newBuildInput first r p source.id) db₁
  generalize (newBuildInput first r p source.id).upsert db₁ = input at hsrc hstored hid hgroup hin hbinaries'
  obtain ⟨input, db₂⟩ := input
  dsimp only at hsrc hstored hid hgroup hin hbinaries' ⊢
  constructor
  · intro k hk halike
    refine seenKeys_subset_upsertBinaries p.artifacts ?_
    obtain ⟨b, hb, hseen, hd⟩ := hk
    refine ⟨b, by rwa [hbinaries', hbinaries], hseen, ⟨?_, ?_, hd.architecture, hd.name, hd.version⟩⟩
    · rw [Db.sourceIdentities, hsrc]
      exact hnames _ _ k.architecture halike hd.source
    · have hold : (b.buildInputId, b.sourcePackageId, k.group) ∈ db₁.inputs := by
        rw [Db.inputs, hinputs]
        exact hd.input
      rcases hin with h | h <;> rw [h]
      · exact hold
      · exact List.mem_append_left _ hold
  · intro a ha
    refine artifactKey_mem_upsertBinaries p.artifacts ha ?_
      (mem_inputs.mpr ⟨input, hstored, rfl, rfl, hgroup⟩)
    exact mem_sourceIdentities.mpr ⟨source, hsrc ▸ hmem, hid.symm, hfrom.identity⟩

lemma seenKeys_importPackage {c : ScheduleConfig} {T : Ties}
    (hok : importPackage c T now r db p = .ok db') :
    (∀ k ∈ seenKeys db, Alike k.scope r.scope → k ∈ seenKeys db') ∧
      ∀ a ∈ p.artifacts, artifactKey r p a ∈ seenKeys db' := by
  obtain ⟨first, hs, hi, hb⟩ := importPackage_rows hok
  have hsame : seenKeys db' = seenKeys (importRows now first r p db).2 := by
    have hsources : db'.sourceIdentities = (importRows now first r p db).2.sourceIdentities := by
      rw [Db.sourceIdentities, hs, Db.sourceIdentities]
    have hdescribes (b : BinaryPackage) (k : BinaryKey) :
        Describes db' b k ↔ Describes (importRows now first r p db).2 b k :=
      ⟨fun h => ⟨hsources ▸ h.1, hi ▸ h.2, h.3, h.4, h.5⟩,
        fun h => ⟨hsources ▸ h.1, hi ▸ h.2, h.3, h.4, h.5⟩⟩
    unfold seenKeys
    simp only [hb, hdescribes]
  rw [hsame]
  exact seenKeys_rows now first r p db

/-- Marking a scope leaves the binary packages of the others seen. -/
lemma seenKeys_mark_other (hk : k ∈ seenKeys db) (hne : k.scope ≠ r.scope) :
    k ∈ seenKeys (markScopedPackagesUnseen r db) := by
  obtain ⟨b, hb, hseen, hd⟩ := hk
  have hout : ((scopedBuildInputs r (fun _ => true) db).map (·.id)).contains b.buildInputId ≠ true :=
    fun h => hne ((contains_scoped_iff hd).mp h)
  refine ⟨b, List.mem_map.mpr ⟨b, hb, if_neg hout⟩, hseen, ⟨?_, hd.2, hd.3, hd.4, hd.5⟩⟩
  rw [show (markScopedPackagesUnseen r db).sourceIdentities = db.sourceIdentities from
    Table.map_rows_update _ fun _ _ _ => rfl]
  exact hd.source

/-- **A report makes its binary packages seen**, and leaves those of other scopes that are alike. -/
theorem seenKeys_report {c : ScheduleConfig} {T : Ties}
    (hok : commitPackageReport c T now r db = .ok db') :
    AllSeen db' r ∧
      ∀ k ∈ seenKeys db, k.scope ≠ r.scope → Alike k.scope r.scope → k ∈ seenKeys db' := by
  obtain ⟨db₁, hf, rfl⟩ := commitPackageReport_ok hok
  have hloop : (∀ p ∈ r.packages, ∀ a ∈ p.artifacts, artifactKey r p a ∈ seenKeys db₁) ∧
      ∀ k ∈ seenKeys db, k.scope ≠ r.scope → Alike k.scope r.scope → k ∈ seenKeys db₁ := by
    refine foldlM_ok (I := fun ps d => (∀ p ∈ ps, ∀ a ∈ p.artifacts, artifactKey r p a ∈ seenKeys d) ∧
      ∀ k ∈ seenKeys db, k.scope ≠ r.scope → Alike k.scope r.scope → k ∈ seenKeys d) hf
      ⟨by simp, fun k hk hne _ => seenKeys_mark_other hk hne⟩ fun ps p d d' _ hd hp => ?_
    obtain ⟨hkept, hnew⟩ := seenKeys_importPackage hp
    refine ⟨fun q hq a ha => ?_, fun k hk hne halike => hkept k (hd.2 k hk hne halike) halike⟩
    rcases List.mem_append.mp hq with hq | hq
    · exact hkept _ (hd.1 q hq a ha) ⟨rfl, rfl⟩
    · rw [List.mem_singleton.mp hq] at ha ⊢
      exact hnew a ha
  -- Dropping jobs writes the queue only.
  have hsame : seenKeys (dropUnseenScopedJobs r db₁) = seenKeys db₁ :=
    Set.ext fun k => exists_congr fun b => and_congr_right fun _ => and_congr_right fun _ =>
      ⟨fun h => ⟨h.1, h.2, h.3, h.4, h.5⟩, fun h => ⟨h.1, h.2, h.3, h.4, h.5⟩⟩
  rw [hsame]
  exact ⟨fun p hp a ha => hsame ▸ hloop.1 p hp a ha, hloop.2⟩

end

/-! ### Sequences of reports -/

/-- The daemon accepts the reports one after the other. -/
def AllAccepted (env : Env) : Syncs → List Submission → Prop
  | _, [] => True
  | x, c :: cs => accepted env x.db c = true ∧ AllAccepted env (x.submit env c) cs

/-- **Reports about different scopes that are alike leave each other's binary packages seen.** -/
theorem allSeen_of_nodup {env : Env} {cs : List Submission} {x : Syncs}
    (hok : AllAccepted env x cs) (hne : (cs.map fun c => c.1.2.scope).Nodup)
    (halike : ∀ c ∈ cs, ∀ c' ∈ cs, Alike c.1.2.scope c'.1.2.scope) :
    ∀ c ∈ cs, AllSeen (cs.foldl (Syncs.submit env) x).db c.1.2 := by
  suffices ∀ done : List PackageReport, (∀ r ∈ done, AllSeen x.db r ∧
      ∀ c ∈ cs, r.scope ≠ c.1.2.scope ∧ Alike r.scope c.1.2.scope) →
      (∀ r ∈ done, AllSeen (cs.foldl (Syncs.submit env) x).db r) ∧
        ∀ c ∈ cs, AllSeen (cs.foldl (Syncs.submit env) x).db c.1.2 from (this [] (by simp)).2
  induction cs generalizing x with
  | nil => exact fun done hdone => ⟨fun r hr => (hdone r hr).1, by simp⟩
  | cons c cs ih =>
    intro done hdone
    obtain ⟨haccepted, hrest⟩ := hok
    obtain ⟨hc, hcs⟩ := List.nodup_cons.mp hne
    rcases submit_cases env x c with ⟨hrefused, -⟩ | ⟨-, db', hx, hcommit⟩
    · rw [hrefused] at haccepted
      cases haccepted
    · obtain ⟨hnew, hkept⟩ := seenKeys_report hcommit
      have hstep := ih hrest hcs
        (fun c' hc' c'' hc'' => halike c' (by simp [hc']) c'' (by simp [hc''])) (c.1.2 :: done) ?_
      · refine ⟨fun r hr => hstep.1 r (List.mem_cons_of_mem _ hr), fun c' hc' => ?_⟩
        rcases List.mem_cons.mp hc' with rfl | hc'
        · exact hstep.1 _ (by simp)
        · exact hstep.2 c' hc'
      · rw [hx]
        intro r hr
        rcases List.mem_cons.mp hr with rfl | hr
        · refine ⟨hnew, fun c' hc' => ⟨fun heq => hc ?_, halike c (by simp) c' (by simp [hc'])⟩⟩
          exact List.mem_map.mpr ⟨c', hc', heq.symm⟩
        · obtain ⟨hseen, hother⟩ := hdone r hr
          obtain ⟨hscope, halike'⟩ := hother c (by simp)
          exact ⟨fun p hp a ha => hkept _ (hseen p hp a ha) hscope halike',
            fun c' hc' => hother c' (by simp [hc'])⟩

end Rebuilderd.Daemon
