import Rebuilderd.Lib.Latest
import Rebuilderd.Daemon.Origins
import Rebuilderd.Daemon.Recording

/-!
Which source packages are seen.

The flag of a source package is shared by all architectures, but it is cleared and set by reports
about one of them. After a sequence of package reports it should say whether the most recent
report of some architecture lists the package.
-/

namespace Rebuilderd.Daemon

open Rebuilderd.Lib Rebuilderd.Common Prog

/-! ### Sequences of package reports -/

/-- A database with the reports it has accepted, newest first. -/
structure Syncs where
  db : Db
  log : List PackageReport

def Syncs.start (env : Env) : Syncs := ⟨env.start, []⟩

/-- A package report as it arrives, and when its statements execute. -/
abbrev Submission := (Headers × PackageReport) × (ℕ → Time)

/-- The daemon answers that it has accepted the report. -/
def accepted (env : Env) (db : Db) (c : Submission) : Bool :=
  match (serve (exec env) (handler env.config) db (.submitPackageReport c.1.1 c.1.2, c.2)).1 with
  | .ok .noContent => true
  | _ => false

/-- Submit a report. -/
def Syncs.submit (env : Env) (x : Syncs) (c : Submission) : Syncs where
  db := served env x.db (.submitPackageReport c.1.1 c.1.2, c.2)
  log := if accepted env x.db c then c.1.2 :: x.log else x.log

/-- A report is accepted and committed, or changes nothing. -/
lemma submit_cases (env : Env) (x : Syncs) (c : Submission) :
    (accepted env x.db c = false ∧ x.submit env c = x) ∨
      (accepted env x.db c = true ∧ ∃ db', x.submit env c = ⟨db', c.1.2 :: x.log⟩ ∧
        commitPackageReport env.config.schedule env.ties (c.2 0) c.1.2 x.db = .ok db') := by
  obtain ⟨⟨h, r⟩, t⟩ := c
  obtain ⟨db, log⟩ := x
  have hrun : (serve (exec env) (handler env.config) db (.submitPackageReport h r, t) =
      (.ok .forbidden, db)) ∨
      (∃ e, serve (exec env) (handler env.config) db (.submitPackageReport h r, t) =
        (.error e, db)) ∨
      ∃ db', serve (exec env) (handler env.config) db (.submitPackageReport h r, t) =
        (.ok .noContent, db') ∧
        commitPackageReport env.config.schedule env.ties (t 0) r db = .ok db' := by
    unfold serve
    simp only [handler, Handler.submitPackageReport]
    split
    · exact .inl rfl
    · rw [run_stmt_bind]
      simp only [exec]
      rw [run_stmt_bind]
      rcases hc : commitPackageReport env.config.schedule env.ties (t 0) r db with e | db'
      · exact .inr (.inl ⟨e, by simp [exec, hc, Except.map]⟩)
      · exact .inr (.inr ⟨db', by simp [exec, hc, Except.map], rfl⟩)
  unfold Syncs.submit accepted served
  rcases hrun with h | ⟨e, h⟩ | ⟨db', h, hc⟩
  · exact .inl (by simp [h])
  · exact .inl (by simp [h])
  · exact .inr ⟨by simp [h], db', by simp [h], hc⟩

/-! ### Seen source packages -/

/-- What identifies a source package. -/
structure SourceIdentity where
  name : String
  version : String
  distribution : String
  release : Option String
  component : Option String
  deriving DecidableEq

def SourcePackage.identity (s : SourcePackage) : SourceIdentity :=
  ⟨s.name, s.version, s.distribution, s.release, s.component⟩

/-- The scope of the reports that list the source package for an architecture. -/
def SourceIdentity.scope (s : SourceIdentity) (architecture : String) : Scope :=
  ⟨s.distribution, s.release, s.component, architecture⟩

/-- The report has a package of that name and version. -/
def listsSource (r : PackageReport) (name version : String) : Bool :=
  r.packages.any fun p => p.name == name && p.version == version

/-- The most recent report of the architecture lists the source package. -/
def listedFor (log : List PackageReport) (s : SourceIdentity) (architecture : String) : Bool :=
  current PackageReport.scope (fun r k => listsSource r k.1.name k.1.version)
    (fun k : SourceIdentity × String => k.1.scope k.2) log (s, architecture)

/-- The source package is in the database and seen. -/
def IsSeen (db : Db) (s : SourceIdentity) : Prop :=
  ∃ row ∈ db.sourcePackages.rows, row.identity = s ∧ row.seenInLastSync = true

/-- The seen source packages are those the most recent report of some architecture lists. -/
def SeenFlags (x : Syncs) : Prop :=
  ∀ s, IsSeen x.db s ↔ ∃ architecture, listedFor x.log s architecture = true

/-- What a report must not do to the flags: let a package disappear from its architecture while
the most recent report of another one lists it, or overwrite a seen package of another origin. -/
def keepsFlags (x : Syncs) (r : PackageReport) : Bool :=
  x.db.sourcePackages.rows.all fun s =>
    if s.inOriginOf r then
      listsSource r s.name s.version || !hasScopedInput r x.db s || x.log.all fun old =>
        old.architecture == r.architecture || !listedFor x.log s.identity old.architecture
    else
      !s.seenInLastSync || !(r.packages.map (reportedKey r)).contains s.uniqueKey

/-! ### The invariant of a run -/

lemma inOriginOf_iff {s : SourcePackage} {r : PackageReport} :
    s.inOriginOf r = true ↔ s.identity.scope r.architecture = r.scope := by
  simp [SourcePackage.inOriginOf, SourceIdentity.scope, SourcePackage.identity, PackageReport.scope,
    and_assoc]

lemma listsSource_iff {r : PackageReport} {name version : String} :
    listsSource r name version = true ↔ ∃ p ∈ r.packages, p.name = name ∧ p.version = version := by
  simp [listsSource]

/-- Within its origin, a source package is listed under its key. -/
lemma listsSource_iff_key {r : PackageReport} {s : SourcePackage} (h : s.inOriginOf r = true) :
    listsSource r s.name s.version = true ↔ ∃ p ∈ r.packages, s.uniqueKey = reportedKey r p := by
  rw [listsSource_iff]
  refine exists_congr fun p => and_congr_right fun _ => ?_
  simp [uniqueKey_of_origin h, reportedKey, eq_comm]

lemma SourcePackage.IsFrom.identity {r : PackageReport} {p : SourcePackageReport} {s : SourcePackage}
    (h : s.IsFrom r p) : s.identity = ⟨p.name, p.version, r.distribution, r.release, r.component⟩ := by
  obtain ⟨hd, hr, hc⟩ := inOriginOf_iff_columns.mp h.origin
  rw [SourcePackage.identity, h.name, h.version, hd, hr, hc]

/-- The package with this key has a build input for the architecture. -/
def HasInputFor (db : Db) (key : String × String × String × String × String)
    (architecture : String) : Prop :=
  ∃ s ∈ db.sourcePackages.rows, s.uniqueKey = key ∧
    ∃ i g, (i, s.id, g) ∈ db.inputs ∧ g.architecture = architecture

/-- What holds after every sequence of reports, whatever they list. -/
structure Tracked (x : Syncs) : Prop where
  unique : Unique x.db
  listed : ∀ r ∈ x.log, ∀ p ∈ r.packages, HasInputFor x.db (reportedKey r p) r.architecture

section
variable {c : ScheduleConfig} {T : Ties} {now : Time} {r : PackageReport} {db db' : Db}

lemma hasInputFor_import {p : SourcePackageReport} {key : String × String × String × String × String}
    {a : String} (h : HasInputFor db key a) (hok : importPackage c T now r db p = .ok db') :
    HasInputFor db' key a := by
  obtain ⟨s, hs, hkey, i, g, hi, ha⟩ := h
  obtain ⟨s', hs', hid, hmoved, hsame⟩ := upsertSource_row now r p hs
  obtain ⟨first, -, henq⟩ := importPackage_ok hok
  have himp := importWithHistory_imported now first r p db
  obtain ⟨⟨-, hin⟩, -⟩ := enqueueImported_queue (mem_inputs.mpr ⟨_, himp.stored, rfl, rfl, rfl⟩) henq
  refine ⟨s', importPackage_sources hok ▸ hs', ?_, i, g, ?_, ha⟩
  · by_cases hp : s.uniqueKey = reportedKey r p
    · rw [(hmoved hp).uniqueKey, ← hp, hkey]
    · rw [hsame hp, hkey]
  · rw [hid, hin]
    exact himp.keeps_inputs hi

lemma hasInputFor_self {p : SourcePackageReport} (hok : importPackage c T now r db p = .ok db') :
    HasInputFor db' (reportedKey r p) r.architecture := by
  obtain ⟨first, -, henq⟩ := importPackage_ok hok
  have himp := importWithHistory_imported now first r p db
  obtain ⟨⟨hs, hin⟩, -⟩ := enqueueImported_queue (mem_inputs.mpr ⟨_, himp.stored, rfl, rfl, rfl⟩) henq
  obtain ⟨s, hmem, hid, hfrom⟩ := himp.source
  refine ⟨s, hs ▸ hmem, hfrom.uniqueKey, _, _, hin ▸ mem_inputs.mpr ⟨_, himp.stored, rfl, hid.symm, rfl⟩, ?_⟩
  exact congrArg Group.architecture himp.group

lemma hasInputFor_mark {key : String × String × String × String × String} {a : String}
    (h : HasInputFor db key a) : HasInputFor (markScopedPackagesUnseen r db) key a := by
  obtain ⟨s, hs, hkey, hin⟩ := h
  refine ⟨_, mem_mark.mpr ⟨s, hs, rfl⟩, ?_, ?_⟩
  · split <;> exact hkey
  · split <;> exact hin

/-- A report keeps the build inputs of packages, and adds those of its own. -/
lemma hasInputFor_commit (h : commitPackageReport c T now r db = .ok db') :
    (∀ key a, HasInputFor db key a → HasInputFor db' key a) ∧
      ∀ p ∈ r.packages, HasInputFor db' (reportedKey r p) r.architecture := by
  obtain ⟨db₁, hf, rfl⟩ := commitPackageReport_ok h
  let I : List SourcePackageReport → Db → Prop := fun ps d =>
    (∀ key a, HasInputFor db key a → HasInputFor d key a) ∧
      ∀ p ∈ ps, HasInputFor d (reportedKey r p) r.architecture
  refine show I r.packages db₁ from foldlM_ok hf ?_ fun ps p d d' _ hd hok => ?_
  · exact ⟨fun _ _ => hasInputFor_mark, by simp⟩
  · refine ⟨fun key a hkey => hasInputFor_import (hd.1 key a hkey) hok, fun q hq => ?_⟩
    rcases List.mem_append.mp hq with hq | hq
    · exact hasInputFor_import (hd.2 q hq) hok
    · rw [List.mem_singleton.mp hq]
      exact hasInputFor_self hok

end

section
variable {env : Env} {x : Syncs}

lemma Tracked.submit (h : Tracked x) (c : Submission) : Tracked (x.submit env c) := by
  rcases submit_cases env x c with ⟨-, heq⟩ | ⟨-, db', heq, hok⟩ <;> rw [heq]
  · exact h
  · obtain ⟨hold, hnew⟩ := hasInputFor_commit hok
    refine ⟨unique_commit h.unique hok, fun r hr p hp => ?_⟩
    rcases List.mem_cons.mp hr with rfl | hr
    · exact hnew p hp
    · exact hold _ _ (h.listed r hr p hp)

/-- A source package that is listed for an architecture has a build input for it. -/
lemma Tracked.hasScopedInput (h : Tracked x) {s : SourcePackage}
    (hs : s ∈ x.db.sourcePackages.rows) {r : PackageReport}
    (hlisted : listedFor x.log s.identity r.architecture = true) :
    hasScopedInput r x.db s = true := by
  obtain ⟨old, hold, hscope, hlists⟩ := exists_of_current hlisted
  have horigin : s.inOriginOf old = true := by
    rw [inOriginOf_iff, hscope]
    rw [show old.architecture = r.architecture from congrArg Scope.architecture hscope]
  obtain ⟨p, hp, hkey⟩ := (listsSource_iff_key horigin).mp hlists
  obtain ⟨s', hs', hkey', i, g, hi, ha⟩ := h.listed old hold p hp
  obtain rfl := h.unique.source_eq hs' hs (hkey'.trans hkey.symm)
  obtain ⟨b, hb, -, hbs, rfl⟩ := mem_inputs.mp hi
  have harch : old.architecture = r.architecture := congrArg Scope.architecture hscope
  simp only [Daemon.hasScopedInput, List.any_eq_true, Bool.and_eq_true, beq_iff_eq]
  exact ⟨b, hb, hbs, ha.trans harch⟩

end

/-! ### What one report does to the flags -/

/-- Of another architecture of the origin, the most recent report lists the source package. -/
def ListedElsewhere (log : List PackageReport) (r : PackageReport) (s : SourceIdentity) : Prop :=
  ∃ a, a ≠ r.architecture ∧ listedFor log s a = true

section
variable {env : Env} {x : Syncs} {r : PackageReport} {s : SourceIdentity}

lemma listedFor_cons (a : String) : listedFor (r :: x.log) s a =
    if r.scope = s.scope a then listsSource r s.name s.version else listedFor x.log s a :=
  current_cons r

/-- After a report, a source package of its origin is listed by it or for another architecture. -/
lemma listed_cons_of_origin (h : s.scope r.architecture = r.scope) :
    (∃ a, listedFor (r :: x.log) s a = true) ↔
      listsSource r s.name s.version = true ∨ ListedElsewhere x.log r s := by
  constructor
  · rintro ⟨a, ha⟩
    rw [listedFor_cons] at ha
    split at ha
    · exact .inl ha
    · rename_i hne
      refine .inr ⟨a, fun haeq => hne ?_, ha⟩
      rw [haeq, h]
  · rintro (hl | ⟨a, hne, ha⟩)
    · exact ⟨r.architecture, by rw [listedFor_cons, if_pos h.symm]; exact hl⟩
    · refine ⟨a, ?_⟩
      rw [listedFor_cons, if_neg fun heq => hne (congrArg Scope.architecture heq).symm]
      exact ha

/-- After a report, a source package of another origin is listed as before. -/
lemma listed_cons_of_foreign (h : s.scope r.architecture ≠ r.scope) (a : String) :
    listedFor (r :: x.log) s a = listedFor x.log s a := by
  rw [listedFor_cons, if_neg fun heq => h ?_]
  have harch : r.architecture = a := congrArg Scope.architecture heq
  rw [harch, heq]

/-- After a report, a source package of its origin is seen if it is listed, or if it was seen and
has no build input in scope. -/
lemma isSeen_commit_of_origin {c : ScheduleConfig} {T : Ties} {now : Time} {db db' : Db}
    (hok : commitPackageReport c T now r db = .ok db') (h : s.scope r.architecture = r.scope) :
    IsSeen db' s ↔ listsSource r s.name s.version = true ∨
      ∃ row ∈ db.sourcePackages.rows, row.identity = s ∧ row.seenInLastSync = true ∧
        hasScopedInput r db row = false := by
  have hm := merged_commit hok
  have horigin {row : SourcePackage} (hid : row.identity = s) : row.inOriginOf r = true := by
    rw [inOriginOf_iff, hid, h]
  constructor
  · rintro ⟨row, hrow, hid, hseen⟩
    rcases hm.rows row hrow with ⟨p, hp, hfrom⟩ | ⟨hrow, -⟩
    · left
      rw [← hid]
      exact listsSource_iff.mpr ⟨p, hp, hfrom.name.symm, hfrom.version.symm⟩
    · right
      obtain ⟨row₀, hrow₀, rfl⟩ := mem_mark.mp hrow
      split at hseen
      · cases hseen
      · rename_i hscope
        rw [if_neg hscope] at hid
        refine ⟨row₀, hrow₀, hid, hseen, ?_⟩
        simpa [horigin hid] using hscope
  · intro hor
    by_cases hl : listsSource r s.name s.version = true
    · obtain ⟨p, hp, hname, hversion⟩ := listsSource_iff.mp hl
      obtain ⟨row, hrow, hfrom⟩ := hm.listed p hp
      refine ⟨row, hrow, ?_, hfrom.seen⟩
      have hscope := (inOriginOf_iff.mp hfrom.origin).trans h.symm
      simp only [SourceIdentity.scope, SourcePackage.identity, Scope.mk.injEq, and_true] at hscope
      obtain ⟨hd, hr, hc⟩ := hscope
      simp only [SourcePackage.identity, hd, hr, hc, hfrom.name, hfrom.version, hname, hversion]
    · obtain ⟨row, hrow, hid, hseen, hinput⟩ := hor.resolve_left hl
      have hrow' : row ∈ (markScopedPackagesUnseen r db).sourcePackages.rows :=
        mem_mark.mpr ⟨row, hrow, by simp [hinput]⟩
      refine ⟨row, hm.kept row hrow' fun p hp hkey => hl ?_, hid, hseen⟩
      rw [← hid]
      exact (listsSource_iff_key (horigin hid)).mpr ⟨p, hp, hkey⟩

/-- After a report, a source package of another origin is seen if it was and is not overwritten. -/
lemma isSeen_commit_of_foreign {c : ScheduleConfig} {T : Ties} {now : Time} {db db' : Db}
    (hok : commitPackageReport c T now r db = .ok db') (h : s.scope r.architecture ≠ r.scope) :
    IsSeen db' s ↔ ∃ row ∈ db.sourcePackages.rows, row.identity = s ∧ row.seenInLastSync = true ∧
      ∀ p ∈ r.packages, row.uniqueKey ≠ reportedKey r p := by
  have hm := merged_commit hok
  have horigin {row : SourcePackage} (hid : row.identity = s) : row.inOriginOf r = false := by
    rw [← Bool.not_eq_true, inOriginOf_iff, hid]
    exact h
  constructor
  · rintro ⟨row, hrow, hid, hseen⟩
    rcases hm.rows row hrow with ⟨p, -, hfrom⟩ | ⟨hrow, hkeys⟩
    · have := horigin hid
      rw [hfrom.origin] at this
      cases this
    · obtain ⟨row₀, hrow₀, heq⟩ := mem_mark.mp hrow
      split at heq
      · rw [heq] at hseen
        cases hseen
      · exact ⟨row₀, hrow₀, heq ▸ hid, heq ▸ hseen, heq ▸ hkeys⟩
  · rintro ⟨row, hrow, hid, hseen, hkeys⟩
    have hrow' : row ∈ (markScopedPackagesUnseen r db).sourcePackages.rows :=
      mem_mark.mpr ⟨row, hrow, by simp [horigin hid]⟩
    exact ⟨row, hm.kept row hrow' hkeys, hid, hseen⟩

lemma all_not_elsewhere : (x.log.all fun old =>
      old.architecture == r.architecture || !listedFor x.log s old.architecture) = true ↔
    ¬ ListedElsewhere x.log r s := by
  simp only [List.all_eq_true, Bool.or_eq_true, beq_iff_eq, Bool.not_eq_true']
  constructor
  · rintro hall ⟨a, hne, ha⟩
    obtain ⟨old, hold, hscope, -⟩ := exists_of_current ha
    have harch : old.architecture = a := congrArg Scope.architecture hscope
    rcases hall old hold with h | h
    · exact hne (harch.symm.trans h)
    · rw [harch, ha] at h
      cases h
  · intro hno old hold
    by_cases h : old.architecture = r.architecture
    · exact .inl h
    · right
      by_contra hl
      exact hno ⟨_, h, by simpa using hl⟩

lemma Unique.row_of_identity {db : Db} (h : Unique db) {row row' : SourcePackage}
    (hrow : row ∈ db.sourcePackages.rows) (hrow' : row' ∈ db.sourcePackages.rows)
    (hid : row.identity = row'.identity) : row = row' := by
  refine h.source_eq hrow hrow' ?_
  simp only [SourcePackage.identity, SourceIdentity.mk.injEq] at hid
  obtain ⟨hn, hv, hd, hr, hc⟩ := hid
  simp only [SourcePackage.uniqueKey, hn, hv, hd, hr, hc]

/-- The flags are right after a report exactly when it does not do what it must not. -/
lemma seenFlags_commit {c : ScheduleConfig} {T : Ties} {now : Time} {db' : Db} (ht : Tracked x)
    (hs : SeenFlags x) (hok : commitPackageReport c T now r x.db = .ok db') :
    SeenFlags ⟨db', r :: x.log⟩ ↔ keepsFlags x r = true := by
  simp only [keepsFlags, List.all_eq_true]
  constructor
  · intro hafter row hrow
    split
    · rename_i horigin
      have hscope := inOriginOf_iff.mp horigin
      simp only [Bool.or_eq_true, Bool.not_eq_true', all_not_elsewhere, or_assoc]
      by_contra hno
      simp only [not_or, not_not, Bool.not_eq_true, Bool.not_eq_false] at hno
      obtain ⟨hlists, hinput, helse⟩ := hno
      -- It is listed elsewhere, so it ought to be seen, but it has just been marked.
      have hseen := (hafter row.identity).mpr ((listed_cons_of_origin hscope).mpr (.inr helse))
      rcases (isSeen_commit_of_origin hok hscope).mp hseen with hl | ⟨row', hrow', hid, -, hnone⟩
      · change listsSource r row.name row.version = true at hl
        rw [hlists] at hl
        cases hl
      · rw [ht.unique.row_of_identity hrow' hrow hid, hinput] at hnone
        cases hnone
    · rename_i horigin
      have hscope : row.identity.scope r.architecture ≠ r.scope := fun h =>
        horigin (inOriginOf_iff.mpr h)
      simp only [Bool.or_eq_true, Bool.not_eq_true', List.contains_eq_mem, List.mem_map,
        decide_eq_false_iff_not]
      by_contra hno
      simp only [not_or, not_not, Bool.not_eq_false] at hno
      obtain ⟨hflag, p, hp, hkey⟩ := hno
      obtain ⟨a, ha⟩ := (hs row.identity).mp ⟨row, hrow, rfl, hflag⟩
      have hseen := (hafter row.identity).mpr ⟨a, (listed_cons_of_foreign hscope a).trans ha⟩
      obtain ⟨row', hrow', hid, -, hkeys⟩ := (isSeen_commit_of_foreign hok hscope).mp hseen
      rw [ht.unique.row_of_identity hrow' hrow hid] at hkeys
      exact hkeys p hp hkey.symm
  · intro hkeep s
    by_cases hscope : s.scope r.architecture = r.scope
    · rw [isSeen_commit_of_origin hok hscope, listed_cons_of_origin hscope]
      refine or_congr_right' fun hlists => ?_
      constructor
      · rintro ⟨row, hrow, rfl, hflag, hnone⟩
        obtain ⟨a, ha⟩ := (hs row.identity).mp ⟨row, hrow, rfl, hflag⟩
        refine ⟨a, fun harch => ?_, ha⟩
        rw [ht.hasScopedInput hrow (harch ▸ ha)] at hnone
        cases hnone
      · rintro ⟨a, hne, ha⟩
        obtain ⟨row, hrow, rfl, hflag⟩ := (hs s).mpr ⟨a, ha⟩
        have hrow' := hkeep row hrow
        rw [if_pos (inOriginOf_iff.mpr hscope)] at hrow'
        simp only [Bool.or_eq_true, Bool.not_eq_true', all_not_elsewhere] at hrow'
        refine ⟨row, hrow, rfl, hflag, ?_⟩
        rcases hrow' with (hl | hnone) | helse
        · exact absurd hl hlists
        · exact hnone
        · exact absurd ⟨a, hne, ha⟩ helse
    · rw [isSeen_commit_of_foreign hok hscope]
      simp only [listed_cons_of_foreign hscope, ← hs s]
      constructor
      · rintro ⟨row, hrow, hid, hflag, -⟩
        exact ⟨row, hrow, hid, hflag⟩
      · rintro ⟨row, hrow, rfl, hflag⟩
        have hrow' := hkeep row hrow
        rw [if_neg fun h => hscope (inOriginOf_iff.mp h)] at hrow'
        simp only [hflag, Bool.not_true, Bool.false_or, Bool.not_eq_true', List.contains_eq_mem,
          List.mem_map, decide_eq_false_iff_not] at hrow'
        exact ⟨row, hrow, rfl, hflag, fun p hp hkey => hrow' ⟨p, hp, hkey.symm⟩⟩

end

/-- Whether the daemon rejects the report, or it keeps the flags right. -/
def submissionKeepsFlags (env : Env) (x : Syncs) (c : Submission) : Bool :=
  !accepted env x.db c || keepsFlags x c.1.2

lemma seenFlags_submit {env : Env} {x : Syncs} (ht : Tracked x) (hs : SeenFlags x)
    (c : Submission) : SeenFlags (x.submit env c) ↔ submissionKeepsFlags env x c = true := by
  unfold submissionKeepsFlags
  rcases submit_cases env x c with ⟨hno, heq⟩ | ⟨hyes, db', heq, hok⟩ <;> rw [heq]
  · simpa [hno] using hs
  · rw [seenFlags_commit ht hs hok, hyes, Bool.not_true, Bool.false_or]

/-- **The seen flag of the source packages**: in a sequence of package reports, it says which
packages the most recent report of some architecture lists, exactly as long as every report keeps
the flags right. -/
theorem seenFlags (env : Env) (x : Syncs)
    (h : Runs (Syncs.submit env) (fun x c => submissionKeepsFlags env x c = true) (Syncs.start env) x) :
    SeenFlags x ∧ ∀ c, SeenFlags (x.submit env c) ↔ submissionKeepsFlags env x c = true := by
  have hinv : Tracked x ∧ SeenFlags x := by
    refine h.inv (I := fun x => Tracked x ∧ SeenFlags x) ⟨⟨⟨List.nodup_nil, List.nodup_nil⟩,
      by simp [Syncs.start]⟩, fun s => ?_⟩ fun y c _ hy hc =>
        ⟨hy.1.submit c, (seenFlags_submit hy.1 hy.2 c).mpr hc⟩
    simp [IsSeen, Syncs.start, Env.start, Db.empty, listedFor]
  exact ⟨hinv.2, seenFlags_submit hinv.1 hinv.2⟩

/-- A report of Debian about one architecture. -/
def archReport (architecture : String) (packages : List SourcePackageReport) : Submission :=
  ((adminHeaders, ⟨"debian", none, none, architecture, packages⟩), fun _ => 0)

/-- One package on two architectures. -/
theorem seenFlags_twoArchitectures :
    SeenFlags ([archReport "amd64" [package "hello" "https://hello"],
      archReport "arm64" [package "hello" "https://hello"]].foldl
        (Syncs.submit (openDaemon none)) (.start (openDaemon none))) :=
  (seenFlags (openDaemon none) _ (Runs.of_allowed (by decide +kernel))).1

/-- **A package that is still listed becomes unseen**: it disappears from amd64 while arm64 lists
it; and whether it is seen depends on which of the two reports comes last. -/
theorem droppedArchitecture_unseen :
    (¬ ∀ env (cs : List Submission), SeenFlags (cs.foldl (Syncs.submit env) (.start env))) ∧
      ¬ ∀ env (cs : List Submission) (c d : Submission),
        c.1.2.architecture ≠ d.1.2.architecture → ∀ s,
          (IsSeen ((cs ++ [c, d]).foldl (Syncs.submit env) (.start env)).db s ↔
            IsSeen ((cs ++ [d, c]).foldl (Syncs.submit env) (.start env)).db s) := by
  let hello : List SourcePackageReport := [package "hello" "https://hello"]
  let first : List Submission := [archReport "amd64" hello]
  let c : Submission := archReport "arm64" hello
  let d : Submission := archReport "amd64" []
  let x : Syncs := (first ++ [c, d]).foldl (Syncs.submit (openDaemon none)) (.start (openDaemon none))
  have hunseen : ¬ IsSeen x.db ⟨"hello", "1.0", "debian", none, none⟩ := by
    rintro ⟨row, hrow, -, hseen⟩
    have hall : x.db.sourcePackages.rows.all (!·.seenInLastSync) = true := by decide +kernel
    have := List.all_eq_true.mp hall row hrow
    rw [hseen] at this
    cases this
  refine ⟨fun h => hunseen ?_, fun h => hunseen ?_⟩
  · exact (h (openDaemon none) (first ++ [c, d]) _).mpr ⟨"arm64", by decide +kernel⟩
  · refine (h (openDaemon none) first c d (by decide) _).mpr ?_
    have hany : (((first ++ [d, c]).foldl (Syncs.submit (openDaemon none))
        (Syncs.start (openDaemon none))).db.sourcePackages.rows.any fun row => row.seenInLastSync &&
          row.identity == ⟨"hello", "1.0", "debian", none, none⟩) = true := by decide +kernel
    obtain ⟨row, hrow, hboth⟩ := List.any_eq_true.mp hany
    rw [Bool.and_eq_true, beq_iff_eq] at hboth
    exact ⟨row, hrow, hboth.2, hboth.1⟩

/-- Reports about different architectures can come in either order. -/
theorem seenFlags_comm {x x₁ x₂ : Syncs} {r r' : PackageReport} (hne : r.scope ≠ r'.scope)
    (h₁ : SeenFlags x₁) (h₂ : SeenFlags x₂) (hlog₁ : x₁.log = r' :: r :: x.log)
    (hlog₂ : x₂.log = r :: r' :: x.log) (s : SourceIdentity) : IsSeen x₁.db s ↔ IsSeen x₂.db s := by
  rw [h₁ s, h₂ s, hlog₁, hlog₂]
  refine exists_congr fun a => ?_
  unfold listedFor
  simp only [current_cons]
  by_cases hr : r.scope = s.scope a
  · have hr' : r'.scope ≠ s.scope a := fun h => hne (hr.trans h.symm)
    simp [hr, hr']
  · simp [hr]

end Rebuilderd.Daemon
