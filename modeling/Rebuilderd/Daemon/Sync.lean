import Rebuilderd.Daemon.Runs

/-!
What a package report does to the queue.

The decision to enqueue is taken package by package, against a queue from which nothing has been
removed yet; the unclaimed jobs of packages that stayed unseen are dropped at the end.
-/

namespace Rebuilderd.Daemon

open Rebuilderd.Lib Rebuilderd.Common

/-! ### Rows in the scope of a report -/

/-- The build input of the queue row lies in the scope of the report. -/
def InScope (r : PackageReport) (db : Db) (q : Queued) : Prop :=
  ∃ b ∈ db.buildInputs.rows, b.id = q.buildInputId ∧ b.architecture = r.architecture ∧
    ∃ s ∈ db.sourcePackages.rows, s.id = b.sourcePackageId ∧ s.inOriginOf r = true

/-- The name and the version of the source package are listed in the report. -/
def Listed (r : PackageReport) (s : SourcePackage) : Prop :=
  ∃ p ∈ r.packages, s.name = p.name ∧ s.version = p.version

/-- The queue row is new, unclaimed, and of a build input of a listed package. -/
def NewJob (r : PackageReport) (db₀ db : Db) (q : Queued) : Prop :=
  db₀.queue.seq < q.id ∧ q.worker = none ∧
    ∃ p ∈ r.packages, ∃ b ∈ db.buildInputs.rows, ∃ s ∈ db.sourcePackages.rows,
      b.id = q.buildInputId ∧ s.id = b.sourcePackageId ∧
        b.group = ⟨p.url, r.distribution, r.architecture⟩ ∧
        s.name = p.name ∧ s.version = p.version ∧ s.inOriginOf r = true

/-- The state of a sync between marking and dropping, in terms of the database before it. -/
structure Syncing (r : PackageReport) (db₀ db : Db) : Prop where
  seq : db₀.queue.seq ≤ db.queue.seq
  kept : ∀ q ∈ db₀.queue.rows, q ∈ db.queue.rows
  rows : ∀ q ∈ db.queue.rows, q ∈ db₀.queue.rows ∨ NewJob r db₀ db q
  seen : ∀ i g, ∀ s ∈ db.sourcePackages.rows, (i, s.id, g) ∈ db.inputs → s.inOriginOf r = true →
    g.architecture = r.architecture → s.seenInLastSync = true → Listed r s
  unseen : ∀ i g, ∀ s ∈ db.sourcePackages.rows, (i, s.id, g) ∈ db.inputs →
    s.seenInLastSync = false → (i, s.id, g) ∈ db₀.inputs ∧
      ∃ s₀ ∈ db₀.sourcePackages.rows, s₀.id = s.id ∧ s₀.name = s.name ∧ s₀.version = s.version ∧
        s₀.inOriginOf r = s.inOriginOf r
  inputs : ∀ x ∈ db₀.inputs, x ∈ db.inputs
  sources : ∀ s₀ ∈ db₀.sourcePackages.rows, ∃ s ∈ db.sourcePackages.rows, s.id = s₀.id ∧
    s.name = s₀.name ∧ s.version = s₀.version ∧ (s₀.inOriginOf r = true → s.inOriginOf r = true)

section
variable {r : PackageReport} {db₀ db db' : Db}

/-- A job of a listed package stays one when another package is imported. -/
lemma NewJob.imported {p : SourcePackageReport} {input : BuildInput} {q : Queued}
    (h : NewJob r db₀ db q) (himp : Imported r p db input db') : NewJob r db₀ db' q := by
  obtain ⟨hlt, hw, p', hp', b, hb, s, hs, hid, hsid, hgroup, hname, hversion, horigin⟩ := h
  have hb' : (b.id, b.sourcePackageId, b.group) ∈ db'.inputs :=
    himp.keeps_inputs (mem_inputs.mpr ⟨b, hb, rfl, rfl, rfl⟩)
  obtain ⟨b', hb', hbid, hbs, hbg⟩ := mem_inputs.mp hb'
  obtain ⟨s', hs', hsid', hname', hversion', hor⟩ := himp.sources.kept s hs
  refine ⟨hlt, hw, p', hp', b', hb', s', hs', hbid.trans hid, ?_, hbg.trans hgroup,
    hname'.trans hname, hversion'.trans hversion, ?_⟩
  · rw [hsid', hsid, hbs]
  · rcases hor with rfl | hfrom
    · exact horigin
    · exact hfrom.origin

lemma syncing_mark (r : PackageReport) (db : Db) : Syncing r db (markScopedPackagesUnseen r db) := by
  refine ⟨le_rfl, fun _ h => h, fun _ h => .inl h, fun i g s hs hi horigin harch hseen => ?_,
    fun i g s hs hi hunseen => ⟨hi, ?_⟩, fun _ h => h,
    fun s₀ hs₀ => ⟨_, List.mem_map.mpr ⟨s₀, hs₀, rfl⟩, ?_⟩⟩
  · -- A package in scope has just been marked as unseen.
    obtain ⟨s₀, hs₀, rfl⟩ := List.mem_map.mp hs
    split at hseen
    · cases hseen
    · rename_i hnot
      rw [if_neg hnot] at hi horigin
      obtain ⟨b, hb, rfl, hbs, rfl⟩ := mem_inputs.mp hi
      exfalso
      refine hnot ?_
      simp only [List.contains_iff_mem, List.mem_map, scopedBuildInputs, List.mem_filter,
        Bool.and_eq_true, beq_iff_eq, List.any_eq_true, Bool.and_true]
      exact ⟨b, ⟨hb, harch, s₀, hs₀, hbs.symm, horigin⟩, hbs⟩
  · obtain ⟨s₀, hs₀, rfl⟩ := List.mem_map.mp hs
    refine ⟨s₀, hs₀, ?_⟩
    split <;> exact ⟨rfl, rfl, rfl, rfl⟩
  · split <;> exact ⟨rfl, rfl, rfl, id⟩

/-- Importing one package keeps the state of a sync. -/
lemma syncing_import {c : ScheduleConfig} {T : Ties} {now : Time} {p : SourcePackageReport}
    (hp : p ∈ r.packages) (h : Syncing r db₀ db) (hok : importPackage c T now r db p = .ok db') :
    Syncing r db₀ db' := by
  obtain ⟨first, -, henq⟩ := importPackage_ok hok
  have himp := importWithHistory_imported now first r p db
  have hqueue := (importWithHistory_frame now first r p db).queue
  generalize importWithHistory now first r p db = out at himp hqueue henq
  obtain ⟨input, db₁⟩ := out
  dsimp only at himp hqueue henq
  have hinput : (input.id, input.sourcePackageId, input.group) ∈ db₁.inputs :=
    mem_inputs.mpr ⟨input, himp.stored, rfl, rfl, rfl⟩
  obtain ⟨⟨hsources, hinputs⟩, hq⟩ := enqueueImported_queue hinput henq
  obtain ⟨src, hsrc, hsrcid, hfrom⟩ := himp.source
  -- A source package that was not written now is an old one, and so are its build inputs.
  have hold (i : ℕ) (g : Group) (s : SourcePackage) (hs : s ∈ db₁.sourcePackages.rows)
      (hi : (i, s.id, g) ∈ db₁.inputs) :
      s.IsFrom r p ∨ (s ∈ db.sourcePackages.rows ∧ (i, s.id, g) ∈ db.inputs) := by
    rcases himp.sources.from_ s hs with hs₀ | hs₀
    · rcases himp.inputs with hin | hin
      · exact .inr ⟨hs₀, hin ▸ hi⟩
      · rw [hin] at hi
        rcases List.mem_append.mp hi with hi | hi
        · exact .inr ⟨hs₀, hi⟩
        · have hsid : s.id = input.sourcePackageId := by
            simp only [List.mem_singleton, BuildInput.identity, Prod.mk.injEq] at hi
            exact hi.2.1
          rw [Table.eq_of_key hs hsrc (hsid.trans hsrcid.symm)]
          exact .inl hfrom
    · exact .inl hs₀
  -- Jobs that were new before the import are new after it.
  have hnew (q : Queued) (hq : q ∈ db.queue.rows) : q ∈ db₀.queue.rows ∨ NewJob r db₀ db' q := by
    refine (h.rows q hq).imp_right fun hj => ?_
    obtain ⟨hlt, hw, p', hp', b, hb, s, hs, hid, hsid, hgroup, hrest⟩ := hj.imported himp
    obtain ⟨b', hb', hbid, hbs, hbg⟩ := mem_inputs.mp
      (hinputs ▸ mem_inputs.mpr ⟨b, hb, rfl, rfl, rfl⟩ :
        (b.id, b.sourcePackageId, b.group) ∈ db'.inputs)
    exact ⟨hlt, hw, p', hp', b', hb', s, hsources ▸ hs, hbid.trans hid, hsid.trans hbs.symm,
      hbg.trans hgroup, hrest⟩
  refine ⟨?_, fun q hq₀ => ?_, fun q hq' => ?_, fun i g s hs hi horigin harch hseen => ?_,
    fun i g s hs hi hunseen => ?_, fun x hx => ?_, fun s₀ hs₀ => ?_⟩
  · rcases hq with hq | ⟨priority, hq⟩ <;> rw [hq]
    · rw [hqueue]; exact h.seq
    · exact Nat.le_succ_of_le (hqueue ▸ h.seq)
  · rcases hq with hq | ⟨priority, hq⟩ <;> rw [hq]
    · rw [hqueue]; exact h.kept q hq₀
    · exact List.mem_append_left _ (hqueue ▸ h.kept q hq₀)
  · rcases hq with hq | ⟨priority, hq⟩ <;> rw [hq] at hq'
    · exact hnew q (hqueue ▸ hq')
    · rcases List.mem_append.mp hq' with hq' | hq'
      · exact hnew q (hqueue ▸ hq')
      · rw [List.mem_singleton.mp hq']
        obtain ⟨b', hb', hbid, hbs, hbg⟩ := mem_inputs.mp (hinputs ▸ hinput)
        refine .inr ⟨Nat.lt_succ_of_le (hqueue ▸ h.seq), rfl, p, hp, b', hb', src, hsources ▸ hsrc,
          hbid, hsrcid.trans hbs.symm, hbg.trans himp.group, hfrom.name, hfrom.version, hfrom.origin⟩
  · rw [hsources] at hs
    rw [hinputs] at hi
    rcases hold i g s hs hi with hf | ⟨hs, hi⟩
    · exact ⟨p, hp, hf.name, hf.version⟩
    · exact h.seen i g s hs hi horigin harch hseen
  · rw [hsources] at hs
    rw [hinputs] at hi
    rcases hold i g s hs hi with hf | ⟨hs, hi⟩
    · rw [hf.seen] at hunseen
      cases hunseen
    · exact h.unseen i g s hs hi hunseen
  · rw [hinputs]
    exact himp.keeps_inputs (h.inputs x hx)
  · obtain ⟨s, hs, hid, hname, hversion, hor⟩ := h.sources s₀ hs₀
    obtain ⟨s', hs', hid', hname', hversion', hsame⟩ := himp.sources.kept s hs
    refine ⟨s', hsources ▸ hs', hid'.trans hid, hname'.trans hname, hversion'.trans hversion,
      fun horigin => ?_⟩
    rcases hsame with rfl | hf
    · exact hor horigin
    · exact hf.origin

/-- A row is dropped if it is unclaimed and its build input is of an unseen package in scope. -/
lemma mem_dropUnseen {q : Queued} : q ∈ (dropUnseenScopedJobs r db).queue.rows ↔
    q ∈ db.queue.rows ∧ ¬ (q.worker = none ∧ ∃ b ∈ db.buildInputs.rows, b.id = q.buildInputId ∧
      b.architecture = r.architecture ∧ ∃ s ∈ db.sourcePackages.rows, s.id = b.sourcePackageId ∧
        s.inOriginOf r = true ∧ s.seenInLastSync = false) := by
  rw [dropUnseenScopedJobs, Table.mem_delete]
  refine and_congr_right fun _ => ?_
  rw [← Bool.not_eq_true, not_iff_not]
  simp only [Bool.and_eq_true, Option.isNone_iff_eq_none, List.contains_iff_mem, List.mem_map,
    scopedBuildInputs, List.mem_filter, beq_iff_eq, List.any_eq_true, Bool.not_eq_true']
  refine and_congr_right fun _ => exists_congr fun b => ?_
  tauto

/-- A report that commits is a sync followed by the drop. -/
lemma syncing_of_commit {c : ScheduleConfig} {T : Ties} {now : Time}
    (h : commitPackageReport c T now r db = .ok db') :
    ∃ db₁, Syncing r db db₁ ∧ db' = dropUnseenScopedJobs r db₁ := by
  obtain ⟨db₁, hfold, rfl⟩ := commitPackageReport_ok h
  exact ⟨db₁, foldlM_ok (I := fun _ d => Syncing r db d) hfold (syncing_mark r db)
    fun _ p d d' hp hd hok => syncing_import hp hd hok, rfl⟩

/-- The unclaimed jobs in scope that a report leaves are of packages it lists. -/
lemma unclaimed_listed {c : ScheduleConfig} {T : Ties} {now : Time} {q : Queued} {b : BuildInput}
    {s : SourcePackage} (h : commitPackageReport c T now r db = .ok db') (hq : q ∈ db'.queue.rows)
    (hw : q.worker = none) (hb : b ∈ db'.buildInputs.rows) (hbid : b.id = q.buildInputId)
    (harch : b.architecture = r.architecture) (hs : s ∈ db'.sourcePackages.rows)
    (hsid : s.id = b.sourcePackageId) (horigin : s.inOriginOf r = true) : Listed r s := by
  obtain ⟨db₁, hsync, rfl⟩ := syncing_of_commit h
  obtain ⟨-, hkeep⟩ := mem_dropUnseen.mp hq
  have hseen : s.seenInLastSync = true := by
    by_contra hunseen
    exact hkeep ⟨hw, b, hb, hbid, harch, s, hs, hsid, horigin, by simpa using hunseen⟩
  exact hsync.seen b.id b.group s hs (mem_inputs.mpr ⟨b, hb, rfl, hsid.symm, rfl⟩) horigin harch hseen

end

/-- **A sync changes the queue only as intended.** After a package report, (a) every unclaimed
row in its scope is of a listed package; (b) every row that was claimed, or outside the scope, is
still there, unchanged; (c) every other row is an old one, unchanged, or a new one for a build
input of a listed package. -/
theorem commitPackageReport_queue (c : ScheduleConfig) (T : Ties) (now : Time) (r : PackageReport)
    (db db' : Db) (h : commitPackageReport c T now r db = .ok db') :
    (∀ q ∈ db'.queue.rows, q.worker = none → ∀ b ∈ db'.buildInputs.rows, b.id = q.buildInputId →
      b.architecture = r.architecture → ∀ s ∈ db'.sourcePackages.rows, s.id = b.sourcePackageId →
        s.inOriginOf r = true → Listed r s) ∧
      (∀ q ∈ db.queue.rows, q.worker ≠ none ∨ ¬ InScope r db q ∨ ¬ InScope r db' q →
        q ∈ db'.queue.rows) ∧
      ∀ q ∈ db'.queue.rows, q ∈ db.queue.rows ∨ NewJob r db db' q := by
  refine ⟨fun q hq hw b hb hbid harch s hs hsid horigin =>
    unclaimed_listed h hq hw hb hbid harch hs hsid horigin, ?_⟩
  obtain ⟨db₁, hsync, rfl⟩ := syncing_of_commit h
  refine ⟨fun q hq hor => ?_, fun q hq => ?_⟩
  · refine mem_dropUnseen.mpr ⟨hsync.kept q hq, ?_⟩
    rintro ⟨hw, b, hb, hbid, harch, s, hs, hsid, horigin, hunseen⟩
    rcases hor with hw' | hout | hout
    · exact hw' hw
    · -- The package was not imported, so it was in scope before.
      obtain ⟨hi, s₀, hs₀, hs₀id, -, -, hs₀or⟩ := hsync.unseen b.id b.group s hs
        (mem_inputs.mpr ⟨b, hb, rfl, hsid.symm, rfl⟩) hunseen
      obtain ⟨b₀, hb₀, hb₀id, hb₀s, hb₀g⟩ := mem_inputs.mp hi
      refine hout ⟨b₀, hb₀, hb₀id.trans hbid, ?_, s₀, hs₀, hs₀id.trans hb₀s.symm, hs₀or.trans horigin⟩
      exact (congrArg Group.architecture hb₀g).trans harch
    · exact hout ⟨b, hb, hbid, harch, s, hs, hsid, horigin⟩
  · exact hsync.rows q (mem_dropUnseen.mp hq).1

/-- A report without `hello` leaves its claimed job alone; the other job is a new one. -/
theorem commitPackageReport_queue_claimed :
    ∃ db', commitPackageReport (openDaemon none).config.schedule .inOrder 0
        (debianReport [package "world" "https://world"])
        (runPool (openDaemon none) handedOut).state = .ok db' ∧
      db'.queue.rows.map (·.worker) = [some 1, none] ∧
      (∀ q ∈ (runPool (openDaemon none) handedOut).state.queue.rows, q.worker ≠ none →
        q ∈ db'.queue.rows) ∧
      ∀ q ∈ db'.queue.rows, q ∈ (runPool (openDaemon none) handedOut).state.queue.rows ∨
        NewJob (debianReport [package "world" "https://world"])
          (runPool (openDaemon none) handedOut).state db' q := by
  obtain ⟨db', h, hw⟩ : ∃ db', commitPackageReport (openDaemon none).config.schedule .inOrder 0
      (debianReport [package "world" "https://world"])
      (runPool (openDaemon none) handedOut).state = .ok db' ∧
        decide (db'.queue.rows.map (·.worker) = [some 1, none]) = true :=
    exists_ok (by decide +kernel)
  obtain ⟨-, hkept, hnew⟩ := commitPackageReport_queue (openDaemon none).config.schedule .inOrder 0
    (debianReport [package "world" "https://world"]) _ db' h
  exact ⟨db', h, of_decide_eq_true hw, fun q hq hq' => hkept q hq (.inl hq'), hnew⟩

end Rebuilderd.Daemon
