import Rebuilderd.Daemon.SharedHistory
import Rebuilderd.Daemon.Shown

/-!
Whether a binary package that is shown as good was rebuilt: the artifacts that were handed out with
the job behind the rebuild, next to what the listings make of that rebuild.

The listings match artifacts and binary packages by name, and fall back to the status of the
rebuild. So a binary package is also shown as good if it was added to a build input after a good
rebuild, or has only its name in common with what was rebuilt.
-/

namespace Rebuilderd.Daemon

open Rebuilderd.Lib Rebuilderd.Common Prog

/-! ### A ledger of jobs -/

/-- The database, the jobs handed out so far with their workers, and for each build log the
artifacts of the job that it and its rebuilds are from. -/
structure Ledger where
  db : Db
  handed : List (String × QueuedJobWithArtifacts)
  producedBy : ℕ → List QueuedJobArtifact

/-- A request, and the job it is about if it is a report. -/
abbrev LedgerStep := Request × QueuedJobWithArtifacts

namespace Ledger

def start (env : Env) : Ledger := ⟨env.start, [], fun _ => []⟩

def next (env : Env) (l : Ledger) (c : LedgerStep) : Ledger where
  db := served env l.db c.1
  handed :=
    match c.1.1, (serve (exec env) (handler env.config) l.db c.1).1 with
    | .requestWork h _, .ok (.assignment (some job)) => (h.worker, job) :: l.handed
    | _, _ => l.handed
  producedBy :=
    match c.1.1 with
    | .submitRebuildReport _ _ => Function.update l.producedBy (l.db.buildLogs.seq + 1) c.2.artifacts
    | _ => l.producedBy

/-- The binary package was among the artifacts of the job. -/
def hasArtifact (artifacts : List QueuedJobArtifact) (name version : String) : Bool :=
  artifacts.any fun a => a.name == name && a.version == version

/-- A binary package is shown as good only if the rebuild shown has a good artifact of its name,
and it was among the artifacts of the job that produced the rebuild. -/
def GoodIsProduced (l : Ledger) : Prop :=
  ∀ b ∈ shownBinaryPackages l.db, b.status = some .good →
    ∃ r ∈ l.db.rebuilds.rows, b.buildId = some r.id ∧
      (∃ a ∈ l.db.rebuildArtifacts.rows, a.rebuildId = r.id ∧ a.name = b.name ∧
        a.status = some .good) ∧
      hasArtifact (l.producedBy r.buildLogId) b.name b.version = true

instance (l : Ledger) : Decidable l.GoodIsProduced :=
  inferInstanceAs (Decidable (∀ b ∈ shownBinaryPackages l.db, _))

/-- A worker reports one artifact for each binary package of a job it was handed, or that the build
has failed. -/
def honest (l : Ledger) (c : LedgerStep) : Bool :=
  match c.1.1 with
  | .submitRebuildReport h r => l.handed.contains (h.worker, c.2) && c.2.job.id == r.queueId &&
      (decide ((r.artifacts.map (·.name)).Perm (c.2.artifacts.map (·.name))) ||
        (r.status == .fail && r.artifacts.isEmpty))
  | _ => true

end Ledger

/-! ### When what is shown was produced -/

open Ledger

/-- Build inputs and what their binary packages are called. -/
def Db.offers (db : Db) : List (ℕ × String × String) :=
  db.binaryPackages.rows.map fun p => (p.buildInputId, p.name, p.version)

/-- Each latest record of the history that shows the name as good is from a job that had the binary
package. -/
def vouched (producedBy : ℕ → List QueuedJobArtifact) (past : List Record)
    (name version : String) : Bool :=
  (latestRecords past).all fun rec =>
    !rec.showsGood name || hasArtifact (producedBy rec.buildLogId) name version

/-- The history an imported package has: that of its build input, and if its source package is new
also that of the oldest friend. -/
def importedHistory (now : Time) (first : Option Time) (r : PackageReport) (p : SourcePackageReport)
    (db : Db) : List Record :=
  let (input, imported) := importRows now first r p db
  history db input.id ++ if isNewPackage r p db then friendHistory imported input.id else []

/-- The binary packages that the build input of a package has or is reported to have. -/
def importedBinaries (now : Time) (first : Option Time) (r : PackageReport) (p : SourcePackageReport)
    (db : Db) : List (String × String) :=
  (db.offers.filter (·.1 == (importRows now first r p db).1.id)).map (·.2) ++
    p.artifacts.map fun a => (a.name, a.version)

/-- The history of each package of a report vouches for its binary packages, in the database it is
imported into. -/
def allVouched (c : ScheduleConfig) (T : Ties) (now : Time) (r : PackageReport)
    (producedBy : ℕ → List QueuedJobArtifact) : List SourcePackageReport → Db → Bool
  | [], _ => true
  | p :: ps, db =>
    match c.firstTry now with
    | .error _ => true
    | .ok first =>
      ((importedBinaries now first r p db).all fun b =>
        vouched producedBy (importedHistory now first r p db) b.1 b.2) &&
      match importPackage c T now r db p with
      | .ok db' => allVouched c T now r producedBy ps db'
      | .error _ => true

/-- What a report says about a name. -/
def reportsGood (r : RebuildReport) (name : String) : Bool :=
  verdictGood (some r.status) (r.artifacts.map fun a => (a.name, some a.status)) name

/-- Of each friend that the report is the latest record of, each binary package that it shows as
good was among the artifacts of the job. -/
def reportVouched (db : Db) (r : RebuildReport) (artifacts : List QueuedJobArtifact) : Bool :=
  db.queue.rows.all fun q => q.id != r.queueId ||
    (buildInputFriends db q.buildInputId).all fun i =>
      (history db i).any (fun rec => sqlLt (some (stored r.builtAt)) rec.builtText) ||
        db.offers.all fun b => b.1 != i || !reportsGood r b.2.1 || hasArtifact artifacts b.2.1 b.2.2

/-- The condition on a request. -/
def vouchesForGood (env : Env) (l : Ledger) (c : LedgerStep) : Bool :=
  match c.1 with
  | (.submitPackageReport h r, t) => !Handler.admin env.config h ||
      allVouched env.config.schedule env.ties (t 0) r l.producedBy r.packages
        (markScopedPackagesUnseen r l.db)
  | (.submitRebuildReport _ r, _) => reportVouched l.db r c.2.artifacts
  | _ => true

/-! ### The invariant -/

/-- The record is from a job, which has named its artifacts if it shows them as good. -/
structure Known (producedBy : ℕ → List QueuedJobArtifact) (db : Db) (rec : Record) : Prop where
  log : rec.buildLogId ≤ db.buildLogs.seq
  named : ∀ a ∈ producedBy rec.buildLogId, rec.showsGood a.name = true →
    ∃ b ∈ rec.artifacts, b.name = a.name ∧ b.status = some .good

/-- Every record is from a job, and the histories vouch for the binary packages. -/
structure Accounted (producedBy : ℕ → List QueuedJobArtifact) (db : Db) : Prop where
  fresh : Fresh db
  known : ∀ i, ∀ rec ∈ history db i, Known producedBy db rec
  offered : ∀ b ∈ db.offers, vouched producedBy (history db b.1) b.2.1 b.2.2 = true

section
variable {env : Env} {db db' : Db} {producedBy producedBy' : ℕ → List QueuedJobArtifact}
  {past : List Record} {name version : String}

lemma vouched_iff : vouched producedBy past name version = true ↔
    ∀ rec ∈ latestRecords past, rec.showsGood name = true →
      hasArtifact (producedBy rec.buildLogId) name version = true := by
  simp only [vouched, List.all_eq_true, Bool.or_eq_true, Bool.not_eq_true']
  refine forall₂_congr fun rec _ => ?_
  cases rec.showsGood name <;> simp

lemma Accounted.start (env : Env) : Accounted (fun _ => []) env.start :=
  ⟨.empty _, by simp [history, Env.start, Db.empty], by simp [Db.offers, Env.start, Db.empty]⟩

/-- **What the invariant means for the listings.** -/
lemma Accounted.onlyProduced {l : Ledger} (h : Accounted l.producedBy l.db) : l.GoodIsProduced := by
  intro b hb hgood
  obtain ⟨p, hp, hname, hversion, r, hr, hin, hid, hlatest, hshows⟩ := shown_good hb hgood
  have hvouched := vouched_iff.mp (h.offered (p.buildInputId, p.name, p.version)
    (List.mem_map.mpr ⟨p, hp, rfl⟩)) _ hlatest hshows
  have hknown := h.known p.buildInputId _ (mem_of_mem_latest hlatest)
  obtain ⟨a, ha, hmatch⟩ := List.any_eq_true.mp hvouched
  rw [Bool.and_eq_true, beq_iff_eq, beq_iff_eq] at hmatch
  obtain ⟨c, hc, hcname, hcgood⟩ := hknown.named a ha (hmatch.1.symm ▸ hshows)
  obtain ⟨art, hart, rfl⟩ := List.mem_map.mp hc
  obtain ⟨hart, hartid⟩ := List.mem_filter.mp hart
  refine ⟨r, hr, hid, ⟨art, hart, by simpa using hartid, ?_, hcgood⟩, ?_⟩
  · exact (hcname.trans hmatch.1).trans hname
  · rw [← hname, ← hversion]
    exact hvouched

/-- What is known and vouched for stays so, if no build log is counted for another job. -/
lemma Accounted.congr (h : Accounted producedBy db) (hf : Fresh db')
    (hh : ∀ i, history db' i = history db i) (hl : db'.buildLogs.seq = db.buildLogs.seq)
    (ho : db'.offers = db.offers) (hp : ∀ k ≤ db.buildLogs.seq, producedBy' k = producedBy k) :
    Accounted producedBy' db' := by
  refine ⟨hf, fun i rec hrec => ?_, fun b hb => vouched_iff.mpr fun rec hrec hshows => ?_⟩
  · rw [hh] at hrec
    have hknown := h.known i rec hrec
    refine ⟨hl ▸ hknown.log, fun a ha => hknown.named a ?_⟩
    rwa [hp _ hknown.log] at ha
  · rw [hh] at hrec
    rw [ho] at hb
    rw [hp _ (h.known _ _ (mem_of_mem_latest hrec)).log]
    exact vouched_iff.mp (h.offered b hb) rec hrec hshows

lemma Accounted.of_sameRecords (h : Accounted producedBy db) (hs : SameRecords db db')
    (hp : ∀ k ≤ db.buildLogs.seq, producedBy' k = producedBy k) : Accounted producedBy' db' :=
  h.congr (hs.fresh h.fresh) hs.history (by rw [hs.buildLogs]) (by simp [Db.offers, hs.binaries]) hp

/-! ### Package reports -/

lemma offers_upsertBinary {n : NewBinaryPackage} {b : ℕ × String × String}
    (h : b ∈ (n.upsert db).offers) : b ∈ db.offers ∨ b = (n.buildInputId, n.name, n.version) := by
  obtain ⟨p, hp, rfl⟩ := List.mem_map.mp h
  rcases n.upsert_cases db with ⟨-, -, -, hup⟩ | ⟨-, hup⟩ <;> rw [hup] at hp
  · obtain ⟨p', hp', rfl⟩ := List.mem_map.mp hp
    refine .inl (List.mem_map.mpr ⟨p', hp', ?_⟩)
    split <;> rfl
  · rcases (Table.mem_insert _).mp hp with hp | rfl
    · exact .inl (List.mem_map.mpr ⟨p, hp, rfl⟩)
    · exact .inr rfl

lemma offers_upsertBinaries {r : PackageReport} {input : BuildInput} {b : ℕ × String × String}
    (as : List BinaryPackageReport)
    (h : b ∈ (as.foldl (fun db a => (newBinaryPackage r input a).upsert db) db).offers) :
    b ∈ db.offers ∨ b.1 = input.id ∧ b.2 ∈ as.map fun a => (a.name, a.version) := by
  induction as generalizing db with
  | nil => exact .inl h
  | cons a as ih =>
    rcases ih h with h | ⟨hid, hmem⟩
    · rcases offers_upsertBinary h with h | rfl
      · exact .inl h
      · exact .inr ⟨rfl, by simp [newBinaryPackage]⟩
    · exact .inr ⟨hid, List.mem_cons_of_mem _ hmem⟩

section
variable {now : Time} {first : Option Time} {r : PackageReport} {p : SourcePackageReport}

/-- An import adds the artifacts of the package to its build input. -/
lemma offers_importWithHistory {b : ℕ × String × String}
    (h : b ∈ (importWithHistory now first r p db).2.offers) : b ∈ db.offers ∨
      b.1 = (importRows now first r p db).1.id ∧ b.2 ∈ p.artifacts.map fun a => (a.name, a.version) := by
  have hrows : b ∈ (importRows now first r p db).2.offers := by
    unfold importWithHistory at h
    dsimp only at h
    split at h
    · have hcopy := copyExistingRebuilds_frame (g := Db.offers) (fun _ _ => rfl) (fun _ _ => rfl)
        (importRows now first r p db).1.id (importRows now first r p db).2
      rwa [hcopy] at h
    · exact h
  exact (offers_upsertBinaries (r := r) p.artifacts hrows :)

/-- An imported history is one that was there before, or two after each other. -/
lemma history_importWithHistory (hf : Fresh db) (i : ℕ) :
    history (importWithHistory now first r p db).2 i =
      if i = (importRows now first r p db).1.id then importedHistory now first r p db
      else history db i := by
  rw [(importWithHistory_history now first r p hf).2]
  unfold importedHistory
  dsimp only
  by_cases hi : (importRows now first r p db).1.id = i
  · subst hi
    by_cases hnew : isNewPackage r p db = true <;> simp [hnew, importWithHistory]
  · rw [if_neg fun hcopy => hi hcopy.1, if_neg (Ne.symm hi), List.append_nil]

lemma mem_importedHistory {rec : Record} (h : rec ∈ importedHistory now first r p db) :
    ∃ i, rec ∈ history db i := by
  unfold importedHistory at h
  dsimp only at h
  rcases List.mem_append.mp h with h | h
  · exact ⟨_, h⟩
  · split at h
    · unfold friendHistory at h
      split at h
      · rw [importRows_history] at h
        exact ⟨_, h⟩
      · cases h
    · cases h

lemma Accounted.import (h : Accounted producedBy db)
    (hc : ((importedBinaries now first r p db).all fun b =>
      vouched producedBy (importedHistory now first r p db) b.1 b.2) = true) :
    Accounted producedBy (importWithHistory now first r p db).2 := by
  have hlogs : (importWithHistory now first r p db).2.buildLogs = db.buildLogs := by
    unfold importWithHistory
    dsimp only
    rw [← (importRows_frame now first r p db).1.buildLogs]
    split
    · exact copyExistingRebuilds_frame (g := Db.buildLogs) (fun _ _ => rfl) (fun _ _ => rfl) _ _
    · rfl
  refine ⟨(importWithHistory_history now first r p h.fresh).1, fun i rec hrec => ?_, fun b hb => ?_⟩
  · have hold : ∃ j, rec ∈ history db j := by
      rw [history_importWithHistory h.fresh] at hrec
      split at hrec
      · exact mem_importedHistory hrec
      · exact ⟨i, hrec⟩
    obtain ⟨j, hj⟩ := hold
    have hknown := h.known j rec hj
    exact ⟨hlogs ▸ hknown.log, hknown.named⟩
  · rw [history_importWithHistory h.fresh]
    split
    · rename_i hid
      refine List.all_eq_true.mp hc b.2 (List.mem_append.mpr ?_)
      rcases offers_importWithHistory hb with hold | ⟨-, hmem⟩
      · exact .inl (List.mem_map.mpr ⟨b, List.mem_filter.mpr ⟨hold, by simpa using hid⟩, rfl⟩)
      · exact .inr hmem
    · rename_i hid
      rcases offers_importWithHistory hb with hold | ⟨hself, -⟩
      · exact h.offered b hold
      · exact absurd hself hid

lemma accounted_packages {c : ScheduleConfig} {T : Ties} {ps : List SourcePackageReport}
    (h : Accounted producedBy db) (hc : allVouched c T now r producedBy ps db = true)
    (hok : ps.foldlM (importPackage c T now r) db = .ok db') : Accounted producedBy db' := by
  induction ps generalizing db with
  | nil =>
    cases hok
    exact h
  | cons p ps ih =>
    rw [List.foldlM_cons] at hok
    rcases himp : importPackage c T now r db p with e | db₁
    · rw [himp] at hok
      cases hok
    · obtain ⟨first, hfirst, henq⟩ := importPackage_ok himp
      rw [himp] at hok
      rw [allVouched, hfirst, himp] at hc
      obtain ⟨hp, hrest⟩ := Bool.and_eq_true_iff.mp hc
      exact ih ((h.import hp).of_sameRecords (sameRecords_enqueueImported henq) fun _ _ => rfl)
        hrest hok

lemma Accounted.commit {c : ScheduleConfig} {T : Ties} (h : Accounted producedBy db)
    (hc : allVouched c T now r producedBy r.packages (markScopedPackagesUnseen r db) = true)
    (hok : commitPackageReport c T now r db = .ok db') : Accounted producedBy db' := by
  obtain ⟨db₁, hfold, rfl⟩ := commitPackageReport_ok hok
  have hoffers : (markScopedPackagesUnseen r db).offers = db.offers :=
    Table.map_rows_update _ fun _ _ _ => rfl
  have hmark : Accounted producedBy (markScopedPackagesUnseen r db) :=
    h.congr (h.fresh.congr rfl rfl le_rfl) (fun _ => rfl) rfl hoffers fun _ _ => rfl
  have hend := accounted_packages hmark hc hfold
  exact hend.congr (hend.fresh.congr rfl rfl le_rfl) (fun _ => rfl) rfl rfl fun _ _ => rfl

end

/-! ### Rebuild reports -/

/-- A worker that is honest has named the artifacts of its job if it shows them as good. -/
lemma named_of_honest {r : RebuildReport} {artifacts : List QueuedJobArtifact}
    (h : (r.artifacts.map (·.name)).Perm (artifacts.map (·.name)) ∨
      r.status = .fail ∧ r.artifacts = []) :
    ∀ a ∈ artifacts, reportsGood r a.name = true → ∃ b ∈ r.artifacts, b.name = a.name ∧ b.status = .good := by
  intro a ha hgood
  unfold reportsGood verdictGood at hgood
  rw [Bool.or_eq_true, List.any_map, List.all_map, List.any_eq_true, Bool.and_eq_true,
    List.all_eq_true] at hgood
  rcases h with hnames | ⟨hfail, hnone⟩
  · have hmem : a.name ∈ r.artifacts.map (·.name) := hnames.mem_iff.mpr (List.mem_map.mpr ⟨a, ha, rfl⟩)
    obtain ⟨b, hb, hname⟩ := List.mem_map.mp hmem
    rcases hgood with ⟨c, hc, hcgood⟩ | ⟨hnot, -⟩
    · simp only [Function.comp, Option.map_some, Option.some_or, Bool.and_eq_true, beq_iff_eq,
        Option.some.injEq] at hcgood
      refine ⟨c, hc, hcgood.1, ?_⟩
      have hstatus := hcgood.2
      cases hst : c.status <;> rw [hst] at hstatus <;> first | rfl | cases hstatus
    · exact absurd hname (by simpa using hnot b hb)
  · rw [hnone, hfail] at hgood
    simp at hgood

lemma recordOf_showsGood (r : RebuildReport) (q : Queued) (log : ℕ) (logs : Handler.ArtifactLogs)
    (name : String) : (recordOf r q log logs).showsGood name = reportsGood r name := by
  unfold Record.showsGood reportsGood recordOf
  rw [List.map_map]
  rfl

lemma Accounted.report {r : RebuildReport} {q : Queued} {artifacts : List QueuedJobArtifact}
    (h : Accounted producedBy db) (hrec : Recorded r q db db') (hq : q ∈ db.queue.rows)
    (hid : q.id = r.queueId)
    (hnamed : ∀ a ∈ artifacts, reportsGood r a.name = true →
      ∃ b ∈ r.artifacts, b.name = a.name ∧ b.status = .good)
    (hc : reportVouched db r artifacts = true) :
    Accounted (Function.update producedBy (db.buildLogs.seq + 1) artifacts) db' := by
  obtain ⟨logs, hlogs⟩ := hrec.history
  have hold {k : ℕ} (hk : k ≤ db.buildLogs.seq) :
      Function.update producedBy (db.buildLogs.seq + 1) artifacts k = producedBy k :=
    Function.update_of_ne (by omega) _ _
  refine ⟨hrec.fresh, fun i rec hmem => ?_, fun b hb => vouched_iff.mpr fun rec hmem hshows => ?_⟩
  · rw [hlogs] at hmem
    rcases List.mem_append.mp hmem with hmem | hmem
    · have hknown := h.known i rec hmem
      refine ⟨hknown.log.trans (hrec.buildLogs ▸ Nat.le_succ _), fun a ha => hknown.named a ?_⟩
      rwa [hold hknown.log] at ha
    · split at hmem
      · obtain rfl := List.mem_singleton.mp hmem
        refine ⟨hrec.buildLogs.ge, fun a ha hshows => ?_⟩
        rw [recordOf_showsGood] at hshows
        rw [recordOf, Function.update_self] at ha
        obtain ⟨b, hb, hname, hgood⟩ := hnamed a ha hshows
        exact ⟨content logs b, List.mem_map.mpr ⟨b, hb, rfl⟩, hname, congrArg some hgood⟩
      · cases hmem
  · have hb' : b ∈ db.offers := by
      rw [Db.offers, hrec.binaries] at hb
      exact hb
    rw [hlogs] at hmem
    rcases latest_append hmem with hmem | ⟨hmem, hlatest⟩
    · rw [hold (h.known _ _ (mem_of_mem_latest hmem)).log]
      exact vouched_iff.mp (h.offered b hb') rec hmem hshows
    · split at hmem
      · rename_i hfriend
        obtain rfl := List.mem_singleton.mp (mem_of_mem_latest hmem)
        rw [recordOf_showsGood] at hshows
        rw [recordOf, Function.update_self]
        have hrow := List.all_eq_true.mp hc q hq
        rw [hid, bne_self_eq_false, Bool.false_or] at hrow
        have hfriends := List.all_eq_true.mp hrow b.1 hfriend
        have hnone : (history db b.1).any (fun rec => sqlLt (some (stored r.builtAt)) rec.builtText) = false :=
          List.any_eq_false.mpr fun y hy => by rw [Bool.not_eq_true]; exact hlatest y hy
        rw [hnone, Bool.false_or] at hfriends
        have hall := List.all_eq_true.mp hfriends b hb'
        rwa [bne_self_eq_false, Bool.false_or, hshows, Bool.not_true, Bool.false_or] at hall
      · cases hmem

/-! ### Results that are forgotten -/

/-- The record is kept, or its results are forgotten. -/
def Fades (rec rec' : Record) : Prop := rec' = rec ∨ rec' = rec.forget

/-- Results were forgotten, and nothing else. -/
structure Faded (db db' : Db) : Prop extends SamePackages db db' where
  buildLogs : db'.buildLogs = db.buildLogs
  fresh : Fresh db → Fresh db'
  history : ∀ i, List.Forall₂ Fades (history db i) (history db' i)

lemma Fades.trans {x y z : Record} (h : Fades x y) (h' : Fades y z) : Fades x z := by
  rcases h with rfl | rfl
  · exact h'
  · rcases h' with rfl | rfl
    · exact .inr rfl
    · exact .inr (by simp [Record.forget])

lemma Faded.of_sameRecords (h : SameRecords db db') : Faded db db' :=
  ⟨h.toSamePackages, h.buildLogs, h.fresh, fun i => by
    rw [h.history]
    exact List.forall₂_same.mpr fun _ _ => .inl rfl⟩

lemma forall₂_fades_trans {xs ys zs : List Record} (h : List.Forall₂ Fades xs ys)
    (h' : List.Forall₂ Fades ys zs) : List.Forall₂ Fades xs zs := by
  induction h generalizing zs with
  | nil => exact h'
  | cons hxy _ ih =>
    obtain ⟨z, zs, hyz, hrest, rfl⟩ := List.forall₂_cons_left_iff.mp h'
    exact .cons (hxy.trans hyz) (ih hrest)

lemma Faded.trans {db'' : Db} (h : Faded db db') (h' : Faded db' db'') : Faded db db'' :=
  ⟨h.toSamePackages.trans h'.toSamePackages, h'.buildLogs.trans h.buildLogs, h'.fresh ∘ h.fresh,
    fun i => forall₂_fades_trans (h.history i) (h'.history i)⟩

lemma artifactsOf_resetArtifacts (k : ℕ) (db : Db) (j : ℕ) :
    artifactsOf (resetArtifacts k db) j =
      (artifactsOf db j).map fun a => if j = k then { a with status := none } else a := by
  unfold artifactsOf resetArtifacts
  dsimp only
  rw [Table.rows_update, List.filter_map, List.map_map, List.map_map]
  have hfilter : db.rebuildArtifacts.rows.filter ((fun a => a.rebuildId == j) ∘ fun a =>
      if (a.rebuildId == k) = true then { a with status := none } else a) =
        db.rebuildArtifacts.rows.filter (·.rebuildId == j) := by
    refine List.filter_congr fun a _ => ?_
    dsimp only [Function.comp]
    split <;> rfl
  rw [hfilter]
  refine List.map_congr_left fun a ha => ?_
  obtain rfl : a.rebuildId = j := by simpa using (List.mem_filter.mp ha).2
  dsimp only [Function.comp]
  by_cases hk : a.rebuildId = k <;> simp [hk, RebuildArtifact.content]

lemma faded_reset (k : ℕ) (db : Db) : Faded db (resetArtifacts k (resetRebuild k db)) := by
  refine ⟨⟨rfl, rfl, rfl, rfl⟩, rfl, fun hf => ⟨fun a ha => ?_, fun r hr => ?_⟩, fun i => ?_⟩
  · obtain ⟨a', ha', rfl⟩ := List.mem_map.mp ha
    split <;> exact hf.artifacts a' ha'
  · obtain ⟨r', hr', rfl⟩ := List.mem_map.mp hr
    split <;> exact hf.rebuilds r' hr'
  · have hrows : (resetArtifacts k (resetRebuild k db)).rebuilds.rows.filter (·.buildInputId == i) =
        (db.rebuilds.rows.filter (·.buildInputId == i)).map fun r =>
          if (r.id == k) = true then { r with status := none } else r := by
      change (db.rebuilds.rows.map fun r => if (r.id == k) = true then { r with status := none }
        else r).filter _ = _
      rw [List.filter_map]
      refine congrArg _ (List.filter_congr fun r _ => ?_)
      dsimp only [Function.comp]
      split <;> rfl
    unfold history
    rw [hrows, List.map_map, List.forall₂_map_right_iff, List.forall₂_map_left_iff]
    have hartifacts (j : ℕ) : artifactsOf (resetArtifacts k (resetRebuild k db)) j =
        (artifactsOf db j).map fun a => if j = k then { a with status := none } else a :=
      artifactsOf_resetArtifacts k (resetRebuild k db) j
    refine List.forall₂_same.mpr fun r _ => ?_
    dsimp only [Function.comp]
    by_cases hk : r.id = k
    · right
      simp [hk, hartifacts, Rebuild.record, Record.forget]
    · left
      simp [hk, hartifacts, Rebuild.record]

/-- `request_rebuild` forgets results, and does nothing else to packages and histories. -/
lemma served_requestRebuild (env : Env) (db : Db) (h : Headers) (r : QueueJobRequest)
    (t : ℕ → Time) : Faded db (served env db (.requestRebuild h r, t)) := by
  have hsame {α : Type} {p : Handler α} (hp : Only (fun s => s.keepsRecords = true) p) :
      Keeps (exec env).rules (Faded db) p := by
    refine hp.keeps fun x i s hs hx => ⟨trivial, fun r y hy => ?_⟩
    have hkeep := exec_sameRecords env i hs x
    rw [show (exec env).answer i s x = (r, y) from hy] at hkeep
    exact hx.trans (.of_sameRecords hkeep)
  have hreset (id : ℕ) : Keeps (exec env).rules (Faded db) (Handler.resetLatestRebuild id) := by
    intro x hx
    refine (wp_bind _ _).mpr (wp_stmt_run (fun i o y hE => ?_) fun i e hE => hx)
    cases hE
    split
    · rename_i k _
      refine (wp_bind _ _).mpr (wp_stmt_run (fun i u y hE => ?_) fun i e hE => hx)
      cases hE
      refine wp_stmt_run (fun i u y hE => ?_) fun i e hE => ?_
      · cases hE
        exact hx.trans (faded_reset k x)
      · cases hE
    · exact hx
  have hkeeps : Keeps (exec env).rules (Faded db) (Handler.requestRebuild env.config h r) := by
    unfold Handler.requestRebuild
    split
    · exact .pure _
    · refine .bind (hsame (.stmt rfl)) fun matched => .bind (hsame (.stmt rfl)) fun now =>
        .bind (.lift _) fun next => .bind (.foldlM (fun _ id _ => ?_) ()) fun _ => .pure _
      refine .bind ?_ fun _ => .bind (hsame (.stmt rfl)) fun _ => hsame (.stmt rfl)
      split
      · exact hreset id
      · exact .pure _
  obtain ⟨hok, herr⟩ := run_of_wp (hkeeps db (.of_sameRecords (.refl db))) t
  change Faded db ((Handler.requestRebuild env.config h r).run (exec env) t db).2
  rcases hres : ((Handler.requestRebuild env.config h r).run (exec env) t db).1 with e | a
  · exact herr e hres
  · exact hok a hres

lemma Accounted.of_faded (h : Accounted producedBy db) (hf : Faded db db') :
    Accounted producedBy db' := by
  refine ⟨hf.fresh h.fresh, fun i rec hmem => ?_, fun b hb => vouched_iff.mpr fun rec hmem hshows => ?_⟩
  · obtain ⟨j, hj, rfl⟩ := List.mem_iff_getElem.mp hmem
    have hj' : j < (history db i).length := (hf.history i).length_eq ▸ hj
    have hfades := (hf.history i).get hj' hj
    have hknown := h.known i _ (List.getElem_mem hj')
    simp only [List.get_eq_getElem] at hfades
    rcases hfades with hsame | hforgot
    · rw [hsame]
      exact ⟨hf.buildLogs ▸ hknown.log, hknown.named⟩
    · rw [hforgot]
      refine ⟨hf.buildLogs ▸ hknown.log, fun a _ hshows => ?_⟩
      rw [forget_showsGood] at hshows
      cases hshows
  · have hb' : b ∈ db.offers := by
      rw [Db.offers, hf.binaries] at hb
      exact hb
    have hbuilt (x y : Record) (hxy : Fades x y) : y.builtText = x.builtText := by
      rcases hxy with rfl | rfl <;> rfl
    obtain ⟨x, hx, rfl | rfl⟩ := latest_forall₂ hbuilt (hf.history b.1) hmem
    · exact vouched_iff.mp (h.offered b hb') _ hx hshows
    · rw [forget_showsGood] at hshows
      cases hshows

/-! ### Runs -/

lemma served_forbidden {h : Headers} {r : PackageReport} {t : ℕ → Time}
    (hadmin : Handler.admin env.config h = false) :
    served env db (.submitPackageReport h r, t) = db := by
  unfold served serve
  simp only [handler, Handler.submitPackageReport, hadmin]
  rfl

/-- **What one request keeps.** -/
lemma Accounted.next {l : Ledger} {c : LedgerStep} (h : Accounted l.producedBy l.db)
    (hhonest : l.honest c = true) (hc : vouchesForGood env l c = true) :
    Accounted (l.next env c).producedBy (l.next env c).db := by
  obtain ⟨⟨c, t⟩, job⟩ := c
  cases c with
  | submitPackageReport hd r =>
    change Accounted l.producedBy (served env l.db (.submitPackageReport hd r, t))
    rcases Bool.eq_false_or_eq_true (Handler.admin env.config hd) with hadmin | hadmin
    · rcases served_packageReport env l.db hd r t with hsame | hok
      · rw [hsame]
        exact h
      · refine h.commit ?_ hok
        simpa [vouchesForGood, hadmin] using hc
    · rw [served_forbidden hadmin]
      exact h
  | submitRebuildReport hd r =>
    change Accounted (Function.update l.producedBy (l.db.buildLogs.seq + 1) job.artifacts)
      (served env l.db (.submitRebuildReport hd r, t))
    rcases served_rebuildReport env l.db h.fresh hd r t with hsame | ⟨q, hq, hid, hrec⟩
    · exact h.of_sameRecords hsame fun k hk => Function.update_of_ne (by omega) _ _
    · refine h.report hrec hq hid (named_of_honest ?_) hc
      simp only [Ledger.honest, Bool.and_eq_true, Bool.or_eq_true, decide_eq_true_eq, beq_iff_eq,
        List.isEmpty_iff] at hhonest
      exact hhonest.2
  | requestRebuild hd r =>
    change Accounted l.producedBy (served env l.db (.requestRebuild hd r, t))
    exact h.of_faded (served_requestRebuild env l.db hd r t)
  | requestWork | pingJob | dropQueuedJobs | dropQueuedJob =>
    exact h.of_sameRecords (served_sameRecords env l.db t (keepsRecords_of_justified rfl))
      fun _ _ => rfl

end

/-- **Whatever is shown as good was rebuilt**, in every run in which binary packages are added only
to histories that vouch for them, and reports are recorded only for binary packages of their job. -/
theorem goodIsProduced (env : Env) (l : Ledger)
    (h : Runs (Ledger.next env) (fun l c => (l.honest c && vouchesForGood env l c) = true)
      (Ledger.start env) l) : l.GoodIsProduced := by
  refine Accounted.onlyProduced (h.inv (I := fun l => Accounted l.producedBy l.db) (.start env) ?_)
  intro l c _ hl hc
  obtain ⟨hhonest, hvouches⟩ := Bool.and_eq_true_iff.mp hc
  exact hl.next hhonest hvouches

/-! ### An artifact that is added after the rebuild -/

/-- `hello` with these artifacts. -/
def helloWith (names : List String) : Call :=
  .submitPackageReport adminHeaders (debianReport [{ package "hello" "https://hello" with
    artifacts := names.map fun n => ⟨n, "1.0", "amd64", "https://pool/" ++ n⟩ }])

def helloBuild : QueuedJobWithArtifacts where
  job :=
    { id := 1
      name := "hello"
      version := "1.0"
      distribution := "debian"
      release := none
      component := none
      architecture := "amd64"
      backend := "debian"
      url := "https://hello"
      nextRetry := none
      priority := Priority.default
      queuedAt := 0
      startedAt := none }
  artifacts := [⟨"hello", "1.0", "amd64", "https://pool/hello"⟩]

/-- `hello` is imported, rebuilt and imported again, then with these artifacts. -/
def importedAgain (names : List String) : List LedgerStep :=
  (atOnce [helloWith ["hello"],
    .requestWork (workerHeaders "alice") ⟨["debian"], "amd64", ["amd64"]⟩,
    .submitRebuildReport (workerHeaders "alice") ⟨1, 0, [], .good, [⟨"hello", none, none, .good⟩]⟩,
    helloWith names]).map fun c => (c, helloBuild)

theorem goodIsProduced_importedAgain :
    ((importedAgain ["hello"]).foldl (Ledger.next (openDaemon none)) (.start (openDaemon none))).GoodIsProduced ∧
      (shownBinaryPackages ((importedAgain ["hello"]).foldl (Ledger.next (openDaemon none))
        (.start (openDaemon none))).db).map (·.status) = [some .good] :=
  ⟨goodIsProduced (openDaemon none) _ (Runs.of_allowed (by decide +kernel)), by decide +kernel⟩

/-- **A binary package that is added after a good rebuild is shown as good**, though nothing was
rebuilt for it. -/
theorem addedArtifact_good : ¬ ∀ env l,
    Runs (Ledger.next env) (fun l c => (l.honest c && c.1.1.isRoutine) = true) (Ledger.start env) l →
      l.GoodIsProduced := by
  intro h
  have hrun : Runs.allowed (Ledger.next (openDaemon none)) (fun l c => l.honest c && c.1.1.isRoutine)
    (.start (openDaemon none)) (importedAgain ["hello", "hello-doc"]) = true := by decide +kernel
  have hproduced := h (openDaemon none) _ (Runs.of_allowed hrun)
  have hnot : ¬ ((importedAgain ["hello", "hello-doc"]).foldl (Ledger.next (openDaemon none))
    (.start (openDaemon none))).GoodIsProduced := by decide +kernel
  exact hnot hproduced

end Rebuilderd.Daemon
