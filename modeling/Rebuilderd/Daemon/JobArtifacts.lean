import Rebuilderd.Daemon.BinaryListing
import Rebuilderd.Daemon.Compat

/-!
The artifacts of a job, as the v0 listing of the queue shows them and as they are handed out.

The listing collects the binary packages of the source package, which has a build input for each of
its architectures; a worker is sent those of the job's own build input.
-/

namespace Rebuilderd.Daemon

open Rebuilderd.Lib Rebuilderd.Common

/-! ### The v0 listing of the queue -/

structure PkgArtifact where
  name : String
  version : String
  url : String
  deriving DecidableEq

structure PkgGroup where
  name : String
  version : String
  distro : String
  suite : String
  architecture : String
  inputUrl : Option String
  artifacts : List PkgArtifact
  deriving DecidableEq

structure QueueItem where
  id : ℕ
  pkgbase : PkgGroup
  version : String
  queuedAt : Time
  workerId : Option ℕ
  startedAt : Option Time
  lastPing : Option Time
  deriving DecidableEq

def intoPkgGroup (s : SourcePackage) (architecture : String) (inputUrl : Option String)
    (artifacts : List PkgArtifact) : PkgGroup where
  name := s.name
  version := s.version
  distro := s.distribution
  suite := s.component.getD ""
  architecture := architecture
  inputUrl := inputUrl
  artifacts := artifacts

def pkgArtifact (p : BinaryPackage) : PkgArtifact := ⟨p.name, p.version, p.artifactUrl⟩

/-- The binary packages of a source package. -/
def sourceArtifacts (id : ℕ) (db : Db) : List PkgArtifact :=
  (db.binaryPackages.rows.filter (·.sourcePackageId == id)).map pkgArtifact

def queueItem (q : Queued) (b : BuildInput) (s : SourcePackage) (db : Db) : QueueItem where
  id := q.id
  pkgbase := intoPkgGroup s b.architecture (some b.url) (sourceArtifacts s.id db)
  version := s.version
  queuedAt := q.queuedAt
  workerId := q.worker
  startedAt := q.startedAt
  lastPing := q.lastPing

def intoQueueItem (q : Queued) (db : Db) : Except Err QueueItem :=
  match db.buildInputs.rows.find? (·.id == q.buildInputId) with
  | none => .error .notFound
  | some b =>
    match db.sourcePackages.rows.find? (·.id == b.sourcePackageId) with
    | none => .error .notFound
    | some s => .ok (queueItem q b s db)

/-- `ORDER BY priority, queued_at, id`. -/
def queueOrder (q : Queued) : ℤ ×ₗ ℤ ×ₗ ℕ := toLex (q.priority, toLex (q.queuedAt, q.id))

/-- A negative limit is none. -/
def limitTo {ρ : Type} (limit : Option ℤ) (rows : List ρ) : List ρ :=
  match limit with
  | none => rows
  | some n => if n < 0 then rows else rows.take n.toNat

def listQueue (limit : Option ℤ) (db : Db) : Except Err (List QueueItem) :=
  (limitTo limit (orderBy queueOrder db.queue.rows)).mapM (intoQueueItem · db)

/-! ### The artifacts that are handed out -/

def handedArtifact (a : QueuedJobArtifact) : PkgArtifact := ⟨a.name, a.version, a.url⟩

/-- The listing shows the row, with the artifacts that are handed out for it. -/
def SameArtifacts (q : Queued) (db : Db) : Prop :=
  ∃ items, listQueue none db = .ok items ∧ ∃ item ∈ items, item.id = q.id ∧
    ∀ a, a ∈ item.pkgbase.artifacts ↔ a ∈ (jobArtifacts q db).map handedArtifact

/-- What the source package has for other build inputs, it also has for that of the row. -/
def OwnArtifacts (q : Queued) (db : Db) : Prop :=
  ∀ b ∈ db.buildInputs.rows, b.id = q.buildInputId → ∀ p ∈ db.binaryPackages.rows,
    p.sourcePackageId = b.sourcePackageId → p.buildInputId ≠ q.buildInputId →
      ∃ p' ∈ db.binaryPackages.rows, p'.buildInputId = q.buildInputId ∧ pkgArtifact p' = pkgArtifact p

/-! ### Every binary package belongs to the source package of its build input -/

def BinariesOwned (db : Db) : Prop :=
  ∀ p ∈ db.binaryPackages.rows, ∃ g, (p.buildInputId, p.sourcePackageId, g) ∈ db.inputs

section
variable {db db' : Db}

lemma BinariesOwned.grow (h : BinariesOwned db) (hi : ∀ x ∈ db.inputs, x ∈ db'.inputs)
    (hb : ∀ p' ∈ db'.binaryPackages.rows, (∃ p ∈ db.binaryPackages.rows, p'.columns = p.columns) ∨
      ∃ g, (p'.buildInputId, p'.sourcePackageId, g) ∈ db'.inputs) : BinariesOwned db' := by
  intro p' hp'
  rcases hb p' hp' with ⟨p, hp, hcolumns⟩ | hnew
  · simp only [BinaryPackage.columns, Prod.mk.injEq] at hcolumns
    obtain ⟨g, hg⟩ := h p hp
    rw [hcolumns.1, hcolumns.2.1]
    exact ⟨g, hi _ hg⟩
  · exact hnew

lemma BinariesOwned.mark (h : BinariesOwned db) (r : PackageReport) :
    BinariesOwned (markScopedPackagesUnseen r db) := by
  refine h.grow (fun _ hx => hx) fun p' hp' => .inl ?_
  obtain ⟨p, hp, rfl⟩ := List.mem_map.mp hp'
  refine ⟨p, hp, ?_⟩
  split <;> rfl

lemma BinariesOwned.commit (h : BinariesOwned db) {c : ScheduleConfig} {T : Ties} {now : Time}
    {r : PackageReport} (hok : commitPackageReport c T now r db = .ok db') : BinariesOwned db' := by
  obtain ⟨db₁, hf, rfl⟩ := commitPackageReport_ok hok
  have hend : BinariesOwned db₁ := by
    refine foldlM_ok (I := fun _ d => BinariesOwned d) hf (h.mark r) fun _ p d d' _ hd hp => ?_
    obtain ⟨first, -, hi, -⟩ := importPackage_rows hp
    refine hd.grow (fun x hx => ?_) fun p' hp' => (mem_importPackage hp hp').imp_right And.right
    rw [hi]
    exact (importRows_imported now first r p d).keeps_inputs hx
  exact hend

lemma exec_binariesOwned (env : Env) (t : Time) (s : Stmt) (db : Db) (h : BinariesOwned db) :
    BinariesOwned ((exec env).answer t s db).2 := by
  rcases exec_binaryPackages env t s db with ⟨now, r, rfl⟩ | hb
  · exact Exec.answer_inv h fun u db' hok => h.commit (exec_commit hok)
  · exact h.grow (exec_inputs env t s db) fun p' hp' => .inl ⟨p', hb ▸ hp', rfl⟩

lemma reachable_binariesOwned {env : Env} (h : Reachable env db) : BinariesOwned db := by
  obtain ⟨as, rfl⟩ := h
  have hstart : BinariesOwned env.start := by simp [BinariesOwned, Env.start, Db.empty]
  exact Pool.run_inv (exec_binariesOwned env) hstart as

/-! ### The two sets of artifacts -/

lemma intoQueueItem_eq {q : Queued} {b : BuildInput} {s : SourcePackage}
    (hb : b ∈ db.buildInputs.rows) (hq : b.id = q.buildInputId) (hs : s ∈ db.sourcePackages.rows)
    (hsb : s.id = b.sourcePackageId) : intoQueueItem q db = .ok (queueItem q b s db) := by
  have hinput : db.buildInputs.rows.find? (·.id == q.buildInputId) = some b := hq ▸ Table.find_key hb
  have hsource : db.sourcePackages.rows.find? (·.id == b.sourcePackageId) = some s :=
    hsb ▸ Table.find_key hs
  unfold intoQueueItem
  rw [hinput]
  dsimp only
  rw [hsource]

lemma intoQueueItem_id {q : Queued} {item : QueueItem} (h : intoQueueItem q db = .ok item) :
    item.id = q.id := by
  unfold intoQueueItem at h
  split at h
  · cases h
  · split at h
    · cases h
    · obtain rfl := Except.ok.inj h
      rfl

/-- A row whose build input is there is shown as an item. -/
lemma intoQueueItem_ok (hs : SourcesExist db) {q : Queued} (hq : HasInput q.buildInputId db) :
    ∃ item, intoQueueItem q db = .ok item := by
  obtain ⟨s, g, hin⟩ := hq
  obtain ⟨b, hb, hbid, hbs, -⟩ := mem_inputs.mp hin
  obtain ⟨s', hs', hsid⟩ := hs _ hin
  exact ⟨_, intoQueueItem_eq hb hbid hs' (hsid.trans hbs.symm)⟩

/-- Every row is shown as an item. -/
lemma listQueue_ok (hq : ∀ q ∈ db.queue.rows, HasInput q.buildInputId db) (hs : SourcesExist db) :
    ∃ items, listQueue none db = .ok items ∧
      ∀ item, item ∈ items ↔ ∃ q ∈ db.queue.rows, intoQueueItem q db = .ok item := by
  have hall : ∀ q ∈ orderBy queueOrder db.queue.rows, ∃ item, intoQueueItem q db = .ok item :=
    fun q hmem => intoQueueItem_ok hs (hq q (mem_orderBy.mp hmem))
  obtain ⟨items, hitems, hmem⟩ := mapM_ok hall
  exact ⟨items, hitems, fun item => (hmem item).trans (by simp only [mem_orderBy])⟩

lemma mem_sourceArtifacts {id : ℕ} {a : PkgArtifact} : a ∈ sourceArtifacts id db ↔
    ∃ p ∈ db.binaryPackages.rows, p.sourcePackageId = id ∧ pkgArtifact p = a := by
  simp [sourceArtifacts, and_assoc]

lemma mem_handed {q : Queued} {a : PkgArtifact} : a ∈ (jobArtifacts q db).map handedArtifact ↔
    ∃ p ∈ db.binaryPackages.rows, p.buildInputId = q.buildInputId ∧ pkgArtifact p = a := by
  simp [jobArtifacts, handedArtifact, pkgArtifact, and_assoc]

/-- The artifacts of a build input are among those of its source package. -/
lemma BinariesOwned.source_eq (h : BinariesOwned db) {p : BinaryPackage}
    (hp : p ∈ db.binaryPackages.rows) {b : BuildInput} (hb : b ∈ db.buildInputs.rows)
    (hpb : p.buildInputId = b.id) : p.sourcePackageId = b.sourcePackageId := by
  obtain ⟨g, hin⟩ := h p hp
  obtain ⟨b', hb', hid, hsource, -⟩ := mem_inputs.mp hin
  rw [← hsource, Table.eq_of_key hb' hb (hid.trans hpb)]

lemma sameArtifacts_iff_own (hq : ∀ q ∈ db.queue.rows, HasInput q.buildInputId db)
    (hs : SourcesExist db) (hown : BinariesOwned db) {q : Queued} (hqmem : q ∈ db.queue.rows) :
    SameArtifacts q db ↔ OwnArtifacts q db := by
  obtain ⟨items, hitems, hmem⟩ := listQueue_ok hq hs
  obtain ⟨_, g, hin⟩ := hq q hqmem
  obtain ⟨b, hb, hbid, rfl, -⟩ := mem_inputs.mp hin
  obtain ⟨s, hsmem, hsid⟩ := hs _ hin
  have hsid : s.id = b.sourcePackageId := hsid
  have hitem : intoQueueItem q db = .ok (queueItem q b s db) := intoQueueItem_eq hb hbid hsmem hsid
  have hlisted (a : PkgArtifact) : a ∈ (queueItem q b s db).pkgbase.artifacts ↔
      ∃ p ∈ db.binaryPackages.rows, p.sourcePackageId = b.sourcePackageId ∧ pkgArtifact p = a :=
    hsid ▸ mem_sourceArtifacts
  constructor
  · rintro ⟨items', hitems', item, hlist, hid, hsame⟩ b' hb' hbid' p hp hps hpq
    obtain rfl := Except.ok.inj (hitems.symm.trans hitems')
    obtain rfl := Table.eq_of_key hb hb' (hbid.trans hbid'.symm)
    obtain ⟨q', hq', hitem'⟩ := (hmem item).mp hlist
    obtain rfl := Table.eq_of_key hq' hqmem ((intoQueueItem_id hitem').symm.trans hid)
    obtain rfl := Except.ok.inj (hitem.symm.trans hitem')
    exact mem_handed.mp ((hsame _).mp ((hlisted _).mpr ⟨p, hp, hps, rfl⟩))
  · intro hcond
    refine ⟨items, hitems, _, (hmem _).mpr ⟨q, hqmem, hitem⟩, rfl, fun a => ?_⟩
    rw [hlisted, mem_handed]
    constructor
    · rintro ⟨p, hp, hps, rfl⟩
      by_cases hpq : p.buildInputId = q.buildInputId
      · exact ⟨p, hp, hpq, rfl⟩
      · exact hcond b hb hbid p hp hps hpq
    · rintro ⟨p, hp, hpq, rfl⟩
      exact ⟨p, hp, hown.source_eq hp hb (hpq.trans hbid.symm), rfl⟩

end

/-- **The listing shows the artifacts that are handed out exactly if the source package has none of
its own for other build inputs.** Whenever the row is handed out, it is with these artifacts. -/
theorem sameArtifacts_iff (env : Env) (db : Db) (h : Reachable env db) (q : Queued)
    (hq : q ∈ db.queue.rows) : (SameArtifacts q db ↔ OwnArtifacts q db) ∧
      ∀ w r t job, (popJob env.ties w r t db).1 = some job → job.job.id = q.id →
        job.artifacts = jobArtifacts q db := by
  refine ⟨sameArtifacts_iff_own (reachable_queueInput h) (reachable_sourcesExist h)
    (reachable_binariesOwned h) hq, fun w r t job hjob hid => ?_⟩
  obtain ⟨⟨q', b, s⟩, hrow, hpop⟩ | hpop := popJob_cases env.ties w r t db <;> rw [hpop] at hjob
  · obtain rfl := Option.some.inj hjob
    rw [Table.eq_of_key (mem_availableJobs hrow).1 hq hid]
  · cases hjob

/-- The same package for two architectures. -/
def bothArchitectures : List Request :=
  atOnce [.submitPackageReport adminHeaders (debianReport [packageWith "hello" ["hello"]]),
    .submitPackageReport adminHeaders
      ⟨"debian", none, none, "arm64", [packageWith "hello" ["hello-arm64"]]⟩]

theorem sameArtifacts_iff_bothArchitectures :
    (SameArtifacts ⟨1, 1, 1, 0, none, none, none⟩
        (bothArchitectures.foldl (served (openDaemon none)) (openDaemon none).start) ↔
      OwnArtifacts ⟨1, 1, 1, 0, none, none, none⟩
        (bothArchitectures.foldl (served (openDaemon none)) (openDaemon none).start)) ∧
      ∀ w r t job, (popJob (openDaemon none).ties w r t
          (bothArchitectures.foldl (served (openDaemon none)) (openDaemon none).start)).1 = some job →
        job.job.id = 1 → job.artifacts = jobArtifacts ⟨1, 1, 1, 0, none, none, none⟩
          (bothArchitectures.foldl (served (openDaemon none)) (openDaemon none).start) :=
  sameArtifacts_iff (openDaemon none) _ (reachable_of_runs (Runs.of_forall fun _ _ => trivial))
    ⟨1, 1, 1, 0, none, none, none⟩ (by decide +kernel)

/-- **A job is listed with the artifacts of another architecture.** -/
theorem otherArchitecture_listed :
    ¬ ∀ env db, Reachable env db → ∀ q ∈ db.queue.rows, SameArtifacts q db := by
  intro h
  have hreach : Reachable (openDaemon none)
      (bothArchitectures.foldl (served (openDaemon none)) (openDaemon none).start) :=
    reachable_of_runs (Runs.of_forall fun _ _ => trivial)
  have hother : ∃ q ∈ (bothArchitectures.foldl (served (openDaemon none)) (openDaemon none).start).queue.rows,
      ∃ b ∈ (bothArchitectures.foldl (served (openDaemon none)) (openDaemon none).start).buildInputs.rows,
        b.id = q.buildInputId ∧
      ∃ p ∈ (bothArchitectures.foldl (served (openDaemon none)) (openDaemon none).start).binaryPackages.rows,
        p.sourcePackageId = b.sourcePackageId ∧ p.buildInputId ≠ q.buildInputId ∧
      ∀ p' ∈ (bothArchitectures.foldl (served (openDaemon none)) (openDaemon none).start).binaryPackages.rows,
        ¬ (p'.buildInputId = q.buildInputId ∧ pkgArtifact p' = pkgArtifact p) := by decide +kernel
  obtain ⟨q, hq, b, hb, hbid, p, hp, hps, hpq, hnone⟩ := hother
  have hown := (sameArtifacts_iff_own (reachable_queueInput hreach) (reachable_sourcesExist hreach)
    (reachable_binariesOwned hreach) hq).mp (h (openDaemon none) _ hreach q hq)
  obtain ⟨p', hp', hsame⟩ := hown b hb hbid p hp hps hpq
  exact hnone p' hp' hsame

end Rebuilderd.Daemon
