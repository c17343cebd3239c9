import Rebuilderd.Daemon.Peers
import Rebuilderd.Daemon.SeenBinaries
import Rebuilderd.Daemon.Provenance
import Rebuilderd.Daemon.Dashboard

/-!
The listing of the binary packages: each with the latest rebuild of its build input, and the
artifact of that rebuild that has the package's name.

Names of artifacts need not be unique within a rebuild, and a package is listed once for each
artifact of its name.
-/

namespace Rebuilderd.Daemon

open Rebuilderd.Lib Rebuilderd.Common

/-! ### Filters -/

structure BinaryIdentityFilter where
  name : Option String
  searchType : SearchType
  version : Option String
  sourceName : Option String

structure DisagreementFilter where
  hasDisagreement : Option Bool
  peer : List String

def BinaryIdentityFilter.accepts (f : BinaryIdentityFilter) (row : BinaryRow) : Bool :=
  (match f.name with
    | some n =>
      match f.searchType with
      | .exact => row.package.name == n
      | .contains => like ("%" ++ n ++ "%").toList row.package.name.toList
      | .startsWith => like (n ++ "%").toList row.package.name.toList
    | none => true) &&
  (match f.version with
    | some v => row.package.version == v
    | none => true) &&
  (match f.sourceName with
    | some n => row.source.name == n
    | none => true)

/-- The text of an artifact's status in the database. -/
def artifactStatusText (s : ArtifactStatus) : String := statusText s.toBuild

/-- The status filter on the status of the latest rebuild and that of the artifact. -/
def StatusFilter.selects (f : StatusFilter) (rebuild : Option BuildStatus)
    (artifact : Option ArtifactStatus) : Bool :=
  match f.status with
  | none => true
  | some statuses =>
    if statuses.isEmpty then true
    else
      let statusValues := statuses.map toUppercase
      let hasUnkwn := statusValues.any (· == "UNKWN")
      let hasFail := statusValues.any (· == "FAIL")
      let artifactStatuses := statusValues.filter fun s => s != "UNKWN" && s != "FAIL"
      let hasArtifacts := !artifactStatuses.isEmpty
      let unknown := rebuild.isNone
      let fail := rebuild == some .fail
      let ofArtifact := artifact.any fun s => artifactStatuses.contains (artifactStatusText s)
      match hasUnkwn, hasFail, hasArtifacts with
      | true, true, true => unknown || fail || ofArtifact
      | true, true, false => unknown || fail
      | true, false, true => unknown || ofArtifact
      | true, false, false => unknown
      | false, true, true => fail || ofArtifact
      | false, true, false => fail
      | false, false, true => ofArtifact
      | false, false, false => true

/-- The ids of the peers of the request, loaded before the query if it asks for disagreements. -/
def peerIds (o : OriginFilter) (f : DisagreementFilter) (y : PeerDb) : Option (List ℕ) :=
  if f.hasDisagreement.isSome then
    some ((y.peerRebuilders.rows.filter fun p =>
      o.architecture.all (p.architecture == ·) && o.distribution.all (p.distribution == ·) &&
        (f.peer.isEmpty || f.peer.any fun u => like ("%" ++ u ++ "%").toList p.url.toList)).map (·.id))
  else none

/-- The check is of the name and the version of the package. -/
def PeerSha256Check.isOf (c : PeerSha256Check) (row : BinaryRow) : Bool :=
  c.binaryName == row.package.name && c.binaryVersion == row.package.version

def DisagreementFilter.accepts (o : OriginFilter) (f : DisagreementFilter) (y : PeerDb)
    (row : BinaryRow) : Bool :=
  match f.hasDisagreement with
  | none => true
  | some flag =>
    match peerIds o f y with
    | some ids =>
      (y.peerSha256Checks.rows.any fun c => c.isOf row && ids.contains c.peerRebuilderId) == flag
    | none =>
      (y.peerSha256Checks.rows.any fun c => c.isOf row && y.peerRebuilders.rows.any fun p =>
        p.id == c.peerRebuilderId && p.architecture == row.package.architecture) == flag

structure BinaryFilters where
  origin : OriginFilter
  identity : BinaryIdentityFilter
  freshness : FreshnessFilter
  status : StatusFilter
  disagreement : DisagreementFilter

/-- All filters but those of the status and of disagreements. -/
def BinaryFilters.matches (f : BinaryFilters) (row : BinaryRow) : Bool :=
  OriginFilter.accepts f.origin row.source row.package.architecture && f.identity.accepts row &&
    row.package.seenInLastSync == f.freshness.seenOnly.getD true

def BinaryFilters.accepts (f : BinaryFilters) (y : PeerDb) (row : BinaryRow) : Bool :=
  f.matches row && f.disagreement.accepts f.origin y row &&
    f.status.selects (row.rebuild.bind (·.status)) (row.artifact.bind (·.status))

/-! ### The listing -/

/-- The records the filters select. -/
def binaryQuery (f : BinaryFilters) (y : PeerDb) : List BinaryPackageRecord :=
  ((binaryRows y.packages).filter (f.accepts y)).map binaryRecord

def binaryId (r : BinaryPackageRecord) : ℤ := r.id

/-- The columns of `binary_packages_base`; those of the rebuild, and the second id and status, have
no names of their own. -/
def binaryColumn : String → Option (BinaryPackageRecord → Option SqlValue)
  | "id" => some fun r => some (Sum.inlₗ r.id)
  | "name" => some fun r => some (Sum.inrₗ r.name)
  | "version" => some fun r => some (Sum.inrₗ r.version)
  | "distribution" => some fun r => some (Sum.inrₗ r.distribution)
  | "release" => some fun r => r.release.map Sum.inrₗ
  | "component" => some fun r => r.component.map Sum.inrₗ
  | "architecture" => some fun r => some (Sum.inrₗ r.architecture)
  | "artifact_url" => some fun r => some (Sum.inrₗ r.url)
  | "status" => some fun r => r.status.map fun s => Sum.inrₗ (statusText s)
  | "diffoscope_log_id" => some fun r => r.diffoscopeLogId.map fun i => Sum.inlₗ (i : ℤ)
  | "attestation_log_id" => some fun r => r.attestationLogId.map fun i => Sum.inlₗ (i : ℤ)
  | "last_seen" => some fun r => some (Sum.inrₗ (String.ofList (stored r.lastSeen)))
  | "seen_in_last_sync" => some fun r => some (Sum.inlₗ (if r.seenInLastSync then 1 else 0))
  | _ => none

/-- `SELECT count(*)`, with the same filters. -/
def binaryTotal (f : BinaryFilters) (y : PeerDb) : ℕ := (binaryQuery f y).length

/-- What is shown of all pages. -/
def binaryRecords (f : BinaryFilters) (y : PeerDb) : List BinaryPackageRecord :=
  (binaryQuery f y).map BinaryPackageRecord.coalesce

def getBinaryPackages (shuffle : Shuffle BinaryPackageRecord) (page : Page) (f : BinaryFilters)
    (y : PeerDb) : Except QueryError (ResultPage BinaryPackageRecord) := do
  let records ← paginate binaryId binaryColumn page (shuffle.order (binaryQuery f y))
  return ⟨binaryTotal f y, records.map BinaryPackageRecord.coalesce⟩

/-- Request `k` of a walk over the binary packages. -/
def binaryPage (shuffle : ℕ → Shuffle BinaryPackageRecord) (f : BinaryFilters) (limit : ℤ)
    (y : PeerDb) (k : ℕ) (cursor : Option ℤ) : Option (List BinaryPackageRecord) :=
  (getBinaryPackages (shuffle k)
    { limit := some limit, before := none, after := cursor, sort := none, direction := none }
    f y).toOption.map (·.records)


/-! ### The rows of a binary package -/

/-- Every binary package has its source package and its build input. -/
def BinariesLinked (db : Db) : Prop :=
  ∀ p ∈ db.binaryPackages.rows, (∃ s ∈ db.sourcePackages.rows, s.id = p.sourcePackageId) ∧
    ∃ b ∈ db.buildInputs.rows, b.id = p.buildInputId

/-- The artifacts of the latest rebuild that have the package's name. -/
noncomputable def namedArtifacts (db : Db) (p : BinaryPackage) : List RebuildArtifact :=
  db.rebuildArtifacts.rows.filter fun a =>
    (latestRebuild db p.buildInputId).any (·.id == a.rebuildId) && a.name == p.name

section
variable {db : Db}

lemma leftJoin_length {β : Type} (l : List β) (on : β → Bool) :
    (leftJoin l on).length = max 1 (l.filter on).length := by
  by_cases h : l.filter on = []
  · rw [leftJoin_eq_none h, h]
    rfl
  · rw [leftJoin_eq_map h, List.length_map]
    have hpos := List.length_pos_iff.mpr h
    omega

/-- With the anti-join, the rows are those of the latest rebuilds. -/
lemma binaryRows_latest (h : TimesKnown db) : binaryRows db = db.binaryPackages.rows.flatMap fun p =>
    (db.sourcePackages.rows.filter fun s => s.id == p.sourcePackageId).flatMap fun s =>
      (db.buildInputs.rows.filter fun b => b.id == p.buildInputId).flatMap fun b =>
        (leftJoin db.rebuildArtifacts.rows fun a =>
          (latestRebuild db b.id).any (·.id == a.rebuildId) && a.name == p.name).map fun a =>
            ⟨p, s, latestRebuild db b.id, a⟩ := by
  simp only [binaryRows, List.bind_eq_flatMap, List.pure_def]
  refine List.flatMap_congr fun p _ => List.flatMap_congr fun s _ => List.flatMap_congr fun b _ => ?_
  simpa only [Bool.and_true, if_true] using latest_join h b.id
    (fun r1 a => r1.any (·.id == a.rebuildId) && a.name == p.name) (fun _ => true)
    fun r1 a => (⟨p, s, r1, a⟩ : BinaryRow)

/-- A binary package is listed once for each artifact of its name, and at least once. -/
lemma packages_binaryRows (ht : TimesKnown db) (hl : BinariesLinked db) :
    (binaryRows db).map (·.package) = db.binaryPackages.rows.flatMap fun p =>
      List.replicate (max 1 (namedArtifacts db p).length) p := by
  rw [binaryRows_latest ht, List.map_flatMap]
  refine List.flatMap_congr fun p hp => ?_
  obtain ⟨⟨s, hs, hsid⟩, b, hb, hbid⟩ := hl p hp
  have hsource : (db.sourcePackages.rows.filter fun s => s.id == p.sourcePackageId) = [s] := by
    rw [← hsid]
    exact Table.filter_key hs
  have hinput : (db.buildInputs.rows.filter fun b => b.id == p.buildInputId) = [b] := by
    rw [← hbid]
    exact Table.filter_key hb
  rw [hsource, hinput, List.flatMap_singleton, List.flatMap_singleton, List.map_map, hbid]
  refine List.eq_replicate_iff.mpr ⟨?_, fun p' hp' => ?_⟩
  · rw [List.length_map, leftJoin_length]
    rfl
  · obtain ⟨a, -, rfl⟩ := List.mem_map.mp hp'
    rfl

/-- The artifacts are known by name, as far as the listing needs it. -/
def ListedByName (b : Bool) (db : Db) : Prop :=
  ∀ p ∈ db.binaryPackages.rows, p.seenInLastSync = b → (namedArtifacts db p).length ≤ 1

def seenPackages (b : Bool) (db : Db) : List BinaryPackage :=
  db.binaryPackages.rows.filter (·.seenInLastSync == b)

lemma packages_seen (ht : TimesKnown db) (hl : BinariesLinked db) (b : Bool) :
    ((binaryRows db).filter fun row => row.package.seenInLastSync == b).map (·.package) =
      (seenPackages b db).flatMap fun p =>
        List.replicate (max 1 (namedArtifacts db p).length) p := by
  have hfilter := congrArg (List.filter fun p => p.seenInLastSync == b) (packages_binaryRows ht hl)
  rw [List.filter_map] at hfilter
  refine hfilter.trans ?_
  rw [List.filter_flatMap, seenPackages]
  induction db.binaryPackages.rows with
  | nil => rfl
  | cons p ps ih =>
    rw [List.flatMap_cons, ih, List.filter_cons, List.filter_replicate]
    split <;> rfl

/-- There are as many rows as packages exactly if each package has one. -/
lemma length_replicates {α : Type} (l : List α) (n : α → ℕ) :
    (l.flatMap fun a => List.replicate (max 1 (n a)) a).length = l.length ↔ ∀ a ∈ l, n a ≤ 1 := by
  have hge (l : List α) :
      l.length ≤ (l.flatMap fun a => List.replicate (max 1 (n a)) a).length := by
    induction l with
    | nil => simp
    | cons a l ih =>
      rw [List.flatMap_cons, List.length_append, List.length_replicate, List.length_cons]
      omega
  induction l with
  | nil => simp
  | cons a l ih =>
    rw [List.flatMap_cons, List.length_append, List.length_replicate, List.length_cons,
      List.forall_mem_cons]
    have hrest := hge l
    constructor
    · intro h
      exact ⟨by omega, ih.mp (by omega)⟩
    · rintro ⟨ha, hl⟩
      have hsame := ih.mpr hl
      omega

/-! ### Each binary package once -/

/-- Only the flag is filtered. -/
def seenIs (b : Bool) : BinaryFilters :=
  ⟨⟨none, none, none, none⟩, ⟨none, .exact, none, none⟩, ⟨some b⟩, ⟨none⟩, ⟨none, []⟩⟩

/-- A walk over all pages shows each binary package with the flag `b` once, and the total is their
number. -/
def ListsOnce (shuffle : ℕ → Shuffle BinaryPackageRecord) (limit : ℤ) (b : Bool) (y : PeerDb) : Prop :=
  (∃ result, Yields (binaryPage shuffle (seenIs b) limit y) binaryId result ∧
    (result.map (·.id)).Perm ((seenPackages b y.packages).map (·.id))) ∧
  binaryTotal (seenIs b) y = (seenPackages b y.packages).length

lemma ids_binaryQuery (b : Bool) (y : PeerDb) (ht : TimesKnown y.packages)
    (hl : BinariesLinked y.packages) : (binaryQuery (seenIs b) y).map (·.id) =
      ((seenPackages b y.packages).flatMap fun p =>
        List.replicate (max 1 (namedArtifacts y.packages p).length) p).map (·.id) := by
  rw [← packages_seen ht hl, binaryQuery, List.map_map, List.map_map]
  congr 1
  refine List.filter_congr fun row _ => ?_
  simp [seenIs, BinaryFilters.accepts, BinaryFilters.matches, OriginFilter.accepts,
    BinaryIdentityFilter.accepts, DisagreementFilter.accepts, StatusFilter.selects]

lemma coalesce_id (r : BinaryPackageRecord) : r.coalesce.id = r.id := by
  unfold BinaryPackageRecord.coalesce
  split <;> rfl

/-- What a walk yields are records of the query. -/
lemma binaryPage_eq (shuffle : ℕ → Shuffle BinaryPackageRecord) (f : BinaryFilters) {limit : ℤ}
    (h : 1 ≤ limit) (y : PeerDb) (k : ℕ) (cursor : Option ℤ) :
    ∃ shown : List BinaryPackageRecord, binaryPage shuffle f limit y k cursor =
        some (shown.take limit.toNat) ∧
      shown.Perm ((binaryRecords f y).filter fun r => cursor.all fun c => decide (c < binaryId r)) ∧
      shown.Pairwise fun a b => binaryId a ≤ binaryId b := by
  have hid (r : BinaryPackageRecord) : binaryId r.coalesce = binaryId r :=
    congrArg Nat.cast (coalesce_id r)
  let rows := ((shuffle k).order (binaryQuery f y)).filter fun r =>
    cursor.all fun c => decide (c < binaryId r)
  refine ⟨(orderBy binaryId rows).map BinaryPackageRecord.coalesce, ?_, ?_, ?_⟩
  · rw [← List.map_take]
    simp [binaryPage, getBinaryPackages, paginate, limitRows_some h, Except.toOption, pure,
      Except.pure, bind, Except.bind, rows]
  · refine ((orderBy_perm binaryId rows).map _).trans ?_
    rw [binaryRecords, List.filter_map]
    refine List.Perm.map _ ?_
    refine (((shuffle k).perm _).filter _).trans (.of_eq (List.filter_congr fun r _ => ?_))
    rw [Function.comp, hid]
  · refine List.pairwise_map.mpr ((orderBy_sorted binaryId rows).imp fun hab => ?_)
    rwa [hid, hid]

/-- **Each binary package is listed once exactly if the latest rebuild has at most one artifact of
its name.** -/
lemma listsOnce_iff (shuffle : ℕ → Shuffle BinaryPackageRecord) {limit : ℤ} (h : 1 ≤ limit) (b : Bool)
    (y : PeerDb) (ht : TimesKnown y.packages) (hl : BinariesLinked y.packages) :
    ListsOnce shuffle limit b y ↔ ListedByName b y.packages := by
  have hids := ids_binaryQuery b y ht hl
  have htotal : binaryTotal (seenIs b) y = (seenPackages b y.packages).length ↔
      ListedByName b y.packages := by
    have hlength := congrArg List.length hids
    rw [List.length_map, List.length_map] at hlength
    rw [binaryTotal, hlength, length_replicates]
    simp [ListedByName, seenPackages]
  refine ⟨fun hall => htotal.mp hall.2, fun hnamed => ⟨?_, htotal.mpr hnamed⟩⟩
  have honce : (seenPackages b y.packages).flatMap (fun p =>
      List.replicate (max 1 (namedArtifacts y.packages p).length) p) = seenPackages b y.packages := by
    have hone (p : BinaryPackage) (hp : p ∈ seenPackages b y.packages) :
        List.replicate (max 1 (namedArtifacts y.packages p).length) p = [p] := by
      obtain ⟨hp, hseen⟩ := List.mem_filter.mp hp
      rw [max_eq_left (hnamed p hp (beq_iff_eq.mp hseen))]
      rfl
    rw [List.flatMap_congr hone, List.flatMap_singleton']
  rw [honce] at hids
  have hrecords : (binaryRecords (seenIs b) y).map (·.id) =
      (seenPackages b y.packages).map (·.id) := by
    rw [← hids, binaryRecords, List.map_map]
    exact List.map_congr_left fun r _ => coalesce_id r
  have hnodup : ((binaryRecords (seenIs b) y).map binaryId).Nodup := by
    have hpackages : ((seenPackages b y.packages).map (·.id)).Nodup :=
      (Table.nodup_keys y.packages.binaryPackages).sublist (List.filter_sublist.map _)
    rw [← hrecords] at hpackages
    have hcast := hpackages.map (Nat.cast_injective : Function.Injective (Nat.cast : ℕ → ℤ))
    rwa [List.map_map] at hcast
  obtain ⟨result, hyields, -, hperm⟩ := yields_rows_iff (n := limit.toNat) (by omega)
    (binaryPage_eq shuffle (seenIs b) h y)
  refine ⟨result, hyields, ?_⟩
  rw [← hrecords]
  exact (hperm.mpr (aligned_of_nodup (by omega) hnodup)).map _

end

/-! ### Every binary package has its source package and its build input -/

section
variable {db db' : Db}

lemma BinariesLinked.grow (h : BinariesLinked db)
    (hs : ∀ s ∈ db.sourcePackages.rows, ∃ s' ∈ db'.sourcePackages.rows, s'.id = s.id)
    (hi : ∀ x ∈ db.inputs, x ∈ db'.inputs)
    (hb : ∀ p' ∈ db'.binaryPackages.rows, (∃ p ∈ db.binaryPackages.rows, p'.columns = p.columns) ∨
      ((∃ s ∈ db'.sourcePackages.rows, s.id = p'.sourcePackageId) ∧
        ∃ b ∈ db'.buildInputs.rows, b.id = p'.buildInputId)) : BinariesLinked db' := by
  intro p' hp'
  rcases hb p' hp' with ⟨p, hp, hcolumns⟩ | hnew
  · simp only [BinaryPackage.columns, Prod.mk.injEq] at hcolumns
    obtain ⟨⟨s, hs₀, hsid⟩, b, hb₀, hbid⟩ := h p hp
    obtain ⟨s', hs', hsid'⟩ := hs s hs₀
    obtain ⟨b', hb', hbid', -⟩ := mem_inputs.mp (hi _ (mem_inputs.mpr ⟨b, hb₀, rfl, rfl, rfl⟩))
    rw [hcolumns.1, hcolumns.2.1]
    exact ⟨⟨s', hs', hsid'.trans hsid⟩, b', hb', hbid'.trans hbid⟩
  · exact hnew

lemma mem_upsertBinaries {r : PackageReport} {input : BuildInput} {as : List BinaryPackageReport}
    {p' : BinaryPackage}
    (h : p' ∈ (as.foldl (fun db a => (newBinaryPackage r input a).upsert db) db).binaryPackages.rows) :
    (∃ p ∈ db.binaryPackages.rows, p'.columns = p.columns) ∨
      p'.sourcePackageId = input.sourcePackageId ∧ p'.buildInputId = input.id := by
  induction as generalizing db with
  | nil => exact .inl ⟨p', h, rfl⟩
  | cons a as ih =>
    rcases ih h with ⟨p, hp, hcolumns⟩ | hnew
    · rcases (newBinaryPackage r input a).upsert_cases db with ⟨-, -, -, hrows⟩ | ⟨-, hrows⟩ <;>
        rw [hrows] at hp
      · obtain ⟨p₀, hp₀, rfl⟩ := List.mem_map.mp hp
        refine .inl ⟨p₀, hp₀, hcolumns.trans ?_⟩
        split <;> rfl
      · rcases List.mem_append.mp hp with hp | hp
        · exact .inl ⟨p, hp, hcolumns⟩
        · rw [List.mem_singleton.mp hp] at hcolumns
          simp only [BinaryPackage.columns, Prod.mk.injEq] at hcolumns
          exact .inr ⟨hcolumns.1, hcolumns.2.1⟩
    · exact .inr hnew

/-- An import keeps the binary packages or writes those of its build input. -/
lemma mem_importPackage {c : ScheduleConfig} {T : Ties} {now : Time} {r : PackageReport}
    {p : SourcePackageReport} (hok : importPackage c T now r db p = .ok db') {p' : BinaryPackage}
    (h : p' ∈ db'.binaryPackages.rows) :
    (∃ p ∈ db.binaryPackages.rows, p'.columns = p.columns) ∨
      (∃ s ∈ db'.sourcePackages.rows, s.id = p'.sourcePackageId) ∧
        ∃ g, (p'.buildInputId, p'.sourcePackageId, g) ∈ db'.inputs := by
  obtain ⟨first, hs, hi, hb⟩ := importPackage_rows hok
  have himp := importRows_imported now first r p db
  rw [hb] at h
  rcases mem_upsertBinaries h with hold | ⟨hsource, hinput⟩
  · have hsame : ((newBuildInput first r p ((newSourcePackage now r p).upsert db).1.id).upsert
        ((newSourcePackage now r p).upsert db).2).2.binaryPackages = db.binaryPackages := by
      rcases (newBuildInput first r p ((newSourcePackage now r p).upsert db).1.id).upsert_cases
        ((newSourcePackage now r p).upsert db).2 with ⟨b, -, -, heq⟩ | ⟨-, heq⟩ <;>
        (rw [heq]; rfl)
    refine .inl ?_
    rw [← hsame]
    exact hold
  · obtain ⟨s, hmem, hid, -⟩ := himp.source
    refine .inr ⟨⟨s, hs ▸ hmem, hid.trans hsource.symm⟩, (importRows now first r p db).1.group, ?_⟩
    rw [hi]
    exact mem_inputs.mpr ⟨_, himp.stored, hinput.symm, hsource.symm, rfl⟩

lemma BinariesLinked.import (h : BinariesLinked db) {c : ScheduleConfig} {T : Ties} {now : Time}
    {r : PackageReport} {p : SourcePackageReport} (hok : importPackage c T now r db p = .ok db') :
    BinariesLinked db' := by
  obtain ⟨first, hs, hi, -⟩ := importPackage_rows hok
  have himp := importRows_imported now first r p db
  refine h.grow (fun s hmem => ?_) (fun x hx => ?_) fun p' hp' => ?_
  · obtain ⟨s', hs', hid, -⟩ := himp.sources.kept s hmem
    exact ⟨s', hs ▸ hs', hid⟩
  · rw [hi]
    exact himp.keeps_inputs hx
  · rcases mem_importPackage hok hp' with hold | ⟨hsource, g, hin⟩
    · exact .inl hold
    · obtain ⟨b, hb, hbid, -⟩ := mem_inputs.mp hin
      exact .inr ⟨hsource, b, hb, hbid⟩

lemma BinariesLinked.mark (h : BinariesLinked db) (r : PackageReport) :
    BinariesLinked (markScopedPackagesUnseen r db) := by
  refine h.grow (fun s hs => ⟨_, List.mem_map.mpr ⟨s, hs, rfl⟩, ?_⟩) (fun _ hx => hx)
    fun p' hp' => .inl ?_
  · split <;> rfl
  · obtain ⟨p, hp, rfl⟩ := List.mem_map.mp hp'
    refine ⟨p, hp, ?_⟩
    split <;> rfl

lemma BinariesLinked.commit (h : BinariesLinked db) {c : ScheduleConfig} {T : Ties} {now : Time}
    {r : PackageReport} (hok : commitPackageReport c T now r db = .ok db') : BinariesLinked db' := by
  obtain ⟨db₁, hf, rfl⟩ := commitPackageReport_ok hok
  have hend : BinariesLinked db₁ :=
    foldlM_ok (I := fun _ d => BinariesLinked d) hf (h.mark r) fun _ p d d' _ hd hp => hd.import hp
  exact hend

/-- No other statement writes binary packages. -/
lemma exec_binaryPackages (env : Env) (t : Time) (s : Stmt) (db : Db) :
    (∃ now r, s = .commitPackageReport now r) ∨
      ((exec env).answer t s db).2.binaryPackages = db.binaryPackages := by
  by_cases hs : s.keepsRecords = true
  · exact .inr (exec_sameRecords env t hs db).binaries
  · cases s with
    | commitPackageReport now r => exact .inl ⟨now, r, rfl⟩
    | insertBuildLog | insertRebuild | insertRebuildArtifact | resetRebuild | resetArtifacts =>
      exact .inr rfl
    | _ => exact absurd rfl hs

lemma exec_binariesLinked (env : Env) (t : Time) (s : Stmt) (db : Db) (h : BinariesLinked db) :
    BinariesLinked ((exec env).answer t s db).2 := by
  rcases exec_binaryPackages env t s db with ⟨now, r, rfl⟩ | hb
  · exact Exec.answer_inv h fun u db' hok => h.commit (exec_commit hok)
  · rcases exec_identities env t s db with ⟨now, r, rfl⟩ | ⟨hs, -⟩
    · exact Exec.answer_inv h fun u db' hok => h.commit (exec_commit hok)
    · exact h.grow (fun s' hs' => ⟨s', hs ▸ hs', rfl⟩) (exec_inputs env t s db)
        fun p' hp' => .inl ⟨p', hb ▸ hp', rfl⟩

/-- Binary packages have their source packages and build inputs in every reachable database. -/
lemma reachable_binariesLinked {env : Env} (h : Reachable env db) : BinariesLinked db := by
  obtain ⟨as, rfl⟩ := h
  have hstart : BinariesLinked env.start := by simp [BinariesLinked, Env.start, Db.empty]
  exact Pool.run_inv (exec_binariesLinked env) hstart as

end

end Rebuilderd.Daemon
