import Rebuilderd.Daemon.ArtifactNames

/-!
What the filters of the listing of the binary packages select.

The status a record shows is made of two statuses after the query, while the status filter looks at
one of the two. The filter for disagreements looks at the checks of the peers the request asks for.
-/

namespace Rebuilderd.Daemon

open Rebuilderd.Lib Rebuilderd.Common

/-! ### Rows and their records -/

section
variable {db : Db}

lemma mem_binaryRows {row : BinaryRow} (h : row ∈ binaryRows db) :
    row.package ∈ db.binaryPackages.rows ∧ row.source ∈ db.sourcePackages.rows ∧
      row.source.id = row.package.sourcePackageId ∧ (∀ r ∈ row.rebuild, r ∈ db.rebuilds.rows) ∧
      ∀ a ∈ row.artifact, a ∈ db.rebuildArtifacts.rows := by
  have hjoined {β : Type} {l : List β} {on : β → Bool} {o : Option β} (ho : o ∈ leftJoin l on) :
      ∀ b ∈ o, b ∈ l := by
    rintro b rfl
    obtain ⟨b', hb', -, heq⟩ | ⟨-, heq⟩ := mem_leftJoin.mp ho
    · exact Option.some.inj heq ▸ hb'
    · cases heq
  simp only [binaryRows, List.bind_eq_flatMap, List.mem_flatMap] at h
  obtain ⟨p, hp, s, hs, b, hb, r1, hr1, a, ha, r2, hr2, hrow⟩ := h
  obtain ⟨hs, hid⟩ := List.mem_filter.mp hs
  split at hrow
  · obtain rfl := List.mem_singleton.mp hrow
    exact ⟨hp, hs, beq_iff_eq.mp hid, hjoined hr1, hjoined ha⟩
  · cases hrow

/-- The row that is shown. -/
def shownRecord (row : BinaryRow) : BinaryPackageRecord := (binaryRecord row).coalesce

lemma coalesce_ids (r : BinaryPackageRecord) : r.coalesce.buildId = r.buildId ∧
    r.coalesce.artifactId = r.artifactId := by
  unfold BinaryPackageRecord.coalesce
  split <;> exact ⟨rfl, rfl⟩

/-- The ids of a record tell its row. -/
lemma shownRecord_inj {row row' : BinaryRow} (h : row ∈ binaryRows db) (h' : row' ∈ binaryRows db)
    (heq : shownRecord row = shownRecord row') : row = row' := by
  obtain ⟨hp, hs, hsid, hr, ha⟩ := mem_binaryRows h
  obtain ⟨hp', hs', hsid', hr', ha'⟩ := mem_binaryRows h'
  have hid : row.package.id = row'.package.id := by
    have hids := congrArg BinaryPackageRecord.id heq
    rwa [shownRecord, shownRecord, coalesce_id, coalesce_id] at hids
  have hbuild : row.rebuild.map (·.id) = row'.rebuild.map (·.id) := by
    have hids := congrArg BinaryPackageRecord.buildId heq
    rwa [shownRecord, shownRecord, (coalesce_ids _).1, (coalesce_ids _).1] at hids
  have hartifact : row.artifact.map (·.id) = row'.artifact.map (·.id) := by
    have hids := congrArg BinaryPackageRecord.artifactId heq
    rwa [shownRecord, shownRecord, (coalesce_ids _).2, (coalesce_ids _).2] at hids
  have hkeys {ρ : Type} [Row ρ] {t : Table ρ} {o o' : Option ρ} (ho : ∀ r ∈ o, r ∈ t.rows)
      (ho' : ∀ r ∈ o', r ∈ t.rows) (hmap : o.map key = o'.map key) : o = o' := by
    cases o with
    | none => exact (Option.map_eq_none_iff.mp hmap.symm).symm
    | some r =>
      obtain ⟨r', rfl, hkey⟩ := Option.map_eq_some_iff.mp hmap.symm
      rw [Table.eq_of_key (ho r rfl) (ho' r' rfl) hkey.symm]
  obtain ⟨p, s, r1, a⟩ := row
  obtain ⟨p', s', r1', a'⟩ := row'
  dsimp only at *
  obtain rfl := Table.eq_of_key hp hp' hid
  obtain rfl := Table.eq_of_key hs hs' (hsid.trans hsid'.symm)
  obtain rfl := hkeys hr hr' hbuild
  obtain rfl := hkeys ha ha' hartifact
  rfl

lemma binaryRecords_eq (f : BinaryFilters) (y : PeerDb) :
    binaryRecords f y = ((binaryRows y.packages).filter (f.accepts y)).map shownRecord := by
  rw [binaryRecords, binaryQuery, List.map_map]
  rfl

/-- A filter selects the records with `P` of those the other filters select, exactly if it agrees
with `P` on each of their rows. -/
lemma selects_iff {f g : BinaryFilters} {y : PeerDb} {select : BinaryRow → Bool}
    {P : BinaryPackageRecord → Bool} (hf : ∀ row, f.accepts y row = (g.accepts y row && select row)) :
    (binaryRecords f y).Perm ((binaryRecords g y).filter P) ↔
      ∀ row ∈ binaryRows y.packages, g.accepts y row = true →
        select row = P (shownRecord row) := by
  rw [binaryRecords_eq, binaryRecords_eq, List.filter_map, List.filter_filter,
    map_filter_perm_iff fun _ h _ h' heq => shownRecord_inj h h' heq]
  refine forall₂_congr fun row _ => ?_
  rw [hf, Function.comp]
  cases g.accepts y row <;> simp

/-- A walk shows the selected records if no package has two of them. -/
lemma yields_binaryRecords {g : BinaryFilters} {y : PeerDb}
    (hnodup : ((binaryRecords g y).map (·.id)).Nodup) (shuffle : ℕ → Shuffle BinaryPackageRecord)
    {limit : ℤ} (h : 1 ≤ limit) :
    ∃ result, Yields (binaryPage shuffle g limit y) binaryId result ∧
      result.Perm (binaryRecords g y) := by
  obtain ⟨result, hyields, -, hperm⟩ := yields_rows_iff (n := limit.toNat) (by omega)
    (binaryPage_eq shuffle g h y)
  refine ⟨result, hyields, hperm.mpr (aligned_of_nodup (by omega) ?_)⟩
  have hcast := hnodup.map (Nat.cast_injective : Function.Injective (Nat.cast : ℕ → ℤ))
  rwa [List.map_map] at hcast

end

/-! ### The status filter -/

/-- The record shows a status of `statuses`, where none counts as unknown. -/
def showsOneOf (statuses : List String) (r : BinaryPackageRecord) : Bool :=
  (statuses.map toUppercase).contains (statusText (r.status.getD .unknown))

def BinaryFilters.withStatus (f : BinaryFilters) (statuses : List String) : BinaryFilters :=
  { f with status := ⟨some statuses⟩ }

def BinaryFilters.anyStatus (f : BinaryFilters) : BinaryFilters := { f with status := ⟨none⟩ }

/-- Over all pages, of `limit` records each, the records with the status filter are those without it
that show a status asked for, and the total is their number. -/
def SelectsDisplayed (shuffle shuffle' : ℕ → Shuffle BinaryPackageRecord) (limit : ℤ)
    (f : BinaryFilters) (statuses : List String) (y : PeerDb) : Prop :=
  ∃ selected all, Yields (binaryPage shuffle (f.withStatus statuses) limit y) binaryId selected ∧
    Yields (binaryPage shuffle' f.anyStatus limit y) binaryId all ∧
    selected.Perm (all.filter (showsOneOf statuses)) ∧
    binaryTotal (f.withStatus statuses) y = (all.filter (showsOneOf statuses)).length

/-- The package has no other row, among those that the filters select. -/
def ListedAlone (f : BinaryFilters) (y : PeerDb) (row : BinaryRow) : Prop :=
  (binaryRows y.packages).countP (fun row' => f.accepts y row' && row'.package.id == row.package.id) ≤ 1

/-- The latest rebuild is one that the filter selects whatever its artifacts are. -/
def byRebuild (texts : List String) (rebuild : Option BuildStatus) : Prop :=
  "UNKWN" ∈ texts ∧ rebuild = none ∨ "FAIL" ∈ texts ∧ rebuild = some .fail

/-- The status of the latest rebuild and that of the artifact do not contradict each other, as far
as the texts asked for can tell. -/
def LevelsAgree (texts : List String) (rebuild : Option BuildStatus) : Option ArtifactStatus → Prop
  | none => ∀ s, rebuild = some s → s ≠ .fail → statusText s ∉ texts
  | some .unknown => byRebuild texts rebuild ↔ "UNKWN" ∈ texts
  | some a => byRebuild texts rebuild → artifactStatusText a ∈ texts

lemma statusFilter_selects {statuses : List String} (h : statuses ≠ [])
    (rebuild : Option BuildStatus) (artifact : Option ArtifactStatus) :
    StatusFilter.selects ⟨some statuses⟩ rebuild artifact = true ↔
      byRebuild (statuses.map toUppercase) rebuild ∨
        ∃ a ∈ artifact, a ≠ .unknown ∧ artifactStatusText a ∈ statuses.map toUppercase := by
  have hempty : statuses.isEmpty = false := by simpa using h
  have htexts : statuses.map toUppercase ≠ [] := by simpa using h
  simp only [StatusFilter.selects, hempty, Bool.false_eq_true, if_false]
  generalize statuses.map toUppercase = texts at htexts ⊢
  have hartifact : (artifact.any fun a =>
      (texts.filter fun s => s != "UNKWN" && s != "FAIL").contains (artifactStatusText a)) = true ↔
      ∃ a ∈ artifact, a ≠ .unknown ∧ artifactStatusText a ∈ texts := by
    rw [Option.any_eq_true]
    refine exists_congr fun a => and_congr_right fun _ => ?_
    rw [List.contains_iff_mem, List.mem_filter]
    cases a <;> simp [artifactStatusText, ArtifactStatus.toBuild, statusText]
  have hunkwn : texts.any (· == "UNKWN") = true ↔ "UNKWN" ∈ texts := by simp
  have hfail : texts.any (· == "FAIL") = true ↔ "FAIL" ∈ texts := by simp
  -- A text that is neither of the two is one of an artifact.
  have hsome (hu : texts.any (· == "UNKWN") = false) (hf : texts.any (· == "FAIL") = false) :
      (texts.filter fun s => s != "UNKWN" && s != "FAIL") ≠ [] := by
    have hall : (texts.filter fun s => s != "UNKWN" && s != "FAIL") = texts := by
      refine List.filter_eq_self.mpr fun s hs => ?_
      simpa using And.intro (List.any_eq_false.mp hu s hs) (List.any_eq_false.mp hf s hs)
    rwa [hall]
  rw [byRebuild, ← hartifact, ← hunkwn, ← hfail]
  rcases hu : texts.any (· == "UNKWN") with _ | _ <;>
    rcases hf : texts.any (· == "FAIL") with _ | _ <;>
    rcases hs : texts.filter (fun s => s != "UNKWN" && s != "FAIL") with _ | ⟨t, ts⟩
  · exact absurd hs (hsome hu hf)
  all_goals simp [Option.isNone_iff_eq_none]

/-- The status a record shows: that of the artifact, else that of the rebuild, else unknown. -/
def displayedText (rebuild : Option BuildStatus) (artifact : Option ArtifactStatus) : String :=
  statusText (((artifact.map ArtifactStatus.toBuild).or rebuild).getD .unknown)

lemma showsOneOf_shown (statuses : List String) (row : BinaryRow) :
    showsOneOf statuses (shownRecord row) = true ↔
      displayedText (row.rebuild.bind (·.status)) (row.artifact.bind (·.status)) ∈
        statuses.map toUppercase := by
  rw [showsOneOf, List.contains_iff_mem, shownRecord, BinaryPackageRecord.coalesce, displayedText]
  rcases h : row.artifact.bind (·.status) with _ | a <;> simp [binaryRecord, h]

/-- What the filter selects is what is displayed exactly if the two levels agree. -/
lemma levelsAgree_iff (texts : List String) (rebuild : Option BuildStatus)
    (artifact : Option ArtifactStatus) : LevelsAgree texts rebuild artifact ↔
      ((byRebuild texts rebuild ∨ ∃ a ∈ artifact, a ≠ .unknown ∧ artifactStatusText a ∈ texts) ↔
        displayedText rebuild artifact ∈ texts) := by
  cases artifact with
  | none =>
    rcases rebuild with _ | s
    · simp [LevelsAgree, byRebuild, displayedText, statusText]
    · cases s <;> simp [LevelsAgree, byRebuild, displayedText, statusText]
  | some a =>
    cases a with
    | unknown => simp [LevelsAgree, displayedText, ArtifactStatus.toBuild, statusText]
    | good | bad => simp [LevelsAgree, displayedText, artifactStatusText]

/-- The filter selects a row as displayed exactly if its two levels agree. -/
lemma selects_eq_shows_iff (statuses : List String) (row : BinaryRow) :
    StatusFilter.selects ⟨some statuses⟩ (row.rebuild.bind (·.status))
        (row.artifact.bind (·.status)) = showsOneOf statuses (shownRecord row) ↔
      statuses ≠ [] ∧ LevelsAgree (statuses.map toUppercase) (row.rebuild.bind (·.status))
        (row.artifact.bind (·.status)) := by
  by_cases h : statuses = []
  · subst h
    simp [StatusFilter.selects, showsOneOf]
  · rw [Bool.eq_iff_iff, statusFilter_selects h, showsOneOf_shown, levelsAgree_iff]
    exact (and_iff_right h).symm

section
variable {f g : BinaryFilters} {statuses : List String} {y : PeerDb}

lemma accepts_withStatus (row : BinaryRow) : (f.withStatus statuses).accepts y row =
    (f.anyStatus.accepts y row && StatusFilter.selects ⟨some statuses⟩ (row.rebuild.bind (·.status))
      (row.artifact.bind (·.status))) := by
  simp [BinaryFilters.accepts, BinaryFilters.withStatus, BinaryFilters.anyStatus,
    BinaryFilters.matches, StatusFilter.selects]

/-- The records of all pages together, if one page holds them all. -/
lemma yields_onePage (shuffle : ℕ → Shuffle BinaryPackageRecord) {limit : ℤ} (h : 1 ≤ limit)
    (hlimit : (binaryRecords g y).length ≤ limit) :
    ∃ result, Yields (binaryPage shuffle g limit y) binaryId result ∧
      result.Perm (binaryRecords g y) := by
  obtain ⟨result, hyields, -, hperm⟩ := yields_rows_iff (n := limit.toNat) (by omega)
    (binaryPage_eq shuffle g h y)
  refine ⟨result, hyields, hperm.mpr fun m hm => ?_⟩
  have hle : limit.toNat ≤ (m + 1) * limit.toNat := Nat.le_mul_of_pos_left _ (Nat.succ_pos m)
  omega

/-- The records that show a status asked for are alone with their ids exactly if their rows are. -/
lemma alone_records : Alone binaryId (showsOneOf statuses) (binaryRecords g y) ↔
    ∀ row ∈ binaryRows y.packages, g.accepts y row = true →
      showsOneOf statuses (shownRecord row) = true → ListedAlone g y row := by
  have hcount (row : BinaryRow) : (binaryRecords g y).countP
      (fun r => decide (binaryId r = binaryId (shownRecord row))) =
        (binaryRows y.packages).countP fun row' =>
          g.accepts y row' && row'.package.id == row.package.id := by
    rw [binaryRecords_eq, List.countP_map, List.countP_filter]
    refine List.countP_congr fun row' _ => ?_
    simp [binaryId, shownRecord, coalesce_id, binaryRecord, and_comm]
  simp only [Alone, binaryRecords_eq, List.forall_mem_map, List.mem_filter, and_imp]
  rw [← binaryRecords_eq]
  simp only [hcount, ListedAlone]

/-- The order in which the records to be selected are the last of their ids. -/
def selectedLast (statuses : List String) : Shuffle BinaryPackageRecord where
  order := orderBy fun r => toLex (binaryId r, showsOneOf statuses r.coalesce)
  perm := orderBy_perm _

/-- The pages of one in this order. -/
lemma binaryPage_selectedLast (k : ℕ) (cursor : Option ℤ) : ∃ shown : List BinaryPackageRecord,
    binaryPage (fun _ => selectedLast statuses) g 1 y k cursor = some (shown.take 1) ∧
      shown.Perm ((binaryRecords g y).filter fun r => cursor.all fun c => decide (c < binaryId r)) ∧
      shown.Pairwise fun a b =>
        toLex (binaryId a, showsOneOf statuses a) ≤ toLex (binaryId b, showsOneOf statuses b) := by
  have hid (r : BinaryPackageRecord) : binaryId r.coalesce = binaryId r :=
    congrArg Nat.cast (coalesce_id r)
  let rows := ((selectedLast statuses).order (binaryQuery g y)).filter fun r =>
    cursor.all fun c => decide (c < binaryId r)
  have hrows : rows.Pairwise fun a b => toLex (binaryId a, showsOneOf statuses a.coalesce) ≤
      toLex (binaryId b, showsOneOf statuses b.coalesce) := (orderBy_sorted _ _).filter _
  have hsorted : orderBy binaryId rows = rows := by
    refine List.Pairwise.insertionSort_eq (hrows.imp fun hab => ?_)
    rcases Prod.Lex.toLex_le_toLex.mp hab with hlt | ⟨heq, -⟩
    · exact hlt.le
    · exact heq.le
  refine ⟨rows.map BinaryPackageRecord.coalesce, ?_, ?_, ?_⟩
  · rw [← List.map_take]
    rw [← hsorted]
    simp [binaryPage, getBinaryPackages, paginate, limitRows_some (le_refl 1), Except.toOption, pure,
      Except.pure, bind, Except.bind, rows]
  · rw [binaryRecords, List.filter_map]
    refine List.Perm.map _ ((((selectedLast statuses).perm _).filter _).trans
      (.of_eq (List.filter_congr fun r _ => ?_)))
    rw [Function.comp, hid]
  · exact List.pairwise_map.mpr (hrows.imp fun hab => by rwa [hid, hid])

/-- If the pages of every size show what they should, so do the records as a whole. -/
lemma records_of_displayed (h : ∀ shuffle shuffle' limit, 1 ≤ limit →
      SelectsDisplayed shuffle shuffle' limit f statuses y) :
    (binaryRecords (f.withStatus statuses) y).Perm
      ((binaryRecords f.anyStatus y).filter (showsOneOf statuses)) := by
  obtain ⟨limit, hlimit, hselected, hall⟩ : ∃ limit : ℤ, 1 ≤ limit ∧
      (binaryRecords (f.withStatus statuses) y).length ≤ limit ∧
      (binaryRecords f.anyStatus y).length ≤ limit :=
    ⟨(binaryRecords (f.withStatus statuses) y).length + (binaryRecords f.anyStatus y).length + 1,
      by omega, by omega, by omega⟩
  obtain ⟨selected, all, hyields, hyields', hperm, -⟩ :=
    h (fun _ => unshuffled) (fun _ => unshuffled) limit hlimit
  obtain ⟨selected', hone, hpermSelected⟩ := yields_onePage (fun _ => unshuffled) hlimit hselected
  obtain ⟨all', hone', hpermAll⟩ := yields_onePage (fun _ => unshuffled) hlimit hall
  obtain rfl := hyields.unique hone
  obtain rfl := hyields'.unique hone'
  exact hpermSelected.symm.trans (hperm.trans (hpermAll.filter _))

end

/-- **The status filter selects what is displayed, over pages of any size, exactly if in each row the
other filters select the two levels agree, and one that shows a status asked for is the only row of
its package.** -/
theorem statusFilter_iff (y : PeerDb) (f : BinaryFilters) (statuses : List String) :
    (∀ shuffle shuffle' limit, 1 ≤ limit → SelectsDisplayed shuffle shuffle' limit f statuses y) ↔
      ∀ row ∈ binaryRows y.packages, f.anyStatus.accepts y row = true →
        (statuses ≠ [] ∧ LevelsAgree (statuses.map toUppercase) (row.rebuild.bind (·.status))
          (row.artifact.bind (·.status))) ∧
        (displayedText (row.rebuild.bind (·.status)) (row.artifact.bind (·.status)) ∈
          statuses.map toUppercase → ListedAlone f.anyStatus y row) := by
  have hiff := selects_iff (y := y) (P := showsOneOf statuses)
    (f := f.withStatus statuses) accepts_withStatus
  constructor
  · intro h
    have hrecords := records_of_displayed h
    have halone : Alone binaryId (showsOneOf statuses) (binaryRecords f.anyStatus y) := by
      obtain ⟨selected, all, -, hyields, -, htotal⟩ :=
        h (fun _ => unshuffled) (fun _ => selectedLast statuses) 1 le_rfl
      refine alone_of_yields binaryPage_selectedLast hyields ?_
      rw [← htotal, ← hrecords.length_eq, binaryTotal, binaryRecords, List.length_map]
    intro row hrow hsel
    refine ⟨(selects_eq_shows_iff statuses row).mp (hiff.mp hrecords row hrow hsel), fun hshown => ?_⟩
    exact alone_records.mp halone row hrow hsel ((showsOneOf_shown statuses row).mpr hshown)
  · intro h shuffle shuffle' limit hlimit
    have hrecords := hiff.mpr fun row hrow hsel =>
      (selects_eq_shows_iff statuses row).mpr (h row hrow hsel).1
    have halone : Alone binaryId (showsOneOf statuses) (binaryRecords f.anyStatus y) :=
      alone_records.mpr fun row hrow hsel hshown =>
        (h row hrow hsel).2 ((showsOneOf_shown statuses row).mp hshown)
    have hnodup : ((binaryRecords (f.withStatus statuses) y).map (·.id)).Nodup := by
      refine List.Nodup.of_map (Nat.cast : ℕ → ℤ) ?_
      rw [List.map_map]
      exact (hrecords.map binaryId).nodup_iff.mpr halone.nodup
    obtain ⟨selected, hselected, hperm⟩ := yields_binaryRecords hnodup shuffle hlimit
    obtain ⟨all, hall, hfiltered⟩ := yields_alone (n := limit.toNat) (by omega)
      (binaryPage_eq shuffle' f.anyStatus hlimit y) halone
    refine ⟨selected, all, hselected, hall, hperm.trans (hrecords.trans hfiltered.symm), ?_⟩
    rw [hfiltered.length_eq, ← hrecords.length_eq, binaryTotal, binaryRecords, List.length_map]

/-- `alice` reports a bad rebuild with its artifact, and then a sync lists a second artifact. -/
def lateArtifact : Schedule :=
  serveAt 0 (helloWith ["hello"]) 0 ++
  serveAt 1 (.requestWork (workerHeaders "alice") ⟨["debian"], "amd64", ["amd64"]⟩) (10 * second) ++
  serveAt 2 (.submitRebuildReport (workerHeaders "alice")
    ⟨1, 15, [], .bad, [⟨"hello", none, none, .bad⟩]⟩) (20 * second) ++
  serveAt 3 (helloWith ["hello", "hello-doc"]) (30 * second)

/-- **Both packages show BAD, and the filter finds one of them.** -/
theorem lateArtifact_not_selected : ¬ ∀ env as peers checks f statuses shuffle shuffle' limit,
    1 ≤ limit → SelectsDisplayed shuffle shuffle' limit f statuses
      ⟨(runPool env as).state, peers, checks⟩ := by
  intro h
  have hdiffer (db : Db) (hone : binaryTotal ((seenIs true).withStatus ["bad"]) ⟨db, .empty, .empty⟩ = 1)
      (htwo : ((binaryRecords (seenIs true).anyStatus ⟨db, .empty, .empty⟩).filter
        (showsOneOf ["bad"])).length = 2)
      (hall : ∀ shuffle shuffle' limit, 1 ≤ limit →
        SelectsDisplayed shuffle shuffle' limit (seenIs true) ["bad"] ⟨db, .empty, .empty⟩) : False := by
    have hlength := (records_of_displayed hall).length_eq
    rw [binaryTotal] at hone
    rw [htwo, binaryRecords, List.length_map, hone] at hlength
    exact absurd hlength (by decide)
  exact hdiffer (runPool (openDaemon none) lateArtifact).state (by decide +kernel) (by decide +kernel)
    (h (openDaemon none) lateArtifact .empty .empty (seenIs true) ["bad"])

/-! ### Disagreements -/

/-- The peer is one of those the request asks for by their urls. -/
def DisagreementFilter.asks (f : DisagreementFilter) (p : PeerRebuilder) : Bool :=
  f.peer.isEmpty || f.peer.any fun u => like ("%" ++ u ++ "%").toList p.url.toList

/-- A peer of the package's own distribution and architecture has a check of the package. -/
def disputed (f : DisagreementFilter) (y : PeerDb) (r : BinaryPackageRecord) : Bool :=
  y.peerSha256Checks.rows.any fun c => c.binaryName == r.name && c.binaryVersion == r.version &&
    y.peerRebuilders.rows.any fun p => p.id == c.peerRebuilderId && f.asks p &&
      p.distribution == r.distribution && p.architecture == r.architecture

def BinaryFilters.withDisagreement (f : BinaryFilters) (flag : Bool) : BinaryFilters :=
  { f with disagreement := ⟨some flag, f.disagreement.peer⟩ }

def BinaryFilters.anyAgreement (f : BinaryFilters) : BinaryFilters :=
  { f with disagreement := ⟨none, f.disagreement.peer⟩ }

/-- The filter divides the records into those that are disputed and the remaining ones. -/
structure DividesDisputed (f : BinaryFilters) (y : PeerDb) : Prop where
  records : ∀ flag, (binaryRecords (f.withDisagreement flag) y).Perm
    ((binaryRecords f.anyAgreement y).filter fun r => disputed f.disagreement y r == flag)
  total : ∀ flag, binaryTotal (f.withDisagreement flag) y =
    ((binaryRecords f.anyAgreement y).filter fun r => disputed f.disagreement y r == flag).length

/-- A check of the package, from one of the peers `own`. -/
def Checked (y : PeerDb) (row : BinaryRow) (own : PeerRebuilder → Prop) : Prop :=
  ∃ c ∈ y.peerSha256Checks.rows, c.isOf row = true ∧
    ∃ p ∈ y.peerRebuilders.rows, p.id = c.peerRebuilderId ∧ own p

/-- The peer is one of those the request asks for: by url, and by the distribution and the
architecture if they are given. -/
def AskedPeer (f : BinaryFilters) (p : PeerRebuilder) : Prop :=
  f.disagreement.asks p = true ∧ (∀ a ∈ f.origin.architecture, p.architecture = a) ∧
    ∀ d ∈ f.origin.distribution, p.distribution = d

/-- A package that one of the peers asked for has checked was checked by one of its own distribution
and architecture. -/
def CheckedByOwn (f : BinaryFilters) (y : PeerDb) (row : BinaryRow) : Prop :=
  Checked y row (AskedPeer f) → Checked y row fun p => f.disagreement.asks p = true ∧
    p.distribution = row.source.distribution ∧ p.architecture = row.package.architecture

section
variable {f : BinaryFilters} {y : PeerDb} {row : BinaryRow}

lemma disputed_shown : disputed f.disagreement y (shownRecord row) = true ↔
    Checked y row fun p => f.disagreement.asks p = true ∧
      p.distribution = row.source.distribution ∧ p.architecture = row.package.architecture := by
  have hshown : (shownRecord row).name = row.package.name ∧
      (shownRecord row).version = row.package.version ∧
      (shownRecord row).distribution = row.source.distribution ∧
      (shownRecord row).architecture = row.package.architecture := by
    rw [shownRecord, BinaryPackageRecord.coalesce]
    split <;> exact ⟨rfl, rfl, rfl, rfl⟩
  simp only [disputed, hshown.1, hshown.2.1, hshown.2.2.1, hshown.2.2.2, List.any_eq_true,
    Bool.and_eq_true, beq_iff_eq, Checked, PeerSha256Check.isOf, and_assoc]

/-- The checks the filter looks at. -/
lemma accepts_withDisagreement (flag : Bool) :
    (f.withDisagreement flag).disagreement.accepts f.origin y row = true ↔
      (Checked y row (AskedPeer f) ↔ flag = true) := by
  have hids (i : ℕ) : (((y.peerRebuilders.rows.filter fun p =>
      f.origin.architecture.all (p.architecture == ·) &&
        f.origin.distribution.all (p.distribution == ·) && f.disagreement.asks p).map (·.id)).contains
          i) = true ↔ ∃ p ∈ y.peerRebuilders.rows, p.id = i ∧ AskedPeer f p := by
    simp only [List.contains_iff_mem, List.mem_map, List.mem_filter, Bool.and_eq_true,
      Option.all_eq_true, beq_iff_eq, AskedPeer]
    refine exists_congr fun p => ?_
    tauto
  have hany : (y.peerSha256Checks.rows.any fun c => c.isOf row &&
      ((y.peerRebuilders.rows.filter fun p => f.origin.architecture.all (p.architecture == ·) &&
        f.origin.distribution.all (p.distribution == ·) && f.disagreement.asks p).map (·.id)).contains
          c.peerRebuilderId) = true ↔ Checked y row (AskedPeer f) := by
    simp only [List.any_eq_true, Bool.and_eq_true, hids, Checked]
  rw [← hany]
  change ((y.peerSha256Checks.rows.any fun c => c.isOf row && _) == flag) = true ↔ _
  rw [beq_iff_eq, Bool.eq_iff_iff]
  rfl

lemma Checked.mono {own own' : PeerRebuilder → Prop} (h : Checked y row own)
    (hown : ∀ p, own p → own' p) : Checked y row own' := by
  obtain ⟨c, hc, hof, p, hp, hid, hp'⟩ := h
  exact ⟨c, hc, hof, p, hp, hid, hown p hp'⟩

/-- A row that the filters select is of the architecture and the distribution, if they are given. -/
lemma origin_of_accepts (h : f.anyAgreement.accepts y row = true) :
    (∀ a ∈ f.origin.architecture, row.package.architecture = a) ∧
      ∀ d ∈ f.origin.distribution, row.source.distribution = d := by
  simp only [BinaryFilters.accepts, BinaryFilters.matches, BinaryFilters.anyAgreement,
    OriginFilter.accepts, Bool.and_eq_true] at h
  obtain ⟨⟨⟨⟨⟨⟨⟨hdistribution, -⟩, -⟩, harchitecture⟩, -⟩, -⟩, -⟩, -⟩ := h
  constructor
  · intro a ha
    simpa [Option.mem_def.mp ha] using harchitecture
  · intro d hd
    simpa [Option.mem_def.mp hd] using hdistribution

lemma accepts_disagreement_iff (hrow : f.anyAgreement.accepts y row = true) :
    (∀ flag, (f.withDisagreement flag).disagreement.accepts f.origin y row =
      (disputed f.disagreement y (shownRecord row) == flag)) ↔ CheckedByOwn f y row := by
  obtain ⟨harchitecture, hdistribution⟩ := origin_of_accepts hrow
  -- The peers of the package's own origin are among those asked for.
  have hasked (h : disputed f.disagreement y (shownRecord row) = true) : Checked y row (AskedPeer f) :=
    (disputed_shown.mp h).mono fun p hp =>
      ⟨hp.1, fun a ha => hp.2.2.trans (harchitecture a ha), fun d hd => hp.2.1.trans (hdistribution d hd)⟩
  rw [CheckedByOwn, ← disputed_shown]
  constructor
  · intro h hchecked
    have htrue := h true
    rwa [(accepts_withDisagreement true).mpr (iff_of_true hchecked rfl), eq_comm, beq_iff_eq] at htrue
  · intro h flag
    have hsame : Checked y row (AskedPeer f) ↔ disputed f.disagreement y (shownRecord row) = true :=
      ⟨h, hasked⟩
    rw [Bool.eq_iff_iff, accepts_withDisagreement, hsame, beq_iff_eq]
    exact Bool.eq_iff_iff.symm

/-- If the distribution and the architecture are given, the peers asked for are those of the
package's own. -/
lemma checkedByOwn_of_given (hrow : f.anyAgreement.accepts y row = true)
    (ha : f.origin.architecture.isSome = true) (hd : f.origin.distribution.isSome = true) :
    CheckedByOwn f y row := by
  obtain ⟨harchitecture, hdistribution⟩ := origin_of_accepts hrow
  obtain ⟨a, ha⟩ := Option.isSome_iff_exists.mp ha
  obtain ⟨d, hd⟩ := Option.isSome_iff_exists.mp hd
  exact fun h => h.mono fun p hp => ⟨hp.1, (hp.2.2 d hd).trans (hdistribution d hd).symm,
    (hp.2.1 a ha).trans (harchitecture a ha).symm⟩

end

/-- **The filter divides the records as disputed exactly if every package that a peer asked for has
checked was also checked by one of its own distribution and architecture.** It is so if both are
given. If no package has two rows, the pages of a walk show all records. -/
theorem disagreementFilter_iff (y : PeerDb) (f : BinaryFilters) :
    (DividesDisputed f y ↔ ∀ row ∈ binaryRows y.packages, f.anyAgreement.accepts y row = true →
      CheckedByOwn f y row) ∧
      (f.origin.architecture.isSome = true → f.origin.distribution.isSome = true →
        DividesDisputed f y) ∧
      (((binaryRecords f.anyAgreement y).map (·.id)).Nodup →
        ∀ g ∈ [f.withDisagreement true, f.withDisagreement false, f.anyAgreement], ∀ shuffle limit,
          1 ≤ limit → ∃ result, Yields (binaryPage shuffle g limit y) binaryId result ∧
            result.Perm (binaryRecords g y)) := by
  have hf (flag : Bool) (row : BinaryRow) : (f.withDisagreement flag).accepts y row =
      (f.anyAgreement.accepts y row &&
        (f.withDisagreement flag).disagreement.accepts f.origin y row) := by
    simp only [BinaryFilters.accepts, BinaryFilters.withDisagreement, BinaryFilters.anyAgreement,
      BinaryFilters.matches, DisagreementFilter.accepts, Bool.and_true]
    exact Bool.and_right_comm _ _ _
  have hiff (flag : Bool) :=
    selects_iff (P := fun r => disputed f.disagreement y r == flag) (hf flag)
  have hdivides : DividesDisputed f y ↔ ∀ row ∈ binaryRows y.packages,
      f.anyAgreement.accepts y row = true → CheckedByOwn f y row := by
    constructor
    · intro h row hrow hsel
      exact (accepts_disagreement_iff hsel).mp fun flag => (hiff flag).mp (h.records flag) row hrow hsel
    · intro h
      have hrecords (flag : Bool) := (hiff flag).mpr fun row hrow hsel =>
        (accepts_disagreement_iff hsel).mpr (h row hrow hsel) flag
      refine ⟨hrecords, fun flag => ?_⟩
      rw [← (hrecords flag).length_eq, binaryTotal, binaryRecords, List.length_map]
  refine ⟨hdivides, fun ha hd => hdivides.mpr fun row _ hsel => checkedByOwn_of_given hsel ha hd, ?_⟩
  intro hnodup g hg shuffle limit hlimit
  refine yields_binaryRecords (List.Nodup.sublist ?_ hnodup) shuffle hlimit
  have hfewer (flag : Bool) : ((binaryRecords (f.withDisagreement flag) y).map (·.id)).Sublist
      ((binaryRecords f.anyAgreement y).map (·.id)) := by
    rw [binaryRecords_eq, binaryRecords_eq]
    refine ((List.monotone_filter_right _ fun row hrow => ?_).map _).map _
    rw [hf] at hrow
    exact (Bool.and_eq_true_iff.mp hrow).1
  rw [List.mem_cons, List.mem_pair] at hg
  rcases hg with rfl | rfl | rfl
  · exact hfewer true
  · exact hfewer false
  · exact List.Sublist.refl _

/-- The package `hello` of Debian, and a check of the package `hello` of another distribution. -/
def checkedElsewhere : PeerDb where
  packages := (runPool (openDaemon none) (serveAt 0 (helloWith ["hello"]) 0)).state
  peerRebuilders := Table.empty.insert
    (NewPeerRebuilder.row ⟨"https://peer", "opensuse", "amd64", "", ""⟩)
  peerSha256Checks := Table.empty.insert
    (UpsertPeerSha256Check.row ⟨1, "hello", "1.0", none, 0, some "BAD"⟩)

/-- **A check of another distribution's package counts, if the request does not give one.** -/
theorem checkedElsewhere_not_divided : ¬ ∀ y f, DividesDisputed f y := by
  intro h
  have hone : binaryTotal ((seenIs true).withDisagreement true) checkedElsewhere = 1 := by
    decide +kernel
  have hnone : ((binaryRecords (seenIs true).anyAgreement checkedElsewhere).filter fun r =>
      disputed (seenIs true).disagreement checkedElsewhere r == true).length = 0 := by decide +kernel
  exact absurd (hone.symm.trans (((h checkedElsewhere (seenIs true)).total true).trans hnone)) (by decide)

end Rebuilderd.Daemon
