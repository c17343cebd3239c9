import Rebuilderd.Daemon.PeerRaces
import Rebuilderd.Daemon.PeerPackage

/-!
What the cache says of a package right after a check, and what the peer says of it itself.

A row of the cache goes back to a record the peer has listed. Where a peer lists a package once, the
question about this package is answered from the same record, and the two answers differ in nothing
but the URL of the diffoscope output.
-/

namespace Rebuilderd.Daemon

open Rebuilderd.Lib Rebuilderd.Common

/-! ### Where the rows of a check come from -/

/-- The row tells what has been fetched of a package of one of the peers that have been read. -/
structure Cites (r : CheckPeersRequest) (own : PeerSteps) (u : UpsertPeerSha256Check)
    (peers : List PeerRebuilder) (peer : PeerRebuilder) (map : PackageMap PeerPkgInfo)
    (info : PeerPkgInfo) : Prop where
  read : Replied own (.peersOf r.distribution r.architecture) peers
  mem : peer ∈ peers
  fetched : Replied own (.fetchAllPeerPackages (resolveUrl peer.url r.architecture) r.distribution
    r.architecture (releaseFilter peer.releaseAlias)) map
  found : map.lookup (u.binaryName, u.binaryVersion) = some info
  decided : info.status = .good ∨ info.status = .bad
  row : u.peerRebuilderId = peer.id ∧ u.peerBuildId = info.peerBuildId ∧
    u.peerStatus = some (statusText info.status)

/-- A request replaces rows by what it has fetched. -/
def cites (r : CheckPeersRequest) (own : PeerSteps) : PeerStmt → Prop
  | .replaceChecks _ upserts =>
    ∀ u ∈ upserts, ∃ peers peer map info, Cites r own u peers peer map info
  | _ => True

/-- These peers have been read, and these are what has been fetched of them. -/
def Collected (r : CheckPeersRequest) (own : PeerSteps) (peers : List PeerRebuilder)
    (maps : List (PeerRebuilder × PackageMap PeerPkgInfo)) : Prop :=
  Replied own (.peersOf r.distribution r.architecture) peers ∧ ∀ m ∈ maps, m.1 ∈ peers ∧
    Replied own (.fetchAllPeerPackages (resolveUrl m.1.url r.architecture) r.distribution
      r.architecture (releaseFilter m.1.releaseAlias)) m.2

section
variable {r : CheckPeersRequest} {own own' : PeerSteps}

lemma Cites.append {u : UpsertPeerSha256Check} {peers : List PeerRebuilder} {peer : PeerRebuilder}
    {map : PackageMap PeerPkgInfo} {info : PeerPkgInfo} (h : Cites r own u peers peer map info) :
    Cites r (own ++ own') u peers peer map info :=
  ⟨h.read.append, h.mem, h.fetched.append, h.found, h.decided, h.row⟩

lemma Collected.append {peers : List PeerRebuilder}
    {maps : List (PeerRebuilder × PackageMap PeerPkgInfo)} (h : Collected r own peers maps) :
    Collected r (own ++ own') peers maps :=
  ⟨h.1.append, fun m hm => ⟨(h.2 m hm).1, (h.2 m hm).2.append⟩⟩

lemma statusDisagrees_decided {s t : BuildStatus} (h : statusDisagrees s t = true) :
    s = .good ∨ s = .bad := by
  cases s <;> simp_all [statusDisagrees]

open Prog

variable {F : PeerSteps → Err → Prop} {env : PeerEnv}

/-- A statement leaves its answer behind. -/
lemma wp_cited {s : PeerStmt} {Q : PeerSteps → s.Answer → Prop} (hok : cites r own s)
    (h : ∀ t a, Q (own ++ [⟨t, s, .ok a⟩]) a) :
    wp (.journal fun own _ => cites r own) (peerSql s) Q (fun _ _ => True) own :=
  wp_stmt_journal.mpr fun t => ⟨hok, h t, fun _ => trivial⟩

lemma wp_fetchPeers_cites {peers fetched : List PeerRebuilder} (hfetched : fetched ⊆ peers)
    (hread : Replied own (.peersOf r.distribution r.architecture) peers) :
    wp (.journal fun own _ => cites r own)
      (PeerHandler.fetchPeers r.distribution r.architecture fetched)
      (fun own maps => Collected r own peers maps) (fun _ _ => True) own := by
  refine wp_mono (wp_foldlM (fun own maps rest => Collected r own peers maps ∧ rest ⊆ peers)
    (fun own maps peer rest hown => ?_) fetched [] ⟨⟨hread, by simp⟩, hfetched⟩)
    (fun own maps hown => hown.1) fun _ _ => id
  obtain ⟨hcollected, hrest⟩ := hown
  have hpeer := hrest List.mem_cons_self
  have hrest := List.subset_of_cons_subset hrest
  rw [wp_bind, wp_attempt, wp_stmt_journal]
  refine fun t => ⟨trivial, fun map => ⟨⟨hcollected.1.append, fun m hm => ?_⟩, hrest⟩,
    fun e => ⟨hcollected.append, hrest⟩⟩
  rcases List.mem_append.mp hm with hm | hm
  · exact ⟨(hcollected.2 m hm).1, (hcollected.2 m hm).2.append⟩
  · obtain rfl := List.mem_singleton.mp hm
    exact ⟨hpeer, replied_snoc t _ map⟩

/-- One comparison adds no row but one of the package that is compared. -/
lemma wp_compareEntry_cites {peers : List PeerRebuilder}
    {maps : List (PeerRebuilder × PackageMap PeerPkgInfo)} (hown : Collected r own peers maps)
    {m : PeerRebuilder × PackageMap PeerPkgInfo} (hm : m ∈ maps) {e : PackageEntry PeerPkgInfo}
    (he : m.2.lookup e.1 = some e.2) (localPackages : PackageMap LocalPkgInfo)
    {upserts : List UpsertPeerSha256Check}
    (hupserts : ∀ u ∈ upserts, ∃ peers peer map info, Cites r own u peers peer map info) :
    wp (.journal fun own _ => cites r own) (PeerHandler.compareEntry localPackages m.1 upserts e)
      (fun own out => Collected r own peers maps ∧
        ∀ u ∈ out, ∃ peers peer map info, Cites r own u peers peer map info)
      (fun _ _ => True) own := by
  unfold PeerHandler.compareEntry
  rcases localPackages.lookup e.1 with _ | info
  · exact ⟨hown, hupserts⟩
  · dsimp only
    split
    · rename_i hdis
      rw [wp_bind]
      refine wp_cited trivial fun t now => ⟨hown.append, fun u hu => ?_⟩
      rcases List.mem_append.mp hu with hu | hu
      · obtain ⟨peers, peer, map, info, h⟩ := hupserts u hu
        exact ⟨peers, peer, map, info, h.append⟩
      · obtain rfl := List.mem_singleton.mp hu
        exact ⟨peers, m.1, m.2, e.2, hown.1.append, (hown.2 m hm).1, (hown.2 m hm).2.append, he,
          statusDisagrees_decided hdis, rfl, rfl, rfl⟩
    · exact ⟨hown, hupserts⟩

lemma wp_compareMaps_cites {peers : List PeerRebuilder}
    {maps : List (PeerRebuilder × PackageMap PeerPkgInfo)} (hown : Collected r own peers maps)
    (localPackages : PackageMap LocalPkgInfo) :
    wp (.journal fun own _ => cites r own)
      (maps.foldlM (fun upserts m => (env.entries.order m.2.entries).foldlM
        (PeerHandler.compareEntry localPackages m.1) upserts) [])
      (fun own out => ∀ u ∈ out, ∃ peers peer map info, Cites r own u peers peer map info)
      (fun _ _ => True) own := by
  refine wp_mono (wp_foldlM (fun own (out : List UpsertPeerSha256Check) rest =>
    (Collected r own peers maps ∧
      ∀ u ∈ out, ∃ peers peer map info, Cites r own u peers peer map info) ∧ rest ⊆ maps)
    (fun own out m rest h => ?_) maps [] ⟨⟨hown, by simp⟩, fun _ => id⟩) (fun own out h => h.1.2)
    fun _ _ => id
  obtain ⟨⟨hown, hout⟩, hrest⟩ := h
  have hm := hrest List.mem_cons_self
  refine wp_mono (wp_foldlM (fun own (out : List UpsertPeerSha256Check) rest =>
    (Collected r own peers maps ∧
      ∀ u ∈ out, ∃ peers peer map info, Cites r own u peers peer map info) ∧
        rest ⊆ m.2.entries) (fun own out e rest h => ?_) _ out
    ⟨⟨hown, hout⟩, (env.entries.perm m.2.entries).subset⟩)
    (fun own out h => ⟨h.1, List.subset_of_cons_subset hrest⟩) fun _ _ => id
  obtain ⟨⟨hown, hout⟩, hentries⟩ := h
  have he : m.2.lookup e.1 = some e.2 := AList.mem_lookup_iff.mpr (hentries List.mem_cons_self)
  exact wp_mono (wp_compareEntry_cites hown hm he localPackages hout)
    (fun own out h => ⟨h, List.subset_of_cons_subset hentries⟩) fun _ _ => id

/-- **A request caches nothing but what it has fetched.** -/
lemma wp_checkPeers_cites (c : Headers × CheckPeersRequest) :
    wp (.journal fun own _ => cites c.2 own) (PeerHandler.checkPeers env c)
      (fun _ _ => True) (fun _ _ => True) [] := by
  have hregister : wp (.journal fun own _ => cites c.2 own) (PeerHandler.register env.config c.1 c.2)
      (fun _ _ => True) (fun _ _ => True) [] := by
    unfold PeerHandler.register
    split
    · trivial
    · rw [wp_bind]
      refine wp_mono (wp_foldlM (fun _ _ _ => True) (fun own _ url rest _ => ?_) c.2.urls () trivial)
        (fun own _ _ => ?_) fun _ _ => id
      · exact wp_cited trivial fun _ _ => trivial
      · rw [wp_bind]
        exact wp_cited trivial fun _ _ => trivial
  unfold PeerHandler.checkPeers
  rw [wp_bind]
  refine wp_mono hregister (fun own a _ => ?_) fun _ _ => id
  cases a with
  | forbidden => trivial
  | accepted =>
    rw [wp_bind, wp_attempt]
    unfold PeerHandler.runPeerCheck PeerHandler.comparePeers
    rw [wp_bind]
    refine wp_cited trivial fun t peers => ?_
    split
    · trivial
    · rw [wp_bind]
      refine wp_mono (wp_fetchPeers_cites (env.fetched.perm peers).subset (replied_snoc t _ peers))
        (fun own maps hown => ?_) fun _ _ _ => trivial
      split
      · trivial
      · rw [wp_bind]
        refine wp_cited trivial fun t' localPackages => ?_
        rw [wp_bind]
        refine wp_mono (wp_compareMaps_cites hown.append localPackages) (fun own upserts h => ?_)
          fun _ _ _ => trivial
        exact wp_cited h fun _ _ => trivial

end

/-! ### The peers keep their URLs -/

/-- A key that has been the peer's is of no peer with another URL, distribution or architecture. -/
def KeyOf (p : PeerRebuilder) (y : PeerDb) : Prop :=
  p.id ≤ y.peerRebuilders.seq ∧ ∀ q ∈ y.peerRebuilders.rows, q.id = p.id →
    q.url = p.url ∧ q.distribution = p.distribution ∧ q.architecture = p.architecture

section
variable {p : PeerRebuilder} {y : PeerDb}

lemma keyOf_self (hp : p ∈ y.peerRebuilders.rows) : KeyOf p y := by
  refine ⟨y.peerRebuilders.bound p hp, fun q hq hid => ?_⟩
  obtain rfl : q = p := Table.eq_of_key hq hp hid
  exact ⟨rfl, rfl, rfl⟩

lemma KeyOf.upsert (h : KeyOf p y) (new : NewPeerRebuilder) : KeyOf p (new.upsert y) := by
  obtain ⟨hbound, hkey⟩ := h
  unfold KeyOf NewPeerRebuilder.upsert
  rcases Table.upsert_cases y.peerRebuilders new.conflicts new.row
    (fun q => { q with release := new.release, releaseAlias := new.releaseAlias })
    (fun _ => rfl) (fun _ => rfl) with ⟨_, -, -, heq⟩ | ⟨-, heq⟩ <;> rw [heq]
  · refine ⟨hbound.trans (Nat.le_succ _), fun q hq hid => ?_⟩
    obtain ⟨q', hq', rfl⟩ := List.mem_map.mp hq
    have hkey := hkey q' hq'
    split at hid <;> split <;> exact hkey hid
  · refine ⟨hbound.trans (Nat.le_succ _), fun q hq hid => ?_⟩
    rcases List.mem_append.mp hq with hq | hq
    · exact hkey q hq hid
    · obtain rfl := List.mem_singleton.mp hq
      have hnew : y.peerRebuilders.seq + 1 = p.id := hid
      omega

lemma KeyOf.step (h : KeyOf p y) (env : PeerEnv) (t : Time) (s : PeerStmt) :
    KeyOf p (env.exec.answer t s y).2 := by
  cases s with
  | upsertPeer new => exact h.upsert new
  | deleteStalePeers distribution architecture urls =>
    exact ⟨h.1, fun q hq => h.2 q ((Table.mem_delete y.peerRebuilders).mp hq).1⟩
  | replaceChecks compared upserts =>
    simp only [Exec.answer, PeerEnv.exec]
    rcases hrep : replaceChecks compared upserts y with e | z
    · exact h
    · unfold KeyOf
      rw [Except.map, (replaceChecks_ok hrep).2.1]
      exact h
  | fetchAllPeerPackages url distribution architecture release =>
    simp only [Exec.answer, PeerEnv.exec]
    cases env.fetchAllPeerPackages url distribution architecture release <;> exact h
  | now => exact h
  | peersOf distribution architecture => exact h
  | fetchLocalPackages distribution architecture => exact h

end

/-! ### What a check has just cached -/

/-- The packages whose rows the transaction has written, if it has not failed. -/
def written : (s : PeerStmt) → Except Err s.Answer → List UpsertPeerSha256Check
  | .replaceChecks _ upserts, .ok _ => upserts
  | _, _ => []

/-- A check of the run has written the row of this package of the peer, and `y` is the state right
after it. -/
def JustCached (env : PeerEnv) (x : PeerDb) (as : PeerSchedule) (p : PeerRebuilder)
    (name version : String) (y : PeerDb) : Prop :=
  ∃ e ∈ env.trace x as, y = e.after env.exec ∧
    (p.id, name, version) ∈ (written e.stmt e.answer).map (·.target)

section
variable {compared : List ℕ} {upserts : List UpsertPeerSha256Check} {db db' : PeerDb}

lemma insertChecks_prefix
    (h : upserts.foldlM (fun db u => UpsertPeerSha256Check.insert u db) db = .ok db') :
    db.peerSha256Checks.rows <+: db'.peerSha256Checks.rows := by
  induction upserts generalizing db with
  | nil =>
    cases h
    exact List.prefix_rfl
  | cons u upserts ih =>
    obtain ⟨mid, hinsert, hrest⟩ := insertChecks_cons h
    have hbegins := ih hrest
    rw [(insertCheck_ok hinsert).2] at hbegins
    exact (List.prefix_append _ _).trans hbegins

/-- The row of a package is the one that has been written. -/
lemma find_insertChecks
    (h : upserts.foldlM (fun db u => UpsertPeerSha256Check.insert u db) db = .ok db')
    {u : UpsertPeerSha256Check} (hu : u ∈ upserts) :
    ∃ id, db'.peerSha256Checks.rows.find? u.conflicts = some (u.row id) := by
  induction upserts generalizing db with
  | nil => cases hu
  | cons v upserts ih =>
    obtain ⟨mid, hinsert, hrest⟩ := insertChecks_cons h
    rcases List.mem_cons.mp hu with rfl | hu
    · obtain ⟨hnone, rfl⟩ := insertCheck_ok hinsert
      obtain ⟨rest, hafter⟩ := insertChecks_prefix hrest
      have hself : u.conflicts (u.row (db.peerSha256Checks.seq + 1)) = true :=
        (u.conflicts_iff _).mpr rfl
      refine ⟨db.peerSha256Checks.seq + 1, ?_⟩
      rw [← hafter]
      change ((db.peerSha256Checks.rows ++ [_]) ++ rest).find? u.conflicts = _
      rw [List.find?_append, List.find?_append, hnone, List.find?_cons_of_pos hself]
      rfl
    · exact ih hrest hu

end

/-! ### The two answers -/

lemma strToBuildStatus_statusText (s : BuildStatus) : strToBuildStatus (statusText s) = some s := by
  cases s <;> decide

/-- The two layouts have no URL in common. -/
lemma buildUrl_ne (url : Text) (buildId artifactId : ℤ) :
    buildUrl url buildId "/diffoscope".toList ≠ buildUrl url buildId (artifactPath artifactId) := by
  unfold buildUrl artifactPath
  rw [ne_eq, List.append_cancel_left_eq]
  simp

/-- **A row and the record it is of are shown alike, unless the URL of a diffoscope output is.** -/
lemma statusEntry_eq_iff (url : Text) {pkg : PeerPackage} {c : PeerSha256Check} {s : BuildStatus}
    (hs : pkg.status.or pkg.rebuildStatus = some s) (hstatus : c.peerStatus = some (statusText s))
    (hbuild : c.peerBuildId = pkg.buildId) :
    c.statusEntry url = pkg.statusEntry url ↔ s = .bad → pkg.buildId = none := by
  unfold PeerSha256Check.statusEntry PeerPackage.statusEntry
  rw [hstatus, hbuild, hs, Option.bind_some, strToBuildStatus_statusText]
  rcases pkg.buildId with _ | buildId
  · simp
  · by_cases hbad : s = .bad
    · subst hbad
      simp only [v1Urls]
      rcases pkg.artifactId with _ | artifactId
      · simp
      · rcases pkg.diffoscopeLogId with _ | diffoscopeLogId
        · simp
        · simpa using buildUrl_ne url buildId artifactId
    · simp [hbad, v1Urls]

section
variable {env : PackageEnv} {url : Text} {peer : PeerDb}

/-- Every page a daemon sends is of records it lists. -/
lemma Serves.mem_listedPages (h : Serves env url peer) {distribution architecture : String}
    {release : Option String} {pages : ℕ} {after : Option ℤ} {records : List PeerBinaryPackage}
    (hrecords : env.listedPages url distribution architecture release pages after = .ok records) :
    ∀ pkg ∈ records, ∃ r ∈ listedRecords peer, r.architecture = architecture ∧
      pkg = (PeerPackage.ofRecord r).toPeerBinaryPackage := by
  induction pages generalizing after records with
  | zero => cases hrecords
  | succ pages ih =>
    obtain ⟨shuffle, hpage⟩ := h.page
      { distribution, architecture, seenOnly := true, limit := 1000, after, release }
    obtain ⟨shown, hserve, hperm⟩ := servePackages_eq shuffle (V1PageQuery.filters
      { distribution, architecture, seenOnly := true, limit := 1000, after, release })
      (by decide : (1 : ℤ) ≤ 1000) after peer
    rw [hserve] at hpage
    have hshown : ∀ pkg ∈ ((shown.take 1000).map PeerPackage.ofRecord).map
        PeerPackage.toPeerBinaryPackage, ∃ r ∈ listedRecords peer, r.architecture = architecture ∧
          pkg = (PeerPackage.ofRecord r).toPeerBinaryPackage := by
      rw [List.map_map]
      intro pkg hpkg
      obtain ⟨r, hr, hpkg⟩ := List.mem_map.mp hpkg
      have hr := (List.mem_filter.mp (hperm.mem_iff.mp (List.mem_of_mem_take hr))).1
      obtain ⟨hlisted, harchitecture⟩ := mem_pageRecords rfl hr
      exact ⟨r, hlisted, harchitecture, hpkg.symm⟩
    unfold PeerEnv.listedPages at hrecords
    rw [hpage] at hrecords
    simp only [Except.map, bind, Except.bind] at hrecords
    split at hrecords
    · obtain rfl := Except.ok.inj hrecords
      exact hshown
    · split at hrecords
      · obtain rfl := Except.ok.inj hrecords
        exact hshown
      · rename_i last _
        rcases hrest : env.listedPages url distribution architecture release pages (some last.id)
          with e | rest <;> rw [hrest] at hrecords
        · cases hrecords
        · obtain rfl := Except.ok.inj hrecords
          intro pkg hpkg
          rcases List.mem_append.mp hpkg with hpkg | hpkg
          · exact hshown pkg hpkg
          · exact ih hrest pkg hpkg

/-- What is fetched of a package is what one of the records says. -/
lemma Serves.mem_fetched (h : Serves env url peer) (hv1 : isV0Url url = false)
    {distribution architecture : String} {release : Option String} {map : PackageMap PeerPkgInfo}
    (hmap : env.fetchAllPeerPackages url distribution architecture release = .ok map)
    {key : PackageKey} {info : PeerPkgInfo} (hinfo : map.lookup key = some info) :
    ∃ r ∈ listedRecords peer, (r.name, r.version, r.architecture) = (key.1, key.2, architecture) ∧
      info = (PeerPackage.ofRecord r).entry.2 := by
  obtain ⟨listing, hlisted, hlookup⟩ := env.fetch_ok hmap
  unfold PeerEnv.listed at hlisted
  rw [hv1, if_neg Bool.false_ne_true] at hlisted
  rcases hpages : env.listedPages url distribution architecture release (env.maxPages + 1) none
    with e | records <;> rw [hpages] at hlisted
  · cases hlisted
  · obtain rfl := Except.ok.inj hlisted
    have hmem := List.of_mem_dlookup ((hlookup key).symm.trans hinfo)
    obtain ⟨pkg, hpkg, heq⟩ := List.mem_map.mp (List.mem_reverse.mp hmem)
    obtain ⟨r, hr, rfl, rfl⟩ := h.mem_listedPages hpages pkg hpkg
    cases heq
    exact ⟨r, hr, rfl, rfl⟩

/-- **The question about a package is answered from its only record.** -/
lemma Serves.liveEntry_eq (h : Serves env url peer) (hv1 : isV0Url url = false)
    (honce : OncePerArchitecture peer) {q : PeerPackageQuery} {p : PeerRebuilder}
    (hurl : resolveUrl p.url q.architecture = url) {r : BinaryPackageRecord}
    (hr : r ∈ listedRecords peer)
    (hkey : (r.name, r.version, r.architecture) = (q.name, q.version, q.architecture)) :
    env.liveEntry q p = (PeerPackage.ofRecord r).statusEntry url := by
  obtain ⟨shuffle, hpackage⟩ := h.package
    { name := q.name, version := q.version, architecture := q.architecture, seenOnly := true,
      limit := 1 }
  obtain ⟨shown, hserve, hperm⟩ := servePackages_eq shuffle (V1PackageQuery.filters
    { name := q.name, version := q.version, architecture := q.architecture, seenOnly := true,
      limit := 1 }) le_rfl none peer
  rw [hserve] at hpackage
  have hshown (r' : BinaryPackageRecord) : r' ∈ shown ↔ r' = r := by
    rw [hperm.mem_iff, List.mem_filter, mem_packageRecords rfl]
    constructor
    · rintro ⟨⟨hr', hkey'⟩, -⟩
      exact List.inj_on_of_nodup_map honce hr' hr (hkey'.trans hkey.symm)
    · rintro rfl
      exact ⟨⟨hr, hkey⟩, rfl⟩
  rcases hhead : shown with _ | ⟨r', rest⟩
  · exact absurd ((hshown r).mpr rfl) (by simp [hhead])
  · obtain rfl : r' = r := (hshown r').mp (by simp [hhead])
    rw [hhead] at hpackage
    unfold PackageEnv.liveEntry PackageEnv.fetchPeerPackage PackageEnv.fetchV1PeerPackage
    simp only [hurl, hv1, Bool.false_eq_true, if_false, hpackage]
    rfl

/-- The peer lists the package as bad. -/
def ListsBad (peer : PeerDb) (architecture name version : String) : Prop :=
  ∃ r ∈ listedRecords peer, (r.name, r.version, r.architecture) = (name, version, architecture) ∧
    r.status.or r.rebuildStatus = some .bad

lemma checks_cite (env : PeerEnv) (x : PeerDb) (as : PeerSchedule) :
    History env.exec (fun c own _ s => cites c.2 own s) x (env.trace x as) :=
  (Pool.history (fun c => wp_checkPeers_cites c) x as).1

/-- What has been replied, an earlier event has answered. -/
lemma replied_earlier {env : PeerEnv} {x : PeerDb}
    {ok : Headers × CheckPeersRequest → PeerSteps → Time → PeerStmt → Prop}
    {pre post : List PeerEvent} (h : History env.exec ok x (pre ++ post)) {i : ℕ} {s : PeerStmt} {a : s.Answer}
    (hs : Replied (own i pre) s a) :
    ∃ before g after, pre = before ++ g :: after ∧
      ∃ t, env.exec.answer t s g.before = (.ok a, g.after env.exec) := by
  obtain ⟨t, ht⟩ := hs
  obtain ⟨g, hg, -, hstep⟩ := mem_own.mp ht
  obtain ⟨before, after, rfl⟩ := List.append_of_mem hg
  rw [List.append_assoc, List.cons_append] at h
  have hans := h.event.2.1
  refine ⟨before, g, after, rfl, t, ?_⟩
  rcases g with ⟨⟨t', s', reply⟩, thread, call, state⟩
  cases hstep
  exact Prod.ext hans.symm rfl

/-- What has been written, a transaction of the run has. -/
lemma exists_replaced_of_written {env : PeerEnv} {e : PeerEvent}
    (hans : e.answer = (env.exec.answer e.input e.stmt e.before).1) {u : UpsertPeerSha256Check}
    (hu : u ∈ written e.stmt e.answer) :
    ∃ compared upserts, e.stmt = .replaceChecks compared upserts ∧ u ∈ upserts ∧
      replaceChecks compared upserts e.before = .ok (e.after env.exec) := by
  rcases e with ⟨⟨t, s, reply⟩, thread, call, before⟩
  cases s with
  | replaceChecks compared upserts =>
    rcases reply with e | done
    · cases hu
    · exact ⟨compared, upserts, rfl, hu, answer_replace (Prod.ext hans.symm rfl)⟩
  | _ => cases hu

/-- What a row that has just been written goes back to. -/
lemma JustCached.cited {env : PeerEnv} {x y : PeerDb} {as : PeerSchedule} {p : PeerRebuilder}
    {name version : String} (h : JustCached env x as p name version y)
    (hp : p ∈ y.peerRebuilders.rows) :
    ∃ (c : PeerSha256Check) (release : Option String) (map : PackageMap PeerPkgInfo)
        (info : PeerPkgInfo), (y.peerSha256Checks.rows.find? fun c =>
        c.peerRebuilderId == p.id && c.binaryName == name && c.binaryVersion == version) = some c ∧
      env.fetchAllPeerPackages (resolveUrl p.url p.architecture) p.distribution p.architecture
        release = .ok map ∧
      map.lookup (name, version) = some info ∧ (info.status = .good ∨ info.status = .bad) ∧
      c.peerStatus = some (statusText info.status) ∧ c.peerBuildId = info.peerBuildId := by
  obtain ⟨e, he, rfl, hmem⟩ := h
  obtain ⟨u, hu, htarget⟩ := List.mem_map.mp hmem
  obtain ⟨pre, post, htr⟩ := List.append_of_mem he
  have hhist := checks_cite env x as
  rw [htr] at hhist
  obtain ⟨-, hans, hok, -⟩ := hhist.event
  obtain ⟨compared, upserts, hstmt, hu, hreplaced⟩ := exists_replaced_of_written hans hu
  rw [hstmt] at hok
  obtain ⟨peers, peer, map, info, hcite⟩ := hok u hu
  obtain ⟨id, hfind⟩ := find_insertChecks hreplaced hu
  simp only [UpsertPeerSha256Check.target, Prod.mk.injEq] at htarget
  obtain ⟨hid, rfl, rfl⟩ := htarget
  obtain ⟨hpeerId, hbuild, hstatus⟩ := hcite.row
  -- the row of the peer is still that of the peer that has been read
  obtain ⟨before, g, mid, rfl, t, hread⟩ := replied_earlier hhist hcite.read
  have hpeers : peersOf e.call.2.distribution e.call.2.architecture g.before = peers :=
    Except.ok.inj (congrArg Prod.fst hread)
  have hpeer := hcite.mem
  rw [← hpeers] at hpeer
  obtain ⟨hrow, hcovers⟩ := List.mem_filter.mp hpeer
  simp only [Bool.and_eq_true, beq_iff_eq] at hcovers
  have hkey : KeyOf peer e.before := by
    rw [List.append_assoc, List.cons_append] at hhist
    exact hhist.between (fun t s y hy => hy.step env t s) (keyOf_self hrow)
  obtain ⟨hurl, hdistribution, harchitecture⟩ :=
    (hkey.step env e.input e.stmt).2 p hp (hid.symm.trans hpeerId)
  obtain ⟨_, _, _, _, _, hfetch⟩ := replied_earlier hhist hcite.fetched
  refine ⟨u.row id, releaseFilter peer.releaseAlias, map, info, ?_, ?_, hcite.found, hcite.decided,
    hstatus, hbuild⟩
  · rw [← hid]
    exact hfind
  · rw [hurl, hdistribution, harchitecture, hcovers.1, hcovers.2]
    exact answer_fetch hfetch

/-- **When the two answers agree**: if the peer does not list the package as bad. -/
theorem peerEntries_iff {env : PackageEnv} {x y : PeerDb} {as : PeerSchedule} {q : PeerPackageQuery}
    {p : PeerRebuilder} {peer : PeerDb} (hp : p ∈ q.peers y)
    (hcached : JustCached env.toPeerEnv x as p q.name q.version y)
    (hv1 : isV0Url (resolveUrl p.url p.architecture) = false)
    (hserves : Serves env (resolveUrl p.url p.architecture) peer) (honce : OncePerArchitecture peer) :
    env.peerEntry { q with live := false } y p = env.peerEntry { q with live := true } y p ↔
      ¬ ListsBad peer p.architecture q.name q.version := by
  obtain ⟨hrow, hcovers⟩ := List.mem_filter.mp (List.mem_filter.mp hp).1
  simp only [Bool.and_eq_true, beq_iff_eq] at hcovers
  obtain ⟨c, release, map, info, hfind, hfetch, hfound, hdecided, hstatus, hbuild⟩ :=
    hcached.cited hrow
  obtain ⟨r, hr, hkey, rfl⟩ := hserves.mem_fetched hv1 hfetch hfound
  have hurl : resolveUrl p.url q.architecture = resolveUrl p.url p.architecture := by rw [hcovers.2]
  have hasked : (r.name, r.version, r.architecture) = (q.name, q.version, q.architecture) := by
    rw [hkey, hcovers.2]
  have hlive : env.peerEntry { q with live := true } y p =
      (PeerPackage.ofRecord r).statusEntry (resolveUrl p.url p.architecture) :=
    hserves.liveEntry_eq hv1 honce hurl hr hasked
  have hrow : env.peerEntry { q with live := false } y p =
      c.statusEntry (resolveUrl p.url p.architecture) := by
    simp [PackageEnv.peerEntry, cachedPeerEntry, hfind]
  obtain ⟨s, hs⟩ : ∃ s, r.status.or r.rebuildStatus = some s := by
    refine Option.ne_none_iff_exists'.mp fun hnone => ?_
    simp [PeerBinaryPackage.entry, PeerPackage.ofRecord, hnone] at hdecided
  have hinfo : (PeerPackage.ofRecord r).entry.2.status = s := by
    simp [PeerBinaryPackage.entry, PeerPackage.ofRecord, hs]
  rw [hinfo] at hstatus
  rw [hrow, hlive, statusEntry_eq_iff _ hs hstatus hbuild]
  obtain ⟨id, hid⟩ := buildId_of_status hr hs
  constructor
  · rintro hagree ⟨r', hr', hkey', hbad⟩
    obtain rfl : r' = r := List.inj_on_of_nodup_map honce hr' hr (hkey'.trans hkey.symm)
    have hnone := hagree (Option.some.inj (hs.symm.trans hbad))
    simp [PeerPackage.ofRecord, hid] at hnone
  · intro hgood hbad
    exact absurd ⟨r, hr, hkey, hs.trans (congrArg some hbad)⟩ hgood

end

/-! ### A package that is good here and bad there -/

/-- `hello` of `sid` is rebuilt and good. -/
def goodHello : List Request :=
  atOnce [.submitPackageReport adminHeaders ⟨"debian", some "sid", none, "amd64",
      [{ package "hello" "https://hello" with
        artifacts := [⟨"hello", "1.0", "amd64", "https://pool/hello"⟩] }]⟩,
    .requestWork (workerHeaders "alice") ⟨["debian"], "amd64", ["amd64"]⟩,
    .submitRebuildReport (workerHeaders "alice") ⟨1, 0, [], .good, [⟨"hello", none, none, .good⟩]⟩]

def goodHelloDb : PeerDb := ⟨goodHello.foldl (served (openDaemon none)) (openDaemon none).start, .empty, .empty⟩

/-- The peers are daemons in the state `peer`. -/
def askingDaemon (peer : PeerDb) : PackageEnv where
  config := (openDaemon none).config
  getV1 _ q := (servePackages unshuffled q.filters q.limit q.after peer).map
    (·.map PeerPackage.toPeerBinaryPackage)
  getV0 _ _ := .ok []
  maxPages := 0
  fetched := unshuffled
  entries := unshuffled
  selected := unshuffled
  getV1Package _ q := servePackages unshuffled q.filters q.limit none peer
  getV0Package _ _ := .ok []
  answered := unshuffled

lemma serves_askingDaemon (peer : PeerDb) (url : Text) : Serves (askingDaemon peer) url peer :=
  ⟨fun _ => ⟨unshuffled, rfl⟩, fun _ => ⟨unshuffled, rfl⟩⟩

/-- One request, and its background check to the end. -/
def oneCheck : PeerSchedule :=
  .call (adminHeaders,
      ⟨"debian", "amd64", some "sid", none, ["https://peer/\x7barch\x7d/api/v1/"]⟩) ::
    List.replicate 8 (.step 0 0)

def checkedPeer : PeerRebuilder :=
  ⟨1, "https://peer/\x7barch\x7d/api/v1/", "debian", "amd64", "sid", "sid"⟩

def aboutHello : PeerPackageQuery where
  distribution := "debian"
  architecture := "amd64"
  name := "hello"
  version := "1.0"
  peer := some "peer"

/-- Whether the event writes the row of `hello`. -/
def writesHello (env : PackageEnv) (e : PeerEvent) : Bool :=
  (written e.stmt e.answer).any (·.target == (1, "hello", "1.0")) &&
    (aboutHello.peers (e.after env.toPeerEnv.exec)).contains checkedPeer

lemma justCached_of_writes {env : PackageEnv} {x : PeerDb} {e : PeerEvent}
    (he : e ∈ env.toPeerEnv.trace x oneCheck) (h : writesHello env e = true) :
    checkedPeer ∈ aboutHello.peers (e.after env.toPeerEnv.exec) ∧
      JustCached env.toPeerEnv x oneCheck checkedPeer "hello" "1.0" (e.after env.toPeerEnv.exec) := by
  obtain ⟨hwritten, hpeer⟩ := Bool.and_eq_true_iff.mp h
  obtain ⟨u, hu, htarget⟩ := List.any_eq_true.mp hwritten
  exact ⟨by simpa using hpeer, e, he, rfl, List.mem_map.mpr ⟨u, hu, beq_iff_eq.mp htarget⟩⟩

theorem peerEntries_goodThere : ∃ y, checkedPeer ∈ aboutHello.peers y ∧
    JustCached (askingDaemon goodHelloDb).toPeerEnv badHelloDb oneCheck checkedPeer "hello" "1.0" y ∧
    ((askingDaemon goodHelloDb).peerEntry { aboutHello with live := false } y checkedPeer =
        (askingDaemon goodHelloDb).peerEntry { aboutHello with live := true } y checkedPeer ↔
      ¬ ListsBad goodHelloDb "amd64" "hello" "1.0") := by
  have hwrites : (((askingDaemon goodHelloDb).toPeerEnv.trace badHelloDb oneCheck).any
      (writesHello (askingDaemon goodHelloDb))) = true := by decide +kernel
  obtain ⟨e, he, hwrites⟩ := List.any_eq_true.mp hwrites
  obtain ⟨hpeer, hcached⟩ := justCached_of_writes he hwrites
  exact ⟨_, hpeer, hcached, peerEntries_iff hpeer hcached (by decide +kernel)
    (serves_askingDaemon goodHelloDb _) (by decide +kernel)⟩

/-- **A cached URL that the peer does not have.** -/
theorem badThere_differs : ¬ ∀ (env : PackageEnv) (x y : PeerDb) (as : PeerSchedule)
    (q : PeerPackageQuery) (p : PeerRebuilder) (peer : PeerDb), p ∈ q.peers y →
    JustCached env.toPeerEnv x as p q.name q.version y →
    isV0Url (resolveUrl p.url p.architecture) = false →
    Serves env (resolveUrl p.url p.architecture) peer → OncePerArchitecture peer →
    env.peerEntry { q with live := false } y p = env.peerEntry { q with live := true } y p := by
  intro hall
  have hdiffer : (((askingDaemon badHelloDb).toPeerEnv.trace goodHelloDb oneCheck).any fun e =>
      writesHello (askingDaemon badHelloDb) e &&
        (askingDaemon badHelloDb).peerEntry { aboutHello with live := false }
          (e.after (askingDaemon badHelloDb).toPeerEnv.exec) checkedPeer !=
        (askingDaemon badHelloDb).peerEntry { aboutHello with live := true }
          (e.after (askingDaemon badHelloDb).toPeerEnv.exec) checkedPeer) = true := by decide +kernel
  obtain ⟨e, he, hwrites⟩ := List.any_eq_true.mp hdiffer
  obtain ⟨hwrites, hne⟩ := Bool.and_eq_true_iff.mp hwrites
  obtain ⟨hpeer, hcached⟩ := justCached_of_writes he hwrites
  refine bne_iff_ne.mp hne ?_
  exact hall (askingDaemon badHelloDb) goodHelloDb _ oneCheck aboutHello checkedPeer badHelloDb hpeer
    hcached (by decide +kernel) (serves_askingDaemon badHelloDb _) (by decide +kernel)

end Rebuilderd.Daemon
