import Rebuilderd.Daemon.Peers

/-!
What one comparison with the peers finds, and what it leaves in the cache.

A map of packages keeps the last row of every name and version. The comparison finds the packages
that are good on one side and bad on the other, and the transaction at its end replaces the rows of
the peers it has compared.
-/

namespace Rebuilderd.Daemon

open Rebuilderd.Lib Rebuilderd.Common

/-! ### What a peer lists and what the daemon has -/

/-- A package with the status one side shows. -/
abbrev PackageEntry (ν : Type) := Sigma fun _ : PackageKey => ν

namespace PeerEnv

variable (env : PeerEnv)

/-- The packages on the pages after `after`, in order. -/
def listedPages (url : Text) (distribution architecture : String) (release : Option String) :
    ℕ → Option ℤ → Except Err (List PeerBinaryPackage)
  | 0, _ => .error .io
  | pages + 1, after => do
    let records ← env.getV1 (trimSlashes url ++ "/packages/binary".toList)
      { distribution, architecture, seenOnly := true, limit := 1000, after, release }
    if records.length < 1000 then return records
    match records.getLast? with
    | none => return records
    | some last =>
      return records ++ (← listedPages url distribution architecture release pages (some last.id))

/-- What a peer lists, with the same package as often as it lists it. -/
def listed (url : Text) (distribution architecture : String) (release : Option String) :
    Except Err (List (PackageEntry PeerPkgInfo)) :=
  if isV0Url url then
    (env.getV0 (trimSlashes url ++ "/pkgs/list".toList) architecture).map (·.map V0PkgRelease.entry)
  else
    (env.listedPages url distribution architecture release (env.maxPages + 1) none).map
      (·.map PeerBinaryPackage.entry)

lemma fetchPages_eq (url : Text) (distribution architecture : String) (release : Option String)
    (pages : ℕ) (after : Option ℤ) (map : PackageMap PeerPkgInfo) :
    env.fetchPages url distribution architecture release pages after map =
      (env.listedPages url distribution architecture release pages after).map fun records =>
        (records.map PeerBinaryPackage.entry).foldl (fun map e => map.insert e.1 e.2) map := by
  induction pages generalizing after map with
  | zero => rfl
  | succ pages ih =>
    unfold fetchPages listedPages
    rcases env.getV1 (trimSlashes url ++ "/packages/binary".toList)
      { distribution, architecture, seenOnly := true, limit := 1000, after, release } with e | records
    · rfl
    · simp only [bind, Except.bind]
      split
      · simp [pure, Except.pure, Except.map, List.foldl_map]
      · rcases records.getLast? with _ | last
        · simp [pure, Except.pure, Except.map, List.foldl_map]
        · simp only [ih]
          rcases env.listedPages url distribution architecture release pages (some last.id) with e | rest
          · rfl
          · simp [pure, Except.pure, Except.map, List.foldl_map]

/-- A fetch keeps the last record of every package. -/
lemma fetch_eq (url : Text) (distribution architecture : String) (release : Option String) :
    env.fetchAllPeerPackages url distribution architecture release =
      (env.listed url distribution architecture release).map
        (·.foldl (fun map e => map.insert e.1 e.2) ∅) := by
  unfold fetchAllPeerPackages listed
  split
  · unfold fetchV0Packages
    rcases env.getV0 (trimSlashes url ++ "/pkgs/list".toList) architecture <;> rfl
  · unfold fetchV1Packages
    rw [fetchPages_eq]
    rcases env.listedPages url distribution architecture release (env.maxPages + 1) none <;> rfl

/-- The packages of the daemon, as often as they are selected. -/
def seen (distribution architecture : String) (db : Db) : List LocalRow :=
  env.selected.order (localRows distribution architecture db)

/-- The map of a fetch has the last record of every package. -/
lemma fetch_ok {url : Text} {distribution architecture : String} {release : Option String}
    {map : PackageMap PeerPkgInfo}
    (h : env.fetchAllPeerPackages url distribution architecture release = .ok map) :
    ∃ listing, env.listed url distribution architecture release = .ok listing ∧
      ∀ key, map.lookup key = listing.reverse.dlookup key := by
  rw [fetch_eq] at h
  rcases hlisted : env.listed url distribution architecture release with e | listing <;>
    rw [hlisted] at h
  · cases h
  · obtain rfl := Except.ok.inj h
    exact ⟨listing, rfl, fun key => by simp [lookup_foldl_insert]⟩

/-- The map of the daemon has the last row of every package. -/
lemma lookup_localPackages (distribution architecture : String) (db : PeerDb) (key : PackageKey) :
    (env.fetchLocalPackages distribution architecture db).lookup key =
      ((env.seen distribution architecture db.packages).map LocalRow.entry).reverse.dlookup key := by
  have hmap : env.fetchLocalPackages distribution architecture db =
      ((env.seen distribution architecture db.packages).map LocalRow.entry).foldl
        (fun map e => map.insert e.1 e.2) ∅ := by
    rw [List.foldl_map]
    rfl
  simp [hmap, lookup_foldl_insert]

end PeerEnv

/-! ### The cached rows -/

/-- The peer and the package a row is about. -/
abbrev CheckTarget := ℕ × PackageKey

def PeerSha256Check.target (c : PeerSha256Check) : CheckTarget :=
  (c.peerRebuilderId, c.binaryName, c.binaryVersion)

def UpsertPeerSha256Check.target (u : UpsertPeerSha256Check) : CheckTarget :=
  (u.peerRebuilderId, u.binaryName, u.binaryVersion)

def PeerDb.cached (db : PeerDb) : List CheckTarget := db.peerSha256Checks.rows.map (·.target)

section
variable {compared : List ℕ} {upserts : List UpsertPeerSha256Check} {db db' : PeerDb}

lemma UpsertPeerSha256Check.conflicts_iff (u : UpsertPeerSha256Check) (c : PeerSha256Check) :
    u.conflicts c = true ↔ c.target = u.target := by
  simp [conflicts, target, PeerSha256Check.target, and_assoc]

lemma cached_insert (u : UpsertPeerSha256Check) (db : PeerDb) :
    PeerDb.cached { db with peerSha256Checks := db.peerSha256Checks.insert u.row } =
      db.cached ++ [u.target] :=
  List.map_append

/-- A row that is inserted is the first one of its package. -/
lemma insertCheck_ok {u : UpsertPeerSha256Check} (h : u.insert db = .ok db') :
    db.peerSha256Checks.rows.find? u.conflicts = none ∧
      db' = { db with peerSha256Checks := db.peerSha256Checks.insert u.row } := by
  unfold UpsertPeerSha256Check.insert at h
  split at h
  · cases h
  · split at h
    · cases h
    · rename_i hnone
      exact ⟨by simpa using hnone, (Except.ok.inj h).symm⟩

lemma insertChecks_cons {u : UpsertPeerSha256Check}
    (h : (u :: upserts).foldlM (fun db u => UpsertPeerSha256Check.insert u db) db = .ok db') :
    ∃ mid, u.insert db = .ok mid ∧
      upserts.foldlM (fun db u => UpsertPeerSha256Check.insert u db) mid = .ok db' := by
  rw [List.foldlM_cons] at h
  rcases hinsert : u.insert db with e | mid <;> rw [hinsert] at h
  · cases h
  · exact ⟨mid, rfl, h⟩

lemma insertChecks_ok
    (h : upserts.foldlM (fun db u => UpsertPeerSha256Check.insert u db) db = .ok db') :
    db'.packages = db.packages ∧ db'.peerRebuilders = db.peerRebuilders ∧
      db'.cached = db.cached ++ upserts.map (·.target) := by
  induction upserts generalizing db with
  | nil =>
    cases h
    simp
  | cons u upserts ih =>
    obtain ⟨mid, hinsert, hrest⟩ := insertChecks_cons h
    obtain ⟨hpackages, hpeers, hcached⟩ := ih hrest
    obtain ⟨-, rfl⟩ := insertCheck_ok hinsert
    rw [cached_insert] at hcached
    exact ⟨hpackages, hpeers, hcached.trans (by simp)⟩

/-- A transaction that succeeds leaves the old rows of the other peers, and the new ones. -/
lemma replaceChecks_ok (h : replaceChecks compared upserts db = .ok db') :
    db'.packages = db.packages ∧ db'.peerRebuilders = db.peerRebuilders ∧
      db'.cached = (db.cached.filter fun t => !compared.contains t.1) ++ upserts.map (·.target) := by
  obtain ⟨hpackages, hpeers, hcached⟩ := insertChecks_ok h
  refine ⟨hpackages, hpeers, hcached.trans ?_⟩
  simp [PeerDb.cached, List.filter_map, PeerSha256Check.target, Function.comp_def]

/-- Of a peer that was compared, the new rows are left. -/
lemma mem_cached_replaced (h : replaceChecks compared upserts db = .ok db') {id : ℕ}
    (hid : id ∈ compared) (key : PackageKey) :
    (id, key) ∈ db'.cached ↔ (id, key) ∈ upserts.map (·.target) := by
  rw [(replaceChecks_ok h).2.2, List.mem_append]
  refine or_iff_right fun hold => ?_
  obtain ⟨-, hkept⟩ := List.mem_filter.mp hold
  simp [hid] at hkept

lemma insertChecks_succeed (hpeer : ∀ u ∈ upserts, ∃ p ∈ db.peerRebuilders.rows, p.id = u.peerRebuilderId)
    (hnodup : (upserts.map (·.target)).Nodup) (hnew : ∀ u ∈ upserts, u.target ∉ db.cached) :
    ∃ db', upserts.foldlM (fun db u => UpsertPeerSha256Check.insert u db) db = .ok db' := by
  induction upserts generalizing db with
  | nil => exact ⟨db, rfl⟩
  | cons u upserts ih =>
    obtain ⟨p, hp, hid⟩ := hpeer u List.mem_cons_self
    obtain ⟨hfirst, hrest⟩ := List.nodup_cons.mp hnodup
    have hexists : db.peerRebuilders.rows.any (·.id == u.peerRebuilderId) = true :=
      List.any_eq_true.mpr ⟨p, hp, by simpa using hid⟩
    have hfresh : db.peerSha256Checks.rows.any u.conflicts = false := by
      refine List.any_eq_false.mpr fun c hc hconf => hnew u List.mem_cons_self ?_
      exact List.mem_map.mpr ⟨c, hc, (u.conflicts_iff c).mp hconf⟩
    have hinsert : u.insert db =
        .ok { db with peerSha256Checks := db.peerSha256Checks.insert u.row } := by
      simp [UpsertPeerSha256Check.insert, hexists, hfresh]
    rw [List.foldlM_cons, hinsert]
    refine ih (fun v hv => hpeer v (List.mem_cons_of_mem _ hv)) hrest fun v hv hmem => ?_
    rw [cached_insert, List.mem_append, List.mem_singleton] at hmem
    rcases hmem with hmem | heq
    · exact hnew v (List.mem_cons_of_mem _ hv) hmem
    · exact hfirst (List.mem_map.mpr ⟨v, hv, heq⟩)

/-- The transaction succeeds, if the peers are there and no package comes twice. -/
lemma replaceChecks_succeeds
    (hpeer : ∀ u ∈ upserts, ∃ p ∈ db.peerRebuilders.rows, p.id = u.peerRebuilderId)
    (hnodup : (upserts.map (·.target)).Nodup)
    (hcompared : ∀ u ∈ upserts, u.peerRebuilderId ∈ compared) :
    ∃ db', replaceChecks compared upserts db = .ok db' := by
  refine insertChecks_succeed hpeer hnodup fun u hu hmem => ?_
  obtain ⟨c, hc, heq⟩ := List.mem_map.mp hmem
  obtain ⟨-, hkept⟩ := List.mem_filter.mp hc
  have hid : c.peerRebuilderId = u.peerRebuilderId := congrArg Prod.fst heq
  simp [hid, hcompared u hu] at hkept

end

/-! ### The comparison -/

/-- Whether a package of a peer is good on one side and bad on the other. -/
def disagrees (localPackages : PackageMap LocalPkgInfo) (e : PackageEntry PeerPkgInfo) : Bool :=
  (localPackages.lookup e.1).any fun info => statusDisagrees e.2.status info.status

/-- What the comparison of these peers finds. -/
def targets (env : PeerEnv) (localPackages : PackageMap LocalPkgInfo)
    (maps : List (PeerRebuilder × PackageMap PeerPkgInfo)) : List CheckTarget :=
  maps.flatMap fun m =>
    ((env.entries.order m.2.entries).filter (disagrees localPackages)).map fun e => (m.1.id, e.1)

section
variable {env : PeerEnv} {localPackages : PackageMap LocalPkgInfo}
  {maps : List (PeerRebuilder × PackageMap PeerPkgInfo)}

lemma mem_targets {id : ℕ} {key : PackageKey} : (id, key) ∈ targets env localPackages maps ↔
    ∃ m ∈ maps, m.1.id = id ∧ ∃ s t, m.2.lookup key = some s ∧ localPackages.lookup key = some t ∧
      statusDisagrees s.status t.status = true := by
  simp only [targets, List.mem_flatMap, List.mem_map, List.mem_filter, disagrees, Option.any_eq_true]
  refine exists_congr fun m => and_congr_right fun _ => ?_
  constructor
  · rintro ⟨⟨k, s⟩, ⟨hmem, t, ht, hdis⟩, heq⟩
    obtain ⟨hid, rfl⟩ := Prod.mk.inj heq
    exact ⟨hid, s, t, AList.mem_lookup_iff.mpr ((env.entries.perm _).mem_iff.mp hmem), ht, hdis⟩
  · rintro ⟨hid, s, t, hs, ht, hdis⟩
    exact ⟨⟨key, s⟩, ⟨(env.entries.perm _).mem_iff.mpr (AList.mem_lookup_iff.mp hs), t, ht, hdis⟩,
      by rw [hid]⟩

/-- No package of a peer is found twice. -/
lemma targets_nodup (h : (maps.map (·.1.id)).Nodup) : (targets env localPackages maps).Nodup := by
  refine List.nodup_flatMap.mpr ⟨fun m _ => ?_, (List.pairwise_map.mp h).imp fun hne t ht ht' => ?_⟩
  · have hkeys : ((env.entries.order m.2.entries).map Sigma.fst).Nodup :=
      ((env.entries.perm _).map Sigma.fst).nodup_iff.mpr m.2.keys_nodup
    refine List.Nodup.of_map Prod.snd ?_
    rw [List.map_map]
    exact hkeys.sublist ((List.filter_sublist).map Sigma.fst)
  · obtain ⟨e, -, rfl⟩ := List.mem_map.mp ht
    obtain ⟨e', -, heq⟩ := List.mem_map.mp ht'
    exact hne (congrArg Prod.fst heq).symm

end

section
open Prog
variable {φ : Type} {L : Rules PeerStmt PeerStmt.Answer Err Time φ} {F : φ → Err → Prop}
  {I : φ → Prop}

/-- The comparison of one peer reads the clock and nothing else. -/
lemma wp_compareEntry (hnow : ∀ x t, I x → L.ok x t .now ∧ ∀ r y, L.may x t .now r y →
      I y ∧ ∀ e, r = .error e → F y e) (localPackages : PackageMap LocalPkgInfo) (peer : PeerRebuilder)
    (upserts : List UpsertPeerSha256Check) (e : PackageEntry PeerPkgInfo) {x : φ} (hx : I x) :
    wp L (PeerHandler.compareEntry localPackages peer upserts e) (fun y out => I y ∧
      out.map (·.target) = upserts.map (·.target) ++
        ([e].filter (disagrees localPackages)).map fun e => (peer.id, e.1)) F x := by
  unfold PeerHandler.compareEntry
  rcases hl : localPackages.lookup e.1 with _ | info
  · simpa [disagrees, hl] using hx
  · dsimp only
    split
    · rename_i hdis
      rw [wp_bind, wp_stmt]
      intro t
      refine ⟨(hnow x t hx).1, fun r y hmay => ?_⟩
      obtain ⟨hy, herr⟩ := (hnow x t hx).2 r y hmay
      refine ⟨fun now _ => ⟨hy, ?_⟩, herr⟩
      simp [disagrees, hl, hdis, UpsertPeerSha256Check.target]
    · rename_i hdis
      simpa [disagrees, hl, hdis] using hx

lemma wp_compareEntries (hnow : ∀ x t, I x → L.ok x t .now ∧ ∀ r y, L.may x t .now r y →
      I y ∧ ∀ e, r = .error e → F y e) (localPackages : PackageMap LocalPkgInfo) (peer : PeerRebuilder)
    (entries : List (PackageEntry PeerPkgInfo)) (upserts : List UpsertPeerSha256Check) {x : φ}
    (hx : I x) :
    wp L (entries.foldlM (PeerHandler.compareEntry localPackages peer) upserts) (fun y out => I y ∧
      out.map (·.target) = upserts.map (·.target) ++
        (entries.filter (disagrees localPackages)).map fun e => (peer.id, e.1)) F x := by
  refine wp_mono (wp_foldlM (fun y (out : List UpsertPeerSha256Check) rest => I y ∧
    out.map (·.target) ++ (rest.filter (disagrees localPackages)).map (fun e => (peer.id, e.1)) =
      upserts.map (·.target) ++
        (entries.filter (disagrees localPackages)).map fun e => (peer.id, e.1))
    (fun y out e rest hy => ?_) entries upserts ⟨hx, rfl⟩) (fun y out hy => by simpa using hy)
    fun _ _ => id
  refine wp_mono (wp_compareEntry hnow localPackages peer out e hy.1) (fun z out' hz => ⟨hz.1, ?_⟩)
    fun _ _ => id
  rw [hz.2, ← hy.2, List.append_assoc, ← List.map_append, ← List.filter_append]
  rfl

/-- **The comparison finds the packages on which the two sides disagree.** -/
lemma wp_compareMaps (hnow : ∀ x t, I x → L.ok x t .now ∧ ∀ r y, L.may x t .now r y →
      I y ∧ ∀ e, r = .error e → F y e) (env : PeerEnv) (localPackages : PackageMap LocalPkgInfo)
    (maps : List (PeerRebuilder × PackageMap PeerPkgInfo)) {x : φ} (hx : I x) :
    wp L (maps.foldlM (fun upserts m => (env.entries.order m.2.entries).foldlM
        (PeerHandler.compareEntry localPackages m.1) upserts) [])
      (fun y out => I y ∧ out.map (·.target) = targets env localPackages maps) F x := by
  refine wp_mono (wp_foldlM (fun y (out : List UpsertPeerSha256Check) rest => I y ∧
    out.map (·.target) ++ targets env localPackages rest = targets env localPackages maps)
    (fun y out m rest hy => ?_) maps [] ⟨hx, rfl⟩) (fun y out hy => by simpa [targets] using hy)
    fun _ _ => id
  refine wp_mono (wp_compareEntries hnow localPackages m.1 _ out hy.1)
    (fun z out' hz => ⟨hz.1, ?_⟩) fun _ _ => id
  rw [hz.2, ← hy.2, List.append_assoc]
  rfl

end

end Rebuilderd.Daemon
