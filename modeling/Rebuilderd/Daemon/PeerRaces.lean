import Rebuilderd.Daemon.SharedHistory
import Rebuilderd.Daemon.PeerChecks

/-!
Whether the cache reflects all releases that were checked.

Any of the requests may be the one whose check ends last: its check reads the peers before the next
request is sent, and waits until the others are over.
-/

namespace Rebuilderd.Daemon

open Rebuilderd.Lib Rebuilderd.Common

/-! ### A check that ends last -/

section
open Prog
variable {env : PeerEnv} {x y : PeerDb} {h : Headers} {c : PeerChecks}

/-- The checks of one release only. -/
def PeerChecks.only (c : PeerChecks) (pair : Option String × Option String) : PeerChecks :=
  { c with releases := [pair], releases_ne := by simp }

lemma PeerChecks.exists_only {r : CheckPeersRequest} (hr : r ∈ c.requests) :
    ∃ pair, (c.only pair).requests = [r] := by
  obtain ⟨pair, -, rfl⟩ := List.mem_map.mp hr
  exact ⟨pair, rfl⟩

lemma PeerChecks.mem_peersOf {p : PeerRebuilder} :
    p ∈ peersOf c.distribution c.architecture y ↔ p ∈ y.peerRebuilders.rows ∧ c.Covers p := by
  simp [peersOf, Covers]

/-- The peers of the checks are still there, perhaps with another release. -/
def PeerChecks.Keeps (c : PeerChecks) (y z : PeerDb) : Prop :=
  z.packages = y.packages ∧ ∀ p ∈ y.peerRebuilders.rows, c.Covers p → p.url ∈ c.urls →
    ∃ q ∈ z.peerRebuilders.rows, q.id = p.id ∧ q.url = p.url ∧ c.Covers q

lemma PeerChecks.Keeps.refl (y : PeerDb) : c.Keeps y y :=
  ⟨rfl, fun p hp hcovers _ => ⟨p, hp, rfl, rfl, hcovers⟩⟩

lemma PeerChecks.Keeps.trans {z w : PeerDb} (h : c.Keeps y z) (h' : c.Keeps z w) : c.Keeps y w := by
  refine ⟨h'.1.trans h.1, fun p hp hcovers hurl => ?_⟩
  obtain ⟨q, hq, hid, hqurl, hqcovers⟩ := h.2 p hp hcovers hurl
  obtain ⟨q', hq', hid', hqurl', hqcovers'⟩ := h'.2 q hq hqcovers (hqurl ▸ hurl)
  exact ⟨q', hq', hid'.trans hid, hqurl'.trans hqurl, hqcovers'⟩

/-- The peer can be fetched under the alias of the request. -/
def Fetchable (env : PeerEnv) (c : PeerChecks) (url releaseAlias : String) : Prop :=
  ∃ map, env.fetchAllPeerPackages (resolveUrl url c.architecture) c.distribution c.architecture
    (releaseFilter releaseAlias) = .ok map

/-- The statements that never fail. -/
lemma wp_faultless {s : PeerStmt} {a : s.Answer} {y z : PeerDb} {Q : PeerDb → s.Answer → Prop}
    {F : PeerDb → Err → Prop} (hs : ∀ t, env.exec t s y = .ok (a, z)) (hQ : Q z a) :
    wp env.exec.faultless (peerSql s) Q F y := by
  rw [wp_stmt]
  refine fun t => ⟨⟨a, z, hs t⟩, fun r y' hmay => ?_⟩
  have hans : env.exec.answer t s y = (.ok a, z) := by simp [Exec.answer, hs t]
  obtain ⟨rfl, rfl⟩ := Prod.mk.inj (hans.symm.trans hmay)
  refine ⟨fun a' heq => ?_, fun e heq => ?_⟩
  · cases heq
    exact hQ
  · cases heq

lemma keeps_upsert {r : CheckPeersRequest} (hr : r ∈ c.requests) (url : String) (y : PeerDb) :
    c.Keeps y ((newPeer r url).upsert y) := by
  refine ⟨rfl, fun p hp hcovers _ => ?_⟩
  obtain ⟨q, hq, hid, hqurl, hqcovers⟩ := PeerChecks.mem_upsert_of_mem hr url hp
  exact ⟨q, hq, hid, hqurl, hqcovers hcovers⟩

lemma keeps_delete (y : PeerDb) :
    c.Keeps y (deletePeers (stalePeer c.distribution c.architecture c.urls) y) := by
  refine ⟨rfl, fun p hp hcovers hurl => ⟨p, ?_, rfl, rfl, hcovers⟩⟩
  exact (Table.mem_delete y.peerRebuilders).mpr ⟨hp, by simp [stalePeer, hurl]⟩

/-- Registering the peers settles the checks of the request. -/
lemma wp_register_settled (hadmin : Handler.admin env.config h = true) {r : CheckPeersRequest}
    (hr : c.requests = [r]) (y : PeerDb) :
    wp env.exec.faultless (PeerHandler.register env.config h r)
      (fun z a => a = .accepted ∧ c.Keeps y z ∧ c.Settled z) (fun _ _ => False) y := by
  have hmem : r ∈ c.requests := hr ▸ List.mem_cons_self
  obtain ⟨hdistribution, harchitecture, hurls⟩ := PeerChecks.of_mem_requests hmem
  have hupsert {url : String} (hurl : url ∈ c.urls) :
      c.Executes env (.upsertPeer (newPeer r url)) := ⟨r, hmem, [], url, hurls ▸ hurl, rfl⟩
  have hdelete : c.Executes env (.deleteStalePeers c.distribution c.architecture c.urls) :=
    ⟨r, hmem, [], hdistribution.symm, harchitecture.symm, hurls.symm⟩
  unfold PeerHandler.register
  rw [hadmin, hdistribution, harchitecture, hurls]
  refine (wp_bind _ _).mpr (wp_mono (wp_foldlM (fun z _ rest => c.Keeps y z ∧
    (∀ url ∈ rest, url ∈ c.urls) ∧ ∀ url ∈ c.urls, url ∈ rest ∨ c.Known url z)
    (fun z _ url rest hz => ?_) c.urls ()
      ⟨.refl y, fun _ => id, fun _ => .inl⟩) (fun z _ hz => ?_) fun _ _ => id)
  · obtain ⟨hkeeps, hrest, hknown⟩ := hz
    have hurl := hrest url List.mem_cons_self
    refine wp_faultless (fun _ => rfl) ⟨hkeeps.trans (keeps_upsert hmem url z),
      fun u hu => hrest u (List.mem_cons_of_mem _ hu), fun u hu => ?_⟩
    rcases hknown u hu with hu' | hu'
    · rcases List.mem_cons.mp hu' with rfl | hu'
      · exact .inr (PeerChecks.known_upsert hmem u z)
      · exact .inl hu'
    · exact .inr (hu'.step hu (hupsert hurl) 0)
  · obtain ⟨hkeeps, -, hknown⟩ := hz
    refine (wp_bind _ _).mpr (wp_faultless (fun _ => rfl) ⟨rfl, hkeeps.trans (keeps_delete z), ?_, ?_⟩)
    · exact fun url hurl => ((hknown url hurl).resolve_left (by simp)).step hurl hdelete 0
    · exact PeerChecks.configured_delete z

/-- Registering the peers gives all of them the alias of the request. -/
lemma wp_register_faultless (hadmin : Handler.admin env.config h = true) {r : CheckPeersRequest}
    (hr : r ∈ c.requests) (y : PeerDb) :
    wp env.exec.faultless (PeerHandler.register env.config h r)
      (fun z a => a = .accepted ∧ c.Keeps y z ∧
        (∀ url ∈ c.urls, ∃ p ∈ peersOf c.distribution c.architecture z, p.url = url) ∧
        ∀ p ∈ peersOf c.distribution c.architecture z,
          p.url ∈ c.urls ∧ p.releaseAlias = effectiveAlias r) (fun _ _ => False) y := by
  obtain ⟨pair, honly⟩ := PeerChecks.exists_only hr
  refine wp_mono (wp_register_settled hadmin honly y) (fun z a hz => ?_) fun _ _ => id
  obtain ⟨haccepted, hkeeps, hknown, hconfigured⟩ := hz
  refine ⟨haccepted, hkeeps, fun url hurl => ?_, fun p hp => ?_⟩
  · obtain ⟨p, hp, hcovers, hpurl⟩ := (hknown url hurl).1
    exact ⟨p, PeerChecks.mem_peersOf.mpr ⟨hp, hcovers⟩, hpurl⟩
  · obtain ⟨hp, hcovers⟩ := PeerChecks.mem_peersOf.mp hp
    have hurl := hconfigured p hp hcovers
    obtain ⟨r', hr', halias⟩ := (hknown p.url hurl).2 p hp hcovers rfl
    rw [honly, List.mem_singleton] at hr'
    exact ⟨hurl, hr' ▸ halias⟩

/-- Fetching peers that answer changes nothing and leaves none of them out. -/
lemma wp_fetchPeers_faultless {peers : List PeerRebuilder} (y : PeerDb)
    (hfetch : ∀ p ∈ peers, Fetchable env c p.url p.releaseAlias) :
    wp env.exec.faultless (PeerHandler.fetchPeers c.distribution c.architecture peers)
      (fun z maps => z = y ∧ maps.map Prod.fst = peers ∧ ∀ m ∈ maps,
        env.fetchAllPeerPackages (resolveUrl m.1.url c.architecture) c.distribution c.architecture
          (releaseFilter m.1.releaseAlias) = .ok m.2) (fun _ _ => False) y := by
  refine wp_mono (wp_foldlM (fun z maps rest => z = y ∧ maps.map Prod.fst ++ rest = peers ∧ ∀ m ∈ maps,
    env.fetchAllPeerPackages (resolveUrl m.1.url c.architecture) c.distribution c.architecture
      (releaseFilter m.1.releaseAlias) = .ok m.2) (fun z maps p rest hz => ?_) peers []
    ⟨rfl, rfl, by simp⟩) (fun z maps hz => by simpa using hz) fun _ _ => id
  obtain ⟨rfl, hsplit, hmaps⟩ := hz
  obtain ⟨map, hmap⟩ := hfetch p (hsplit ▸ by simp)
  have hexec (t : Time) : env.exec t (.fetchAllPeerPackages (resolveUrl p.url c.architecture)
      c.distribution c.architecture (releaseFilter p.releaseAlias)) z = .ok (map, z) := by
    simp [PeerEnv.exec, hmap, Except.map]
  refine (wp_bind _ _).mpr ((wp_attempt _).mpr (wp_faultless hexec
    ⟨rfl, by simpa using hsplit, fun m hm => ?_⟩))
  rcases List.mem_append.mp hm with hm | hm
  · exact hmaps m hm
  · obtain rfl := List.mem_singleton.mp hm
    exact hmap

/-- **A comparison that ends with nothing else in between caches what it has found.** -/
lemma wp_comparePeers_faultless {peers : List PeerRebuilder} (y : PeerDb)
    (hfetch : ∀ p ∈ peers, Fetchable env c p.url p.releaseAlias)
    (hrows : ∀ p ∈ peers, ∃ q ∈ y.peerRebuilders.rows, q.id = p.id)
    (hnodup : (peers.map (·.id)).Nodup) :
    wp env.exec.faultless (PeerHandler.comparePeers env c.distribution c.architecture peers)
      (fun z _ => z.packages = y.packages ∧ z.peerRebuilders = y.peerRebuilders ∧
        ∀ p ∈ peers, ∀ key, (p.id, key) ∈ z.cached ↔
          LastDisagrees env y.packages c p.url p.releaseAlias key) (fun _ _ => False) y := by
  have hperm := env.fetched.perm peers
  unfold PeerHandler.comparePeers
  split
  · rename_i hempty
    rw [List.isEmpty_iff.mp hempty]
    exact ⟨rfl, rfl, by simp⟩
  · rename_i hsome
    refine (wp_bind _ _).mpr (wp_mono (wp_fetchPeers_faultless y fun p hp =>
      hfetch p (hperm.mem_iff.mp hp)) (fun z maps hz => ?_) fun _ _ => id)
    obtain ⟨rfl, hmaps, hfetched⟩ := hz
    rw [← hmaps] at hperm
    split
    · rename_i hnone
      rw [List.isEmpty_iff.mp hnone] at hperm
      exact absurd (List.isEmpty_iff.mpr (List.nil_perm.mp hperm)) hsome
    · refine (wp_bind _ _).mpr (wp_faultless (fun _ => rfl) ((wp_bind _ _).mpr ?_))
      refine wp_mono (wp_compareMaps (L := env.exec.faultless) (I := fun w => w = z) (fun w t hw => ⟨⟨t, w, rfl⟩, ?_⟩) env
        (env.fetchLocalPackages c.distribution c.architecture z) maps rfl) (fun w upserts hw => ?_)
        fun _ _ => id
      · intro r w' hmay
        obtain ⟨rfl, rfl⟩ := Prod.mk.inj hmay
        exact ⟨hw, nofun⟩
      · obtain ⟨rfl, hfound⟩ := hw
        have hids : (maps.map (·.1.id)).Perm (peers.map (·.id)) := by
          have := hperm.map (·.id)
          rwa [List.map_map] at this
        have htarget (u : UpsertPeerSha256Check) (hu : u ∈ upserts) :
            ∃ m ∈ maps, m.1.id = u.peerRebuilderId := by
          have hmem : u.target ∈ targets env (env.fetchLocalPackages c.distribution c.architecture w)
              maps := hfound ▸ List.mem_map.mpr ⟨u, hu, rfl⟩
          obtain ⟨m, hm, hid, -⟩ := mem_targets.mp hmem
          exact ⟨m, hm, hid⟩
        have hpeer (u : UpsertPeerSha256Check) (hu : u ∈ upserts) :
            ∃ q ∈ w.peerRebuilders.rows, q.id = u.peerRebuilderId := by
          obtain ⟨m, hm, hid⟩ := htarget u hu
          rw [← hid]
          exact hrows m.1 (hperm.mem_iff.mp (List.mem_map.mpr ⟨m, hm, rfl⟩))
        have hcompared (u : UpsertPeerSha256Check) (hu : u ∈ upserts) :
            u.peerRebuilderId ∈ maps.map (·.1.id) := by
          obtain ⟨m, hm, hid⟩ := htarget u hu
          exact List.mem_map.mpr ⟨m, hm, hid⟩
        obtain ⟨w', hrep⟩ := replaceChecks_succeeds hpeer
          (hfound ▸ targets_nodup (hids.nodup_iff.mpr hnodup)) hcompared
        have hexec (t : Time) : env.exec t (.replaceChecks (maps.map (·.1.id)) upserts) w =
            .ok ((), w') := by
          simp [PeerEnv.exec, hrep, Except.map]
        obtain ⟨hpackages, hpeers, -⟩ := replaceChecks_ok hrep
        refine wp_faultless hexec ⟨hpackages, hpeers, fun p hp key => ?_⟩
        obtain ⟨m, hm, rfl⟩ := List.mem_map.mp (hperm.mem_iff.mpr hp)
        have hunique (m' : PeerRebuilder × PackageMap PeerPkgInfo) (hm' : m' ∈ maps)
            (hid : m'.1.id = m.1.id) : m'.2 = m.2 :=
          congrArg Prod.snd (List.inj_on_of_nodup_map (hids.nodup_iff.mpr hnodup) hm' hm hid)
        rw [mem_cached_replaced hrep (List.mem_map.mpr ⟨m, hm, rfl⟩), hfound]
        exact mem_targets_iff hm hunique (hfetched m hm) key

end

/-! ### Schedules -/

section
open Prog
variable {env : PeerEnv} {x y : PeerDb} {h : Headers} {c : PeerChecks}

/-- A request whose check has read the peers and waits. -/
def waiting (env : PeerEnv) (c : PeerChecks) (peers : List PeerRebuilder) :
    PeerHandler PeerResponse :=
  (PeerHandler.comparePeers env c.distribution c.architecture peers).attempt >>= fun _ =>
    return .accepted

abbrev PeerThread :=
  Thread PeerStmt PeerStmt.Answer Err PeerResponse (Headers × CheckPeersRequest)

/-- A request whose check is over. -/
def finished (h : Headers) (r : CheckPeersRequest) : PeerThread := ⟨(h, r), return .accepted⟩

/-- A request that has been answered, and what is left of it to do. -/
def answered (env : PeerEnv) (r : CheckPeersRequest) : PeerHandler PeerResponse :=
  (PeerHandler.runPeerCheck env r.distribution r.architecture).attempt >>= fun _ => return .accepted

/-- What is left to do once the peers are read. -/
def afterRead (env : PeerEnv) (c : PeerChecks) :
    Except Err (List PeerRebuilder) → PeerHandler PeerResponse
  | .ok peers => waiting env c peers
  | .error _ => return .accepted

lemma answered_eq {r : CheckPeersRequest} (hr : r ∈ c.requests) : answered env r =
    (peerSql (.peersOf c.distribution c.architecture)).attempt >>= afterRead env c := by
  obtain ⟨hdistribution, harchitecture, -⟩ := PeerChecks.of_mem_requests hr
  unfold answered PeerHandler.runPeerCheck
  rw [hdistribution, harchitecture]
  refine congrArg (Prog.op _) (funext fun reply => ?_)
  cases reply <;> rfl

abbrev Reach (env : PeerEnv) (x : PeerDb) (y : PeerDb) (threads : List PeerThread) : Prop :=
  Pool.Reached env.exec (PeerHandler.checkPeers env) PeerStmt.answers x ⟨y, threads⟩

/-- The next request is sent and answered. -/
lemma Reach.send {threads : List PeerThread} (hreach : Reach env x y threads)
    (hadmin : Handler.admin env.config h = true) {r : CheckPeersRequest} (hr : r ∈ c.requests) :
    ∃ z, Reach env x z (threads ++ [⟨(h, r), answered env r⟩]) ∧ c.Keeps y z ∧
      (∀ url ∈ c.urls, ∃ p ∈ peersOf c.distribution c.architecture z, p.url = url) ∧
      ∀ p ∈ peersOf c.distribution c.architecture z,
        p.url ∈ c.urls ∧ p.releaseAlias = effectiveAlias r := by
  have hgiven (own : PeerSteps) (hown : Registered r own) : ∃ s ∈ own, PeerStmt.answers s.stmt := by
    obtain ⟨s, hs, hstmt⟩ := hown.2
    exact ⟨s, hs, by rw [hstmt]; trivial⟩
  obtain ⟨z, a, ⟨rfl, hz⟩, hreach⟩ := hreach.call 0 (c := (h, r)) rfl
    (wp_register_faultless hadmin hr y) (@wp_register_journal env r env.config h)
    fun z a own hz hown => hgiven own (hown hz.1)
  exact ⟨z, hreach, hz⟩

/-- What a check compares can be fetched, and the peers are there. -/
lemma wp_compare_read (hfetch : ∀ r ∈ c.requests, ∀ url ∈ c.urls, Fetchable env c url (effectiveAlias r))
    {r : CheckPeersRequest} (hr : r ∈ c.requests) {z : PeerDb}
    (hpeers : ∀ p ∈ peersOf c.distribution c.architecture y,
      p.url ∈ c.urls ∧ p.releaseAlias = effectiveAlias r) (hkeeps : c.Keeps y z) :
    wp env.exec.faultless (PeerHandler.comparePeers env c.distribution c.architecture
        (peersOf c.distribution c.architecture y))
      (fun w _ => w.packages = z.packages ∧ w.peerRebuilders = z.peerRebuilders ∧
        ∀ p ∈ peersOf c.distribution c.architecture y, ∀ key, (p.id, key) ∈ w.cached ↔
          LastDisagrees env z.packages c p.url p.releaseAlias key) (fun _ _ => False) z := by
  refine wp_comparePeers_faultless z (fun p hp => ?_) (fun p hp => ?_) ?_
  · obtain ⟨hurl, halias⟩ := hpeers p hp
    exact halias ▸ hfetch r hr p.url hurl
  · obtain ⟨hrow, hcovers⟩ := PeerChecks.mem_peersOf.mp hp
    obtain ⟨q, hq, hid, -⟩ := hkeeps.2 p hrow hcovers (hpeers p hp).1
    exact ⟨q, hq, hid⟩
  · exact ((y.peerRebuilders.sorted.filter _).imp Nat.ne_of_lt).map _ fun _ _ => id

/-- A check runs to its end before anything else happens. -/
lemma Reach.serve {threads : List PeerThread} (hreach : Reach env x y threads)
    (hadmin : Handler.admin env.config h = true)
    (hfetch : ∀ r ∈ c.requests, ∀ url ∈ c.urls, Fetchable env c url (effectiveAlias r))
    {r : CheckPeersRequest} (hr : r ∈ c.requests) :
    ∃ z, Reach env x z (threads ++ [finished h r]) ∧ c.Keeps y z := by
  obtain ⟨hdistribution, harchitecture, -⟩ := PeerChecks.of_mem_requests hr
  obtain ⟨z, hreach, hkeeps, -, hpeers⟩ := hreach.send hadmin hr
  have hwp : wp env.exec.faultless
      (PeerHandler.runPeerCheck env r.distribution r.architecture).attempt
      (fun w _ => w.packages = z.packages ∧ w.peerRebuilders = z.peerRebuilders)
      (fun _ _ => False) z := by
    rw [hdistribution, harchitecture]
    refine (wp_attempt _).mpr ((wp_bind _ _).mpr (wp_faultless (fun _ => rfl) ?_))
    refine wp_mono (wp_compare_read hfetch hr hpeers (.refl z)) (fun w _ hw => ⟨hw.1, hw.2.1⟩)
      fun _ _ => False.elim
  have hthread : (threads ++ [⟨(h, r), answered env r⟩])[threads.length]? = some ⟨(h, r),
      (PeerHandler.runPeerCheck env r.distribution r.architecture).attempt >>= fun _ =>
        return .accepted⟩ := by
    simp [answered]
  obtain ⟨w, a, ⟨hpackages, hrows⟩, hreach⟩ := hreach.resume 0 hthread hwp
  refine ⟨w, ?_, hkeeps.trans ⟨hpackages, fun p hp hcovers _ => ⟨p, hrows ▸ hp, rfl, rfl, hcovers⟩⟩⟩
  rw [List.set_append_right _ _ le_rfl] at hreach
  simpa [finished] using hreach

/-- One check after the other. -/
lemma Reach.serveAll {threads : List PeerThread} (hreach : Reach env x y threads)
    (hadmin : Handler.admin env.config h = true)
    (hfetch : ∀ r ∈ c.requests, ∀ url ∈ c.urls, Fetchable env c url (effectiveAlias r))
    {rs : List CheckPeersRequest} (hrs : ∀ r ∈ rs, r ∈ c.requests) :
    ∃ z, Reach env x z (threads ++ rs.map (finished h)) ∧ c.Keeps y z := by
  induction rs generalizing y threads with
  | nil => exact ⟨y, by simpa using hreach, .refl y⟩
  | cons r rs ih =>
    obtain ⟨hr, hrs⟩ := List.forall_mem_cons.mp hrs
    obtain ⟨z, hreach, hkeeps⟩ := hreach.serve hadmin hfetch hr
    obtain ⟨w, hreach, hkeeps'⟩ := ih hreach hrs
    exact ⟨w, by simpa using hreach, hkeeps.trans hkeeps'⟩

/-- The next request is answered, and its check waits once it has read the peers. -/
lemma Reach.wait {threads : List PeerThread} (hreach : Reach env x y threads)
    (hadmin : Handler.admin env.config h = true) {r : CheckPeersRequest} (hr : r ∈ c.requests) :
    ∃ z, Reach env x z
        (threads ++ [⟨(h, r), waiting env c (peersOf c.distribution c.architecture z)⟩]) ∧
      c.Keeps y z ∧
      (∀ url ∈ c.urls, ∃ p ∈ peersOf c.distribution c.architecture z, p.url = url) ∧
      ∀ p ∈ peersOf c.distribution c.architecture z,
        p.url ∈ c.urls ∧ p.releaseAlias = effectiveAlias r := by
  obtain ⟨z, hreach, hz⟩ := hreach.send hadmin hr
  have hread : wp env.exec.faultless (peerSql (.peersOf c.distribution c.architecture)).attempt
      (fun w reply => w = z ∧ reply = .ok (peersOf c.distribution c.architecture z))
      (fun _ _ => False) z :=
    (wp_attempt _).mpr (wp_faultless (fun _ => rfl) ⟨rfl, rfl⟩)
  have hthread : (threads ++ [⟨(h, r), answered env r⟩])[threads.length]? = some ⟨(h, r),
      (peerSql (.peersOf c.distribution c.architecture)).attempt >>= afterRead env c⟩ := by
    simp [answered_eq hr]
  obtain ⟨_, _, ⟨rfl, rfl⟩, hreach⟩ := hreach.resume 0 hthread hread
  rw [List.set_append_right _ _ le_rfl] at hreach
  exact ⟨_, by simpa [afterRead] using hreach, hz⟩

/-- The check that waits compares what it has read, and ends. -/
lemma Reach.finish {before after : List PeerThread} {r : CheckPeersRequest} {z : PeerDb}
    (hreach : Reach env x z (before ++
      ⟨(h, r), waiting env c (peersOf c.distribution c.architecture y)⟩ :: after))
    (hfetch : ∀ r ∈ c.requests, ∀ url ∈ c.urls, Fetchable env c url (effectiveAlias r))
    (hr : r ∈ c.requests) (hpeers : ∀ p ∈ peersOf c.distribution c.architecture y,
      p.url ∈ c.urls ∧ p.releaseAlias = effectiveAlias r) (hkeeps : c.Keeps y z) :
    ∃ w, Reach env x w (before ++ finished h r :: after) ∧
      w.packages = z.packages ∧ w.peerRebuilders = z.peerRebuilders ∧
        ∀ p ∈ peersOf c.distribution c.architecture y, ∀ key, (p.id, key) ∈ w.cached ↔
          LastDisagrees env z.packages c p.url p.releaseAlias key := by
  have hwp : wp env.exec.faultless (PeerHandler.comparePeers env c.distribution c.architecture
        (peersOf c.distribution c.architecture y)).attempt
      (fun w _ => w.packages = z.packages ∧ w.peerRebuilders = z.peerRebuilders ∧
        ∀ p ∈ peersOf c.distribution c.architecture y, ∀ key, (p.id, key) ∈ w.cached ↔
          LastDisagrees env z.packages c p.url p.releaseAlias key) (fun _ _ => False) z :=
    (wp_attempt _).mpr (wp_mono (wp_compare_read hfetch hr hpeers hkeeps) (fun _ _ => id)
      fun _ _ => False.elim)
  have hthread : (before ++ ⟨(h, r), waiting env c (peersOf c.distribution c.architecture y)⟩ ::
      after)[before.length]? = some ⟨(h, r), (PeerHandler.comparePeers env c.distribution
        c.architecture (peersOf c.distribution c.architecture y)).attempt >>= fun _ =>
          return .accepted⟩ := by
    simp [waiting]
  obtain ⟨w, _, hw, hreach⟩ := hreach.resume 0 hthread hwp
  rw [List.set_append_right _ _ le_rfl] at hreach
  exact ⟨w, by simpa [finished] using hreach, hw⟩

/-- Checks that are all over come from a finished run. -/
lemma Reach.finished (hreach : Reach env x y (c.requests.map (finished h))) :
    ∃ as, Finished env x h c as ∧ (env.runPool x as).state = y := by
  obtain ⟨as, hrun, hturn, hfault, -⟩ := hreach
  have hrun' : env.runPool x as = ⟨y, c.requests.map (Daemon.finished h)⟩ := hrun
  refine ⟨as, ⟨?_, hturn, ?_, hfault⟩, by rw [hrun']⟩
  · rw [hrun', List.map_map]
    rfl
  · intro th hth
    rw [hrun'] at hth
    obtain ⟨r, -, rfl⟩ := List.mem_map.mp hth
    rfl

/-- **Any of the requests can be the one whose check ends last.** -/
lemma exists_last_check (hadmin : Handler.admin env.config h = true)
    (hfetch : ∀ r ∈ c.requests, ∀ url ∈ c.urls, Fetchable env c url (effectiveAlias r))
    {r : CheckPeersRequest} (hr : r ∈ c.requests) {url : String} (hurl : url ∈ c.urls) (x : PeerDb) :
    ∃ as, Finished env x h c as ∧ ∃ p ∈ (env.runPool x as).state.peerRebuilders.rows, c.Covers p ∧
      p.url = url ∧ ∀ key, (p.id, key) ∈ (env.runPool x as).state.cached ↔
        LastDisagrees env x.packages c url (effectiveAlias r) key := by
  obtain ⟨before, after, hsplit⟩ := List.append_of_mem hr
  have hbefore (r' : CheckPeersRequest) (h : r' ∈ before) : r' ∈ c.requests := by simp [hsplit, h]
  have hafter (r' : CheckPeersRequest) (h : r' ∈ after) : r' ∈ c.requests := by simp [hsplit, h]
  have hstart : Reach env x x [] := Pool.Reached.start
  obtain ⟨y₁, hreach, hkeeps₁⟩ := hstart.serveAll hadmin hfetch hbefore
  obtain ⟨y₂, hreach, hkeeps₂, hknown, hpeers⟩ := hreach.wait hadmin hr
  obtain ⟨y₃, hreach, hkeeps₃⟩ := hreach.serveAll hadmin hfetch hafter
  rw [List.nil_append, List.append_assoc, List.singleton_append] at hreach
  obtain ⟨y₄, hreach, hpackages, hrows, hcached⟩ := hreach.finish hfetch hr hpeers hkeeps₃
  have hall : before.map (finished h) ++ finished h r :: after.map (finished h) =
      c.requests.map (finished h) := by simp [hsplit]
  rw [hall] at hreach
  obtain ⟨as, hfinished, rfl⟩ := hreach.finished
  refine ⟨as, hfinished, ?_⟩
  obtain ⟨p, hp, rfl⟩ := hknown url hurl
  obtain ⟨hrow, hcovers⟩ := PeerChecks.mem_peersOf.mp hp
  obtain ⟨q, hq, hid, hqurl, hqcovers⟩ := hkeeps₃.2 p hrow hcovers hurl
  refine ⟨q, hrows ▸ hq, hqcovers, hqurl, fun key => ?_⟩
  rw [hid, hcached p hp key, (hpeers p hp).2, hkeeps₃.1, hkeeps₂.1, hkeeps₁.1]

/-! ### What the cache should hold -/

/-- Whether a package of the daemon is of the release of a request, which may be none. -/
def LocalRow.ofRelease (r : CheckPeersRequest) (row : LocalRow) : Prop :=
  effectiveRelease r = "" ∨ row.release = some (effectiveRelease r)

instance (r : CheckPeersRequest) (row : LocalRow) : Decidable (row.ofRelease r) :=
  inferInstanceAs (Decidable (_ ∨ _))

/-- For one of the requested releases, the peer lists the package under the alias of that release
and the daemon has it in that release, good on one side and bad on the other. -/
def Disagreement (env : PeerEnv) (db : Db) (c : PeerChecks) (url : String) (key : PackageKey) : Prop :=
  ∃ r ∈ c.requests, ∃ listing, env.listed (resolveUrl url c.architecture) c.distribution
      c.architecture (releaseFilter (effectiveAlias r)) = .ok listing ∧
    ∃ e ∈ listing, e.1 = key ∧ ∃ row ∈ localRows c.distribution c.architecture db,
      row.ofRelease r ∧ row.entry.1 = key ∧ statusDisagrees e.2.status row.entry.2.status = true

/-- Whenever the checks are over, the rows of every peer are the disagreements of all releases. -/
def Reflects (env : PeerEnv) (x : PeerDb) (h : Headers) (c : PeerChecks) : Prop :=
  ∀ as, Finished env x h c as → ∀ p ∈ (env.runPool x as).state.peerRebuilders.rows, c.Covers p →
    ∀ key, (p.id, key) ∈ (env.runPool x as).state.cached ↔ Disagreement env x.packages c p.url key

/-- Under every alias the peer can be asked for, the packages it lists last that disagree with the
ones the daemon selects last are the disagreements of all releases. -/
def SameForAll (env : PeerEnv) (db : Db) (c : PeerChecks) : Prop :=
  ∀ r ∈ c.requests, ∀ url ∈ c.urls, Fetchable env c url (effectiveAlias r) → ∀ key,
    LastDisagrees env db c url (effectiveAlias r) key ↔ Disagreement env db c url key

/-- **When the cache reflects all releases**: if each of them finds the disagreements of all, and
only then, where all peers can be fetched. -/
theorem peerCache_iff (env : PeerEnv) (x : PeerDb) (h : Headers) (c : PeerChecks)
    (hadmin : Handler.admin env.config h = true) :
    (SameForAll env x.packages c → Reflects env x h c) ∧
      ((∀ r ∈ c.requests, ∀ url ∈ c.urls, Fetchable env c url (effectiveAlias r)) →
        Reflects env x h c → SameForAll env x.packages c) := by
  refine ⟨fun hsame as hf p hp hcovers key => ?_, fun hfetch hreflects r hr url hurl _ key => ?_⟩
  · obtain ⟨hurl, r, hr, hfetchable, hcached⟩ := hf.lastCheck hp hcovers
    exact (hcached key).trans (hsame r hr p.url hurl hfetchable key)
  · obtain ⟨as, hf, p, hp, hcovers, rfl, hcached⟩ := exists_last_check hadmin hfetch hr hurl x
    exact (hcached key).symm.trans (hreflects as hf p hp hcovers key)

end

/-! ### Two releases -/

/-- A peer that lists `hello` as good in `unstable`, and nothing in its other releases. -/
def unstablePeer : PeerEnv where
  config := (openDaemon none).config
  getV1 _ q := .ok (if q.release = some "unstable" then
    [⟨1, "hello", "1.0", some .good, none, some .good⟩] else [])
  getV0 _ _ := .ok []
  maxPages := 0
  fetched := unshuffled
  entries := unshuffled
  selected := unshuffled

/-- `hello` of `sid` is rebuilt and bad. -/
def badHello : List Request :=
  atOnce [.submitPackageReport adminHeaders ⟨"debian", some "sid", none, "amd64",
      [{ package "hello" "https://hello" with
        artifacts := [⟨"hello", "1.0", "amd64", "https://pool/hello"⟩] }]⟩,
    .requestWork (workerHeaders "alice") ⟨["debian"], "amd64", ["amd64"]⟩,
    .submitRebuildReport (workerHeaders "alice") ⟨1, 0, [], .bad, [⟨"hello", none, none, .bad⟩]⟩]

def badHelloDb : PeerDb := ⟨badHello.foldl (served (openDaemon none)) (openDaemon none).start, .empty, .empty⟩

/-- A release that is known by two names. -/
def sidChecks : PeerChecks :=
  ⟨"debian", "amd64", ["https://peer"], [(some "sid", some "unstable"), (some "unstable", none)],
    by simp⟩

/-- Under either of them the peer is asked for the same packages. -/
lemma listed_sidChecks : ∀ r ∈ sidChecks.requests,
    unstablePeer.listed (resolveUrl "https://peer" "amd64") "debian" "amd64"
      (releaseFilter (effectiveAlias r)) = .ok [⟨("hello", "1.0"), .good, none⟩] := by
  intro r hr
  have hr' : r = ⟨"debian", "amd64", some "sid", some "unstable", ["https://peer"]⟩ ∨
      r = ⟨"debian", "amd64", some "unstable", none, ["https://peer"]⟩ := by
    simpa [sidChecks, PeerChecks.requests] using hr
  rcases hr' with rfl | rfl <;> rfl

theorem peerCache_iff_sidChecks : Reflects unstablePeer badHelloDb adminHeaders sidChecks := by
  refine (peerCache_iff unstablePeer badHelloDb adminHeaders sidChecks rfl).1 ?_
  intro r hr url hurl _ key
  obtain rfl : url = "https://peer" := by simpa [sidChecks] using hurl
  constructor
  · rintro ⟨listing, s, -, hlisted, hs, -⟩
    obtain rfl : [⟨("hello", "1.0"), .good, none⟩] = listing :=
      Except.ok.inj ((listed_sidChecks r hr).symm.trans hlisted)
    have hmem := List.dlookup_isSome.mp (Option.isSome_of_eq_some hs)
    obtain rfl : key = ("hello", "1.0") := by simpa [List.keys] using hmem
    exact ⟨⟨"debian", "amd64", some "sid", some "unstable", ["https://peer"]⟩, by decide,
      [⟨("hello", "1.0"), .good, none⟩], rfl, _, List.mem_cons_self, rfl, by decide +kernel⟩
  · rintro ⟨r', hr', listing, hlisted, e, he, rfl, -⟩
    obtain rfl : [⟨("hello", "1.0"), .good, none⟩] = listing :=
      Except.ok.inj ((listed_sidChecks r' hr').symm.trans hlisted)
    obtain rfl : e = ⟨("hello", "1.0"), .good, none⟩ := by simpa using he
    exact ⟨_, ⟨.good, none⟩, ⟨.bad⟩, listed_sidChecks r hr, by decide, by decide +kernel, by decide⟩

/-- The checks of `sid` and the release after it. -/
def bothChecks : PeerChecks :=
  ⟨"debian", "amd64", ["https://peer"],
    [(some "sid", some "unstable"), (some "forky", some "testing")], by simp⟩

/-- **The check of the other release removes the disagreement.** -/
theorem bothChecks_forgets : ¬ ∀ env x h c, Handler.admin env.config h = true → Reflects env x h c := by
  intro hall
  have hfetch : ∀ r ∈ bothChecks.requests, ∀ url ∈ bothChecks.urls,
      Fetchable unstablePeer bothChecks url (effectiveAlias r) := by
    intro r hr url hurl
    obtain rfl : url = "https://peer" := by simpa [bothChecks] using hurl
    have hr' : r = ⟨"debian", "amd64", some "sid", some "unstable", ["https://peer"]⟩ ∨
        r = ⟨"debian", "amd64", some "forky", some "testing", ["https://peer"]⟩ := by
      simpa [bothChecks, PeerChecks.requests] using hr
    rcases hr' with rfl | rfl <;> exact ⟨_, rfl⟩
  have hlast := exists_last_check (h := adminHeaders) rfl hfetch
    (by decide : ⟨"debian", "amd64", some "forky", some "testing", ["https://peer"]⟩ ∈ bothChecks.requests)
    (by decide : "https://peer" ∈ bothChecks.urls) badHelloDb
  obtain ⟨as, hf, p, hp, hcovers, hurl, hcached⟩ := hlast
  have hdisagree : Disagreement unstablePeer badHelloDb.packages bothChecks p.url ("hello", "1.0") := by
    rw [hurl]
    exact ⟨⟨"debian", "amd64", some "sid", some "unstable", ["https://peer"]⟩, by decide,
      [⟨("hello", "1.0"), .good, none⟩], rfl, _, List.mem_cons_self, rfl, by decide +kernel⟩
  have hmem := (hall unstablePeer badHelloDb adminHeaders bothChecks rfl as hf p hp hcovers _).mpr hdisagree
  -- in `testing` the peer lists nothing
  obtain ⟨listing, s, t, hlisted, hs, -⟩ := (hcached _).mp hmem
  obtain rfl : [] = listing := Except.ok.inj hlisted
  cases hs

end Rebuilderd.Daemon
