import Rebuilderd.Lib.Turns
import Rebuilderd.Daemon.PeerCache

/-!
What the cache holds once the checks of several releases are over.

Every check replaces the rows of a peer by what it has found under the alias it has read. Once the
peers are registered, their rows stay, and only their aliases change. So the check that ends last
decides.
-/

namespace Rebuilderd.Daemon

open Rebuilderd.Lib Rebuilderd.Common

/-! ### The requests of one run of `rebuildctl peers check` -/

/-- What is checked for one architecture: the same peers for every pair of a release and what the
peers call it. -/
structure PeerChecks where
  distribution : String
  architecture : String
  urls : List String
  releases : List (Option String × Option String)
  releases_ne : releases ≠ []

namespace PeerChecks

def requests (c : PeerChecks) : List CheckPeersRequest :=
  c.releases.map fun (release, releaseAlias) =>
    { distribution := c.distribution, architecture := c.architecture, release, releaseAlias,
      urls := c.urls }

/-- A row of the distribution and the architecture of these checks. -/
def Covers (c : PeerChecks) (p : PeerRebuilder) : Prop :=
  p.distribution = c.distribution ∧ p.architecture = c.architecture

lemma of_mem_requests {c : PeerChecks} {r : CheckPeersRequest} (h : r ∈ c.requests) :
    r.distribution = c.distribution ∧ r.architecture = c.architecture ∧ r.urls = c.urls := by
  obtain ⟨pair, -, rfl⟩ := List.mem_map.mp h
  exact ⟨rfl, rfl, rfl⟩

end PeerChecks

/-! ### What a request knows -/

abbrev PeerSteps := List (Step PeerStmt PeerStmt.Answer Err Time)

/-- One of the statements has failed. -/
def HasFailed (own : PeerSteps) : Prop := ∃ s ∈ own, ∃ e, s.answer = .error e

/-- The statement has answered `a`. -/
def Replied (own : PeerSteps) (s : PeerStmt) (a : s.Answer) : Prop :=
  ∃ t, (⟨t, s, .ok a⟩ : Step PeerStmt PeerStmt.Answer Err Time) ∈ own

/-- The peers have been registered, and those that are not configured deleted. -/
def Registered (r : CheckPeersRequest) (own : PeerSteps) : Prop :=
  (∀ url ∈ r.urls, ∃ s ∈ own, s.stmt = .upsertPeer (newPeer r url)) ∧
    ∃ s ∈ own, s.stmt = .deleteStalePeers r.distribution r.architecture r.urls

/-- These peers have been read, and these are what has been fetched of them. -/
def Gathered (r : CheckPeersRequest) (own : PeerSteps) (peers : List PeerRebuilder)
    (maps : List (PeerRebuilder × PackageMap PeerPkgInfo)) : Prop :=
  Registered r own ∧ Replied own (.peersOf r.distribution r.architecture) peers ∧
    ∀ m ∈ maps, Replied own (.fetchAllPeerPackages (resolveUrl m.1.url r.architecture) r.distribution
      r.architecture (releaseFilter m.1.releaseAlias)) m.2

/-- All peers that have been read are compared with the packages of the daemon, and this is what
has been found. -/
def Compared (env : PeerEnv) (r : CheckPeersRequest) (own : PeerSteps) (compared : List ℕ)
    (found : List CheckTarget) : Prop :=
  ∃ peers maps localPackages, Gathered r own peers maps ∧ (maps.map Prod.fst).Perm peers ∧
    Replied own (.fetchLocalPackages r.distribution r.architecture) localPackages ∧
    compared = maps.map (·.1.id) ∧ found = targets env localPackages maps

/-- What a request may execute after its statements `own`. -/
def checks (env : PeerEnv) (r : CheckPeersRequest) (own : PeerSteps) : PeerStmt → Prop
  | .now | .fetchAllPeerPackages _ _ _ _ | .fetchLocalPackages _ _ => True
  | .upsertPeer new => ∃ url ∈ r.urls, new = newPeer r url
  | .deleteStalePeers distribution architecture urls =>
    distribution = r.distribution ∧ architecture = r.architecture ∧ urls = r.urls
  | .peersOf distribution architecture =>
    distribution = r.distribution ∧ architecture = r.architecture ∧ Registered r own
  | .replaceChecks compared upserts =>
    HasFailed own ∨ Compared env r own compared (upserts.map (·.target))

section
variable {own own' : PeerSteps}

lemma HasFailed.append (h : HasFailed own) : HasFailed (own ++ own') := by
  obtain ⟨s, hs, he⟩ := h
  exact ⟨s, List.mem_append_left _ hs, he⟩

lemma Replied.append {s : PeerStmt} {a : s.Answer} (h : Replied own s a) :
    Replied (own ++ own') s a := by
  obtain ⟨t, ht⟩ := h
  exact ⟨t, List.mem_append_left _ ht⟩

lemma Registered.append {r : CheckPeersRequest} (h : Registered r own) :
    Registered r (own ++ own') := by
  refine ⟨fun url hurl => ?_, ?_⟩
  · obtain ⟨s, hs, heq⟩ := h.1 url hurl
    exact ⟨s, List.mem_append_left _ hs, heq⟩
  · obtain ⟨s, hs, heq⟩ := h.2
    exact ⟨s, List.mem_append_left _ hs, heq⟩

lemma Gathered.append {r : CheckPeersRequest} {peers : List PeerRebuilder}
    {maps : List (PeerRebuilder × PackageMap PeerPkgInfo)} (h : Gathered r own peers maps) :
    Gathered r (own ++ own') peers maps :=
  ⟨h.1.append, h.2.1.append, fun m hm => (h.2.2 m hm).append⟩

lemma hasFailed_snoc (t : Time) (s : PeerStmt) (e : Err) : HasFailed (own ++ [⟨t, s, .error e⟩]) :=
  ⟨⟨t, s, .error e⟩, by simp, e, rfl⟩

lemma replied_snoc (t : Time) (s : PeerStmt) (a : s.Answer) : Replied (own ++ [⟨t, s, .ok a⟩]) s a :=
  ⟨t, by simp⟩

end

section
open Prog
variable {env : PeerEnv} {r : CheckPeersRequest} {α : Type}

/-- A statement leaves its answer behind, or its error. -/
lemma wp_peerSql {own : PeerSteps} {s : PeerStmt} {Q : PeerSteps → s.Answer → Prop}
    (hok : checks env r own s) (h : ∀ t a, Q (own ++ [⟨t, s, .ok a⟩]) a) :
    wp (.journal fun own _ => checks env r own) (peerSql s) Q (fun own _ => HasFailed own) own :=
  wp_stmt_journal.mpr fun t => ⟨hok, h t, hasFailed_snoc t s⟩

/-- What a request has executed when it is answered. -/
lemma wp_register_journal (cfg : Config) (h : Headers) :
    wp (.journal fun own _ => checks env r own) (PeerHandler.register cfg h r)
      (fun own a => a = .accepted → Registered r own) (fun own _ => HasFailed own) [] := by
  unfold PeerHandler.register
  split
  · exact nofun
  · rw [wp_bind]
    refine wp_mono (wp_foldlM (fun own _ rest => (∀ url ∈ rest, url ∈ r.urls) ∧
      ∀ url ∈ r.urls, url ∈ rest ∨ ∃ s ∈ own, s.stmt = .upsertPeer (newPeer r url))
      (fun own _ url rest hown => ?_) r.urls () ⟨fun _ => id, fun _ => .inl⟩)
      (fun own _ hown => ?_) fun _ _ => id
    · refine wp_peerSql ⟨url, hown.1 url List.mem_cons_self, rfl⟩ fun t _ => ?_
      refine ⟨fun u hu => hown.1 u (List.mem_cons_of_mem _ hu), fun u hu => ?_⟩
      rcases hown.2 u hu with hrest | ⟨s, hs, heq⟩
      · rcases List.mem_cons.mp hrest with rfl | hrest
        · exact .inr ⟨_, List.mem_append_right _ List.mem_cons_self, rfl⟩
        · exact .inl hrest
      · exact .inr ⟨s, List.mem_append_left _ hs, heq⟩
    · rw [wp_bind]
      refine wp_peerSql ⟨rfl, rfl, rfl⟩ fun t _ _ => ⟨fun url hurl => ?_, ?_⟩
      · obtain ⟨s, hs, heq⟩ := (hown.2 url hurl).resolve_left (by simp)
        exact ⟨s, List.mem_append_left _ hs, heq⟩
      · exact ⟨_, List.mem_append_right _ List.mem_cons_self, rfl⟩

/-- Every peer in the list is fetched, or has failed. -/
lemma wp_fetchPeers_journal {own₀ : PeerSteps} {peers fetched : List PeerRebuilder}
    (hregistered : Registered r own₀)
    (hread : Replied own₀ (.peersOf r.distribution r.architecture) peers) :
    wp (.journal fun own _ => checks env r own)
      (PeerHandler.fetchPeers r.distribution r.architecture fetched)
      (fun own maps => Gathered r own peers maps ∧ (HasFailed own ∨ maps.map Prod.fst = fetched))
      (fun own _ => HasFailed own) own₀ := by
  refine wp_mono (wp_foldlM (fun own maps rest => Gathered r own peers maps ∧
    (HasFailed own ∨ maps.map Prod.fst ++ rest = fetched)) (fun own maps peer rest hown => ?_)
    fetched [] ⟨⟨hregistered, hread, by simp⟩, .inr rfl⟩) (fun own maps hown => by simpa using hown) fun _ _ => id
  obtain ⟨hgathered, hfetched⟩ := hown
  rw [wp_bind, wp_attempt, wp_stmt_journal]
  refine fun t => ⟨trivial, fun map =>
    ⟨⟨hgathered.1.append, hgathered.2.1.append, fun m hm => ?_⟩, ?_⟩, fun e => ?_⟩
  · rcases List.mem_append.mp hm with hm | hm
    · exact (hgathered.2.2 m hm).append
    · obtain rfl := List.mem_singleton.mp hm
      exact replied_snoc t _ map
  · rcases hfetched with hfailed | hfetched
    · exact .inl hfailed.append
    · exact .inr (by simpa using hfetched)
  · exact ⟨hgathered.append, .inl (hasFailed_snoc t _ e)⟩

/-- How the background check of a request ends. -/
def CheckEnded (r : CheckPeersRequest) (own : PeerSteps) : Prop :=
  HasFailed own ∨ Replied own (.peersOf r.distribution r.architecture) [] ∨
    ∃ compared upserts, Replied own (.replaceChecks compared upserts) ()

/-- The background check replaces the rows of all peers it has read, if nothing fails. -/
lemma wp_runPeerCheck_journal {own₀ : PeerSteps} (h₀ : Registered r own₀) :
    wp (.journal fun own _ => checks env r own)
      (PeerHandler.runPeerCheck env r.distribution r.architecture)
      (fun own _ => CheckEnded r own) (fun own _ => HasFailed own) own₀ := by
  unfold PeerHandler.runPeerCheck PeerHandler.comparePeers
  rw [wp_bind]
  refine wp_peerSql ⟨rfl, rfl, h₀⟩ fun t peers => ?_
  have hread := @replied_snoc own₀ t (.peersOf r.distribution r.architecture) peers
  split
  · rename_i hempty
    rw [List.isEmpty_iff.mp hempty] at hread ⊢
    exact .inr (.inl hread)
  · rename_i hsome
    rw [wp_bind]
    refine wp_mono (wp_fetchPeers_journal h₀.append hread) (fun own maps hown => ?_) fun _ _ => id
    obtain ⟨hgathered, hfetched⟩ := hown
    split
    · rename_i hnone
      rcases hfetched with hfailed | hfetched
      · exact .inl hfailed
      · have hperm := env.fetched.perm peers
        rw [← hfetched, List.isEmpty_iff.mp hnone] at hperm
        exact absurd (List.isEmpty_iff.mpr (List.nil_perm.mp hperm)) hsome
    · rw [wp_bind]
      refine wp_peerSql trivial fun t' localPackages => ?_
      rw [wp_bind]
      refine wp_mono (wp_compareMaps (I := fun own => Gathered r own peers maps ∧
        (HasFailed own ∨ maps.map Prod.fst = env.fetched.order peers) ∧
        Replied own (.fetchLocalPackages r.distribution r.architecture) localPackages)
        (fun own s hown => ⟨trivial, ?_⟩) env localPackages maps
        ⟨hgathered.append, hfetched.imp_left (·.append), replied_snoc t' _ localPackages⟩)
        (fun own upserts hown => ?_) fun _ _ => id
      · rintro reply own' rfl
        refine ⟨⟨hown.1.append, hown.2.1.imp_left (·.append), hown.2.2.append⟩, ?_⟩
        rintro e rfl
        exact hasFailed_snoc s _ e
      · obtain ⟨⟨hgathered, hfetched, hlocal⟩, hfound⟩ := hown
        refine wp_peerSql ?_ fun t'' done => .inr (.inr ⟨_, _, replied_snoc t'' _ done⟩)
        refine hfetched.imp_right fun hfetched => ?_
        have hperm := env.fetched.perm peers
        rw [← hfetched] at hperm
        exact ⟨peers, maps, localPackages, hgathered, hperm, hlocal, rfl, hfound⟩

/-- **What a request has executed when it is over.** -/
lemma wp_checkPeers_journal (c : Headers × CheckPeersRequest) :
    wp (.journal fun own _ => checks env c.2 own) (PeerHandler.checkPeers env c)
      (fun own a => a = .accepted → CheckEnded c.2 own) (fun own _ => HasFailed own) [] := by
  unfold PeerHandler.checkPeers
  rw [wp_bind]
  refine wp_mono (wp_register_journal env.config c.1) (fun own a hown => ?_) fun _ _ => id
  cases a with
  | forbidden => exact nofun
  | accepted =>
    rw [wp_bind, wp_attempt]
    exact wp_mono (wp_runPeerCheck_journal (hown rfl)) (fun own _ h _ => h)
      fun own _ h _ => .inl h

end

/-! ### What a statement of the checks does -/

namespace PeerChecks

variable {c : PeerChecks} {env : PeerEnv} {s : PeerStmt} {x y : PeerDb}

/-- A statement one of the requests may execute. -/
def Executes (c : PeerChecks) (env : PeerEnv) (s : PeerStmt) : Prop :=
  ∃ r ∈ c.requests, ∃ own, checks env r own s

lemma step_cases (h : c.Executes env s) (t : Time) (y : PeerDb) :
    (∃ r ∈ c.requests, ∃ url ∈ c.urls, s = .upsertPeer (newPeer r url) ∧
        (env.exec.answer t s y).2 = (newPeer r url).upsert y) ∨
      (s = .deleteStalePeers c.distribution c.architecture c.urls ∧
        (env.exec.answer t s y).2 =
          deletePeers (stalePeer c.distribution c.architecture c.urls) y) ∨
      ((env.exec.answer t s y).2.packages = y.packages ∧
        (env.exec.answer t s y).2.peerRebuilders = y.peerRebuilders ∧
        ((∀ compared upserts, s ≠ .replaceChecks compared upserts) →
          (env.exec.answer t s y).2 = y)) := by
  obtain ⟨r, hr, own, hok⟩ := h
  obtain ⟨hdistribution, harchitecture, hurls⟩ := of_mem_requests hr
  cases s with
  | upsertPeer new =>
    obtain ⟨url, hurl, rfl⟩ := hok
    exact .inl ⟨r, hr, url, hurls ▸ hurl, rfl, rfl⟩
  | deleteStalePeers distribution architecture urls =>
    obtain ⟨rfl, rfl, rfl⟩ := hok
    rw [hdistribution, harchitecture, hurls]
    exact .inr (.inl ⟨rfl, rfl⟩)
  | replaceChecks compared upserts =>
    refine .inr (.inr ?_)
    simp only [Exec.answer, PeerEnv.exec]
    rcases hrep : replaceChecks compared upserts y with e | z
    · exact ⟨rfl, rfl, fun _ => rfl⟩
    · obtain ⟨hpackages, hpeers, -⟩ := replaceChecks_ok hrep
      exact ⟨hpackages, hpeers, fun h => absurd rfl (h compared upserts)⟩
  | fetchAllPeerPackages url distribution architecture release =>
    refine .inr (.inr ?_)
    simp only [Exec.answer, PeerEnv.exec]
    cases env.fetchAllPeerPackages url distribution architecture release <;> exact ⟨rfl, rfl, fun _ => rfl⟩
  | now => exact .inr (.inr ⟨rfl, rfl, fun _ => rfl⟩)
  | peersOf distribution architecture => exact .inr (.inr ⟨rfl, rfl, fun _ => rfl⟩)
  | fetchLocalPackages distribution architecture => exact .inr (.inr ⟨rfl, rfl, fun _ => rfl⟩)

/-- The packages of the daemon are only read. -/
lemma packages_step (h : c.Executes env s) (t : Time) (y : PeerDb) :
    (env.exec.answer t s y).2.packages = y.packages := by
  rcases step_cases h t y with ⟨r, -, url, -, -, heq⟩ | ⟨-, heq⟩ | ⟨heq, -⟩
  · rw [heq]
    rfl
  · rw [heq]
    rfl
  · exact heq

lemma conflicts_iff {r : CheckPeersRequest} (hr : r ∈ c.requests) (url : String) (p : PeerRebuilder) :
    (newPeer r url).conflicts p = true ↔ c.Covers p ∧ p.url = url := by
  obtain ⟨hdistribution, harchitecture, -⟩ := of_mem_requests hr
  simp only [NewPeerRebuilder.conflicts, newPeer, Bool.and_eq_true, beq_iff_eq, Covers,
    hdistribution, harchitecture]
  tauto

/-- What an upsert does to the peers: a new release in the row of the URL, or a new row. -/
lemma upsert_cases {r : CheckPeersRequest} (hr : r ∈ c.requests) (url : String) (y : PeerDb) :
    ((∃ p ∈ y.peerRebuilders.rows, c.Covers p ∧ p.url = url) ∧
        ((newPeer r url).upsert y).peerRebuilders.rows = y.peerRebuilders.rows.map fun p =>
          if (newPeer r url).conflicts p then
            { p with release := effectiveRelease r, releaseAlias := effectiveAlias r } else p) ∨
      ((∀ p ∈ y.peerRebuilders.rows, c.Covers p → p.url ≠ url) ∧
        ((newPeer r url).upsert y).peerRebuilders.rows =
          y.peerRebuilders.rows ++ [(newPeer r url).row (y.peerRebuilders.seq + 1)]) := by
  rcases Table.upsert_cases y.peerRebuilders (newPeer r url).conflicts (newPeer r url).row
    (fun p => { p with release := effectiveRelease r, releaseAlias := effectiveAlias r })
    (fun _ => rfl) (fun _ => rfl) with ⟨p, hp, hconf, heq⟩ | ⟨hnone, heq⟩
  · exact .inl ⟨⟨p, hp, (conflicts_iff hr url p).mp hconf⟩, congrArg (fun t => t.2.rows) heq⟩
  · refine .inr ⟨fun p hp hcovers hurl => ?_, congrArg (fun t => t.2.rows) heq⟩
    exact Bool.false_ne_true ((hnone p hp).symm.trans ((conflicts_iff hr url p).mpr ⟨hcovers, hurl⟩))

/-! ### The peers of the checks -/

/-- The peer is registered under the alias of one of the requests. -/
def Known (c : PeerChecks) (url : String) (y : PeerDb) : Prop :=
  (∃ p ∈ y.peerRebuilders.rows, c.Covers p ∧ p.url = url) ∧
    ∀ p ∈ y.peerRebuilders.rows, c.Covers p → p.url = url →
      ∃ r ∈ c.requests, p.releaseAlias = effectiveAlias r

/-- No other peers are registered. -/
def Configured (c : PeerChecks) (y : PeerDb) : Prop :=
  ∀ p ∈ y.peerRebuilders.rows, c.Covers p → p.url ∈ c.urls

/-- Where a row after an upsert comes from. -/
lemma mem_upsert {r : CheckPeersRequest} (hr : r ∈ c.requests) {url : String} {q : PeerRebuilder}
    (hq : q ∈ ((newPeer r url).upsert y).peerRebuilders.rows) :
    (q.url = url ∧ q.releaseAlias = effectiveAlias r) ∨ q ∈ y.peerRebuilders.rows := by
  rcases upsert_cases hr url y with ⟨-, hrows⟩ | ⟨-, hrows⟩ <;> rw [hrows] at hq
  · obtain ⟨p, hp, rfl⟩ := List.mem_map.mp hq
    split
    · rename_i hconf
      exact .inl ⟨((conflicts_iff hr url p).mp hconf).2, rfl⟩
    · exact .inr hp
  · rcases List.mem_append.mp hq with hq | hq
    · exact .inr hq
    · obtain rfl := List.mem_singleton.mp hq
      exact .inl ⟨rfl, rfl⟩

/-- A peer is still there after an upsert, perhaps with another release. -/
lemma mem_upsert_of_mem {r : CheckPeersRequest} (hr : r ∈ c.requests) (url : String) {p : PeerRebuilder}
    (hp : p ∈ y.peerRebuilders.rows) :
    ∃ q ∈ ((newPeer r url).upsert y).peerRebuilders.rows,
      q.id = p.id ∧ q.url = p.url ∧ (c.Covers p → c.Covers q) := by
  rcases upsert_cases hr url y with ⟨-, hrows⟩ | ⟨-, hrows⟩ <;> rw [hrows]
  · refine ⟨_, List.mem_map.mpr ⟨p, hp, rfl⟩, ?_⟩
    split <;> exact ⟨rfl, rfl, id⟩
  · exact ⟨p, List.mem_append_left _ hp, rfl, rfl, id⟩

/-- The upsert of a peer registers it, whatever was there before. -/
lemma known_upsert {r : CheckPeersRequest} (hr : r ∈ c.requests) (url : String) (y : PeerDb) :
    c.Known url ((newPeer r url).upsert y) := by
  obtain ⟨hdistribution, harchitecture, -⟩ := of_mem_requests hr
  refine ⟨?_, ?_⟩
  · rcases upsert_cases hr url y with ⟨⟨p, hp, hcovers, hurl⟩, -⟩ | ⟨-, hrows⟩
    · obtain ⟨q, hq, -, hqurl, hqcovers⟩ := mem_upsert_of_mem hr url hp
      exact ⟨q, hq, hqcovers hcovers, hqurl.trans hurl⟩
    · rw [hrows]
      exact ⟨_, List.mem_append_right _ List.mem_cons_self, ⟨hdistribution, harchitecture⟩, rfl⟩
  · rcases upsert_cases hr url y with ⟨-, hrows⟩ | ⟨hnone, hrows⟩ <;> rw [hrows] <;>
      intro q hq hcovers hurl
    · obtain ⟨p, hp, rfl⟩ := List.mem_map.mp hq
      split at hcovers
      · exact ⟨r, hr, by simp_all⟩
      · rename_i hconf
        rw [if_neg hconf] at hurl
        exact absurd ((conflicts_iff hr url p).mpr ⟨hcovers, hurl⟩) hconf
    · rcases List.mem_append.mp hq with hq | hq
      · exact absurd hurl (hnone q hq hcovers)
      · obtain rfl := List.mem_singleton.mp hq
        exact ⟨r, hr, rfl⟩

lemma configured_delete (y : PeerDb) :
    c.Configured (deletePeers (stalePeer c.distribution c.architecture c.urls) y) := by
  intro p hp hcovers
  obtain ⟨-, hstale⟩ := (Table.mem_delete y.peerRebuilders).mp hp
  simpa [stalePeer, hcovers.1, hcovers.2] using hstale

/-- What the checks know of a peer, they know for good. -/
lemma Known.step {url : String} (h : c.Known url y) (hurl : url ∈ c.urls) (hs : c.Executes env s)
    (t : Time) : c.Known url (env.exec.answer t s y).2 := by
  obtain ⟨⟨p, hp, hcovers, hpurl⟩, halias⟩ := h
  rcases step_cases hs t y with ⟨r, hr, url', -, -, heq⟩ | ⟨-, heq⟩ | ⟨-, heq, -⟩ <;> unfold Known <;>
    rw [heq]
  · obtain ⟨q, hq, -, hqurl, hqcovers⟩ := mem_upsert_of_mem hr url' hp
    refine ⟨⟨q, hq, hqcovers hcovers, hqurl.trans hpurl⟩, fun q hq hcovers hqurl => ?_⟩
    rcases mem_upsert hr hq with ⟨-, hqalias⟩ | hq
    · exact ⟨r, hr, hqalias⟩
    · exact halias q hq hcovers hqurl
  · refine ⟨⟨p, (Table.mem_delete y.peerRebuilders).mpr ⟨hp, ?_⟩, hcovers, hpurl⟩, fun q hq => ?_⟩
    · simp [stalePeer, hpurl, hurl]
    · exact halias q ((Table.mem_delete y.peerRebuilders).mp hq).1
  · exact ⟨⟨p, hp, hcovers, hpurl⟩, halias⟩

lemma Configured.step (h : c.Configured y) (hs : c.Executes env s) (t : Time) :
    c.Configured (env.exec.answer t s y).2 := by
  rcases step_cases hs t y with ⟨r, hr, url, hurl, -, heq⟩ | ⟨-, heq⟩ | ⟨-, heq, -⟩ <;>
    unfold Configured <;> rw [heq]
  · intro q hq hcovers
    rcases mem_upsert hr hq with ⟨hqurl, -⟩ | hq
    · exact hqurl ▸ hurl
    · exact h q hq hcovers
  · exact configured_delete y
  · exact h

/-- The peers of the checks, and no others, are registered. -/
structure Settled (c : PeerChecks) (y : PeerDb) : Prop where
  known : ∀ url ∈ c.urls, c.Known url y
  configured : c.Configured y

lemma Settled.step (h : c.Settled y) (hs : c.Executes env s) (t : Time) :
    c.Settled (env.exec.answer t s y).2 :=
  ⟨fun url hurl => (h.known url hurl).step hurl hs t, h.configured.step hs t⟩

/-- The rows of the checks, without their releases. -/
def identities (c : PeerChecks) (y : PeerDb) : List (ℕ × String) :=
  (peersOf c.distribution c.architecture y).map fun p => (p.id, p.url)

/-- Nothing is deleted, once no other peers are registered. -/
lemma Configured.delete_eq (h : c.Configured y) :
    deletePeers (stalePeer c.distribution c.architecture c.urls) y = y := by
  have hnone (p : PeerRebuilder) (hp : p ∈ y.peerRebuilders.rows) :
      stalePeer c.distribution c.architecture c.urls p = false := by
    rw [Bool.eq_false_iff]
    intro hstale
    simp only [stalePeer, Bool.and_eq_true, beq_iff_eq, Bool.not_eq_true', List.contains_eq_mem,
      decide_eq_false_iff_not] at hstale
    exact hstale.2 (h p hp hstale.1)
  have hgone : y.peerRebuilders.rows.filter (stalePeer c.distribution c.architecture c.urls) = [] :=
    List.filter_eq_nil_iff.mpr fun p hp => by simp [hnone p hp]
  have hpeers : y.peerRebuilders.delete (stalePeer c.distribution c.architecture c.urls) =
      y.peerRebuilders :=
    Table.ext (List.filter_eq_self.mpr fun p hp => by simp [hnone p hp]) rfl
  have hchecks : y.peerSha256Checks.delete (fun _ => false) = y.peerSha256Checks :=
    Table.ext (List.filter_eq_self.mpr fun _ _ => rfl) rfl
  simp only [deletePeers, hgone, hpeers, List.any_nil, hchecks]

/-- Settled peers keep their rows. -/
lemma Settled.identities_step (h : c.Settled y) (hs : c.Executes env s) (t : Time) :
    c.identities (env.exec.answer t s y).2 = c.identities y := by
  rcases step_cases hs t y with ⟨r, hr, url, hurl, -, heq⟩ | ⟨-, heq⟩ | ⟨-, heq, -⟩
  · obtain ⟨p, hp, hcovers, hpurl⟩ := (h.known url hurl).1
    rcases upsert_cases hr url y with ⟨-, hrows⟩ | ⟨hnone, -⟩
    · rw [heq]
      unfold identities peersOf
      rw [hrows, List.filter_map, List.map_map]
      have hfilter : ((fun p : PeerRebuilder => p.distribution == c.distribution &&
            p.architecture == c.architecture) ∘ fun p => if (newPeer r url).conflicts p then
            { p with release := effectiveRelease r, releaseAlias := effectiveAlias r } else p) =
          fun p => p.distribution == c.distribution && p.architecture == c.architecture := by
        funext p
        dsimp only [Function.comp_apply]
        split <;> rfl
      rw [hfilter]
      refine List.map_congr_left fun p _ => ?_
      dsimp only [Function.comp_apply]
      split <;> rfl
    · exact absurd hpurl (hnone p hp hcovers)
  · rw [heq, h.configured.delete_eq]
  · unfold identities peersOf
    rw [heq]

/-- Nothing but a comparison changes the cache of settled peers. -/
lemma Settled.cached_step (h : c.Settled y) (hs : c.Executes env s) (t : Time)
    (hother : ∀ compared upserts, s ≠ .replaceChecks compared upserts) :
    (env.exec.answer t s y).2.cached = y.cached := by
  rcases step_cases hs t y with ⟨r, hr, url, hurl, -, heq⟩ | ⟨-, heq⟩ | ⟨-, -, heq⟩
  · rw [heq]
    rfl
  · rw [heq, h.configured.delete_eq]
  · rw [heq hother]

/-! ### Runs of the checks -/

end PeerChecks

abbrev PeerEvent :=
  Lib.Event PeerStmt PeerStmt.Answer Err Time PeerDb (Headers × CheckPeersRequest)

abbrev PeerSchedule := List (Action (Headers × CheckPeersRequest) Time)

namespace PeerEnv

def runPool (env : PeerEnv) (x : PeerDb) (as : PeerSchedule) :
    Pool PeerStmt PeerStmt.Answer Err PeerResponse (Headers × CheckPeersRequest) PeerDb :=
  Pool.run env.exec (PeerHandler.checkPeers env) (Pool.start x) as

def trace (env : PeerEnv) (x : PeerDb) (as : PeerSchedule) : List PeerEvent :=
  Pool.trace env.exec (PeerHandler.checkPeers env) (Pool.start x) as

end PeerEnv

/-- A request is answered once the peers that are not configured are deleted. -/
def PeerStmt.answers : PeerStmt → Prop
  | .deleteStalePeers _ _ _ => True
  | _ => False

/-- The schedule sends the requests of `c` one after the other, and all their background checks
finish without an error. -/
structure Finished (env : PeerEnv) (x : PeerDb) (h : Headers) (c : PeerChecks) (as : PeerSchedule) :
    Prop where
  calls : (env.runPool x as).threads.map (·.call) = c.requests.map (h, ·)
  inTurn : InTurn PeerStmt.answers (env.trace x as)
  complete : ∀ th ∈ (env.runPool x as).threads, th.result = some .accepted
  faultless : Faultless (env.trace x as)

section
variable {env : PeerEnv} {x : PeerDb} {h : Headers} {c : PeerChecks} {as : PeerSchedule}

/-- What the peer lists last of a package under an alias disagrees with the row of the package the
daemon selects last. -/
def LastDisagrees (env : PeerEnv) (db : Db) (c : PeerChecks) (url releaseAlias : String)
    (key : PackageKey) : Prop :=
  ∃ listing s t, env.listed (resolveUrl url c.architecture) c.distribution c.architecture
      (releaseFilter releaseAlias) = .ok listing ∧
    listing.reverse.dlookup key = some s ∧
    ((env.seen c.distribution c.architecture db).map LocalRow.entry).reverse.dlookup key = some t ∧
    statusDisagrees s.status t.status = true

lemma checks_history (env : PeerEnv) (x : PeerDb) (as : PeerSchedule) :
    History env.exec (fun c own _ s => checks env c.2 own s) x (env.trace x as) ∧
      (env.runPool x as).state = stateAfter env.exec x (env.trace x as) :=
  Pool.history (fun c => Prog.wp_mono (wp_checkPeers_journal c) (fun _ _ _ => trivial)
    fun _ _ _ => trivial) x as

/-- Every event is of one of the requests. -/
lemma Finished.call_mem (hf : Finished env x h c as) {e : PeerEvent} (he : e ∈ env.trace x as) :
    e.call.2 ∈ c.requests := by
  obtain ⟨th, hth, hcall⟩ := Pool.exists_thread as he
  have hmem : e.call ∈ c.requests.map (h, ·) := by
    rw [← hf.calls, ← hcall]
    exact List.mem_map.mpr ⟨th, List.mem_of_getElem? hth, rfl⟩
  obtain ⟨r, hr, heq⟩ := List.mem_map.mp hmem
  rwa [← heq]

lemma Finished.executes (hf : Finished env x h c as) {e : PeerEvent} (he : e ∈ env.trace x as) :
    c.Executes env e.stmt := by
  obtain ⟨pre, post, heq⟩ := List.append_of_mem he
  have hhist := (checks_history env x as).1
  rw [heq] at hhist
  exact ⟨e.call.2, hf.call_mem he, _, hhist.event.2.2.1⟩

/-- An event at its place, and what it may execute there. -/
lemma Finished.event (hf : Finished env x h c as) {pre post : List PeerEvent} {e : PeerEvent}
    (htr : env.trace x as = pre ++ e :: post) :
    History env.exec (fun c own _ s => checks env c.2 own s) x (pre ++ e :: post) ∧
      e.call.2 ∈ c.requests ∧ checks env e.call.2 (own e.thread pre) e.stmt ∧
      ¬ HasFailed (own e.thread pre) := by
  have hhist := (checks_history env x as).1
  rw [htr] at hhist
  refine ⟨hhist, hf.call_mem (htr ▸ by simp), hhist.event.2.2.1, ?_⟩
  rintro ⟨s, hs, err, herr⟩
  obtain ⟨e', he', -, rfl⟩ := mem_own.mp hs
  obtain ⟨a, ha⟩ := hf.faultless e' (htr ▸ by simp [he'])
  exact absurd (herr.symm.trans ha) (by simp)

/-- What an earlier statement of the same request brings about still holds at an event, if the
requests keep it. -/
lemma Finished.holds_before (hf : Finished env x h c as) {pre post : List PeerEvent} {e : PeerEvent}
    (htr : env.trace x as = pre ++ e :: post) {I : PeerDb → Prop} {s : PeerStmt}
    (hown : ∃ a ∈ own e.thread pre, a.stmt = s) (hs : ∀ t y, I (env.exec.answer t s y).2)
    (hI : ∀ s, c.Executes env s → ∀ t y, I y → I (env.exec.answer t s y).2) : I e.before := by
  obtain ⟨a, ha, rfl⟩ := hown
  obtain ⟨g, hg, -, rfl⟩ := mem_own.mp ha
  obtain ⟨pre, mid, rfl⟩ := List.append_of_mem hg
  have hhist := (hf.event htr).1
  rw [List.append_assoc, List.cons_append] at hhist htr
  refine hhist.until_event (fun e' he' y hy => hI _ (hf.executes (htr ▸ by simp [he'])) _ y hy) ?_
  exact hs _ _

/-- Once a request has registered the peers, they are settled. -/
lemma Finished.settled (hf : Finished env x h c as) {pre post : List PeerEvent} {e : PeerEvent}
    (htr : env.trace x as = pre ++ e :: post) (he : Registered e.call.2 (own e.thread pre)) :
    c.Settled e.before := by
  obtain ⟨-, hr, -⟩ := hf.event htr
  obtain ⟨hdistribution, harchitecture, hurls⟩ := PeerChecks.of_mem_requests hr
  obtain ⟨hknown, hdeleted⟩ := he
  rw [hdistribution, harchitecture, hurls] at hdeleted
  rw [hurls] at hknown
  refine ⟨fun url hurl => ?_, ?_⟩
  · exact hf.holds_before htr (hknown url hurl) (fun _ y => PeerChecks.known_upsert hr url y)
      fun s hs t y hy => hy.step hurl hs t
  · exact hf.holds_before htr hdeleted (fun _ y => PeerChecks.configured_delete y)
      fun s hs t y hy => hy.step hs t

/-- From where a request reads the peers, they keep their rows. -/
lemma Finished.identities (hf : Finished env x h c as) {pre post : List PeerEvent} {e : PeerEvent}
    (htr : env.trace x as = pre ++ e :: post) (hsettled : c.Settled e.before) :
    c.Settled (env.runPool x as).state ∧
      c.identities (env.runPool x as).state = c.identities e.before := by
  have hhist := (hf.event htr).1
  rw [(checks_history env x as).2, htr]
  have hall : ∀ e' ∈ e :: post, c.Executes env e'.stmt := fun e' he' =>
    hf.executes (htr ▸ List.mem_append_right _ he')
  refine hhist.stable_on (I := fun y => c.Settled y ∧ c.identities y = c.identities e.before)
    (fun e' he' y hy => ⟨hy.1.step (hall e' he') _, ?_⟩) ?_
  · rw [hy.1.identities_step (hall e' he'), hy.2]
  · rw [← hhist.event.1]
    exact ⟨hsettled, rfl⟩

/-- The packages of the daemon are the same throughout. -/
lemma Finished.packages (hf : Finished env x h c as) {pre post : List PeerEvent} {e : PeerEvent}
    (htr : env.trace x as = pre ++ e :: post) : e.before.packages = x.packages := by
  have hhist := (hf.event htr).1
  rw [hhist.event.1]
  refine hhist.of_append.holds_on (I := fun y => y.packages = x.packages) (fun e' he' y hy => ?_) rfl
  rw [PeerChecks.packages_step (hf.executes (htr ▸ List.mem_append_left _ he')), hy]

/-- A statement of the trace has answered. -/
lemma Finished.answered (hf : Finished env x h c as) {pre post : List PeerEvent} {e : PeerEvent}
    (htr : env.trace x as = pre ++ e :: post) {s : PeerStmt} (hs : e.stmt = s) :
    ∃ t a, env.exec.answer t s e.before = (.ok a, e.after env.exec) := by
  obtain ⟨a, ha⟩ := hf.faultless e (htr ▸ by simp)
  subst hs
  exact ⟨e.input, a, Prod.ext ((hf.event htr).1.event.2.1.symm.trans ha) rfl⟩

/-- What has been replied, an event of the trace has answered. -/
lemma Finished.replied (hf : Finished env x h c as) {tr : List PeerEvent}
    (htr : ∀ e ∈ tr, e ∈ env.trace x as) {i : ℕ} {s : PeerStmt} {a : s.Answer}
    (hs : Replied (own i tr) s a) :
    ∃ pre g post, env.trace x as = pre ++ g :: post ∧ g.stmt = s ∧
      ∃ t, env.exec.answer t s g.before = (.ok a, g.after env.exec) := by
  obtain ⟨t, ht⟩ := hs
  obtain ⟨g, hg, -, hstep⟩ := mem_own.mp ht
  obtain ⟨pre, post, hsplit⟩ := List.append_of_mem (htr g hg)
  have hans := (hf.event hsplit).1.event.2.1
  refine ⟨pre, g, post, hsplit, congrArg Step.stmt hstep, t, ?_⟩
  rcases g with ⟨⟨t', s', r⟩, thread, call, before⟩
  cases hstep
  exact Prod.ext hans.symm rfl

/-- The peers that have been read are those of the final state, perhaps with another release. -/
lemma Finished.peers_read (hf : Finished env x h c as) {tr : List PeerEvent}
    (htr : ∀ e ∈ tr, e ∈ env.trace x as) {i : ℕ} {peers : List PeerRebuilder}
    (hs : Replied (own i tr) (.peersOf c.distribution c.architecture) peers) :
    peers.map (fun p => (p.id, p.url)) = c.identities (env.runPool x as).state ∧
      ∃ y : PeerDb, c.Settled y ∧ peers = peersOf c.distribution c.architecture y := by
  obtain ⟨pre, g, post, hsplit, hstmt, t, hans⟩ := hf.replied htr hs
  have hok := (hf.event hsplit).2.2.1
  rw [hstmt] at hok
  have hsettled := hf.settled hsplit hok.2.2
  have hpeers : peersOf c.distribution c.architecture g.before = peers := by
    have hok : (Except.ok (peersOf c.distribution c.architecture g.before) : Except Err _) = .ok peers :=
      congrArg Prod.fst hans
    exact Except.ok.inj hok
  refine ⟨?_, g.before, hsettled, hpeers.symm⟩
  rw [(hf.identities hsplit hsettled).2, ← hpeers]
  rfl

lemma mem_identities {y : PeerDb} {p : PeerRebuilder} (hp : p ∈ y.peerRebuilders.rows)
    (hcovers : c.Covers p) : (p.id, p.url) ∈ c.identities y :=
  List.mem_map.mpr ⟨p, List.mem_filter.mpr ⟨hp, by simp [hcovers.1, hcovers.2]⟩, rfl⟩

/-- A request has replaced the rows of the peers, if there are any. -/
lemma Finished.exists_replaced (hf : Finished env x h c as) {p : PeerRebuilder}
    (hp : p ∈ (env.runPool x as).state.peerRebuilders.rows) (hcovers : c.Covers p) :
    ∃ e ∈ env.trace x as, ∃ compared upserts, e.stmt = .replaceChecks compared upserts := by
  have hlength := congrArg List.length hf.calls
  simp only [List.length_map, PeerChecks.requests] at hlength
  have hpos : 0 < (env.runPool x as).threads.length := by
    rw [hlength]
    exact List.length_pos_of_ne_nil c.releases_ne
  obtain ⟨th, hth⟩ : ∃ th, (env.runPool x as).threads[0]? = some th := ⟨_, List.getElem?_eq_getElem hpos⟩
  have hmem := List.mem_of_getElem? hth
  have hanswer : (env.runPool x as).answerOf 0 = some (th.call, .accepted) := by
    simp [Pool.answerOf, hth, hf.complete th hmem]
  have hcall : th.call.2 ∈ c.requests := by
    have hmem : th.call ∈ c.requests.map (h, ·) := by
      rw [← hf.calls]
      exact List.mem_map.mpr ⟨th, hmem, rfl⟩
    obtain ⟨r, hr, heq⟩ := List.mem_map.mp hmem
    rwa [← heq]
  obtain ⟨hdistribution, harchitecture, -⟩ := PeerChecks.of_mem_requests hcall
  have hended := (Pool.outcome (fun c => wp_checkPeers_journal c) x as hanswer).1 rfl
  rcases hended with ⟨s, hs, err, herr⟩ | hempty | ⟨compared, upserts, hs⟩
  · obtain ⟨e, he, -, rfl⟩ := mem_own.mp hs
    obtain ⟨a, ha⟩ := hf.faultless e he
    exact absurd (herr.symm.trans ha) (by simp)
  · rw [hdistribution, harchitecture] at hempty
    have hread := (hf.peers_read (fun _ => id) hempty).1
    have hpeer := mem_identities hp hcovers
    rw [← hread] at hpeer
    cases hpeer
  · obtain ⟨pre, g, post, hsplit, hstmt, -⟩ := hf.replied (fun _ => id) hs
    exact ⟨g, hsplit ▸ by simp, compared, upserts, hstmt⟩

lemma answer_fetch {t : Time} {url : Text} {distribution architecture : String}
    {release : Option String} {map : PackageMap PeerPkgInfo} {y z : PeerDb}
    (hans : env.exec.answer t (.fetchAllPeerPackages url distribution architecture release) y =
      (.ok map, z)) : env.fetchAllPeerPackages url distribution architecture release = .ok map := by
  simp only [Exec.answer, PeerEnv.exec] at hans
  rcases hfetch : env.fetchAllPeerPackages url distribution architecture release with e | map' <;>
    rw [hfetch] at hans
  · cases hans
  · exact congrArg Prod.fst hans

lemma answer_replace {t : Time} {compared : List ℕ} {upserts : List UpsertPeerSha256Check}
    {y z : PeerDb} (hans : env.exec.answer t (.replaceChecks compared upserts) y = (.ok (), z)) :
    replaceChecks compared upserts y = .ok z := by
  simp only [Exec.answer, PeerEnv.exec] at hans
  rcases hrep : replaceChecks compared upserts y with e | z' <;> rw [hrep] at hans
  · cases hans
  · obtain rfl : z' = z := congrArg Prod.snd hans
    rfl

/-- What a comparison finds of one peer, given what it has fetched. -/
lemma mem_targets_iff {db : PeerDb} {maps : List (PeerRebuilder × PackageMap PeerPkgInfo)}
    {m : PeerRebuilder × PackageMap PeerPkgInfo} (hm : m ∈ maps)
    (hunique : ∀ m' ∈ maps, m'.1.id = m.1.id → m'.2 = m.2) {releaseAlias : String}
    (hfetch : env.fetchAllPeerPackages (resolveUrl m.1.url c.architecture) c.distribution
      c.architecture (releaseFilter releaseAlias) = .ok m.2) (key : PackageKey) :
    (m.1.id, key) ∈ targets env (env.fetchLocalPackages c.distribution c.architecture db) maps ↔
      LastDisagrees env db.packages c m.1.url releaseAlias key := by
  obtain ⟨listing, hlisted, hlookup⟩ := env.fetch_ok hfetch
  rw [mem_targets]
  constructor
  · rintro ⟨m', hm', hid, s, t, hs, ht, hdis⟩
    rw [hunique m' hm' hid, hlookup] at hs
    rw [env.lookup_localPackages] at ht
    exact ⟨listing, s, t, hlisted, hs, ht, hdis⟩
  · rintro ⟨listing', s, t, hlisted', hs, ht, hdis⟩
    obtain rfl := Except.ok.inj (hlisted.symm.trans hlisted')
    exact ⟨m, hm, rfl, s, t, (hlookup key).trans hs, (env.lookup_localPackages _ _ db key).trans ht, hdis⟩

/-- From a comparison that is the last one, the cache stays as it is. -/
lemma Finished.cached (hf : Finished env x h c as) {pre post : List PeerEvent} {e : PeerEvent}
    (htr : env.trace x as = pre ++ e :: post) (hsettled : c.Settled e.before)
    (hlast : ∀ e' ∈ post, ¬ ∃ compared upserts, e'.stmt = .replaceChecks compared upserts) :
    (env.runPool x as).state.cached = (e.after env.exec).cached := by
  have hhist := (hf.event htr).1
  have hexec : ∀ e' ∈ e :: post, c.Executes env e'.stmt := fun e' he' =>
    hf.executes (htr ▸ List.mem_append_right _ he')
  rw [(checks_history env x as).2, htr]
  rw [List.append_cons] at hhist ⊢
  refine (hhist.stable_on (I := fun y => c.Settled y ∧ y.cached = (e.after env.exec).cached)
    (fun e' he' y hy => ?_) ?_).2
  · have hother (compared : List ℕ) (upserts : List UpsertPeerSha256Check) :
        e'.stmt ≠ .replaceChecks compared upserts := fun heq => hlast e' he' ⟨_, _, heq⟩
    have he' := hexec e' (List.mem_cons_of_mem _ he')
    exact ⟨hy.1.step he' _, (hy.1.cached_step he' _ hother).trans hy.2⟩
  · rw [stateAfter_snoc]
    exact ⟨hsettled.step (hexec e List.mem_cons_self) _, rfl⟩

/-- **The check that ends last decides what is cached.** -/
lemma Finished.lastCheck (hf : Finished env x h c as) {p : PeerRebuilder}
    (hp : p ∈ (env.runPool x as).state.peerRebuilders.rows) (hcovers : c.Covers p) :
    p.url ∈ c.urls ∧ ∃ r ∈ c.requests,
      (∃ map, env.fetchAllPeerPackages (resolveUrl p.url c.architecture) c.distribution c.architecture
        (releaseFilter (effectiveAlias r)) = .ok map) ∧
      ∀ key, (p.id, key) ∈ (env.runPool x as).state.cached ↔
        LastDisagrees env x.packages c p.url (effectiveAlias r) key := by
  obtain ⟨pre, e, post, htr, ⟨compared, upserts, hstmt⟩, hlast⟩ := exists_last (hf.exists_replaced hp hcovers)
  obtain ⟨-, hr, hok, hnofail⟩ := hf.event htr
  obtain ⟨hdistribution, harchitecture, -⟩ := PeerChecks.of_mem_requests hr
  have hpre (g : PeerEvent) (hg : g ∈ pre) : g ∈ env.trace x as := htr ▸ List.mem_append_left _ hg
  rw [hstmt] at hok
  obtain ⟨peers, maps, localPackages, ⟨hregistered, hread, hfetched⟩, hperm, hlocal, rfl, hfound⟩ :=
    hok.resolve_left hnofail
  rw [hdistribution, harchitecture] at hlocal hread
  obtain ⟨hids, y, hsettled, hpeers⟩ := hf.peers_read hpre hread
  have hfetch (m : PeerRebuilder × PackageMap PeerPkgInfo) (hm : m ∈ maps) :
      env.fetchAllPeerPackages (resolveUrl m.1.url c.architecture) c.distribution c.architecture
        (releaseFilter m.1.releaseAlias) = .ok m.2 := by
    obtain ⟨_, _, _, _, _, _, hans⟩ := hf.replied hpre (hfetched m hm)
    rw [hdistribution, harchitecture] at hans
    exact answer_fetch hans
  have hrow (m : PeerRebuilder × PackageMap PeerPkgInfo) (hm : m ∈ maps) :
      m.1 ∈ y.peerRebuilders.rows ∧ c.Covers m.1 := by
    have hmem := hperm.mem_iff.mp (List.mem_map.mpr ⟨m, hm, rfl⟩)
    rw [hpeers] at hmem
    obtain ⟨hmem, hcovers⟩ := List.mem_filter.mp hmem
    exact ⟨hmem, by simpa [PeerChecks.Covers] using hcovers⟩
  -- the row of the peer when it was read
  have hid := mem_identities hp hcovers
  rw [← hids] at hid
  obtain ⟨q, hq, hqp⟩ := List.mem_map.mp hid
  obtain ⟨m, hm, rfl⟩ := List.mem_map.mp (hperm.mem_iff.mpr hq)
  obtain ⟨hqid, hqurl⟩ := Prod.mk.inj hqp
  have hurl := hsettled.configured m.1 (hrow m hm).1 (hrow m hm).2
  obtain ⟨r, hr, halias⟩ := (hsettled.known m.1.url hurl).2 m.1 (hrow m hm).1 (hrow m hm).2 rfl
  have hmfetch := hfetch m hm
  rw [halias] at hmfetch
  refine ⟨hqurl ▸ hurl, r, hr, ⟨m.2, hqurl ▸ hmfetch⟩, fun key => ?_⟩
  have hunique (m' : PeerRebuilder × PackageMap PeerPkgInfo) (hm' : m' ∈ maps)
      (hid : m'.1.id = m.1.id) : m'.2 = m.2 := by
    have hsame : m'.1 = m.1 := Table.eq_of_key (hrow m' hm').1 (hrow m hm).1 hid
    have hm'fetch := hfetch m' hm'
    rw [hsame] at hm'fetch
    exact Except.ok.inj (hm'fetch.symm.trans (hfetch m hm))
  -- what the last comparison has left
  obtain ⟨_, g, _, hsplit, _, _, hans⟩ := hf.replied hpre hlocal
  obtain rfl : env.fetchLocalPackages c.distribution c.architecture g.before = localPackages :=
    Except.ok.inj (congrArg Prod.fst hans)
  obtain ⟨t, ⟨⟩, hreplaced⟩ := hf.answered htr hstmt
  rw [hf.cached htr (hf.settled htr hregistered) hlast, ← hqid,
    mem_cached_replaced (answer_replace hreplaced) (List.mem_map.mpr ⟨m, hm, rfl⟩), hfound,
    ← hf.packages hsplit, ← hqurl]
  exact mem_targets_iff hm hunique hmfetch key

end

end Rebuilderd.Daemon
