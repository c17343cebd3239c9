import Rebuilderd.Lib.Halting
import Rebuilderd.Daemon.PeerCache

/-!
How often a peer is asked for a page. Nothing but the length of the pages ends the loop, so a peer
that goes on sending full pages is asked for ever.
-/

namespace Rebuilderd.Daemon

open Rebuilderd.Lib Rebuilderd.Common

/-! ### The loop -/

/-- What a peer answers to the first of the requests, after it has been sent the others. -/
abbrev V1Peer := List V1PageQuery → Except Err (List PeerBinaryPackage)

/-- The distribution, the architecture and the release that are fetched. -/
structure Fetch where
  distribution : String
  architecture : String
  release : Option String

def Fetch.page (f : Fetch) (after : Option ℤ) : V1PageQuery where
  distribution := f.distribution
  architecture := f.architecture
  seenOnly := true
  limit := 1000
  after := after
  release := f.release

/-- At most `n` rounds of the loop of `fetch_v1_packages`. -/
def fetchLoop (peer : V1Peer) (f : Fetch) : ℕ → List V1PageQuery → Option ℤ →
    PackageMap PeerPkgInfo → Option (Except Err (PackageMap PeerPkgInfo))
  | 0, _, _, _ => none
  | n + 1, sent, after, map =>
    match peer (f.page after :: sent) with
    | .error e => some (.error e)
    | .ok records =>
      let map := records.foldl (fun map pkg => map.insert pkg.entry.1 pkg.entry.2) map
      if records.length < 1000 then some (.ok map)
      else
        match records.getLast? with
        | none => some (.ok map)
        | some last => fetchLoop peer f n (f.page after :: sent) (some last.id) map

/-- A peer of the checks: it looks at the last request alone. -/
def PeerEnv.peer (env : PeerEnv) (url : Text) : V1Peer
  | [] => .error .io
  | page :: _ => env.getV1 (trimSlashes url ++ "/packages/binary".toList) page

/-- The checks run this loop, and give a peer up that goes on for too long. -/
lemma PeerEnv.fetchPages_eq_loop (env : PeerEnv) (url : Text) (f : Fetch) (n : ℕ)
    (sent : List V1PageQuery) (after : Option ℤ) (map : PackageMap PeerPkgInfo) :
    env.fetchPages url f.distribution f.architecture f.release n after map =
      (fetchLoop (env.peer url) f n sent after map).getD (.error .io) := by
  induction n generalizing sent after map with
  | zero => rfl
  | succ n ih =>
    rw [fetchPages, fetchLoop]
    change (env.peer url (f.page after :: sent)).bind _ = _
    rcases env.peer url (f.page after :: sent) with e | records
    · rfl
    · simp only [Except.bind]
      split
      · rfl
      · rcases records.getLast? with _ | last
        · rfl
        · exact ih _ _ _

/-- The fetch returns after finitely many requests. -/
def Terminates (peer : V1Peer) (f : Fetch) : Prop :=
  ∃ n result, fetchLoop peer f n [] none ∅ = some result

/-- The peer has the packages it answers with from `c`. -/
def DrawnFrom (peer : V1Peer) (c : List PeerBinaryPackage) : Prop :=
  ∀ sent records, peer sent = .ok records → records ⊆ c

/-- The requests of a fetch from the peer, and the `after` of the next one, as long as it answers
with full pages. -/
inductive Asked (peer : V1Peer) (f : Fetch) : List V1PageQuery → Option ℤ → Prop
  | first : Asked peer f [] none
  | next {sent : List V1PageQuery} {after : Option ℤ} {records : List PeerBinaryPackage}
      {last : PeerBinaryPackage} (h : Asked peer f sent after)
      (hpage : peer (f.page after :: sent) = .ok records) (hfull : 1000 ≤ records.length)
      (hlast : records.getLast? = some last) : Asked peer f (f.page after :: sent) (some last.id)

/-- The peer answers the next request with an error or a page that is not full. -/
def Stops (peer : V1Peer) (f : Fetch) (sent : List V1PageQuery) (after : Option ℤ) : Prop :=
  ∀ records, peer (f.page after :: sent) = .ok records → records.length < 1000

/-- The peer answers the same request always in the same way. -/
def Memoryless (peer : V1Peer) : Prop := ∀ page sent, peer (page :: sent) = peer [page]

/-- A full page ends after the record it was to begin after. -/
def Advances (peer : V1Peer) (f : Fetch) : Prop :=
  ∀ sent after records last, peer (f.page after :: sent) = .ok records → 1000 ≤ records.length →
    records.getLast? = some last → ∀ id ∈ after, id < last.id

/-! ### The requests -/

/-- Whether the peer's answer is a full page, and the `after` of the request that follows it. -/
def nextAfter : Except Err (List PeerBinaryPackage) → Option ℤ
  | .error _ => none
  | .ok records => if records.length < 1000 then none else records.getLast?.map (·.id)

/-- The requests that are sent, and the `after` of the next one. -/
def nextRequest (peer : V1Peer) (f : Fetch) (s : List V1PageQuery × Option ℤ) :
    Option (List V1PageQuery × Option ℤ) :=
  (nextAfter (peer (f.page s.2 :: s.1))).map fun id => (f.page s.2 :: s.1, some id)

/-- The `after` of the next request to a peer without a memory. -/
def nextPage (peer : V1Peer) (f : Fetch) (after : Option ℤ) : Option (Option ℤ) :=
  (nextAfter (peer [f.page after])).map some

section
variable {peer : V1Peer} {f : Fetch} {c : List PeerBinaryPackage}

/-- The loop returns where the requests end. -/
lemma fetchLoop_isSome (n : ℕ) (sent : List V1PageQuery) (after : Option ℤ)
    (map : PackageMap PeerPkgInfo) : (fetchLoop peer f n sent after map).isSome = true ↔
      steps (nextRequest peer f) n (sent, after) = none := by
  induction n generalizing sent after map with
  | zero => simp [fetchLoop]
  | succ n ih =>
    rw [fetchLoop, steps_succ', nextRequest]
    rcases peer (f.page after :: sent) with e | records
    · simp [nextAfter]
    · dsimp only [nextAfter]
      split
      · simp
      · rcases records.getLast? with _ | last
        · simp
        · exact ih _ _ _

lemma terminates_iff_halts : Terminates peer f ↔ Halts (nextRequest peer f) ([], none) := by
  refine exists_congr fun n => ?_
  rw [← fetchLoop_isSome n [] none ∅, Option.isSome_iff_exists]

/-- The next page begins after a record of the collection. -/
lemma DrawnFrom.nextAfter_mem (h : DrawnFrom peer c) {sent : List V1PageQuery} {id : ℤ}
    (hid : nextAfter (peer sent) = some id) : id ∈ c.map (·.id) := by
  rcases hpage : peer sent with e | records <;> rw [hpage] at hid
  · cases hid
  · rw [nextAfter] at hid
    split at hid
    · cases hid
    · obtain ⟨last, hlast, rfl⟩ := Option.map_eq_some_iff.mp hid
      exact List.mem_map_of_mem (h sent records hpage (List.mem_of_getLast? hlast))

lemma nextRequest_eq_some {s t : List V1PageQuery × Option ℤ} : nextRequest peer f s = some t ↔
    ∃ records last, peer (f.page s.2 :: s.1) = .ok records ∧ 1000 ≤ records.length ∧
      records.getLast? = some last ∧ t = (f.page s.2 :: s.1, some last.id) := by
  unfold nextRequest
  rcases peer (f.page s.2 :: s.1) with e | records
  · simp [nextAfter]
  · rw [nextAfter]
    split
    · rename_i hshort
      simp only [Option.map_none, reduceCtorEq, false_iff]
      rintro ⟨_, _, heq, hfull, -⟩
      obtain rfl := Except.ok.inj heq
      omega
    · rename_i hfull
      have hfull : 1000 ≤ records.length := Nat.not_lt.mp hfull
      simp [hfull, eq_comm]

lemma nextRequest_eq_none {sent : List V1PageQuery} {after : Option ℤ} :
    nextRequest peer f (sent, after) = none ↔ Stops peer f sent after := by
  constructor
  · intro h records hpage
    by_contra hfull
    have hne : records ≠ [] := by
      rintro rfl
      exact hfull (by decide)
    obtain ⟨last, hlast⟩ := Option.ne_none_iff_exists'.mp (mt List.getLast?_eq_none_iff.mp hne)
    have hsome : nextRequest peer f (sent, after) = some (f.page after :: sent, some last.id) :=
      nextRequest_eq_some.mpr ⟨records, last, hpage, Nat.not_lt.mp hfull, hlast, rfl⟩
    exact Option.some_ne_none _ (hsome.symm.trans h)
  · intro h
    by_contra hnone
    obtain ⟨t, ht⟩ := Option.ne_none_iff_exists'.mp hnone
    obtain ⟨records, last, hpage, hfull, -⟩ := nextRequest_eq_some.mp ht
    exact absurd (h records hpage) (Nat.not_lt.mpr hfull)

/-- What is asked is what the run of the requests comes to. -/
lemma steps_eq_some {n : ℕ} {sent : List V1PageQuery} {after : Option ℤ} :
    steps (nextRequest peer f) n ([], none) = some (sent, after) ↔
      Asked peer f sent after ∧ sent.length = n := by
  constructor
  · intro h
    induction n generalizing sent after with
    | zero =>
      cases h
      exact ⟨.first, rfl⟩
    | succ n ih =>
      obtain ⟨⟨sent', after'⟩, hbefore, hstep⟩ := Option.bind_eq_some_iff.mp h
      obtain ⟨records, last, hpage, hfull, hlast, heq⟩ := nextRequest_eq_some.mp hstep
      obtain ⟨rfl, rfl⟩ := Prod.mk.inj heq
      obtain ⟨hasked, hlen⟩ := ih hbefore
      exact ⟨.next hasked hpage hfull hlast, congrArg (· + 1) hlen⟩
  · rintro ⟨h, rfl⟩
    induction h with
    | first => rfl
    | next h hpage hfull hlast ih =>
      rw [List.length_cons, steps_succ, ih]
      exact nextRequest_eq_some.mpr ⟨_, _, hpage, hfull, hlast, rfl⟩

/-- A fetch returns exactly if the peer answers one of its requests without a full page. -/
lemma terminates_iff : Terminates peer f ↔ ∃ sent after, Asked peer f sent after ∧
    Stops peer f sent after := by
  rw [terminates_iff_halts, halts_iff]
  constructor
  · rintro ⟨n, ⟨sent, after⟩, hsteps, hnone⟩
    exact ⟨sent, after, (steps_eq_some.mp hsteps).1, nextRequest_eq_none.mp hnone⟩
  · rintro ⟨sent, after, hasked, hstops⟩
    exact ⟨sent.length, (sent, after), steps_eq_some.mpr ⟨hasked, rfl⟩,
      nextRequest_eq_none.mpr hstops⟩

/-- A peer without a memory is asked for ever exactly if it is asked for the same page again. -/
lemma Memoryless.terminates_iff (h : Memoryless peer) (hc : DrawnFrom peer c) : Terminates peer f ↔
    ∀ sent sent' after, Asked peer f sent after → Asked peer f sent' after →
      sent.length = sent'.length := by
  have hview (s : List V1PageQuery × Option ℤ) :
      (nextRequest peer f s).map Prod.snd = nextPage peer f s.2 := by
    rw [nextRequest, h, Option.map_map]
    rfl
  have hsteps (n : ℕ) (after : Option ℤ) : steps (nextPage peer f) n none = some after ↔
      ∃ sent, Asked peer f sent after ∧ sent.length = n := by
    have hmap : (steps (nextRequest peer f) n ([], none)).map Prod.snd =
        steps (nextPage peer f) n none := steps_map hview n
    rw [← hmap, Option.map_eq_some_iff]
    constructor
    · rintro ⟨⟨sent, _⟩, hs, rfl⟩
      exact ⟨sent, steps_eq_some.mp hs⟩
    · rintro ⟨sent, hs⟩
      exact ⟨(sent, after), steps_eq_some.mpr hs, rfl⟩
  -- A page begins at the start or after one of the finitely many records.
  have hmem (n : ℕ) (after : Option ℤ) (hn : steps (nextPage peer f) n none = some after) :
      after ∈ none :: c.map fun p => some p.id := by
    cases n with
    | zero =>
      cases hn
      exact List.mem_cons_self
    | succ n =>
      obtain ⟨before, -, hnext⟩ := Option.bind_eq_some_iff.mp hn
      obtain ⟨id, hid, rfl⟩ := Option.map_eq_some_iff.mp hnext
      obtain ⟨p, hp, rfl⟩ := List.mem_map.mp (hc.nextAfter_mem hid)
      exact List.mem_cons_of_mem _ (List.mem_map_of_mem hp)
  rw [terminates_iff_halts, halts_map hview, halts_iff_of_finite (List.finite_toSet _) hmem]
  constructor
  · intro hunique sent sent' after hs hs'
    exact hunique _ _ _ ((hsteps _ _).mpr ⟨sent, hs, rfl⟩) ((hsteps _ _).mpr ⟨sent', hs', rfl⟩)
  · intro hunique m n after hm hn
    obtain ⟨sent, hs, rfl⟩ := (hsteps _ _).mp hm
    obtain ⟨sent', hs', rfl⟩ := (hsteps _ _).mp hn
    exact hunique sent sent' after hs hs'

/-- The records that are still to come of a peer that advances. -/
def remaining (c : List PeerBinaryPackage) (after : Option ℤ) : ℕ :=
  (c.filter fun p => after.all (· < p.id)).length

/-- A peer that advances is asked at most once for each record, and once more. -/
lemma Advances.terminates (h : Advances peer f) (hc : DrawnFrom peer c) :
    ∃ result, fetchLoop peer f (c.length + 1) [] none ∅ = some result := by
  have hfalls (s t : List V1PageQuery × Option ℤ) (hst : nextRequest peer f s = some t) :
      remaining c t.2 < remaining c s.2 := by
    obtain ⟨records, last, hpage, hfull, hlast, rfl⟩ := nextRequest_eq_some.mp hst
    have hafter := h s.1 s.2 records last hpage hfull hlast
    have hmem : last ∈ c.filter fun p => s.2.all (· < p.id) :=
      List.mem_filter.mpr ⟨hc _ _ hpage (List.mem_of_getLast? hlast),
        by rw [Option.all_eq_true]; exact fun id hid => decide_eq_true (hafter id hid)⟩
    have hfewer : (c.filter fun p => (some last.id).all (· < p.id)) =
        (c.filter fun p => s.2.all (· < p.id)).filter fun p => last.id < p.id := by
      rw [List.filter_filter]
      refine List.filter_congr fun p _ => ?_
      have hp (hlt : last.id < p.id) : ∀ id ∈ s.2, id < p.id := fun id hid => (hafter id hid).trans hlt
      rw [Option.all_some, Bool.eq_iff_iff, Bool.and_eq_true, Option.all_eq_true]
      simpa using hp
    rw [remaining, hfewer]
    exact List.length_filter_lt_length_iff_exists.mpr ⟨last, hmem, by simp⟩
  have hrank : remaining c none = c.length := by simp [remaining]
  rw [← Option.isSome_iff_exists, fetchLoop_isSome, ← hrank]
  exact steps_rank hfalls ([], none)

end

/-- **A fetch from a peer ends exactly if one of its requests is answered without a full page.** If
the peer answers without looking at earlier requests, that is if it is never asked for the same page
again; and if every full page ends after the record it was to begin after, there are not more
requests than records, and one more. -/
theorem fetch_terminates_iff (peer : V1Peer) (f : Fetch) (c : List PeerBinaryPackage)
    (hc : DrawnFrom peer c) :
    (Terminates peer f ↔ ∃ sent after, Asked peer f sent after ∧ Stops peer f sent after) ∧
      (Memoryless peer → (Terminates peer f ↔ ∀ sent sent' after, Asked peer f sent after →
        Asked peer f sent' after → sent.length = sent'.length)) ∧
      (Advances peer f → ∃ result, fetchLoop peer f (c.length + 1) [] none ∅ = some result) :=
  ⟨terminates_iff, fun h => h.terminates_iff hc, fun h => h.terminates hc⟩

/-! ### A peer that ignores `after` -/

/-- The thousand packages of a peer. -/
def thousandPackages : List PeerBinaryPackage :=
  (List.range 1000).map fun i : ℕ => ⟨(i : ℤ) + 1, "hello", toString i, some .good, none, none⟩

/-- A peer that always sends all of its packages. -/
def unpagedPeer : V1Peer := fun _ => .ok thousandPackages

lemma unpagedPeer_drawnFrom : DrawnFrom unpagedPeer thousandPackages := by
  intro sent records h
  obtain rfl := Except.ok.inj h
  exact List.Subset.refl _

theorem fetch_terminates_iff_unpaged :
    (Terminates unpagedPeer ⟨"debian", "amd64", none⟩ ↔ ∃ sent after,
        Asked unpagedPeer ⟨"debian", "amd64", none⟩ sent after ∧
          Stops unpagedPeer ⟨"debian", "amd64", none⟩ sent after) ∧
      (Memoryless unpagedPeer → (Terminates unpagedPeer ⟨"debian", "amd64", none⟩ ↔
        ∀ sent sent' after, Asked unpagedPeer ⟨"debian", "amd64", none⟩ sent after →
          Asked unpagedPeer ⟨"debian", "amd64", none⟩ sent' after → sent.length = sent'.length)) ∧
      (Advances unpagedPeer ⟨"debian", "amd64", none⟩ → ∃ result,
        fetchLoop unpagedPeer ⟨"debian", "amd64", none⟩ (thousandPackages.length + 1) [] none ∅ =
          some result) :=
  fetch_terminates_iff unpagedPeer ⟨"debian", "amd64", none⟩ thousandPackages unpagedPeer_drawnFrom

/-- **A peer that has a thousand packages and ignores `after` is asked for ever.** -/
theorem unpagedPeer_endless :
    ¬ ∀ peer f c, DrawnFrom peer c → Terminates peer f := by
  intro h
  obtain ⟨sent, after, -, hstops⟩ := terminates_iff.mp
    (h unpagedPeer ⟨"debian", "amd64", none⟩ thousandPackages unpagedPeer_drawnFrom)
  have hshort : thousandPackages.length < 1000 := hstops _ rfl
  rw [thousandPackages, List.length_map, List.length_range] at hshort
  exact lt_irrefl _ hshort

end Rebuilderd.Daemon
