import Rebuilderd.Worker.Process

/-!
What a run captures: both streams to their end, in the order in which they were read.
-/

namespace Rebuilderd.Worker.Proc

open Rebuilderd.Common

/-! ### Turns -/

namespace Running

/-- What a turn does: it fails to wake up, reads nothing, reads the end of a stream, or reads some
bytes and pushes them. -/
inductive TurnEffect (t : Turn) (p : Running) :
    Running × Except RunFailure (Option Bool) → List (Stream × Bytes) → List Call → Prop
  | unwoken {e : RunFailure} (hwoken : woken t p = none) :
      TurnEffect t p ({ p with cap := (p.cap.nextWakeup t.moment p.streams).1 }, .error e) []
        [.nextWakeup t.moment p.streams]
  | quiet {q : Running} {r : Except RunFailure (Option Bool)} (hwoken : woken t p = some q)
      (hended : ∀ b, r = .ok (some b) → q.streams.reading = false) :
      TurnEffect t p (q, r) [] [.nextWakeup t.moment p.streams]
  | atEnd {q : Running} {s : Stream} (hwoken : woken t p = some q) (hreading : q.streams.reading = true) :
      TurnEffect t p ({ q with streams := q.streams.close s }, .ok none) [(s, [])]
        [.nextWakeup t.moment p.streams]
  | pushed {q : Running} {s : Stream} {bytes : Bytes} {m : Moment} {passed : List (Stream × Bytes)}
      {r : Except RunFailure (Option Bool)} (hwoken : woken t p = some q)
      (hreading : q.streams.reading = true) (hne : bytes ≠ []) (hrunning : ∀ b, r ≠ .ok (some b))
      (hok : r = .ok none → (q.cap.pushBytes m bytes).2 = .ok ()) :
      TurnEffect t p ({ q with cap := (q.cap.pushBytes m bytes).1, passed := passed }, r) [(s, bytes)]
        [.nextWakeup t.moment p.streams, .pushBytes m bytes]

variable {passthrough : Bool} {t : Turn} {p : Running}

lemma woken_some {q : Running} (h : woken t p = some q) : ∃ remaining,
    p.cap.nextWakeup t.moment p.streams = (q.cap, .ok (q.streams, remaining)) ∧ q.passed = p.passed := by
  unfold woken at h
  split at h
  · rename_i cap streams remaining hnext
    cases h
    exact ⟨remaining, hnext, rfl⟩
  · cases h

lemma take_nil (s : Stream) (m : Moment) (written : Except Err Unit) (q : Running) :
    take passthrough s [] m written q = ({ q with streams := q.streams.close s }, .ok ()) := rfl

lemma take_cons (passthrough : Bool) (s : Stream) {bytes : Bytes} (m : Moment)
    (written : Except Err Unit) (q : Running) (hne : bytes ≠ []) : ∃ passed r, take passthrough s bytes m written q =
      ({ q with cap := (q.cap.pushBytes m bytes).1, passed := passed }, r) ∧
        (r = .ok () → (q.cap.pushBytes m bytes).2 = .ok ()) := by
  unfold take
  rw [if_neg hne]
  dsimp only
  split
  · exact ⟨_, _, rfl, nofun⟩
  · rename_i hpush
    split
    · split <;> exact ⟨_, _, rfl, fun _ => hpush⟩
    · exact ⟨_, _, rfl, fun _ => hpush⟩

lemma turn_effect (passthrough : Bool) (t : Turn) (p : Running) :
    TurnEffect t p (turn passthrough t p) (readOf t p) (callsOf t p) := by
  rcases hwoken : woken t p with _ | q
  · have hread : readOf t p = [] := by unfold readOf; rw [hwoken]
    have hcalls : callsOf t p = [.nextWakeup t.moment p.streams] := by unfold callsOf; rw [hwoken]
    have hturn : ∃ e, turn passthrough t p =
        ({ p with cap := (p.cap.nextWakeup t.moment p.streams).1 }, .error e) := by
      unfold woken at hwoken
      unfold turn
      dsimp only
      split at hwoken
      · cases hwoken
      · rename_i cap e hnext
        exact ⟨.capture e, by rw [hnext]⟩
    obtain ⟨e, hturn⟩ := hturn
    rw [hread, hcalls, hturn]
    exact .unwoken hwoken
  · obtain ⟨remaining, hnext, hpassed⟩ := woken_some hwoken
    have hsame : ({ p with cap := q.cap, streams := q.streams } : Running) = q := by
      rw [← hpassed]
    unfold turn readOf callsOf
    rw [hwoken, hnext]
    dsimp only
    rw [hsame]
    cases hreading : q.streams.reading with
    | false =>
      have hquiet {r : Except RunFailure (Option Bool)} :
          TurnEffect t p (q, r) [] [.nextWakeup t.moment p.streams] :=
        .quiet hwoken fun _ _ => hreading
      rcases t.found with ⟨s, e | bytes, m, written⟩ | _ <;>
        rcases t.waited with ⟨e | success⟩ | _ <;>
        simp only [hreading, Bool.false_and, Bool.false_eq_true, if_false] <;> exact hquiet
    | true =>
      rcases t.found with ⟨s, e | bytes, m, written⟩ | _
      · exact .quiet hwoken nofun
      · simp only [hreading, if_true, Bool.true_and, decide_eq_true_eq]
        by_cases hbytes : bytes = []
        · subst hbytes
          rw [take_nil, if_neg (not_not.mpr rfl)]
          exact .atEnd hwoken hreading
        · obtain ⟨passed, r, htake, hok⟩ := take_cons passthrough s m written q hbytes
          rw [htake, if_pos hbytes]
          refine .pushed hwoken hreading hbytes (fun b => ?_) fun hr => hok ?_
          · cases r <;> exact nofun
          · cases r with
            | error e => cases hr
            | ok u => rfl
      · exact .quiet hwoken nofun

/-! ### Runs -/

lemma run_cons (ts : List Turn) (h : (turn passthrough t p).2 = .ok none) :
    run passthrough (t :: ts) p = run passthrough ts (turn passthrough t p).1 := by
  rw [run, h]

lemma run_ended (ts : List Turn) (h : (turn passthrough t p).2 ≠ .ok none) :
    run passthrough (t :: ts) p = turn passthrough t p := by
  rw [run]
  split
  · rename_i heq
    exact absurd heq h
  · rfl

variable {α : Type} {f : Turn → Running → List α}

lemma collect_cons (ts : List Turn) (h : (turn passthrough t p).2 = .ok none) :
    collect passthrough f (t :: ts) p = f t p ++ collect passthrough f ts (turn passthrough t p).1 := by
  rw [collect, h]

lemma collect_ended (ts : List Turn) (h : (turn passthrough t p).2 ≠ .ok none) :
    collect passthrough f (t :: ts) p = f t p := by
  rw [collect]
  split
  · rename_i heq
    exact absurd heq h
  · exact List.append_nil _

/-- What every turn keeps, given what was collected before, holds after a run. -/
theorem run_inv (passthrough : Bool) (f : Turn → Running → List α) (ts : List Turn) (p : Running)
    (done : List α) {I : List α → Running → Prop}
    (hturn : ∀ t ∈ ts, ∀ done p, I done p → I (done ++ f t p) (turn passthrough t p).1) (h : I done p) :
    I (done ++ collect passthrough f ts p) (run passthrough ts p).1 := by
  induction ts generalizing done p with
  | nil => simpa [collect, run] using h
  | cons t ts ih =>
    have hnext := hturn t List.mem_cons_self done p h
    by_cases hrunning : (turn passthrough t p).2 = .ok none
    · rw [collect_cons ts hrunning, run_cons ts hrunning, ← List.append_assoc]
      exact ih _ _ (fun t' ht' => hturn t' (List.mem_cons_of_mem _ ht')) hnext
    · rw [collect_ended ts hrunning, run_ended ts hrunning]
      exact hnext

/-- The capture at the end of a run is the one after its calls. -/
theorem cap_run (passthrough : Bool) (ts : List Turn) (p : Running) :
    (run passthrough ts p).1.cap = after p.cap (calls passthrough ts p) := by
  refine run_inv passthrough callsOf ts p [] (I := fun cs q => q.cap = after p.cap cs)
    (fun t _ done q hq => ?_) rfl
  rw [after_append, ← hq]
  have heffect := turn_effect passthrough t q
  generalize turn passthrough t q = out, readOf t q = rs, callsOf t q = cs at heffect
  cases heffect with
  | unwoken => rfl
  | quiet hwoken | atEnd hwoken =>
    obtain ⟨remaining, hnext, -⟩ := woken_some hwoken
    exact (congrArg Prod.fst hnext).symm
  | pushed hwoken =>
    obtain ⟨remaining, hnext, -⟩ := woken_some hwoken
    change _ = (Capture.pushBytes _ _ (q.cap.nextWakeup t.moment q.streams).1).1
    rw [hnext]

/-- A run ends with a status only once the streams are closed. -/
lemma streams_of_exited {ts : List Turn} {success : Bool}
    (h : (run passthrough ts p).2 = .ok (some success)) :
    (run passthrough ts p).1.streams.reading = false := by
  induction ts generalizing p with
  | nil => cases h
  | cons t ts ih =>
    by_cases hrunning : (turn passthrough t p).2 = .ok none
    · rw [run_cons ts hrunning] at h ⊢
      exact ih h
    · rw [run_ended ts hrunning] at h ⊢
      have heffect := turn_effect passthrough t p
      generalize turn passthrough t p = out, readOf t p = rs, callsOf t p = cs at heffect h
      cases heffect with
      | unwoken | atEnd => cases h
      | quiet hwoken hended => exact hended success h
      | pushed hwoken hreading hne hstill => exact absurd h (hstill success)

end Running

/-! ### What the child writes -/

/-- What is read of a stream. -/
def ofStream (s : Stream) (rs : List (Stream × Bytes)) : Bytes :=
  ((rs.filter (·.1 = s)).map Prod.snd).flatten

/-- The reads of a child that writes `out`: each stream is read in order, and its end comes once
everything is read. -/
structure Conforms (out : Stream → Bytes) (rs : List (Stream × Bytes)) : Prop where
  inOrder : ∀ s, ofStream s rs <+: out s
  atEnd : ∀ n s, rs[n]? = some (s, []) → ofStream s (rs.take n) = out s

section
variable {out : Stream → Bytes} {rs rs' : List (Stream × Bytes)} {s : Stream}

lemma ofStream_append (s : Stream) (rs rs' : List (Stream × Bytes)) :
    ofStream s (rs ++ rs') = ofStream s rs ++ ofStream s rs' := by
  simp [ofStream]

lemma Conforms.of_append (h : Conforms out (rs ++ rs')) : Conforms out rs := by
  refine ⟨fun s => ?_, fun n s hn => ?_⟩
  · refine List.IsPrefix.trans ?_ (h.inOrder s)
    rw [ofStream_append]
    exact List.prefix_append _ _
  · have hlt := (List.getElem?_eq_some_iff.mp hn).1
    have hend := h.atEnd n s (by rw [List.getElem?_append_left hlt, hn])
    rwa [List.take_append_of_le_length hlt.le] at hend

/-- Every byte that is read is of one of the streams. -/
lemma length_reads (rs : List (Stream × Bytes)) : (rs.map Prod.snd).flatten.length =
    (ofStream .stdout rs).length + (ofStream .stderr rs).length := by
  induction rs with
  | nil => rfl
  | cons r rs ih =>
    obtain ⟨s, bytes⟩ := r
    simp only [ofStream, List.map_cons, List.flatten_cons, List.length_append] at ih ⊢
    cases s <;> simp [ih] <;> omega

end

/-! ### Runs within the limits -/

/-- Everything that was read is in the output, no limit was reached, and a stream is closed only at its
end. -/
structure Complete (log : Bytes) (opts : Options) (start : Instant) (out : Stream → Bytes)
    (rs : List (Stream × Bytes)) (p : Running) : Prop where
  cap : p.cap = { capture log opts start with output := log ++ (rs.map Prod.snd).flatten }
  closed : ∀ s, p.streams.isOpen s = false → ofStream s rs = out s

namespace Complete

open Running

variable {log : Bytes} {opts : Options} {start : Instant} {out : Stream → Bytes}
  {rs : List (Stream × Bytes)} {p : Running} {t : Turn} {passthrough : Bool}

/-- The output has room for everything that the child writes. -/
def Fits (log : Bytes) (opts : Options) (out : Stream → Bytes) : Prop :=
  ∀ limit, opts.sizeLimit = some limit →
    log.length + (out .stdout).length + (out .stderr).length ≤ limit

lemma woken_eq (h : Complete log opts start out rs p)
    (htime : elapsed t.moment.timeoutClock start ≤ opts.timeout) : woken t p = some p := by
  have hkill : p.cap.sigkill t.moment p.streams = .ok p.streams := by
    simp [Capture.sigkill, Capture.sigkillDue, h.cap, capture]
  have hlate : p.cap.timedOut t.moment = false := by
    rw [h.cap]
    exact decide_eq_false (Nat.not_lt.mpr htime)
  unfold woken Capture.nextWakeup
  rw [hkill]
  dsimp only
  rw [hlate]
  rfl

lemma push (h : Complete log opts start out rs p) (hfits : Fits log opts out) {s : Stream}
    {bytes : Bytes} (hconf : Conforms out (rs ++ [(s, bytes)])) (hne : bytes ≠ []) (m : Moment) :
    p.cap.pushBytes m bytes =
      ({ p.cap with output := log ++ ((rs ++ [(s, bytes)]).map Prod.snd).flatten }, .ok ()) := by
  have hlen : (log ++ ((rs ++ [(s, bytes)]).map Prod.snd).flatten).length ≤
      log.length + (out .stdout).length + (out .stderr).length := by
    rw [List.length_append, length_reads]
    have hout := (hconf.inOrder .stdout).length_le
    have herr := (hconf.inOrder .stderr).length_le
    omega
  have hpos := List.length_pos_iff.mpr hne
  simp only [List.map_append, List.map_cons, List.map_nil, List.flatten_append, List.flatten_cons,
    List.flatten_nil, List.append_nil, ← List.append_assoc] at hlen ⊢
  rw [List.length_append] at hlen
  rw [h.cap]
  unfold Capture.pushBytes
  rcases hlimit : opts.sizeLimit with _ | limit
  · simp [capture, hlimit]
  · have hle := hlen.trans (hfits limit hlimit)
    have hroom : ¬ limit < (log ++ (rs.map Prod.snd).flatten).length := by omega
    have htake : ¬ min (limit - (log ++ (rs.map Prod.snd).flatten).length) bytes.length < 1 := by omega
    have hall : bytes.take (min (limit - (log ++ (rs.map Prod.snd).flatten).length) bytes.length) =
        bytes := List.take_of_length_le (by omega)
    simp only [capture, hlimit, Bool.false_eq_true, if_false, hroom, htake, hall]

/-- A turn within the limits reads what it reads, and closes a stream only at its end. -/
lemma turn (h : Complete log opts start out rs p) (hfits : Fits log opts out)
    (htime : elapsed t.moment.timeoutClock start ≤ opts.timeout)
    (hconf : Conforms out (rs ++ readOf t p)) :
    Complete log opts start out (rs ++ readOf t p) (Running.turn passthrough t p).1 := by
  have hwoken := h.woken_eq htime
  have heffect := turn_effect passthrough t p
  generalize Running.turn passthrough t p = result, readOf t p = new, callsOf t p = cs at heffect hconf
  cases heffect with
  | unwoken hnone =>
    rw [hwoken] at hnone
    cases hnone
  | quiet hsome =>
    obtain rfl := Option.some.inj (hwoken.symm.trans hsome)
    rw [List.append_nil]
    exact h
  | @atEnd q s hsome hreading =>
    obtain rfl := Option.some.inj (hwoken.symm.trans hsome)
    have hsame (s' : Stream) : ofStream s' (rs ++ [(s, [])]) = ofStream s' rs := by
      rw [ofStream_append]
      cases s <;> cases s' <;> simp [ofStream]
    refine ⟨?_, fun s' hs' => ?_⟩
    · rw [h.cap]
      simp
    · rw [hsame]
      by_cases heq : s' = s
      · subst heq
        simpa using hconf.atEnd rs.length s' (by simp)
      · refine h.closed s' ?_
        cases s <;> cases s' <;> first | exact absurd rfl heq | exact hs'
  | @pushed q s bytes m passed r hsome hreading hne =>
    obtain rfl := Option.some.inj (hwoken.symm.trans hsome)
    refine ⟨?_, fun s' hs' => ?_⟩
    · dsimp only
      rw [h.push hfits hconf hne, h.cap]
    · have hbefore := h.closed s' hs'
      have hafter := hconf.inOrder s'
      rw [ofStream_append, hbefore] at hafter
      have hnil := List.eq_nil_of_length_eq_zero (l := ofStream s' [(s, bytes)]) (by
        have := hafter.length_le
        rw [List.length_append] at this
        omega)
      rw [ofStream_append, hnil, List.append_nil, hbefore]

end Complete

/-- **Nothing that a script writes is lost**: if the output has room for both streams and the time is
not over, then a run that ends with a status has captured both to their end, in the order in which they
were read, and has sent no signal. -/
theorem run_complete (passthrough : Bool) (log : Bytes) (opts : Options) (start : Instant)
    (out : Stream → Bytes) (ts : List Turn) (success : Bool) (hfits : Complete.Fits log opts out)
    (htime : ∀ t ∈ ts, elapsed t.moment.timeoutClock start ≤ opts.timeout)
    (hchild : Conforms out (Running.reads passthrough ts (spawned log opts start)))
    (hrun : (Running.run passthrough ts (spawned log opts start)).2 = .ok (some success)) :
    let rs := Running.reads passthrough ts (spawned log opts start)
    (∀ s, ofStream s rs = out s) ∧ (Running.run passthrough ts (spawned log opts start)).1.cap =
      { capture log opts start with output := log ++ (rs.map Prod.snd).flatten } := by
  have hstart : Complete log opts start out [] (spawned log opts start) :=
    ⟨by simp [spawned, capture], fun s hs => by cases s <;> cases hs⟩
  have hend := Running.run_inv passthrough Running.readOf ts (spawned log opts start) []
    (I := fun rs p => Conforms out rs → Complete log opts start out rs p)
    (fun t ht rs p hp hconf => (hp hconf.of_append).turn hfits (htime t ht) hconf) fun _ => hstart
  rw [List.nil_append] at hend
  obtain ⟨hcap, hclosed⟩ := hend hchild
  have hshut := Running.streams_of_exited hrun
  refine ⟨fun s => hclosed s ?_, hcap⟩
  obtain ⟨hout, herr⟩ := Bool.or_eq_false_iff.mp hshut
  cases s
  · exact hout
  · exact herr

/-- A child that writes "hi" and "!", and ends. -/
def twoLines : List Turn :=
  [⟨.calm, .read .stdout (.ok [104]) .calm (.ok ()), .slept⟩,
    ⟨.calm, .read .stderr (.ok [33]) .calm (.ok ()), .slept⟩,
    ⟨.calm, .read .stdout (.ok [105]) .calm (.ok ()), .slept⟩,
    ⟨.calm, .read .stdout (.ok []) .calm (.ok ()), .slept⟩,
    ⟨.calm, .read .stdout (.ok []) .calm (.ok ()), .slept⟩,
    ⟨.calm, .read .stderr (.ok []) .calm (.ok ()), .slept⟩,
    ⟨.calm, .slept, .exited (.ok true)⟩]

def hiBang : Stream → Bytes
  | .stdout => [104, 105]
  | .stderr => [33]

theorem run_complete_twoLines :
    let opts : Options := ⟨fromSecs 600, some 3, true⟩
    let rs := Running.reads false twoLines (spawned [] opts 0)
    (∀ s, ofStream s rs = hiBang s) ∧ (Running.run false twoLines (spawned [] opts 0)).1.cap =
      { capture [] opts 0 with output := [] ++ (rs.map Prod.snd).flatten } := by
  refine run_complete false [] ⟨fromSecs 600, some 3, true⟩ 0 hiBang twoLines true ?_ (by decide) ?_
    (by decide)
  · rintro limit ⟨⟩
    decide
  · refine ⟨fun s => by cases s <;> decide, fun n s hn => ?_⟩
    have hreads : Running.reads false twoLines (spawned [] ⟨fromSecs 600, some 3, true⟩ 0) =
        [(.stdout, [104]), (.stderr, [33]), (.stdout, [105]), (.stdout, []), (.stdout, []),
          (.stderr, [])] := by decide
    rw [hreads] at hn ⊢
    rcases n with _ | _ | _ | _ | _ | _ | n <;> cases hn <;> decide

end Rebuilderd.Worker.Proc
