import Rebuilderd.Worker.Capture

/-!
The limits of a capture.

The captured bytes stay within the size limit, whatever is pushed and whenever the time is over; only
the notices go beyond it, each at most once. Within the time, a chunk that crosses the limit is cut,
but it takes another chunk for the notice.
-/

namespace Rebuilderd.Worker.Proc

open Rebuilderd.Common

variable {cap : Capture} {m : Moment} {slice : Bytes} {streams : Streams} {call : Call}
  {calls done rest : List Call} {limit : ℕ}

lemma notice_ne_nil (reason : String) : notice reason ≠ [] := by
  intro hnil
  have hlen := congrArg List.length hnil
  simp [notice, asBytes] at hlen

/-! ### Steps -/

@[simp] lemma after_nil : after cap [] = cap := rfl

lemma after_append : after cap (done ++ rest) = after (after cap done) rest := List.foldl_append

lemma after_concat : after cap (done ++ [call]) = (call.step (after cap done)).1 := after_append

@[simp] lemma chunks_nil : chunks [] = [] := rfl

lemma Call.chunk_cases (call : Call) : call.chunk = [] ∨ ∃ slice, call.chunk = [slice] := by
  cases call with
  | pushBytes m slice => exact .inr ⟨slice, rfl⟩
  | nextWakeup m streams => exact .inl rfl

lemma chunks_concat : chunks (done ++ [call]) = chunks done ++ call.chunk := by
  simp [chunks]

namespace Capture

/-- The capture with a notice, and with the time of the signal if one was due. -/
def noticed (m : Moment) (reason : String) (kill : Bool) (cap : Capture) : Capture :=
  { cap with
    sigtermSent := if kill then some m.sentClock else cap.sigtermSent
    output := cap.output ++ notice reason
    truncated := true }

lemma truncate_cases (m : Moment) (reason : String) (kill : Bool) (cap : Capture) :
    (∃ pid e, m.kill (groupOf pid) .sigterm = .error e ∧
      cap.truncate m reason kill = (cap, .error (.signal e))) ∨
      cap.truncate m reason kill = (cap.noticed m reason kill, .ok ()) := by
  unfold truncate
  cases kill with
  | false => exact .inr rfl
  | true =>
    unfold Moment.signal
    rcases m.pid with _ | pid
    · exact .inr rfl
    · rcases hkill : m.kill (groupOf pid) .sigterm with e | ⟨⟩
      · exact .inl ⟨pid, e, hkill, by simp [kill, hkill, Except.mapError]⟩
      · exact .inr (by simp [kill, hkill, Except.mapError, noticed])

lemma sigkill_cases (m : Moment) (streams : Streams) (cap : Capture) :
    (∃ pid e, m.kill (groupOf pid) .sigkill = .error e ∧ cap.sigkill m streams = .error (.signal e)) ∨
      ∃ streams', cap.sigkill m streams = .ok streams' := by
  unfold sigkill
  rcases cap.sigkillDue m with _ | pid
  · exact .inr ⟨streams, rfl⟩
  · rcases hkill : m.kill (groupOf pid) .sigkill with e | ⟨⟩
    · exact .inl ⟨pid, e, hkill, by simp [kill, hkill, Except.mapError, Except.map]⟩
    · exact .inr ⟨⟨false, false⟩, by simp [kill, hkill, Except.mapError, Except.map]⟩

end Capture

/-- What a call does to a capture with a size limit. A push in front of the limit takes what there is
room for; one at the limit, or of no bytes, ends the output. A wake-up changes the capture only if the
time is over and no SIGTERM was sent. -/
inductive Effect (limit : ℕ) (cap : Capture) (call : Call) : Capture × Except Failure Unit → Prop
  | idle (hidle : cap.truncated = true ∨ call.chunk = []) : Effect limit cap call (cap, .ok ())
  | underflow (hopen : cap.truncated = false) (hover : limit < cap.output.length) :
      Effect limit cap call (cap, .error .underflow)
  | unsent {pid : ℕ} {s : Signal} {e : Err} (hkill : call.moment.kill (groupOf pid) s = .error e)
      (hidle : cap.output.length = limit ∨ call.chunk.flatten = []) :
      Effect limit cap call (cap, .error (.signal e))
  | full {slice : Bytes} (hchunk : call.chunk = [slice]) (hopen : cap.truncated = false)
      (hfull : cap.output.length = limit ∨ slice = []) :
      Effect limit cap call
        (cap.noticed call.moment (sizeMessage limit) cap.killAtSizeLimit, .ok ())
  | take {slice : Bytes} (hchunk : call.chunk = [slice]) (hopen : cap.truncated = false)
      (hroom : cap.output.length < limit) :
      Effect limit cap call
        ({ cap with output := cap.output ++ slice.take (limit - cap.output.length) }, .ok ())
  | timeout (hchunk : call.chunk = []) (htime : call.timesOut cap = true)
      (hsigterm : cap.sigtermSent = none) :
      Effect limit cap call (cap.noticed call.moment (timeoutMessage cap.timeout) true, .ok ())

open Capture in
lemma effect_pushBytes (hlimit : cap.sizeLimit = some limit) (m : Moment) (slice : Bytes) :
    Effect limit cap (.pushBytes m slice) (cap.pushBytes m slice) := by
  unfold Capture.pushBytes
  split
  · rename_i htruncated
    exact .idle (.inl htruncated)
  · rename_i hopen
    rw [Bool.not_eq_true] at hopen
    split
    · rename_i hnone
      rw [hlimit] at hnone
      cases hnone
    · rename_i sizeLimit hsome
      obtain rfl : limit = sizeLimit := Option.some.inj (hlimit.symm.trans hsome)
      dsimp only
      split
      · rename_i hover
        exact .underflow hopen hover
      · rename_i hover
        split
        · rename_i hn
          have hfull : cap.output.length = limit ∨ slice = [] := by
            rcases min_choice (limit - cap.output.length) slice.length with h | h
            · exact .inl (by omega)
            · exact .inr (List.eq_nil_of_length_eq_zero (by omega))
          rcases truncate_cases m (sizeMessage limit) cap.killAtSizeLimit cap with
            ⟨pid, e, hkill, hcut⟩ | hcut
          · rw [hcut]
            exact .unsent hkill (hfull.imp_right fun h => by rw [h]; rfl)
          · rw [hcut]
            exact .full rfl hopen hfull
        · rw [← List.take_eq_take_min]
          exact .take rfl hopen (by omega)

open Capture in
lemma effect_nextWakeup (m : Moment) (streams : Streams) :
    Effect limit cap (.nextWakeup m streams) ((Call.nextWakeup m streams).step cap) := by
  unfold Call.step
  dsimp only
  unfold Capture.nextWakeup
  rcases sigkill_cases m streams cap with ⟨pid, e, hkill, heq⟩ | ⟨streams', heq⟩
  · rw [heq]
    exact .unsent hkill (.inr rfl)
  · rw [heq]
    dsimp only
    rcases htime : cap.timedOut m with _ | _
    · exact .idle (.inr rfl)
    · rcases hsigterm : cap.sigtermSent with _ | sent
      · rcases truncate_cases m (timeoutMessage cap.timeout) true cap with
          ⟨pid, e, hkill, hcut⟩ | hcut
        · simp only [Bool.not_true, Bool.false_eq_true, if_false, Option.isNone_none, if_true, hcut]
          exact .unsent hkill (.inr rfl)
        · simp only [Bool.not_true, Bool.false_eq_true, if_false, Option.isNone_none, if_true, hcut]
          exact .timeout rfl htime hsigterm
      · exact .idle (.inr rfl)

lemma effect_step (hlimit : cap.sizeLimit = some limit) (call : Call) :
    Effect limit cap call (call.step cap) := by
  cases call with
  | pushBytes m slice => exact effect_pushBytes hlimit m slice
  | nextWakeup m streams => exact effect_nextWakeup m streams

/-! ### The limits -/

/-- What a capture of `stream` consists of: some of its first bytes, as many as the limit allows, and
the notices about the size and the time. -/
structure Within (limit : ℕ) (timeout : Duration) (stream kept : Bytes) (sized timed : Bool)
    (cap : Capture) : Prop where
  sizeLimit : cap.sizeLimit = some limit
  sameTimeout : cap.timeout = timeout
  begins : kept <+: stream
  le : kept.length ≤ limit
  output : cap.output = kept ++ (if sized then notice (sizeMessage limit) else []) ++
    (if timed then notice (timeoutMessage timeout) else [])
  truncated : cap.truncated = (sized || timed)
  whole : cap.truncated = false → kept = stream.take limit
  sigterm : timed = true → cap.sigtermSent ≠ none

namespace Within

open Capture

variable {timeout : Duration} {stream kept : Bytes} {sized timed : Bool}

lemma capture {output : Bytes} {opts : Options} (start : Instant)
    (hlimit : opts.sizeLimit = some limit) (hlen : output.length ≤ limit) :
    Within limit opts.timeout output output false false (capture output opts start) where
  sizeLimit := hlimit
  sameTimeout := rfl
  begins := List.prefix_refl output
  le := hlen
  output := by simp [Proc.capture]
  truncated := rfl
  whole _ := (List.take_of_length_le hlen).symm
  sigterm := by simp

/-- A capture that is not truncated has no notice. -/
lemma of_not_truncated (h : Within limit timeout stream kept sized timed cap)
    (htruncated : cap.truncated = false) : cap.output = kept ∧ sized = false ∧ timed = false := by
  obtain ⟨rfl, rfl⟩ := Bool.or_eq_false_iff.mp (h.truncated ▸ htruncated)
  exact ⟨by simpa using h.output, rfl, rfl⟩

/-- More bytes that the capture does not take, because it is truncated or full. -/
lemma append (h : Within limit timeout stream kept sized timed cap) {more : Bytes}
    (hmore : cap.truncated = false → more = [] ∨ kept.length = limit) :
    Within limit timeout (stream ++ more) kept sized timed cap where
  sizeLimit := h.sizeLimit
  sameTimeout := h.sameTimeout
  begins := h.begins.trans (List.prefix_append stream more)
  le := h.le
  output := h.output
  truncated := h.truncated
  whole htruncated := by
    rcases hmore htruncated with rfl | hfull
    · rw [List.append_nil, ← h.whole htruncated]
    · have hle : limit ≤ stream.length := hfull ▸ h.begins.length_le
      rw [List.take_append_of_le_length hle, ← h.whole htruncated]
  sigterm := h.sigterm

/-- Bytes that the limit leaves room for. -/
lemma extend (h : Within limit timeout stream kept sized timed cap) (more : Bytes)
    (hopen : cap.truncated = false) (hroom : cap.output.length < limit) :
    Within limit timeout (stream ++ more) (kept ++ more.take (limit - cap.output.length)) sized timed
      { cap with output := cap.output ++ more.take (limit - cap.output.length) } := by
  obtain ⟨houtput, rfl, rfl⟩ := h.of_not_truncated hopen
  rw [houtput] at hroom ⊢
  obtain rfl : kept = stream := by
    have hkept := h.whole hopen
    have hlen := congrArg List.length hkept
    rw [List.length_take] at hlen
    rw [hkept, List.take_of_length_le (by omega)]
  have hwhole : kept ++ more.take (limit - kept.length) = (kept ++ more).take limit := by
    rw [List.take_append, List.take_of_length_le hroom.le]
  refine ⟨h.sizeLimit, h.sameTimeout, ?_, ?_, ?_, h.truncated, fun _ => hwhole, h.sigterm⟩
  · rw [hwhole]
    exact List.take_prefix _ _
  · rw [hwhole]
    exact List.length_take_le _ _
  · simp

/-- The notice about the size. -/
lemma noticeSize (h : Within limit timeout stream kept sized timed cap) (m : Moment) (kill : Bool)
    (htruncated : cap.truncated = false) :
    Within limit timeout stream kept true timed (cap.noticed m (sizeMessage limit) kill) := by
  obtain ⟨houtput, rfl, rfl⟩ := h.of_not_truncated htruncated
  refine ⟨h.sizeLimit, h.sameTimeout, h.begins, h.le, ?_, rfl,
    fun hnot => absurd hnot (by simp [noticed]), by simp⟩
  simp [noticed, houtput]

/-- The notice about the time, which is the last one. -/
lemma noticeTimeout (h : Within limit timeout stream kept sized timed cap) (m : Moment)
    (hsigterm : cap.sigtermSent = none) :
    Within limit timeout stream kept sized true (cap.noticed m (timeoutMessage cap.timeout) true) := by
  obtain rfl : timed = false := by
    rw [← Bool.not_eq_true]
    exact fun htimed => h.sigterm htimed hsigterm
  refine ⟨h.sizeLimit, h.sameTimeout, h.begins, h.le, ?_, ?_,
    fun hnot => absurd hnot (by simp [noticed]), by simp [noticed]⟩
  · simp [noticed, h.output, h.sameTimeout]
  · simp [noticed]

/-- A call leaves the capture within the limits; if it is truncated, only the notice about the time
can still come. -/
lemma step (h : Within limit timeout stream kept sized timed cap) (call : Call) :
    ∃ kept' sized' timed', Within limit timeout (stream ++ call.chunk.flatten) kept' sized' timed'
        (call.step cap).1 ∧
      (cap.truncated = true → kept' = kept ∧ sized' = sized ∧ (timed = true → timed' = true)) := by
  have heffect := effect_step h.sizeLimit call
  generalize call.step cap = result at heffect
  cases heffect with
  | idle hidle =>
    refine ⟨kept, sized, timed, h.append fun hopen => .inl ?_, fun _ => ⟨rfl, rfl, id⟩⟩
    rw [hidle.resolve_left (by simp [hopen]), List.flatten_nil]
  | underflow hopen hover =>
    rw [(h.of_not_truncated hopen).1] at hover
    exact absurd h.le (not_le.mpr hover)
  | unsent hkill hidle =>
    refine ⟨kept, sized, timed, h.append fun hopen => ?_, fun _ => ⟨rfl, rfl, id⟩⟩
    rw [(h.of_not_truncated hopen).1] at hidle
    exact hidle.symm
  | full hchunk hopen hfull =>
    rw [(h.of_not_truncated hopen).1] at hfull
    rw [hchunk, List.flatten_singleton]
    exact ⟨kept, true, timed, (h.append fun _ => hfull.symm).noticeSize _ _ hopen,
      fun htruncated => absurd htruncated (by simp [hopen])⟩
  | take hchunk hopen hroom =>
    rw [hchunk, List.flatten_singleton]
    exact ⟨_, sized, timed, h.extend _ hopen hroom,
      fun htruncated => absurd htruncated (by simp [hopen])⟩
  | timeout hchunk htime hsigterm =>
    rw [hchunk, List.flatten_nil, List.append_nil]
    exact ⟨kept, sized, true, h.noticeTimeout _ hsigterm, fun _ => ⟨rfl, rfl, fun _ => rfl⟩⟩

/-- The subtraction of a push does not underflow. -/
lemma no_underflow (h : Within limit timeout stream kept sized timed cap) (call : Call) :
    (call.step cap).2 ≠ .error .underflow := by
  have heffect := effect_step h.sizeLimit call
  generalize call.step cap = result at heffect
  cases heffect with
  | underflow hopen hover =>
    rw [(h.of_not_truncated hopen).1] at hover
    exact absurd h.le (not_le.mpr hover)
  | idle | unsent | full | take | timeout => simp

/-- If the child takes every signal, no call fails. -/
lemma step_ok (h : Within limit timeout stream kept sized timed cap)
    (hkill : ∀ pid s, call.moment.kill pid s = .ok ()) : (call.step cap).2 = .ok () := by
  have hunderflow := h.no_underflow call
  have heffect := effect_step h.sizeLimit call
  generalize call.step cap = result at heffect hunderflow
  cases heffect with
  | underflow hopen hover => exact absurd rfl hunderflow
  | unsent hunsent hidle =>
    rw [hkill] at hunsent
    cases hunsent
  | idle | full | take | timeout => rfl

/-- Once the capture is truncated, it stays truncated, and gets at most the notice about the time. -/
lemma after (h : Within limit timeout stream kept sized timed cap) (calls : List Call) :
    ∃ kept' sized' timed', Within limit timeout (stream ++ (chunks calls).flatten) kept' sized' timed'
        (after cap calls) ∧
      (cap.truncated = true → kept' = kept ∧ sized' = sized ∧ (timed = true → timed' = true)) := by
  induction calls using List.reverseRecOn with
  | nil => exact ⟨kept, sized, timed, by simpa using h, fun _ => ⟨rfl, rfl, id⟩⟩
  | append_singleton calls call ih =>
    obtain ⟨kept₁, sized₁, timed₁, h₁, hsame₁⟩ := ih
    obtain ⟨kept₂, sized₂, timed₂, h₂, hsame₂⟩ := h₁.step call
    rw [after_concat, chunks_concat, List.flatten_append, ← List.append_assoc]
    refine ⟨kept₂, sized₂, timed₂, h₂, fun htruncated => ?_⟩
    obtain ⟨rfl, rfl, htimed₁⟩ := hsame₁ htruncated
    have hstill : (Proc.after cap calls).truncated = true := by
      rw [h₁.truncated]
      rw [h.truncated] at htruncated
      rcases Bool.or_eq_true_iff.mp htruncated with hsized | htimed
      · rw [hsized, Bool.true_or]
      · rw [htimed₁ htimed, Bool.or_true]
    obtain ⟨rfl, rfl, htimed₂⟩ := hsame₂ hstill
    exact ⟨rfl, rfl, fun htimed => htimed₂ (htimed₁ htimed)⟩

end Within

/-- A child that takes every signal, within the time. -/
def Moment.calm : Moment := ⟨some 7, fun _ _ => .ok (), 0, 0, 0⟩

/-- Chunks that are pushed one after the other. -/
def pushes (pushed : List Bytes) : List Call := pushed.map (.pushBytes .calm)

def threeBytes : Options := ⟨fromSecs 600, some 3, false⟩

/-- **A capture stays within its limits**: whatever is pushed and whenever the time is over, the
subtraction in a push does not underflow, the output has no more bytes than the limit besides one
notice of each kind, and a truncated one gets nothing but a notice. -/
theorem capture_within {output : Bytes} {opts : Options} (start : Instant) (calls : List Call)
    (hlimit : opts.sizeLimit = some limit) (hlen : output.length ≤ limit) :
    (∀ done call, done ++ [call] <+: calls →
      (call.step (after (capture output opts start) done)).2 ≠ .error .underflow) ∧
    (∃ (kept : Bytes) (sized timed : Bool), kept <+: output ++ (chunks calls).flatten ∧ kept.length ≤ limit ∧
      (after (capture output opts start) calls).output =
        kept ++ (if sized then notice (sizeMessage limit) else []) ++
          (if timed then notice (timeoutMessage opts.timeout) else [])) ∧
    (after (capture output opts start) calls).output.length ≤
      limit + (notice (sizeMessage limit)).length + (notice (timeoutMessage opts.timeout)).length ∧
    ∀ done rest, done ++ rest = calls → (after (capture output opts start) done).truncated = true →
      (after (capture output opts start) calls).truncated = true ∧
      ∃ added, (added = [] ∨ added = notice (timeoutMessage opts.timeout)) ∧
        (after (capture output opts start) calls).output =
          (after (capture output opts start) done).output ++ added := by
  have hstart := Within.capture start hlimit hlen
  obtain ⟨kept, sized, timed, hend, -⟩ := hstart.after calls
  refine ⟨fun done call _ => ?_, ⟨kept, sized, timed, hend.begins, hend.le, hend.output⟩, ?_,
    fun done rest heq htruncated => ?_⟩
  · obtain ⟨_, _, _, hdone, -⟩ := hstart.after done
    exact hdone.no_underflow call
  · have hle := hend.le
    rw [hend.output]
    cases sized <;> cases timed <;> simp <;> omega
  · obtain ⟨kept₁, sized₁, timed₁, hdone, -⟩ := hstart.after done
    obtain ⟨kept₂, sized₂, timed₂, hend, hsame⟩ := hdone.after rest
    obtain ⟨rfl, rfl, htimed⟩ := hsame htruncated
    rw [← after_append, heq] at hend
    rw [hdone.truncated] at htruncated
    rw [hend.truncated, hend.output, hdone.output]
    rcases timed₁ with _ | _
    · rw [Bool.or_false] at htruncated
      rw [htruncated]
      cases timed₂ with
      | false => exact ⟨rfl, [], .inl rfl, by simp⟩
      | true => exact ⟨rfl, _, .inr rfl, by simp⟩
    · rw [htimed rfl]
      exact ⟨Bool.or_true _, [], .inl rfl, by simp⟩

theorem threeBytes_within :
    (after (capture [97] threeBytes 0)
      (pushes [[98, 99, 100], [101]] ++
        [.nextWakeup { Moment.calm with timeoutClock := fromSecs 601 } ⟨true, true⟩])).output.length ≤
      3 + (notice (sizeMessage 3)).length + (notice (timeoutMessage (fromSecs 600))).length :=
  (capture_within 0 _ rfl (by decide)).2.2.1

/-! ### The cut -/

/-- A stream that is cut exactly at the limit. -/
def cutAt (limit : ℕ) (stream : Bytes) : Bytes :=
  if stream.length ≤ limit then stream else stream.take limit ++ notice (sizeMessage limit)

/-- Within the time, the output is the stream up to the limit; the notice stands there if a chunk
arrived at the limit. -/
structure Cut (limit : ℕ) (pushed : List Bytes) (cap : Capture) : Prop where
  sizeLimit : cap.sizeLimit = some limit
  output : cap.output = pushed.flatten.take limit ++
    if cap.truncated then notice (sizeMessage limit) else []
  truncated : cap.truncated = true ↔ pushed ≠ [] ∧ limit ≤ pushed.dropLast.flatten.length

/-- No call changes the limits. -/
lemma limits_step (hlimit : cap.sizeLimit = some limit) (call : Call) :
    (call.step cap).1.sizeLimit = some limit ∧
      ∀ call' : Call, call'.timesOut (call.step cap).1 = call'.timesOut cap := by
  have heffect := effect_step hlimit call
  generalize call.step cap = result at heffect
  refine ⟨by cases heffect <;> exact hlimit, fun call' => ?_⟩
  cases call' with
  | pushBytes m slice => rfl
  | nextWakeup m streams => cases heffect <;> rfl

lemma limits_after (hlimit : cap.sizeLimit = some limit) (done : List Call) :
    (after cap done).sizeLimit = some limit ∧
      ∀ call : Call, call.timesOut (after cap done) = call.timesOut cap := by
  induction done using List.reverseRecOn with
  | nil => exact ⟨hlimit, fun _ => rfl⟩
  | append_singleton done call ih =>
    rw [after_concat]
    obtain ⟨hlimit', htime⟩ := limits_step ih.1 call
    exact ⟨hlimit', fun call' => (htime call').trans (ih.2 call')⟩

namespace Cut

variable {pushed : List Bytes}

lemma capture {opts : Options} {start : Instant} (hlimit : opts.sizeLimit = some limit) :
    Cut limit [] (capture [] opts start) where
  sizeLimit := hlimit
  output := by simp [Proc.capture]
  truncated := by simp [Proc.capture]

/-- A chunk that begins at the limit or behind it: nothing of it is taken, and there is a notice. -/
lemma behind (hlimit : cap.sizeLimit = some limit) (hfull : limit ≤ pushed.flatten.length)
    (houtput : cap.output = pushed.flatten.take limit ++ notice (sizeMessage limit))
    (htruncated : cap.truncated = true) : Cut limit (pushed ++ [slice]) cap := by
  refine ⟨hlimit, ?_, ?_⟩
  · rw [List.flatten_append, List.take_append_of_le_length hfull, if_pos htruncated, houtput]
  · simpa [htruncated] using hfull

/-- The notice comes with the first chunk that begins at the limit or behind it. -/
lemma step (h : Cut limit pushed cap) (hchunk : ∀ chunk ∈ call.chunk, chunk ≠ [])
    (hok : (call.step cap).2 = .ok ()) (htime : call.timesOut cap = false) :
    Cut limit (pushed ++ call.chunk) (call.step cap).1 := by
  have hoffered (hopen : cap.truncated = false) : cap.output = pushed.flatten.take limit := by
    simpa [hopen] using h.output
  have heffect := effect_step h.sizeLimit call
  generalize call.step cap = result at heffect hok
  cases heffect with
  | idle hidle =>
    rcases call.chunk_cases with hnone | ⟨slice, hslice⟩
    · rw [hnone, List.append_nil]
      exact h
    · have htruncated := hidle.resolve_right (by simp [hslice])
      have hfull : limit ≤ pushed.flatten.length :=
        (h.truncated.mp htruncated).2.trans (List.dropLast_sublist pushed).flatten.length_le
      rw [hslice]
      exact behind h.sizeLimit hfull (by rw [h.output, if_pos htruncated]) htruncated
  | underflow hopen hover => cases hok
  | unsent hkill hidle => cases hok
  | @full slice hslice hopen hfull =>
    have hlen := hfull.resolve_right (hchunk slice (by simp [hslice]))
    rw [hoffered hopen, List.length_take] at hlen
    rw [hslice]
    refine behind h.sizeLimit (by omega) ?_ rfl
    rw [← hoffered hopen]
    rfl
  | @take slice hslice hopen hroom =>
    rw [hoffered hopen, List.length_take] at hroom
    have hshort : pushed.flatten.length < limit := by omega
    have houtput := hoffered hopen
    rw [List.take_of_length_le hshort.le] at houtput
    rw [hslice]
    refine ⟨h.sizeLimit, ?_, ?_⟩
    · simp only [hopen, houtput, List.flatten_append, List.flatten_singleton, List.take_append,
        List.take_of_length_le hshort.le]
      simp
    · simpa [hopen] using hshort
  | timeout hnone htimeout hsigterm =>
    rw [htime] at htimeout
    cases htimeout

lemma after (h : Cut limit [] cap) (hchunks : ∀ chunk ∈ chunks calls, chunk ≠ [])
    (hok : Succeeds cap calls) (htime : InTime cap calls) :
    Cut limit (chunks calls) (after cap calls) := by
  induction calls using List.reverseRecOn with
  | nil => exact h
  | append_singleton calls call ih =>
    rw [chunks_concat] at hchunks ⊢
    rw [after_concat]
    have hcalls := ih (fun chunk hchunk => hchunks chunk (List.mem_append_left _ hchunk))
      (fun done call hdone => hok done call (hdone.trans (List.prefix_append _ _)))
      fun call hcall => htime call (List.mem_append_left _ hcall)
    refine hcalls.step (fun chunk hchunk => hchunks chunk (List.mem_append_right _ hchunk))
      (hok calls call (List.prefix_refl _)) ?_
    rw [(limits_after h.sizeLimit calls).2]
    exact htime call (by simp)

/-- The output is the stream cut exactly at the limit, unless the chunk that crosses the limit is the
last one. -/
lemma output_eq_iff (h : Cut limit pushed cap) (hchunks : ∀ chunk ∈ pushed, chunk ≠ []) :
    cap.output = cutAt limit pushed.flatten ↔
      pushed.flatten.length ≤ limit ∨ limit ≤ pushed.dropLast.flatten.length := by
  have houtput := h.output
  unfold cutAt
  by_cases hlen : pushed.flatten.length ≤ limit
  · have htruncated : cap.truncated = false := by
      rw [← Bool.not_eq_true, h.truncated]
      rintro ⟨hne, hfull⟩
      have hlast : 0 < (pushed.getLast hne).length :=
        List.length_pos_iff.mpr (hchunks _ (List.getLast_mem hne))
      rw [← List.dropLast_append_getLast hne, List.flatten_append, List.length_append,
        List.flatten_singleton] at hlen
      omega
    rw [if_pos hlen, houtput, htruncated, List.take_of_length_le hlen]
    exact iff_of_true (List.append_nil _) (.inl hlen)
  · have hne : pushed ≠ [] := by
      rintro rfl
      simp at hlen
    have hfull : limit ≤ pushed.dropLast.flatten.length ↔ cap.truncated = true := by
      rw [h.truncated]
      exact (and_iff_right hne).symm
    rw [if_neg hlen, hfull, houtput, List.append_cancel_left_eq, or_iff_right hlen]
    cases cap.truncated with
    | false => simpa using (notice_ne_nil _).symm
    | true => simp

end Cut

/-- If the child takes every signal, no call fails. -/
lemma succeeds_capture {output : Bytes} {opts : Options} {start : Instant}
    (hlimit : opts.sizeLimit = some limit) (hlen : output.length ≤ limit)
    (hkill : ∀ call ∈ calls, ∀ pid s, call.moment.kill pid s = .ok ()) :
    Succeeds (capture output opts start) calls := by
  intro done call hdone
  obtain ⟨_, _, _, h, -⟩ := (Within.capture start hlimit hlen).after done
  exact h.step_ok (hkill call (hdone.subset (by simp)))

/-- **When a log is cut exactly at the limit**: within the time, the output is the stream up to the
limit, and the notice behind it if the stream is longer, exactly if the stream fits or another chunk
begins at the limit or behind it. -/
theorem output_eq_cutAt_iff {opts : Options} (start : Instant) (hlimit : opts.sizeLimit = some limit)
    (hchunks : ∀ chunk ∈ chunks calls, chunk ≠ [])
    (hok : Succeeds (capture [] opts start) calls) (htime : InTime (capture [] opts start) calls) :
    (after (capture [] opts start) calls).output = cutAt limit (chunks calls).flatten ↔
      (chunks calls).flatten.length ≤ limit ∨ limit ≤ (chunks calls).dropLast.flatten.length :=
  ((Cut.capture hlimit).after hchunks hok htime).output_eq_iff hchunks

theorem abc_d_cut :
    (after (capture [] threeBytes 0) (pushes [[97, 98, 99], [100]])).output =
      cutAt 3 [97, 98, 99, 100] :=
  (output_eq_cutAt_iff 0 rfl (by decide)
    (succeeds_capture rfl (by decide) (by simp [pushes, Call.moment, Moment.calm]))
    (by simp [InTime, pushes, Call.timesOut])).mpr (.inr (by decide))

/-- A script with a limit of three bytes prints `abcd` at once: the last byte is dropped without a
notice. In two chunks, the notice is there. -/
theorem abcd_not_cut :
    (after (capture [] threeBytes 0) (pushes [[97, 98, 99, 100]])).output = [97, 98, 99] ∧
      cutAt 3 [97, 98, 99, 100] ≠ [97, 98, 99] ∧
      (after (capture [] threeBytes 0) (pushes [[97, 98, 99], [100]])).output =
        cutAt 3 [97, 98, 99, 100] := by
  decide +kernel

end Rebuilderd.Worker.Proc
