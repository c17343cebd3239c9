import Rebuilderd.Worker.Compare

/-!
The comparison of two files with its buffers and reads (`compare_files` of the worker's
`rebuild.rs`).

Both buffers are used again for every chunk. What an earlier chunk left behind the bytes that were
read is never compared.
-/

namespace Rebuilderd.Worker.Buffers

open Rebuilderd.Common

/-- A file that is open for reading. -/
structure File where
  content : Bytes
  pos : ℕ
  reads : Reads

def bufferSize : ℕ := 4096

structure Buffer where
  bytes : Bytes
  length_eq : bytes.length = bufferSize

namespace File

def rest (f : File) : Bytes := f.content.drop f.pos

/-- What a read into so much room returns: nothing only at the end of the file. -/
def read (f : File) (room : ℕ) : Bytes := f.rest.take (min (f.reads.size f.pos) room)

def advance (f : File) (n : ℕ) : File := { f with pos := f.pos + n }

end File

namespace Buffer

def zero : Buffer := ⟨List.replicate bufferSize 0, List.length_replicate⟩

def set (buf : Buffer) (i : ℕ) (byte : UInt8) : Buffer :=
  ⟨buf.bytes.set i byte, List.length_set.trans buf.length_eq⟩

/-- Overwrites the buffer from a position on. -/
def write (buf : Buffer) (i : ℕ) : Bytes → Buffer
  | [] => buf
  | byte :: data => (buf.set i byte).write (i + 1) data

/-- The slice `buf[..n]`. -/
def upTo (buf : Buffer) (n : ℕ) : Bytes := buf.bytes.take n

end Buffer

/-- `read_exact` into `buf[..n]`, of which `filled` bytes are read; none if the file ends before. -/
def readExact (f : File) (buf : Buffer) (filled n : ℕ) : Option (File × Buffer) :=
  if filled < n then
    let data := f.read (n - filled)
    if data = [] then none
    else readExact (f.advance data.length) (buf.write filled data) (filled + data.length) n
  else some (f, buf)
termination_by n - filled
decreasing_by
  have hread : 0 < (f.read (n - filled)).length := List.length_pos_iff.mpr ‹_›
  omega

/-- The first position at which two slices differ. -/
def position (x y : Bytes) : Option ℕ := (x.zip y).findIdx? fun p => p.1 != p.2

/-- What the comparison finds out, and logs. -/
inductive Outcome
  | identical
  | longer
  | shorter
  | differ (pos : ℕ)
  deriving DecidableEq

structure State where
  f1 : File
  f2 : File
  buf1 : Buffer
  buf2 : Buffer
  pos : ℕ

/-- One round of the loop. A slice that ends behind its buffer panics, and so does the `unwrap` if
there is no position at which the slices differ. -/
def round (s : State) : Except Err (Outcome ⊕ State) :=
  let data := s.f1.read bufferSize
  let n := data.length
  let buf1 := s.buf1.write 0 data
  if n = 0 then
    if 0 < (s.f2.read bufferSize).length then .ok (.inl .longer) else .ok (.inl .identical)
  else if bufferSize < n then .error .panic
  else
    match readExact s.f2 s.buf2 0 n with
    | none => .ok (.inl .shorter)
    | some (f2, buf2) =>
      if buf1.upTo n ≠ buf2.upTo n then
        match position (buf1.upTo n) (buf2.upTo n) with
        | none => .error .panic
        | some i => .ok (.inl (.differ (s.pos + i)))
      else .ok (.inr ⟨s.f1.advance n, f2, buf1, buf2, s.pos + n⟩)

/-- The bytes of the first file that are not read yet. -/
def State.left (s : State) : ℕ := s.f1.rest.length

lemma File.rest_advance (f : File) (n : ℕ) : (f.advance n).rest = f.rest.drop n :=
  List.drop_drop.symm

lemma File.length_read_le_rest (f : File) (room : ℕ) : (f.read room).length ≤ f.rest.length := by
  rw [File.read, List.length_take]
  exact min_le_right _ _

/-- A round that is not the last one reads something of the first file. -/
lemma round_left {s s' : State} (h : round s = .ok (.inr s')) : s'.left < s.left := by
  have hle := s.f1.length_read_le_rest bufferSize
  unfold round at h
  dsimp only at h
  split at h
  · split at h <;> cases h
  · rename_i hn
    split at h
    · cases h
    · split at h
      · cases h
      · split at h
        · split at h <;> cases h
        · cases h
          rw [State.left, State.left, File.rest_advance, List.length_drop]
          omega

def loop (s : State) : Except Err Outcome :=
  match _h : round s with
  | .error e => .error e
  | .ok (.inl outcome) => .ok outcome
  | .ok (.inr s') => loop s'
termination_by s.left
decreasing_by exact round_left _h

def start (reads1 reads2 : Reads) (a b : Bytes) : State :=
  ⟨⟨a, 0, reads1⟩, ⟨b, 0, reads2⟩, .zero, .zero, 0⟩

def compareFiles (reads1 reads2 : Reads) (a b : Bytes) : Except Err Bool :=
  (loop (start reads1 reads2 a b)).map fun outcome => outcome = .identical

/-! ### Reads -/

section
variable {f : File} {buf : Buffer} {room filled n : ℕ} {data : Bytes}

namespace File

/-- A read returns the next bytes. -/
lemma read_eq (f : File) (room : ℕ) : f.read room = f.rest.take (f.read room).length := by
  rw [read, List.length_take, ← List.take_eq_take_min]

lemma length_read_le (f : File) (room : ℕ) : (f.read room).length ≤ room := by
  rw [read, List.length_take]
  exact (min_le_left _ _).trans (min_le_right _ _)

/-- A read into some room returns nothing only at the end. -/
lemma read_eq_nil (hroom : 0 < room) : f.read room = [] ↔ f.rest = [] := by
  have hsize := f.reads.pos f.pos
  rw [read, List.take_eq_nil_iff]
  exact or_iff_right (by omega)

end File

namespace Buffer

lemma upTo_set {i : ℕ} {byte : UInt8} (hi : i < bufferSize) :
    (buf.set i byte).upTo (i + 1) = buf.upTo i ++ [byte] := by
  have hlen : i < (buf.bytes.set i byte).length := by
    rw [List.length_set, buf.length_eq]
    exact hi
  rw [upTo, set, ← List.take_append_getElem hlen, List.take_set_of_le le_rfl, List.getElem_set_self]
  rfl

/-- What is written stands behind what stood in front of it. -/
lemma upTo_write (buf : Buffer) (filled : ℕ) (h : filled + data.length ≤ bufferSize) :
    (buf.write filled data).upTo (filled + data.length) = buf.upTo filled ++ data := by
  induction data generalizing buf filled with
  | nil => simp [write, upTo]
  | cons byte data ih =>
    rw [List.length_cons] at h ⊢
    rw [write, ← Nat.add_assoc, Nat.add_right_comm, ih _ _ (by omega), upTo_set (by omega),
      List.append_assoc]
    rfl

end Buffer

/-- `read_exact` reads as much as it is asked for if the file has that much left, however it is
read. -/
lemma readExact_eq (f : File) (buf : Buffer) (hfilled : filled ≤ n) (hn : n ≤ bufferSize) :
    (n - filled ≤ f.rest.length →
      ∃ buf', readExact f buf filled n = some (f.advance (n - filled), buf') ∧
        buf'.upTo n = buf.upTo filled ++ f.rest.take (n - filled)) ∧
    (f.rest.length < n - filled → readExact f buf filled n = none) := by
  fun_induction readExact f buf filled n with
  | case1 f buf filled hlt data hdata =>
    have hrest : f.rest = [] := (File.read_eq_nil (by omega)).mp hdata
    refine ⟨fun hle => ?_, fun _ => rfl⟩
    rw [hrest, List.length_nil] at hle
    omega
  | case2 f buf filled hlt data hdata ih =>
    have hread : data = f.rest.take data.length := f.read_eq (n - filled)
    have hlen : data.length ≤ n - filled := f.length_read_le (n - filled)
    have hrest : data.length ≤ f.rest.length := f.length_read_le_rest (n - filled)
    obtain ⟨henough, hshort⟩ := ih (by omega)
    rw [File.rest_advance, List.length_drop] at henough hshort
    have hsplit : n - filled = data.length + (n - (filled + data.length)) := by omega
    constructor
    · intro hle
      obtain ⟨buf', heq, hbytes⟩ := henough (by omega)
      refine ⟨buf', ?_, ?_⟩
      · rw [heq, hsplit]
        simp [File.advance, Nat.add_assoc]
      · rw [hbytes, buf.upTo_write filled (by omega), hsplit, List.take_add, ← hread, List.append_assoc]
    · intro hlt'
      exact hshort (by omega)
  | case3 f buf filled hge =>
    obtain rfl : filled = n := by omega
    refine ⟨fun _ => ⟨buf, ?_, ?_⟩, fun hlt => ?_⟩
    · simp [File.advance]
    · simp
    · omega

end

/-! ### The first difference -/

/-- Slices of one length that are not equal differ at a first position. -/
lemma position_of_ne {x y : Bytes} (hlen : x.length = y.length) (hne : x ≠ y) :
    ∃ i, position x y = some i ∧ i < x.length ∧ x.take i = y.take i ∧ x[i]? ≠ y[i]? := by
  induction x generalizing y with
  | nil => exact absurd (List.eq_nil_of_length_eq_zero hlen.symm).symm hne
  | cons c x ih =>
    rcases y with _ | ⟨d, y⟩
    · cases hlen
    · unfold position
      rw [List.zip_cons_cons, List.findIdx?_cons]
      by_cases hcd : c = d
      · subst hcd
        obtain ⟨i, hi, hlt, htake, hget⟩ := ih (Nat.succ.inj hlen) fun heq => hne (by rw [heq])
        refine ⟨i + 1, ?_, Nat.succ_lt_succ hlt, by simp [htake], by simpa using hget⟩
        rw [position] at hi
        simp [hi]
      · exact ⟨0, by simp [hcd], Nat.succ_pos _, rfl, by simpa using hcd⟩

/-! ### Rounds -/

/-- What an outcome says about the two files. -/
def Outcome.Holds (a b : Bytes) : Outcome → Prop
  | identical => a = b
  | longer => a <+: b ∧ a ≠ b
  | shorter => b.length < a.length
  | differ pos => pos < a.length ∧ pos < b.length ∧ a.take pos = b.take pos ∧ a[pos]? ≠ b[pos]?

/-- Both files are read up to the same position, and are equal up to there. -/
structure Agrees (a b : Bytes) (s : State) : Prop where
  content1 : s.f1.content = a
  content2 : s.f2.content = b
  pos1 : s.f1.pos = s.pos
  pos2 : s.f2.pos = s.pos
  le1 : s.pos ≤ a.length
  le2 : s.pos ≤ b.length
  equal : a.take s.pos = b.take s.pos

variable {a b : Bytes} {s : State}

lemma agrees_start (reads1 reads2 : Reads) (a b : Bytes) : Agrees a b (start reads1 reads2 a b) :=
  ⟨rfl, rfl, rfl, rfl, Nat.zero_le _, Nat.zero_le _, rfl⟩

lemma Agrees.rest1 (h : Agrees a b s) : s.f1.rest = a.drop s.pos := by
  rw [File.rest, h.content1, h.pos1]

lemma Agrees.rest2 (h : Agrees a b s) : s.f2.rest = b.drop s.pos := by
  rw [File.rest, h.content2, h.pos2]

/-- At the end of the first file. -/
lemma Agrees.round_end (h : Agrees a b s) (hread : s.f1.read bufferSize = []) :
    ∃ outcome, round s = .ok (.inl outcome) ∧ outcome.Holds a b := by
  have hend : a.length ≤ s.pos := by
    rw [File.read_eq_nil (by decide), h.rest1] at hread
    exact List.drop_eq_nil_iff.mp hread
  have hequal : a = b.take s.pos := by rw [← h.equal, List.take_of_length_le hend]
  unfold Buffers.round
  dsimp only
  rw [hread, if_pos List.length_nil]
  by_cases hmore : 0 < (s.f2.read bufferSize).length
  · refine ⟨.longer, if_pos hmore, hequal ▸ List.take_prefix s.pos b, ?_⟩
    rintro rfl
    rw [List.length_pos_iff, Ne, File.read_eq_nil (by decide), h.rest2] at hmore
    exact hmore (List.drop_eq_nil_iff.mpr hend)
  · refine ⟨.identical, if_neg hmore, ?_⟩
    rw [List.length_pos_iff, not_not, File.read_eq_nil (by decide), h.rest2] at hmore
    rw [Outcome.Holds, hequal, List.take_of_length_le (List.drop_eq_nil_iff.mp hmore)]

/-- A round either ends with the right outcome or leaves the files equal up to a later position. -/
lemma Agrees.round (h : Agrees a b s) :
    (∃ outcome, round s = .ok (.inl outcome) ∧ outcome.Holds a b) ∨
      ∃ s', round s = .ok (.inr s') ∧ Agrees a b s' := by
  by_cases hend : s.f1.read bufferSize = []
  · exact .inl (h.round_end hend)
  have hread := s.f1.read_eq bufferSize
  have hfits := s.f1.length_read_le bufferSize
  have hleft := s.f1.length_read_le_rest bufferSize
  unfold Buffers.round
  dsimp only
  generalize s.f1.read bufferSize = data at hend hread hfits hleft
  rw [h.rest1] at hread hleft
  rw [List.length_drop] at hleft
  have hbuf1 : (s.buf1.write 0 data).upTo data.length = data := by
    have hwrite := s.buf1.upTo_write 0 ((Nat.zero_add _).trans_le hfits)
    simpa [Buffer.upTo] using hwrite
  obtain ⟨henough, hshort⟩ := readExact_eq s.f2 s.buf2 (Nat.zero_le data.length) hfits
  rw [Nat.sub_zero, h.rest2, List.length_drop] at henough hshort
  rw [if_neg (by simpa using hend), if_neg (not_lt.mpr hfits), hbuf1]
  by_cases hle : data.length ≤ b.length - s.pos
  · obtain ⟨buf2, heq, hbuf2⟩ := henough hle
    have hbuf2 : buf2.upTo data.length = (b.drop s.pos).take data.length := by
      rw [hbuf2]
      simp [Buffer.upTo]
    rw [heq]
    dsimp only
    rw [hbuf2]
    by_cases hne : data = (b.drop s.pos).take data.length
    · refine .inr ⟨_, if_neg (not_not.mpr hne), h.content1, h.content2, ?_, ?_, ?_, ?_, ?_⟩
      · exact congrArg (· + data.length) h.pos1
      · exact congrArg (· + data.length) h.pos2
      · have hle1 := h.le1
        dsimp only
        omega
      · have hle2 := h.le2
        dsimp only
        omega
      · dsimp only
        rw [List.take_add, List.take_add, h.equal, ← hread, ← hne]
    · have hlen : data.length = ((b.drop s.pos).take data.length).length := by
        rw [List.length_take, List.length_drop, min_eq_left hle]
      obtain ⟨i, hi, hlt, htake, hget⟩ := position_of_ne hlen hne
      refine .inl ⟨.differ (s.pos + i), ?_, ?_⟩
      · rw [if_pos hne, hi]
      · have hle1 := h.le1
        have hle2 := h.le2
        refine ⟨by omega, by omega, ?_, ?_⟩
        · have hfirst : data.take i = (a.drop s.pos).take i := by
            rw [congrArg (List.take i) hread, List.take_take, min_eq_left hlt.le]
          rw [List.take_take, min_eq_left hlt.le] at htake
          rw [List.take_add, List.take_add, h.equal, ← hfirst, htake]
        · have hfirst : data[i]? = a[s.pos + i]? := by
            rw [congrArg (fun l : Bytes => l[i]?) hread, List.getElem?_take_of_lt hlt, List.getElem?_drop]
          rw [List.getElem?_take_of_lt hlt, List.getElem?_drop, hfirst] at hget
          exact hget
  · rw [hshort (not_le.mp hle)]
    refine .inl ⟨.shorter, rfl, ?_⟩
    have hle1 := h.le1
    have hle2 := h.le2
    change b.length < a.length
    omega

lemma loop_end {outcome : Outcome} (h : Buffers.round s = .ok (.inl outcome)) :
    loop s = .ok outcome := by
  rw [loop]
  split <;> rename_i heq <;> rw [h] at heq <;> cases heq
  rfl

lemma loop_next {s' : State} (h : Buffers.round s = .ok (.inr s')) : loop s = loop s' := by
  rw [loop]
  split <;> rename_i heq <;> rw [h] at heq <;> cases heq
  rfl

lemma Agrees.loop (h : Agrees a b s) : ∃ outcome, loop s = .ok outcome ∧ outcome.Holds a b := by
  induction hleft : s.left using Nat.strong_induction_on generalizing s with
  | _ left ih =>
    subst hleft
    rcases h.round with ⟨outcome, heq, hholds⟩ | ⟨s', heq, h'⟩
    · exact ⟨outcome, loop_end heq, hholds⟩
    · rw [loop_next heq]
      exact ih s'.left (round_left heq) h' rfl

/-- An outcome that holds says whether the files are equal. -/
lemma Outcome.Holds.identical_iff {outcome : Outcome} (h : outcome.Holds a b) :
    outcome = .identical ↔ a = b := by
  cases outcome with
  | identical => exact iff_of_true rfl h
  | longer => exact iff_of_false (by simp) h.2
  | shorter =>
    refine iff_of_false (by simp) ?_
    rintro rfl
    exact lt_irrefl _ h
  | differ pos =>
    refine iff_of_false (by simp) ?_
    rintro rfl
    exact h.2.2.2 rfl

/-- With its buffers, the comparison is that of the chunks. -/
theorem compareFiles_refines (reads1 reads2 : Reads) (a b : Bytes) :
    compareFiles reads1 reads2 a b = .ok (Worker.compareFiles reads1 a b) := by
  obtain ⟨outcome, heq, hholds⟩ := (agrees_start reads1 reads2 a b).loop
  rw [compareFiles, heq]
  refine congrArg Except.ok (Bool.eq_iff_iff.mpr ?_)
  rw [compareFiles_eq_true, decide_eq_true_iff]
  exact hholds.identical_iff

/-- **The comparison of two files** ends without a panic, however they are read, and is their
equality; a position that it logs is the first one at which they differ. -/
theorem compare_files_correct (reads1 reads2 : Reads) (a b : Bytes) :
    ∃ outcome, loop (start reads1 reads2 a b) = .ok outcome ∧
      compareFiles reads1 reads2 a b = .ok (decide (a = b)) ∧
      (∀ pos, outcome = .differ pos → pos < a.length ∧ pos < b.length ∧ a.take pos = b.take pos ∧
        a[pos]? ≠ b[pos]?) := by
  obtain ⟨outcome, heq, hholds⟩ := (agrees_start reads1 reads2 a b).loop
  refine ⟨outcome, heq, ?_, ?_⟩
  · rw [compareFiles, heq]
    exact congrArg Except.ok (decide_eq_decide.mpr hholds.identical_iff)
  · rintro pos rfl
    exact hholds

end Rebuilderd.Worker.Buffers
