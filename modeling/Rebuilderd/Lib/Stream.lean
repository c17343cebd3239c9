import Mathlib.Data.List.Basic

/-!
Streaming codecs: an encoder that is written to in chunks, and a decoder that is read from in
chunks, until it returns nothing.
-/

namespace Rebuilderd.Lib

/-- An encoder and a decoder over sequences of `α`. -/
structure StreamCodec (α : Type) where
  Encoder : Type
  new : Encoder
  write : Encoder → List α → Encoder
  finish : Encoder → List α
  Decoder : Type
  /-- Fails if the data is not a frame. -/
  begin : List α → Option Decoder
  /-- At most so many elements, and the decoder for what follows. -/
  read : Decoder → ℕ → Option (List α × Decoder)

/-- A list in chunks of `n`, of which the last may be shorter. -/
def chunks {α : Type} (n : ℕ) (l : List α) : List (List α) :=
  if n = 0 ∨ l = [] then [] else l.take n :: chunks n (l.drop n)
termination_by l.length
decreasing_by
  rename_i h
  rw [not_or] at h
  have hpos := List.length_pos_iff.mpr h.2
  rw [List.length_drop]
  omega

lemma flatten_chunks {α : Type} {n : ℕ} (hn : 0 < n) (l : List α) : (chunks n l).flatten = l := by
  induction l using chunks.induct n with
  | case1 l h =>
    rw [chunks, if_pos h]
    exact (h.resolve_left (Nat.pos_iff_ne_zero.mp hn)).symm
  | case2 l h ih =>
    rw [chunks, if_neg h, List.flatten_cons, ih, List.take_append_drop]

namespace StreamCodec

variable {α : Type} (z : StreamCodec α)

/-- The frame of the data written in these chunks. -/
def frame (data : List (List α)) : List α := z.finish (data.foldl z.write z.new)

/-- Encode the data in chunks of `n`. -/
def compress (n : ℕ) (data : List α) : List α := z.frame (chunks n data)

/-- Read chunks of `n` until one is empty. -/
def drain (n : ℕ) : ℕ → z.Decoder → Option (List α)
  | 0, _ => none
  | fuel + 1, d => do
    let (data, d) ← z.read d n
    if data.isEmpty then some [] else (data ++ ·) <$> drain n fuel d

/-- Decode a frame in chunks of `n`. -/
def decompress (n fuel : ℕ) (data : List α) : Option (List α) := do
  let d ← z.begin data
  z.drain n fuel d

/-- Decoder and encoder are inverse, in whatever chunks the one is read and the other is written,
and all frames start with `magic`. `Remains d data` says that `data` is what is still to be read
from the decoder `d`. -/
structure Lawful (magic : List α) (Remains : z.Decoder → List α → Prop) : Prop where
  magic : ∀ data, magic <+: z.frame data
  begins : ∀ data, ∃ d, z.begin (z.frame data) = some d ∧ Remains d data.flatten
  reads : ∀ d rest n, Remains d rest → 0 < n → ∃ data d' rest', z.read d n = some (data, d') ∧
    rest = data ++ rest' ∧ Remains d' rest' ∧ (data = [] → rest = [])

variable {z} {magic : List α} {Remains : z.Decoder → List α → Prop} {n fuel : ℕ}

/-- One read more than there are elements is enough. -/
lemma Lawful.drain_eq (h : z.Lawful magic Remains) (hn : 0 < n) {d : z.Decoder} {rest : List α}
    (hd : Remains d rest) (hfuel : rest.length < fuel) : z.drain n fuel d = some rest := by
  induction fuel generalizing d rest with
  | zero => omega
  | succ fuel ih =>
    obtain ⟨data, d', rest', hread, hrest, hd', hend⟩ := h.reads d rest n hd hn
    rw [drain, hread, Option.bind_eq_bind, Option.bind_some]
    dsimp only
    cases data with
    | nil => rw [hend rfl]; rfl
    | cons a data =>
      have hlength := congrArg List.length hrest
      rw [List.length_append, List.length_cons] at hlength
      rw [ih hd' (by omega), hrest]
      rfl

/-- What is read to its end is read to it in any larger number of reads. -/
lemma drain_of_drain {fuel' : ℕ} {d : z.Decoder} {data : List α} (h : z.drain n fuel d = some data)
    (hfuel : data.length < fuel') : z.drain n fuel' d = some data := by
  induction fuel generalizing d data fuel' with
  | zero => cases h
  | succ fuel ih =>
    obtain ⟨fuel', rfl⟩ := Nat.exists_eq_add_of_lt (Nat.zero_lt_of_lt hfuel)
    rw [Nat.zero_add] at hfuel ⊢
    rw [drain] at h ⊢
    rcases hread : z.read d n with _ | ⟨first, d'⟩
    · rw [hread] at h
      cases h
    · rw [hread, Option.bind_eq_bind, Option.bind_some] at h
      rw [Option.bind_eq_bind, Option.bind_some]
      dsimp only at h ⊢
      split at h
      · rename_i hempty
        rw [if_pos hempty]
        exact h
      · rename_i hempty
        obtain ⟨rest, hrest, rfl⟩ := Option.map_eq_some_iff.mp h
        have hpos : 0 < first.length := List.length_pos_iff.mpr (by simpa using hempty)
        rw [List.length_append] at hfuel
        rw [if_neg hempty, ih hrest (by omega)]
        rfl

lemma decompress_of_decompress {fuel' : ℕ} {data frame : List α}
    (h : z.decompress n fuel frame = some data) (hfuel : data.length < fuel') :
    z.decompress n fuel' frame = some data := by
  obtain ⟨d, hd, hdrain⟩ := Option.bind_eq_some_iff.mp h
  rw [decompress, hd]
  exact drain_of_drain hdrain hfuel

/-- **Round trip.** -/
theorem Lawful.decompress_compress (h : z.Lawful magic Remains) {m : ℕ} (hm : 0 < m) (hn : 0 < n)
    (data : List α) (hfuel : data.length < fuel) :
    z.decompress n fuel (z.compress m data) = some data := by
  obtain ⟨d, hbegin, hd⟩ := h.begins (chunks m data)
  rw [flatten_chunks hm] at hd
  rw [decompress, compress, hbegin]
  exact h.drain_eq hn hd hfuel

end StreamCodec

end Rebuilderd.Lib
