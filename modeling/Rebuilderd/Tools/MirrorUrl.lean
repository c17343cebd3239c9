import Rebuilderd.Tools.ArchLinux

/-!
The urls of a mirror (`mirror_to_url` of `schedule/archlinux.rs`), turn by turn.

A template is a sequence of texts and variables. The loop reads a text and a variable in each turn,
and substitutes what the variable stands for.
-/

namespace Rebuilderd.Tools.ArchLinux

open Rebuilderd.Common Rebuilderd.Lib

/-- What is left after the characters in front of the first `c`, and these. -/
def takeTill (c : Char) (s : Text) : Text × Text := (s.dropWhile (· != c), s.takeWhile (· != c))

/-- The value of a variable; the error names one that is not known. -/
def valueOf (repo arch var : Text) : Except Text Text :=
  if var = "$repo".toList then .ok repo
  else if var = "$arch".toList then .ok arch
  else .error var

/-- After a turn of the loop there is the whole url, or the url so far and the rest of the mirror. -/
inductive Turn
  | stop (url : Text)
  | next (url mirror : Text)

def turn (repo arch url mirror : Text) : Except Text Turn :=
  let s := (takeTill '$' mirror).1
  let url := url ++ (takeTill '$' mirror).2
  if s = [] then .ok (.stop url)
  else (valueOf repo arch (takeTill '/' s).2).map fun value => .next (url ++ value) (takeTill '/' s).1

/-- The loop, unless it is not over after this number of turns. -/
def turns (repo arch : Text) : ℕ → Text → Text → Option (Except Text Text)
  | 0, _, _ => none
  | fuel + 1, url, mirror =>
    match turn repo arch url mirror with
    | .error var => some (.error var)
    | .ok (.stop url) => some (.ok url)
    | .ok (.next url mirror) => turns repo arch fuel url mirror

/-- What follows the loop. -/
def appendFile (url file : Text) : Text := (if ['/'].isSuffixOf url then url else url ++ ['/']) ++ file

def mirrorToUrlWithin (fuel : ℕ) (mirror repo arch file : Text) : Option (Except Text Text) :=
  (turns repo arch fuel [] mirror).map fun result => result.map (appendFile · file)

/-! ### Templates -/

/-- A piece of a template. -/
inductive Piece
  | text (s : Text)
  | var (s : Text)
  deriving DecidableEq

/-- How a template divides: a text has no `$`; a variable begins with one and extends to the next `/`
or to the end. -/
inductive Divides : List Piece → Text → Prop
  | nil : Divides [] []
  | text {s t : Text} {ps : List Piece} (hs : '$' ∉ s) (h : Divides ps t) :
      Divides (.text s :: ps) (s ++ t)
  | var {s t : Text} {ps : List Piece} (hs : '/' ∉ s) (ht : ∀ c ∈ t.head?, c = '/')
      (h : Divides ps t) : Divides (.var ('$' :: s) :: ps) ('$' :: (s ++ t))

/-- What a piece stands for. -/
def Piece.fill (repo arch : Text) : Piece → Except Text Text
  | text s => .ok s
  | var s => valueOf repo arch s

/-- The substitution of the pieces, one after the other. -/
def fill (repo arch : Text) : List Piece → Except Text Text
  | [] => .ok []
  | p :: ps => do return (← p.fill repo arch) ++ (← fill repo arch ps)

variable {c : Char} {s t url repo arch : Text} {fuel : ℕ} {ps : List Piece}

lemma fill_text : fill repo arch (.text s :: ps) = (fill repo arch ps).map (s ++ ·) := by
  change (Except.ok s >>= fun v => fill repo arch ps >>= fun w => pure (v ++ w)) = _
  rcases fill repo arch ps with var | w <;> rfl

lemma fill_var_ok {value : Text} (h : valueOf repo arch s = .ok value) :
    fill repo arch (.var s :: ps) = (fill repo arch ps).map (value ++ ·) := by
  change (valueOf repo arch s >>= fun v => fill repo arch ps >>= fun w => pure (v ++ w)) = _
  rw [h]
  rcases fill repo arch ps with var | w <;> rfl

lemma fill_var_error {var : Text} (h : valueOf repo arch s = .error var) :
    fill repo arch (.var s :: ps) = .error var := by
  change (valueOf repo arch s >>= fun v => fill repo arch ps >>= fun w => pure (v ++ w)) = _
  rw [h]
  rfl

/-- A text in front of a text. -/
lemma map_append_map (x : Except Text Text) :
    (x.map (s ++ ·)).map (url ++ ·) = x.map ((url ++ s) ++ ·) := by
  cases x with
  | error var => rfl
  | ok w => exact congrArg Except.ok (List.append_assoc url s w).symm

/-! ### Scans -/

lemma takeTill_of_not_mem (h : c ∉ s) :
    takeTill c (s ++ t) = ((takeTill c t).1, s ++ (takeTill c t).2) := by
  have hs : ∀ d ∈ s, (d != c) = true := fun d hd => by
    rw [bne_iff_ne]
    rintro rfl
    exact h hd
  rw [takeTill, List.dropWhile_append_of_pos hs, List.takeWhile_append_of_pos hs]
  rfl

lemma takeTill_of_head (h : ∀ d ∈ t.head?, d = c) : takeTill c t = (t, []) := by
  rcases t with _ | ⟨d, t⟩
  · rfl
  · obtain rfl := h d rfl
    simp [takeTill]

/-- A text divides into the characters in front of the first `c` and what is left. -/
lemma takeTill_append (c : Char) (s : Text) :
    (takeTill c s).2 ++ (takeTill c s).1 = s ∧ c ∉ (takeTill c s).2 ∧
      ∀ d ∈ (takeTill c s).1.head?, d = c := by
  induction s with
  | nil => simp [takeTill]
  | cons d s ih =>
    by_cases hd : d = c
    · rw [takeTill_of_head fun x hx => by cases hx; exact hd]
      exact ⟨rfl, List.not_mem_nil, fun x hx => by cases hx; exact hd⟩
    · have hcons := takeTill_of_not_mem (s := [d]) (t := s) (c := c) (by simpa using Ne.symm hd)
      rw [List.singleton_append] at hcons
      obtain ⟨happend, hmem, hhead⟩ := ih
      rw [hcons]
      exact ⟨congrArg (d :: ·) happend, by simp [Ne.symm hd, hmem], hhead⟩

/-- Every template divides. -/
lemma exists_divides (t : Text) : ∃ ps, Divides ps t := by
  induction hlen : t.length using Nat.strong_induction_on generalizing t with
  | _ len ih =>
    subst hlen
    obtain ⟨htext, hmem, hhead⟩ := takeTill_append '$' t
    rcases hrest : (takeTill '$' t).1 with _ | ⟨d, cs⟩
    · rw [hrest] at htext
      exact ⟨_, htext ▸ Divides.text hmem .nil⟩
    · rw [hrest] at htext hhead
      obtain rfl := hhead d rfl
      obtain ⟨hvar, hmem', hhead'⟩ := takeTill_append '/' cs
      have hlen := congrArg List.length htext
      have hlen' := congrArg List.length hvar
      rw [List.length_append, List.length_cons] at hlen
      rw [List.length_append] at hlen'
      obtain ⟨ps, hps⟩ := ih (takeTill '/' cs).1.length (by omega) _ rfl
      have hdivides := Divides.text hmem (.var hmem' hhead' hps)
      rw [hvar, htext] at hdivides
      exact ⟨_, hdivides⟩

/-! ### Turns -/

/-- A text in front goes to the url. -/
lemma turn_text (hs : '$' ∉ s) : turn repo arch url (s ++ t) = turn repo arch (url ++ s) t := by
  rw [turn, takeTill_of_not_mem hs, ← List.append_assoc]
  rfl

lemma turn_var (hs : '/' ∉ s) (ht : ∀ c ∈ t.head?, c = '/') :
    turn repo arch url ('$' :: (s ++ t)) =
      (valueOf repo arch ('$' :: s)).map fun value => .next (url ++ value) t := by
  have hs' : '/' ∉ '$' :: s := by simp [hs]
  have hvar : takeTill '/' ('$' :: (s ++ t)) = (t, '$' :: s) := by
    rw [← List.cons_append, takeTill_of_not_mem hs', takeTill_of_head ht, List.append_nil]
  rw [turn, takeTill_of_head (c := '$') fun d hd => by cases hd; rfl]
  simp [hvar]

lemma turns_text (hs : '$' ∉ s) :
    turns repo arch fuel url (s ++ t) = turns repo arch fuel (url ++ s) t := by
  cases fuel with
  | zero => rfl
  | succ fuel => rw [turns, turns, turn_text hs]

/-- The url so far stands in front of what the turns append; each turn but the last one reads a
`$`. -/
lemma turns_divides (h : Divides ps t) (hfuel : t.count '$' < fuel) :
    turns repo arch fuel url t = some ((fill repo arch ps).map (url ++ ·)) := by
  induction h generalizing url fuel with
  | nil =>
    obtain ⟨fuel, rfl⟩ := Nat.exists_eq_succ_of_ne_zero (Nat.ne_zero_of_lt hfuel)
    rfl
  | @text s t ps hs h ih =>
    rw [List.count_append, List.count_eq_zero_of_not_mem hs, Nat.zero_add] at hfuel
    rw [turns_text hs, ih hfuel, fill_text, map_append_map]
  | @var s t ps hs ht h ih =>
    rw [List.count_cons_self, List.count_append] at hfuel
    obtain ⟨fuel, rfl⟩ := Nat.exists_eq_succ_of_ne_zero (Nat.ne_zero_of_lt hfuel)
    have hrest : t.count '$' < fuel := by omega
    rw [turns, turn_var hs ht]
    rcases hvalue : valueOf repo arch ('$' :: s) with var | value
    · rw [fill_var_error hvalue]
      rfl
    · rw [fill_var_ok hvalue, map_append_map, ← ih hrest]
      rfl

lemma substitute_stop (h : (takeTill '$' t).1 = []) : substitute repo arch t = .ok t := by
  rw [substitute]
  split
  · rfl
  · rename_i hrest
    exact absurd (hrest.symm.trans h) (by simp)

lemma substitute_next {rest : Text} (h : (takeTill '$' t).1 = c :: rest) :
    substitute repo arch t = do
      let value ← (valueOf repo arch (c :: (takeTill '/' rest).2)).mapError fun _ => .io
      let tail ← substitute repo arch (takeTill '/' rest).1
      return (takeTill '$' t).2 ++ value ++ tail := by
  rw [substitute]
  split
  · rename_i hnil
    exact absurd (h.symm.trans hnil) (by simp)
  · rename_i d rest' hrest
    obtain ⟨rfl, rfl⟩ := List.cons.inj (hrest.symm.trans h)
    by_cases hrepo : d :: (takeTill '/' rest').2 = "$repo".toList
    · rw [valueOf, if_pos hrepo]
      exact if_pos hrepo
    · by_cases harch : d :: (takeTill '/' rest').2 = "$arch".toList
      · rw [valueOf, if_neg hrepo, if_pos harch]
        exact (if_neg hrepo).trans (if_pos harch)
      · rw [valueOf, if_neg hrepo, if_neg harch]
        exact (if_neg hrepo).trans (if_neg harch)

lemma substitute_text (hs : '$' ∉ s) :
    substitute repo arch (s ++ t) = (substitute repo arch t).map (s ++ ·) := by
  have hscan := takeTill_of_not_mem (t := t) hs
  rcases hrest : (takeTill '$' t).1 with _ | ⟨d, rest⟩
  · rw [substitute_stop hrest, substitute_stop (by rw [hscan, hrest])]
    rfl
  · rw [substitute_next hrest, substitute_next (by rw [hscan, hrest]), hscan]
    rcases valueOf repo arch (d :: (takeTill '/' rest).2) with var | value
    · rfl
    · rcases substitute repo arch (takeTill '/' rest).1 with e | tail
      · rfl
      · exact congrArg Except.ok (by simp)

/-- The substitution of the scheduler's model is that of the pieces. -/
lemma substitute_divides (h : Divides ps t) :
    substitute repo arch t = (fill repo arch ps).mapError fun _ => .io := by
  induction h with
  | nil => exact substitute_stop rfl
  | text hs h ih =>
    rw [substitute_text hs, ih, fill_text]
    rcases fill repo arch _ with var | w <;> rfl
  | @var s t ps hs ht h ih =>
    have hscan : takeTill '/' (s ++ t) = (t, s) := by
      rw [takeTill_of_not_mem hs, takeTill_of_head ht, List.append_nil]
    have hstart : takeTill '$' ('$' :: (s ++ t)) = ('$' :: (s ++ t), []) :=
      takeTill_of_head fun d hd => by cases hd; rfl
    rw [substitute_next (by rw [hstart]), hscan, hstart, ih]
    rcases hvalue : valueOf repo arch ('$' :: s) with var | value
    · rw [fill_var_error hvalue]
      rfl
    · rw [fill_var_ok hvalue]
      rcases fill repo arch ps with var | w <;> rfl

lemma appendFile_eq (url file : Text) :
    appendFile url file = if url.getLast? = some '/' then url ++ file else url ++ ['/'] ++ file := by
  have hslash : ['/'].isSuffixOf url = true ↔ url.getLast? = some '/' := by
    rw [List.isSuffixOf_iff_suffix, List.getLast?_eq_some_iff]
    exact exists_congr fun _ => eq_comm
  rw [appendFile]
  by_cases h : url.getLast? = some '/'
  · rw [if_pos h, if_pos (hslash.mpr h)]
  · rw [if_neg h, if_neg fun hs => h (hslash.mp hs)]

/-- The scheduler's model of the call is the loop that runs long enough. -/
theorem mirrorToUrl_refines {mirror repo arch file : String}
    (hfuel : mirror.toList.count '$' < fuel) :
    (mirrorToUrlWithin fuel mirror.toList repo.toList arch.toList file.toList).map
        (fun result => (result.map String.ofList).mapError fun _ => Err.io) =
      some (mirrorToUrl mirror repo arch file) := by
  obtain ⟨ps, hps⟩ := exists_divides mirror.toList
  rw [mirrorToUrlWithin, turns_divides hps hfuel, mirrorToUrl, substitute_divides hps]
  rcases fill repo.toList arch.toList ps with var | url
  · rfl
  · refine congrArg (fun url => some (Except.ok url)) ?_
    simp [appendFile, String.ofList_append]

/-- **The urls of a mirror**: the loop is over after one turn more than there are `$` in the template,
and each variable is replaced by what it stands for, or the call fails and names it; a `/` is added
in front of the file name unless there is one. -/
theorem mirrorToUrl_correct (mirror repo arch file : Text) :
    (∃ ps, Divides ps mirror) ∧ ∀ ps, Divides ps mirror → ∀ fuel, mirror.count '$' < fuel →
      mirrorToUrlWithin fuel mirror repo arch file =
        some ((fill repo arch ps).map fun url =>
          if url.getLast? = some '/' then url ++ file else url ++ ['/'] ++ file) := by
  refine ⟨exists_divides mirror, fun ps hps fuel hfuel => ?_⟩
  rw [mirrorToUrlWithin, turns_divides hps hfuel]
  rcases fill repo arch ps with var | url
  · rfl
  · exact congrArg (fun url => some (Except.ok url)) (appendFile_eq url file)

theorem mirrorToUrl_core :
    mirrorToUrlWithin 3 "mirror/$repo/os/$arch".toList "core".toList "x86_64".toList
      "core.db".toList = some (.ok "mirror/core/os/x86_64/core.db".toList) :=
  (mirrorToUrl_correct _ _ _ _).2
    [.text "mirror/".toList, .var "$repo".toList, .text "/os/".toList, .var "$arch".toList]
    (.text (s := "mirror/".toList) (by decide +kernel)
      (.var (s := "repo".toList) (by decide +kernel) (by simp)
        (.text (s := "/os/".toList) (by decide +kernel)
          (.var (s := "arch".toList) (by decide +kernel) (by simp) .nil)))) 3 (by decide +kernel)

end Rebuilderd.Tools.ArchLinux
