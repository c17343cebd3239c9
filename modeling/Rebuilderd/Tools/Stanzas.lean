import Rebuilderd.Lib.Lines
import Rebuilderd.Tools.Debian

/-!
The stanzas of a Debian index.

The parser makes a package of what it has read when it comes to a blank line, and of nothing else:
what follows the last blank line is lost, and a second blank line makes a package without fields.
-/

namespace Rebuilderd.Tools

open Rebuilderd.Common Rebuilderd.Lib

def encodeUtf8 (s : Text) : Bytes := (String.ofList s).toUTF8.data.toList

lemma decodeUtf8_encodeUtf8 (s : Text) : decodeUtf8 (encodeUtf8 s) = .ok s := by
  have hs : String.fromUTF8? (String.ofList s).toUTF8 = some (String.ofList s) :=
    dif_pos (String.ofList s).isValidUTF8
  unfold decodeUtf8 encodeUtf8
  rw [Array.toArray_toList, hs]
  change Except.ok (String.ofList s).toList = _
  rw [String.toList_ofList]

namespace Debian

/-! ### What is read from a stanza -/

/-- The fields of the lines of a stanza, of which `skip` are taken by the last field. -/
def fieldsOf (skip : ℕ) (pkg : NewPkg) : List Text → NewPkg
  | [] => pkg
  | line :: rest =>
    match skip with
    | skip + 1 => fieldsOf skip pkg rest
    | 0 =>
      match Text.splitOnce [':', ' '] line with
      | none => fieldsOf 0 pkg rest
      | some (field, value) => fieldsOf (pkg.set field value rest).2 (pkg.set field value rest).1 rest

/-- The package of a stanza. -/
def parse {α : Type} [AnyhowTryFrom α] (stanza : List Text) : Except Err α :=
  AnyhowTryFrom.tryFrom (fieldsOf 0 {} stanza)

section
variable {α : Type} [AnyhowTryFrom α] {pkg : NewPkg} {pkgs : List α} {ls rest : List Text}
  {value field : Text} {skip : ℕ}

lemma continued_le (value : Text) (ls : List Text) : (continued value ls).2 ≤ ls.length := by
  induction ls generalizing value with
  | nil => exact le_rfl
  | cons line ls ih =>
    unfold continued
    split
    · exact Nat.succ_le_succ (ih _)
    · exact Nat.zero_le _

/-- A blank line continues nothing. -/
lemma continued_append : continued value (ls ++ [] :: rest) = continued value ls := by
  induction ls generalizing value with
  | nil => simp [continued]
  | cons line ls ih =>
    rw [List.cons_append, continued, continued]
    split
    · rw [ih]
    · rfl

lemma set_le : (pkg.set field value ls).2 ≤ ls.length := by
  have hle := continued_le value ls
  unfold NewPkg.set
  repeat' split
  any_goals exact Nat.zero_le _
  rename_i n hcontinued
  rwa [hcontinued] at hle

lemma set_append : pkg.set field value (ls ++ [] :: rest) = pkg.set field value ls := by
  unfold NewPkg.set
  rw [continued_append]

/-- A stanza with the blank line that ends it. -/
lemma extractLines_stanza (h : [] ∉ ls) (hskip : skip ≤ ls.length) :
    extractLines skip pkg pkgs (ls ++ [] :: rest) =
      AnyhowTryFrom.tryFrom (fieldsOf skip pkg ls) >>= fun new =>
        extractLines 0 {} (pkgs ++ [new]) rest := by
  induction ls generalizing skip pkg with
  | nil =>
    obtain rfl := Nat.le_zero.mp hskip
    rfl
  | cons line ls ih =>
    obtain ⟨hline, hls⟩ := List.ne_and_not_mem_of_not_mem_cons h
    cases skip with
    | succ skip => exact ih hls (Nat.le_of_succ_le_succ hskip)
    | zero =>
      rw [List.cons_append, extractLines, fieldsOf]
      rw [if_neg (Ne.symm hline)]
      rcases Text.splitOnce [':', ' '] line with _ | ⟨field, value⟩
      · exact ih hls (Nat.zero_le _)
      · dsimp only
        rw [set_append]
        exact ih hls set_le

/-- What no blank line ends is lost. -/
lemma extractLines_last (h : [] ∉ ls) : extractLines skip pkg pkgs ls = .ok pkgs := by
  induction ls generalizing skip pkg with
  | nil => cases skip <;> rfl
  | cons line ls ih =>
    obtain ⟨hline, hls⟩ := List.ne_and_not_mem_of_not_mem_cons h
    cases skip with
    | succ skip => exact ih hls
    | zero =>
      rw [extractLines, if_neg (Ne.symm hline)]
      rcases Text.splitOnce [':', ' '] line with _ | ⟨field, value⟩
      · exact ih hls
      · exact ih hls

/-- The packages of the pieces between blank lines, but for the last piece. -/
lemma extractLines_eq : extractLines 0 {} pkgs ls =
    (pkgs ++ ·) <$> ((ls.splitOn []).dropLast.mapM parse : Except Err (List α)) := by
  induction hn : ls.length using Nat.strong_induction_on generalizing ls pkgs with
  | _ n ih =>
    by_cases hblank : [] ∈ ls
    · obtain ⟨stanza, rest, rfl, hstanza⟩ := List.eq_append_cons_of_mem hblank
      have hlt : rest.length < n := by
        rw [← hn, List.length_append, List.length_cons]
        omega
      rw [extractLines_stanza hstanza (Nat.zero_le _),
        List.splitOn_append_cons_self_of_not_mem hstanza,
        List.dropLast_cons_of_ne_nil (List.splitOn_ne_nil _ _), List.mapM_cons]
      change parse stanza >>= _ = _
      rcases parse (α := α) stanza with e | new
      · rfl
      · change extractLines 0 {} (pkgs ++ [new]) rest = _
        rw [ih _ hlt rfl]
        rcases (rest.splitOn []).dropLast.mapM (parse (α := α)) with e | news
        · rfl
        · change Except.ok (pkgs ++ [new] ++ news) = Except.ok (pkgs ++ (new :: news))
          simp
    · rw [extractLines_last hblank, List.splitOn_eq_singleton hblank]
      simp [pure, Except.pure]

/-! ### One package for each stanza -/

/-- The stanzas of an index: the lines between blank lines. -/
def stanzas (ls : List Text) : List (List Text) := (ls.splitOn []).filter (· ≠ [])

/-- No blank line comes first or after another one. -/
def OneBlank (ls : List Text) : Prop := [] ∉ (ls.splitOn []).dropLast

/-- The last stanza is followed by a blank line. -/
def Ended (ls : List Text) : Prop := (ls.splitOn []).getLast? = some []

/-- The stanza is no package. -/
def Malformed (α : Type) [AnyhowTryFrom α] (stanza : List Text) : Prop :=
  ∀ new : α, parse stanza ≠ .ok new

/-- The parser returns one package for each stanza, in their order, or fails if there is none. -/
def OnePerStanza (α : Type) [AnyhowTryFrom α] (text : Text) : Prop :=
  extractPkgsUncompressed (encodeUtf8 text) =
    ((stanzas (Text.lines text)).mapM parse : Except Err (List α))

/-- Each stanza is ended by one blank line, or the index is malformed in any case: before its last
stanza, if it is only there that the blank line is missing. -/
def Separated (α : Type) [AnyhowTryFrom α] (ls : List Text) : Prop :=
  (OneBlank ls ∧ (Ended ls ∨ ∃ stanza ∈ (ls.splitOn []).dropLast, Malformed α stanza)) ∨
    (¬ OneBlank ls ∧ ∃ stanza ∈ stanzas ls, Malformed α stanza)

/-- A type of packages that has required fields. -/
structure Requires (α : Type) [AnyhowTryFrom α] : Prop where
  empty : ∀ new : α, AnyhowTryFrom.tryFrom {} ≠ .ok new
  io : ∀ (pkg : NewPkg) (e : Err), (AnyhowTryFrom.tryFrom pkg : Except Err α) = .error e → e = .io

lemma required_error {β : Type} {field : Option β} {e : Err} (h : required field = .error e) :
    e = .io := by
  cases field with
  | none => cases h; rfl
  | some b => cases h

lemma bind_io {β γ : Type} {x : Except Err β} {f : β → Except Err γ}
    (hx : ∀ e, x = .error e → e = .io) (hf : ∀ b e, f b = .error e → e = .io) :
    ∀ e, (x >>= f) = .error e → e = .io := by
  intro e h
  rcases x with e' | b
  · cases h
    exact hx _ rfl
  · exact hf b e h

lemma requires_source : Requires DebianSourcePkg where
  empty _ h := by cases h
  io pkg := by
    refine bind_io (fun _ => required_error) fun _ => bind_io (fun _ => required_error) fun _ =>
      bind_io (fun _ => required_error) fun _ => bind_io (fun _ => required_error) fun _ =>
      bind_io (fun _ => required_error) fun _ e h => ?_
    cases h

lemma sourceOf_error {name version : String} {source : Option String} {e : Err}
    (h : sourceOf name version source = .error e) : e = .io := by
  rcases source with _ | source
  · cases h
  · unfold sourceOf at h
    dsimp only at h
    split at h
    · cases h
    · exact bind_io (fun _ => required_error) (fun _ _ h => by cases h) e h

lemma requires_bin : Requires DebianBinPkg where
  empty _ h := by cases h
  io pkg := by
    refine bind_io (fun _ => required_error) fun _ => bind_io (fun _ => required_error) fun _ =>
      bind_io (fun _ => sourceOf_error) fun _ => bind_io (fun _ => required_error) fun _ =>
      bind_io (fun _ => required_error) fun _ e h => ?_
    cases h

/-- Packages are read from all stanzas, or one of them is malformed. -/
lemma parse_stanzas (hα : Requires α) (l : List (List Text)) :
    (l.mapM parse = (.error .io : Except Err (List α)) ∧ ∃ stanza ∈ l, Malformed α stanza) ∨
      (∃ news : List α, l.mapM parse = .ok news ∧ news.length = l.length) ∧
        ∀ stanza ∈ l, ¬ Malformed α stanza := by
  induction l with
  | nil => exact .inr ⟨⟨[], rfl, rfl⟩, by simp⟩
  | cons stanza l ih =>
    rw [List.mapM_cons]
    rcases hparse : parse (α := α) stanza with e | new
    · obtain rfl := hα.io _ _ hparse
      exact .inl ⟨rfl, stanza, List.mem_cons_self, fun new hnew => by rw [hparse] at hnew; cases hnew⟩
    · rcases ih with ⟨hrest, bad, hbad, hmalformed⟩ | ⟨⟨news, hnews, hlength⟩, hgood⟩
      · rw [hrest]
        exact .inl ⟨rfl, bad, List.mem_cons_of_mem _ hbad, hmalformed⟩
      · rw [hnews]
        refine .inr ⟨⟨new :: news, rfl, by rw [List.length_cons, List.length_cons, hlength]⟩,
          List.forall_mem_cons.mpr ⟨fun hmalformed => hmalformed new hparse, hgood⟩⟩

/-- Unless they may have as many packages, two indices read the same only if neither can be. -/
lemma mapM_parse_eq_iff (hα : Requires α) {l l' : List (List Text)}
    (h : (∃ stanza ∈ l, Malformed α stanza) ∨ l.length ≠ l'.length) :
    l.mapM parse = (l'.mapM parse : Except Err (List α)) ↔
      (∃ stanza ∈ l, Malformed α stanza) ∧ ∃ stanza ∈ l', Malformed α stanza := by
  rcases parse_stanzas hα l with ⟨hl, hbad⟩ | ⟨⟨news, hl, hlength⟩, hgood⟩ <;>
    rcases parse_stanzas hα l' with ⟨hl', hbad'⟩ | ⟨⟨news', hl', hlength'⟩, hgood'⟩ <;> rw [hl, hl']
  · exact iff_of_true rfl ⟨hbad, hbad'⟩
  · refine iff_of_false (by simp) ?_
    rintro ⟨-, bad, hmem, hbad⟩
    exact hgood' bad hmem hbad
  · refine iff_of_false (by simp) ?_
    rintro ⟨⟨bad, hmem, hbad⟩, -⟩
    exact hgood bad hmem hbad
  · refine iff_of_false ?_ ?_
    · rintro ⟨⟩
      rcases h with ⟨bad, hmem, hbad⟩ | h
      · exact hgood bad hmem hbad
      · exact h (hlength.symm.trans hlength')
    · rintro ⟨⟨bad, hmem, hbad⟩, -⟩
      exact hgood bad hmem hbad

lemma extractPkgs_eq (text : Text) : extractPkgsUncompressed (encodeUtf8 text) =
    (((Text.lines text).splitOn []).dropLast.mapM parse : Except Err (List α)) := by
  unfold extractPkgsUncompressed
  rw [decodeUtf8_encodeUtf8]
  change extractLines 0 {} [] (Text.lines text) = _
  rw [extractLines_eq]
  simp

lemma onePerStanza_iff (hα : Requires α) (text : Text) :
    OnePerStanza α text ↔ Separated α (Text.lines text) := by
  unfold OnePerStanza Separated OneBlank Ended stanzas
  rw [extractPkgs_eq]
  obtain ⟨init, last, hpieces⟩ : ∃ init last, (Text.lines text).splitOn [] = init ++ [last] :=
    ⟨_, _, (List.dropLast_append_getLast (List.splitOn_ne_nil [] (Text.lines text))).symm⟩
  rw [hpieces, List.dropLast_concat, List.getLast?_concat, Option.some_inj]
  by_cases hone : [] ∈ init
  · -- The parser fails at the blank line that ends no stanza.
    have hbad : ∃ stanza ∈ init, Malformed α stanza := ⟨[], hone, hα.empty⟩
    rw [mapM_parse_eq_iff hα (.inl hbad), and_iff_right hbad]
    simp [hone]
  · have hinit : init.filter (· ≠ []) = init := by
      refine List.filter_eq_self.mpr fun stanza hstanza => ?_
      simpa using fun heq : stanza = [] => hone (heq ▸ hstanza)
    rw [List.filter_append, hinit]
    by_cases hlast : last = []
    · simp [hone, hlast]
    · -- The parser stops before the last stanza.
      have hfilter : [last].filter (· ≠ []) = [last] := by simp [hlast]
      rw [hfilter, mapM_parse_eq_iff hα (.inr (by simp))]
      constructor
      · exact fun hbad => .inl ⟨hone, .inr hbad.1⟩
      · rintro (⟨-, h | ⟨bad, hmem, hbad⟩⟩ | ⟨hnone, -⟩)
        · exact absurd h hlast
        · exact ⟨⟨bad, hmem, hbad⟩, bad, List.mem_append_left _ hmem, hbad⟩
        · exact absurd hone hnone

end

/-- **The parser returns one package for each stanza exactly if each is ended by one blank line**,
or if it fails because of a malformed one. -/
theorem onePerStanza (text : Text) :
    (OnePerStanza DebianSourcePkg text ↔ Separated DebianSourcePkg (Text.lines text)) ∧
      (OnePerStanza DebianBinPkg text ↔ Separated DebianBinPkg (Text.lines text)) :=
  ⟨onePerStanza_iff requires_source text, onePerStanza_iff requires_bin text⟩

/-- **The last package of an index that ends without a blank line is lost.** -/
theorem lastStanza_lost : ¬ ∀ text : Text,
    OnePerStanza DebianSourcePkg text ∧ OnePerStanza DebianBinPkg text := by
  intro h
  have hlost := (h "Package: hello\nVersion: 1.0\nArchitecture: amd64\nFilename: hello.deb\n".toList).2
  unfold OnePerStanza at hlost
  revert hlost
  rw [extractPkgs_eq]
  decide +kernel

end Debian

end Rebuilderd.Tools
