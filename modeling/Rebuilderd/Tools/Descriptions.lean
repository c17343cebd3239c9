import Rebuilderd.Tools.ArchLinux
import Rebuilderd.Tools.Stanzas

/-!
Package descriptions of Arch Linux that are written in sections and read back.

A section is a key, its values, and a blank line. The sections that make a package may come in any
order, with others between them, and of their values only the first counts.
-/

namespace Rebuilderd.Tools.ArchLinux

open Rebuilderd.Common Rebuilderd.Lib

/-- The sections that make a package. -/
inductive Field
  | filename | name | base | version | architecture | packager
  deriving DecidableEq

namespace Field

def all : List Field := [filename, name, base, version, architecture, packager]

def word : Field → String
  | filename => "%FILENAME%"
  | name => "%NAME%"
  | base => "%BASE%"
  | version => "%VERSION%"
  | architecture => "%ARCH%"
  | packager => "%PACKAGER%"

def key (f : Field) : Text := f.word.toList

/-- The values that were read. -/
def values (pkg : NewPkg) : Field → List Text
  | filename => pkg.filename
  | name => pkg.name
  | base => pkg.base
  | version => pkg.version
  | architecture => pkg.architecture
  | packager => pkg.packager

def value (p : ArchPkg) : Field → String
  | filename => p.filename
  | name => p.name
  | base => p.base
  | version => p.version
  | architecture => p.architecture
  | packager => p.packager

lemma mem_all (f : Field) : f ∈ all := by cases f <;> simp [all]

lemma key_inj {f g : Field} : f.key = g.key ↔ f = g := by
  rw [key, key, String.toList_inj]
  cases f <;> cases g <;> simp [word]

lemma set_eq (pkg : NewPkg) (key : Text) (values : List Text) :
    pkg.set key values =
      if key = filename.key then { pkg with filename := values }
      else if key = name.key then { pkg with name := values }
      else if key = base.key then { pkg with base := values }
      else if key = version.key then { pkg with version := values }
      else if key = architecture.key then { pkg with architecture := values }
      else if key = packager.key then { pkg with packager := values }
      else pkg := rfl

/-- A key sets the values of its own field. -/
lemma values_set_key (f g : Field) (pkg : NewPkg) (values : List Text) :
    f.values (pkg.set g.key values) = if g = f then values else f.values pkg := by
  simp only [set_eq, key_inj]
  cases g <;> cases f <;> rfl

/-- Any other key sets nothing. -/
lemma set_other {key : Text} (h : ∀ f : Field, key ≠ f.key) (pkg : NewPkg) (values : List Text) :
    pkg.set key values = pkg := by
  rw [set_eq, if_neg (h filename), if_neg (h name), if_neg (h base), if_neg (h version),
    if_neg (h architecture), if_neg (h packager)]

lemma values_set (f : Field) (pkg : NewPkg) (key : Text) (values : List Text) :
    f.values (pkg.set key values) = if key = f.key then values else f.values pkg := by
  by_cases h : ∃ g : Field, key = g.key
  · obtain ⟨g, rfl⟩ := h
    simp only [values_set_key, key_inj]
  · rw [not_exists] at h
    rw [set_other h, if_neg (h f)]

end Field

/-! ### Sections -/

structure Section where
  key : Text
  values : List Text
  deriving DecidableEq

namespace Section

/-- A section that can be read back: the key is one line, and so is each value, which is not empty. -/
structure WellFormed (sec : Section) : Prop where
  key : '\n' ∉ sec.key
  values : ∀ value ∈ sec.values, value ≠ [] ∧ '\n' ∉ value

instance (sec : Section) : Decidable sec.WellFormed :=
  decidable_of_iff ('\n' ∉ sec.key ∧ ∀ value ∈ sec.values, value ≠ [] ∧ '\n' ∉ value)
    ⟨fun h => ⟨h.1, h.2⟩, fun h => ⟨h.key, h.values⟩⟩

/-- Ended by a blank line. -/
def lines (sec : Section) : List Text := sec.key :: sec.values ++ [[]]

/-- Whether the section is one of those that make a package. -/
def isField (sec : Section) : Bool := Field.all.any fun f => sec.key = f.key

end Section

def description (secs : List Section) : Text := Text.unlines (secs.flatMap Section.lines)

/-- The values of the sections, each set after those in front of it. -/
def NewPkg.setAll (pkg : NewPkg) (secs : List Section) : NewPkg :=
  secs.foldl (fun pkg sec => pkg.set sec.key sec.values) pkg

/-- What was read when the next line is a key. -/
def sectionsFrom (pkg : NewPkg) : List Text → NewPkg
  | [] => pkg
  | key :: rest => readValues pkg key [] rest

variable {pkg : NewPkg} {key : Text} {values rest : List Text} {sec : Section} {secs : List Section}
  {p : ArchPkg} {f : Field}

/-- The values are read up to the blank line, and the next line is a key again. -/
lemma readValues_append {done : List Text} (h : ∀ value ∈ values, value ≠ []) :
    readValues pkg key done (values ++ [] :: rest) = sectionsFrom (pkg.set key (done ++ values)) rest := by
  induction values generalizing done with
  | nil =>
    rw [List.nil_append, List.append_nil]
    cases rest <;> rfl
  | cons value values ih =>
    obtain ⟨hvalue, hvalues⟩ := List.forall_mem_cons.mp h
    obtain ⟨c, cs, rfl⟩ := List.exists_cons_of_ne_nil hvalue
    rw [List.cons_append, readValues, ih hvalues, List.append_assoc]
    rfl

lemma sectionsFrom_lines (h : sec.WellFormed) :
    sectionsFrom pkg (sec.lines ++ rest) = sectionsFrom (pkg.set sec.key sec.values) rest := by
  rw [Section.lines, List.cons_append, List.cons_append, List.append_assoc]
  exact readValues_append fun value hvalue => (h.values value hvalue).1

/-- What is read from sections sets the values of each, one after the other. -/
lemma sectionsFrom_sections (h : ∀ sec ∈ secs, sec.WellFormed) :
    sectionsFrom pkg (secs.flatMap Section.lines ++ [[]]) =
      pkg.setAll secs := by
  induction secs generalizing pkg with
  | nil =>
    change pkg.set [] [] = pkg
    exact Field.set_other (fun f => by cases f <;> simp [Field.key, Field.word]) pkg []
  | cons sec secs ih =>
    obtain ⟨hsec, hsecs⟩ := List.forall_mem_cons.mp h
    rw [List.flatMap_cons, List.append_assoc, sectionsFrom_lines hsec, ih hsecs]
    rfl

lemma readSections_description (h : ∀ sec ∈ secs, sec.WellFormed) :
    readSections (Text.split ['\n'] (description secs)) =
      NewPkg.setAll {} secs := by
  have hlines : ∀ line ∈ secs.flatMap Section.lines, '\n' ∉ line := by
    intro line hline
    obtain ⟨sec, hsec, hline⟩ := List.mem_flatMap.mp hline
    rw [Section.lines, List.cons_append, List.mem_cons, List.mem_append, List.mem_singleton] at hline
    rcases hline with rfl | hvalue | rfl
    · exact (h sec hsec).key
    · exact ((h sec hsec).values line hvalue).2
    · exact List.not_mem_nil
  rw [description, Text.split_unlines hlines, ← sectionsFrom_sections h]
  cases secs <;> rfl

/-! ### The package -/

/-- The sections of a field. -/
def sectionsOf (secs : List Section) (f : Field) : List Section :=
  secs.filter fun sec => sec.key = f.key

/-- There is no section of the field, or it has no values; of several the last one counts. -/
def Lacks (secs : List Section) (f : Field) : Prop :=
  ∀ sec ∈ (sectionsOf secs f).getLast?, sec.values = []

/-- The sections of a package, each with any number of further values and in any order, and any
number of other ones between them. -/
structure Describes (p : ArchPkg) (secs : List Section) : Prop where
  wellFormed : ∀ sec ∈ secs, sec.WellFormed
  fields : ∃ more : Field → List Text, (secs.filter Section.isField).Perm
    (Field.all.map fun f => ⟨f.key, (f.value p).toList :: more f⟩)

/-- The last section of a field sets its values. -/
lemma values_sections (f : Field) (secs : List Section) (pkg : NewPkg) :
    f.values (pkg.setAll secs) =
      ((sectionsOf secs f).getLast?.map (·.values)).getD (f.values pkg) := by
  induction secs using List.reverseRecOn with
  | nil => rfl
  | append_singleton secs sec ih =>
    rw [NewPkg.setAll, List.foldl_append, List.foldl_cons, List.foldl_nil, Field.values_set,
      ← NewPkg.setAll, ih, sectionsOf, sectionsOf, List.filter_append]
    by_cases h : sec.key = f.key <;> simp [h]

lemma values_eq_nil_iff :
    f.values (NewPkg.setAll {} secs) = [] ↔ Lacks secs f := by
  have hempty : f.values {} = [] := by cases f <;> rfl
  rw [values_sections, hempty, Lacks]
  cases (sectionsOf secs f).getLast? <;> simp

/-- A section that describes the package is the only one of its field. -/
lemma values_of_describes (h : Describes p secs) (f : Field) :
    ∃ more, f.values (NewPkg.setAll {} secs) =
      (f.value p).toList :: more := by
  obtain ⟨more, hperm⟩ := h.fields
  have hall : (Field.all.map fun f => (⟨f.key, (f.value p).toList :: more f⟩ : Section)).filter
      (fun sec => sec.key = f.key) = [⟨f.key, (f.value p).toList :: more f⟩] := by
    rw [List.filter_map]
    simp only [Function.comp_def, Field.key_inj]
    cases f <;> rfl
  have hfilter : (secs.filter Section.isField).filter (fun sec => sec.key = f.key) =
      sectionsOf secs f := by
    rw [List.filter_filter]
    refine List.filter_congr fun sec _ => ?_
    by_cases hsec : sec.key = f.key
    · simp [Section.isField, hsec, Field.key_inj, Field.mem_all]
    · simp [hsec]
  have hof := hperm.filter fun sec => sec.key = f.key
  rw [hall, hfilter, List.perm_singleton] at hof
  exact ⟨more f, by rw [values_sections, hof]; rfl⟩

lemma tryInto_eq (pkg : NewPkg) :
    pkg.tryInto = do
      let name ← first pkg.name
      let base ← first pkg.base
      let filename ← first pkg.filename
      let version ← first pkg.version
      let architecture ← first pkg.architecture
      let packager ← first pkg.packager
      return ⟨name, base, filename, version, architecture, packager⟩ := rfl

lemma tryInto_ok (h : ∀ f : Field, ∃ more, f.values pkg = (f.value p).toList :: more) :
    pkg.tryInto = .ok p := by
  have hfirst (f : Field) : first (f.values pkg) = .ok (f.value p) := by
    obtain ⟨more, hvalues⟩ := h f
    rw [hvalues]
    exact congrArg Except.ok String.ofList_toList
  have hname : first pkg.name = .ok p.name := hfirst .name
  have hbase : first pkg.base = .ok p.base := hfirst .base
  have hfilename : first pkg.filename = .ok p.filename := hfirst .filename
  have hversion : first pkg.version = .ok p.version := hfirst .version
  have harchitecture : first pkg.architecture = .ok p.architecture := hfirst .architecture
  have hpackager : first pkg.packager = .ok p.packager := hfirst .packager
  rw [tryInto_eq, hname, hbase, hfilename, hversion, harchitecture, hpackager]
  rfl

/-- Every field has a first value. -/
lemma values_ne_nil (h : pkg.tryInto = .ok p) (f : Field) : f.values pkg ≠ [] := by
  have hfirst (values : List Text) (value : String) (hvalue : first values = .ok value) :
      values ≠ [] := by
    rintro rfl
    cases hvalue
  rw [tryInto_eq] at h
  obtain ⟨name, hname, h⟩ := except_bind_ok h
  obtain ⟨base, hbase, h⟩ := except_bind_ok h
  obtain ⟨filename, hfilename, h⟩ := except_bind_ok h
  obtain ⟨version, hversion, h⟩ := except_bind_ok h
  obtain ⟨architecture, harchitecture, h⟩ := except_bind_ok h
  obtain ⟨packager, hpackager, -⟩ := except_bind_ok h
  cases f with
  | filename => exact hfirst _ _ hfilename
  | name => exact hfirst _ _ hname
  | base => exact hfirst _ _ hbase
  | version => exact hfirst _ _ hversion
  | architecture => exact hfirst _ _ harchitecture
  | packager => exact hfirst _ _ hpackager

/-- A package that has all its fields. -/
lemma exists_tryInto (h : ∀ f : Field, f.values pkg ≠ []) : ∃ p, pkg.tryInto = .ok p := by
  have hvalue (f : Field) : ∃ value more, f.values pkg = value :: more :=
    List.exists_cons_of_ne_nil (h f)
  choose value more hvalue using hvalue
  refine ⟨⟨String.ofList (value .name), String.ofList (value .base), String.ofList (value .filename),
    String.ofList (value .version), String.ofList (value .architecture),
    String.ofList (value .packager)⟩, tryInto_ok fun f => ⟨more f, ?_⟩⟩
  rw [hvalue f]
  cases f <;> simp [Field.value]

/-! ### The archive -/

/-- What is read from a description. -/
def parse (secs : List Section) : Except Err ArchPkg :=
  (readSections (Text.split ['\n'] (description secs))).tryInto

lemma parse_of_describes (h : Describes p secs) : parse secs = .ok p := by
  rw [parse, readSections_description h.wellFormed]
  exact tryInto_ok (values_of_describes h)

/-- A description can be read unless a field lacks. -/
lemma parse_iff (h : ∀ sec ∈ secs, sec.WellFormed) :
    (∃ e, parse secs = .error e) ↔ ∃ f, Lacks secs f := by
  rw [parse, readSections_description h]
  constructor
  · rintro ⟨e, he⟩
    by_contra hall
    rw [not_exists] at hall
    obtain ⟨p, hp⟩ := exists_tryInto fun f => fun hnil => hall f (values_eq_nil_iff.mp hnil)
    rw [hp] at he
    cases he
  · rintro ⟨f, hf⟩
    rcases hp : (NewPkg.setAll {} secs).tryInto with e | p
    · exact ⟨e, rfl⟩
    · exact absurd (values_eq_nil_iff.mpr hf) (values_ne_nil hp f)

/-- The regular files of an archive are these descriptions. -/
def Holds (ents : List TarEntry) (files : List (List Section)) : Prop :=
  (ents.filter (·.isRegular)).map (·.content) =
    files.map fun secs => .ok (encodeUtf8 (description secs))

def addEntry (pkgs : List ArchPkg) (entry : Except Err TarEntry) : Except Err (List ArchPkg) := do
  let entry ← entry
  if entry.isRegular then
    let content ← decodeUtf8 (← entry.content)
    let pkg ← (readSections (Text.split ['\n'] content)).tryInto
    return pkgs ++ [pkg]
  else return pkgs

lemma extractPkgs_eq (env : Env) (bytes : Bytes) :
    extractPkgs env bytes =
      (env.decompress bytes >>= env.untar) >>= fun entries => entries.foldlM addEntry [] := by
  unfold extractPkgs
  rcases env.decompress bytes with e | raw <;> rfl

variable {ents : List TarEntry} {files : List (List Section)} {pkgs done : List ArchPkg}
  {ent : TarEntry}

lemma addEntry_other (h : ent.isRegular = false) : addEntry done (.ok ent) = .ok done := by
  change (if ent.isRegular then _ else _) = _
  rw [h]
  rfl

lemma addEntry_description (h : ent.isRegular = true)
    (hcontent : ent.content = .ok (encodeUtf8 (description secs))) :
    addEntry done (.ok ent) = (parse secs).map fun p => done ++ [p] := by
  change (if ent.isRegular then _ else _) = _
  rw [h, hcontent]
  change (decodeUtf8 (encodeUtf8 (description secs)) >>= _) = _
  rw [decodeUtf8_encodeUtf8]
  change (parse secs >>= _) = _
  cases parse secs <;> rfl

/-- An entry that is not a regular file, or one that is the first description. -/
lemma Holds.cons (h : Holds (ent :: ents) files) :
    (ent.isRegular = false ∧ Holds ents files) ∨
      ∃ secs files', files = secs :: files' ∧ ent.isRegular = true ∧
        ent.content = .ok (encodeUtf8 (description secs)) ∧ Holds ents files' := by
  unfold Holds at h ⊢
  rcases hregular : ent.isRegular with _ | _
  · rw [List.filter_cons_of_neg (by simp [hregular])] at h
    exact .inl ⟨rfl, h⟩
  · rw [List.filter_cons_of_pos hregular, List.map_cons] at h
    obtain ⟨secs, files', rfl, hcontent, hrest⟩ := List.map_eq_cons_iff.mp h.symm
    exact .inr ⟨secs, files', rfl, rfl, hcontent.symm, hrest.symm⟩

lemma foldlM_of_parse (h : Holds ents files)
    (hparse : List.Forall₂ (fun p secs => parse secs = .ok p) pkgs files) :
    (ents.map Except.ok).foldlM addEntry done = .ok (done ++ pkgs) := by
  induction ents generalizing files pkgs done with
  | nil =>
    obtain rfl : files = [] := List.map_eq_nil_iff.mp h.symm
    cases hparse
    rw [List.append_nil]
    rfl
  | cons ent ents ih =>
    rw [List.map_cons, List.foldlM_cons]
    rcases h.cons with ⟨hother, hrest⟩ | ⟨secs, files', rfl, hregular, hcontent, hrest⟩
    · rw [addEntry_other hother]
      exact ih hrest hparse
    · cases hparse with
      | @cons p _ pkgs' _ hp hparse =>
        rw [addEntry_description hregular hcontent, hp]
        refine (ih hrest hparse).trans ?_
        rw [List.append_assoc]
        rfl

lemma foldlM_error_iff (h : Holds ents files) :
    (∃ e, (ents.map Except.ok).foldlM addEntry done = .error e) ↔
      ∃ secs ∈ files, ∃ e, parse secs = .error e := by
  induction ents generalizing files done with
  | nil =>
    obtain rfl : files = [] := List.map_eq_nil_iff.mp h.symm
    refine iff_of_false ?_ (by simp)
    rintro ⟨e, ⟨⟩⟩
  | cons ent ents ih =>
    rw [List.map_cons, List.foldlM_cons]
    rcases h.cons with ⟨hother, hrest⟩ | ⟨secs, files', rfl, hregular, hcontent, hrest⟩
    · rw [addEntry_other hother]
      exact ih hrest
    · rw [addEntry_description hregular hcontent, List.exists_mem_cons_iff]
      rcases hp : parse secs with e | p
      · exact iff_of_true ⟨e, rfl⟩ (.inl ⟨e, rfl⟩)
      · refine (ih hrest).trans (or_iff_right ?_).symm
        rintro ⟨e, ⟨⟩⟩

/-- **Descriptions are read back**: an archive of package descriptions yields the packages that they
describe, whatever the order of their sections and whatever stands between them; it fails if and only
if one of them lacks a field. -/
theorem extractPkgs_descriptions {env : Env} {bytes raw : Bytes}
    (hraw : env.decompress bytes = .ok raw) (hents : env.untar raw = .ok (ents.map .ok))
    (hfiles : Holds ents files) (hformed : ∀ secs ∈ files, ∀ sec ∈ secs, sec.WellFormed) :
    (∀ pkgs, List.Forall₂ Describes pkgs files → extractPkgs env bytes = .ok pkgs) ∧
      ((∃ e, extractPkgs env bytes = .error e) ↔ ∃ secs ∈ files, ∃ f, Lacks secs f) := by
  have hextract : extractPkgs env bytes = (ents.map Except.ok).foldlM addEntry [] := by
    rw [extractPkgs_eq, hraw]
    change (env.untar raw >>= _) = _
    rw [hents]
    rfl
  rw [hextract]
  refine ⟨fun pkgs hpkgs => ?_, (foldlM_error_iff hfiles).trans ?_⟩
  · exact foldlM_of_parse hfiles (hpkgs.imp fun _ _ h => parse_of_describes h)
  · exact exists_congr fun secs => and_congr_right fun hsecs => parse_iff (hformed secs hsecs)

/-- A description with sections of no interest, one of which has no values. -/
def bashDesc : List Section :=
  [("%FILENAME%", ["bash-5.2-1-x86_64.pkg"]), ("%MD5SUM%", ["d41d8cd9"]), ("%DEPENDS%", []),
    ("%BASE%", ["bash", "bash-docs"]), ("%NAME%", ["bash"]), ("%ARCH%", ["x86_64"]),
    ("%PACKAGER%", ["Levente"]), ("%VERSION%", ["5.2-1"])].map fun sec =>
      ⟨sec.1.toList, sec.2.map String.toList⟩

def bash : ArchPkg := ⟨"bash", "bash", "bash-5.2-1-x86_64.pkg", "5.2-1", "x86_64", "Levente"⟩

/-- An archive of one description. -/
def plainArchive : Env where
  mirror _ _ := .error .io
  order := .inserted
  decoders := .plain
  untar raw := .ok [.ok ⟨"bash-5.2-1/", false, .ok []⟩, .ok ⟨"bash-5.2-1/desc", true, .ok raw⟩]

def bashEntries : List TarEntry :=
  [⟨"bash-5.2-1/", false, .ok []⟩,
    ⟨"bash-5.2-1/desc", true, .ok (encodeUtf8 (description bashDesc))⟩]

theorem extractPkgs_bash :
    extractPkgs plainArchive (encodeUtf8 (description bashDesc)) = .ok [bash] :=
  (@extractPkgs_descriptions bashEntries [bashDesc] plainArchive _ _ rfl rfl rfl
    (by decide +kernel)).1 [bash]
    (.cons ⟨by decide +kernel, fun f => if f = .base then ["bash-docs".toList] else [],
      by decide +kernel⟩ .nil)

end Rebuilderd.Tools.ArchLinux
