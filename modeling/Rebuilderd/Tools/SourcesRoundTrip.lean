import Rebuilderd.Tools.Stanzas

/-!
Source packages that are written as an index and read back.

The fields may come in any order and other lines between them; the list of binary packages may be
folded after any of its commas.
-/

namespace Rebuilderd.Tools.Debian

open Rebuilderd.Common Rebuilderd.Lib

/-! ### Indices of source packages -/

/-- The names of the fields that the parser reads. -/
def fieldNames : List Text :=
  ["Package", "Binary", "Version", "Source", "Directory", "Filename", "Architecture",
    "Uploaders"].map String.toList

/-- A name followed by a colon and a blank. -/
def field (name : String) (value : Text) : Text := name.toList ++ [':', ' '] ++ value

/-- A line that is not blank and not one of a field of the parser's. -/
structure Other (line : Text) : Prop where
  noFeed : '\n' ∉ line
  notBlank : Text.chomp line ≠ []
  noField : ∀ name ∈ fieldNames, ¬ name ++ [':', ' '] <+: line

def joined (first : Text) (others : List Text) : Text := first ++ others.flatMap ([',', ' '] ++ ·)

/-- The lines of a list that begins with `first`; it is folded after the commas that `folds` says. -/
def folded (first : Text) : List Bool → List Text → List Text
  | _, [] => [first]
  | folds, name :: names =>
    if folds.headD false then (first ++ [',']) :: folded ([' '] ++ name) folds.tail names
    else folded (first ++ [',', ' '] ++ name) folds.tail names

inductive Block
  | package | binary (folds : List Bool) | version | directory | architecture | uploaders

namespace Block

def lines (p : DebianSourcePkg) : Block → List Text
  | package => [field "Package" p.base.toList]
  | binary folds =>
    match p.binary.map String.toList with
    | [] => [field "Binary" []]
    | name :: names => (folded name folds names).modifyHead (field "Binary")
  | version => [field "Version" p.version.toList]
  | directory => [field "Directory" p.directory.toList]
  | architecture => [field "Architecture" p.architecture.toList]
  | uploaders =>
    match p.uploaders.map String.toList with
    | [] => []
    | name :: names => [field "Uploaders" (joined name names)]

/-- What the parser keeps of a field. -/
def store (p : DebianSourcePkg) (pkg : NewPkg) : Block → NewPkg
  | package => { pkg with base := some p.base }
  | binary _ => { pkg with binary := some p.binary }
  | version => { pkg with version := some p.version }
  | directory => { pkg with directory := some p.directory }
  | architecture => { pkg with architecture := some p.architecture }
  | uploaders => { pkg with uploaders := p.uploaders }

end Block

def blocks (p : DebianSourcePkg) (folds : List Bool) : List Block :=
  [.package, .binary folds, .version, .directory, .architecture] ++
    if p.uploaders = [] then [] else [.uploaders]

/-- Fields with any number of other lines before, between and after them. -/
inductive Interleaved (p : DebianSourcePkg) : List Block → List Text → Prop
  | nil : Interleaved p [] []
  | other {bs : List Block} {ls : List Text} {line : Text} (hline : Other line)
      (h : Interleaved p bs ls) : Interleaved p bs (line :: ls)
  | field {b : Block} {bs : List Block} {ls : List Text} (h : Interleaved p bs ls) :
      Interleaved p (b :: bs) (b.lines p ++ ls)

/-- The lines of a stanza of the package, without the blank line that ends it. -/
def Renders (p : DebianSourcePkg) (ls : List Text) : Prop :=
  ∃ folds bs, bs.Perm (blocks p folds) ∧ Interleaved p bs ls

/-- One line. -/
def Unbroken (s : String) : Prop := '\n' ∉ s.toList ∧ '\r' ∉ s.toList

instance (s : String) : Decidable (Unbroken s) := inferInstanceAs (Decidable (_ ∧ _))

/-- A package whose fields can be written. -/
structure Renderable (p : DebianSourcePkg) : Prop where
  base : Unbroken p.base
  version : Unbroken p.version
  directory : Unbroken p.directory
  architecture : Unbroken p.architecture
  someBinary : p.binary ≠ []
  binary : ∀ name ∈ p.binary, Unbroken name ∧ name ≠ "" ∧ ',' ∉ name.toList ∧ ' ' ∉ name.toList
  uploaders : ∀ u ∈ p.uploaders, Unbroken u ∧ ¬ [',', ' '] <:+: u.toList

/-- An index of these stanzas, each ended by one blank line. -/
def index (stanzas : List (List Text)) : Text := Text.unlines (stanzas.flatMap (· ++ [[]]))

/-! ### One field -/

section
variable {p : DebianSourcePkg} {pkg : NewPkg} {ls rest : List Text} {first value : Text}
  {folds : List Bool} {names : List Text} {b : Block} {bs : List Block}

lemma fieldsOf_skip (ls rest : List Text) :
    fieldsOf ls.length pkg (ls ++ rest) = fieldsOf 0 pkg rest := by
  induction ls with
  | nil => rfl
  | cons line ls ih => exact ih

/-- A line with a field, whose name has no colon. -/
lemma fieldsOf_field {name : String} (h : ':' ∉ name.toList) :
    fieldsOf 0 pkg (field name value :: rest) =
      fieldsOf (pkg.set name.toList value rest).2 (pkg.set name.toList value rest).1 rest := by
  rw [fieldsOf, field, Text.splitOnce_append h]

/-- A field whose value is on its line alone. -/
lemma fieldsOf_stored {name : String} {stored : NewPkg} (h : ':' ∉ name.toList)
    (hset : pkg.set name.toList value rest = (stored, 0)) :
    fieldsOf 0 pkg (field name value :: rest) = fieldsOf 0 stored rest := by
  rw [fieldsOf_field h, hset]

lemma fieldsOf_other {line : Text} (h : ∀ name ∈ fieldNames, ¬ name ++ [':', ' '] <+: line) :
    fieldsOf 0 pkg (line :: rest) = fieldsOf 0 pkg rest := by
  rw [fieldsOf]
  rcases hsplit : Text.splitOnce [':', ' '] line with _ | ⟨name, value⟩
  · rfl
  · have hname : name ∉ fieldNames := by
      intro hname
      refine h name hname ?_
      rw [Text.splitOnce_eq_some hsplit]
      exact List.prefix_append _ _
    have hset : pkg.set name value rest = (pkg, 0) := by
      simp only [fieldNames, List.map_cons, List.map_nil, List.mem_cons, List.not_mem_nil, or_false,
        not_or] at hname
      obtain ⟨h1, h2, h3, h4, h5, h6, h7, h8⟩ := hname
      rw [NewPkg.set, if_neg h1, if_neg h2, if_neg h3, if_neg h4, if_neg h5, if_neg h6, if_neg h7,
        if_neg h8]
    dsimp only
    rw [hset]

lemma folded_ne_nil : folded first folds names ≠ [] := by
  induction names generalizing first folds with
  | nil => simp [folded]
  | cons name names ih =>
    unfold folded
    split
    · exact List.cons_ne_nil _ _
    · exact ih

/-- The first line of a folded list begins with its first item. -/
lemma folded_head {v : Text} {more : List Text} (h : folded first folds names = v :: more) :
    first <+: v := by
  induction names generalizing first folds with
  | nil =>
    cases h
    exact List.prefix_refl _
  | cons name names ih =>
    unfold folded at h
    split at h
    · cases h
      exact List.prefix_append _ _
    · exact (List.prefix_append _ _).trans ((List.append_assoc _ _ _ ▸ ih h))

/-- Folded lines are glued together again. -/
lemma continued_folded {v : Text} {more : List Text} (front : Text)
    (h : folded first folds names = v :: more) (hfirst : ∃ l c, first = l ++ [c] ∧ c ≠ ',')
    (hnames : ∀ name ∈ names, name ≠ [] ∧ ',' ∉ name) :
    continued (front ++ v) (more ++ rest) = (front ++ joined first names, more.length) := by
  induction names generalizing first folds front v more with
  | nil =>
    cases h
    obtain ⟨l, c, rfl, hc⟩ := hfirst
    have hsuffix : [','].isSuffixOf (front ++ (l ++ [c])) = false := by
      rw [← List.append_assoc, ← Bool.not_eq_true, List.isSuffixOf_iff_suffix,
        List.singleton_suffix_iff_getLast?_eq_some, List.getLast?_concat]
      simpa using hc
    rw [joined, List.flatMap_nil, List.append_nil, List.nil_append]
    cases rest with
    | nil => rfl
    | cons line rest =>
      rw [continued, hsuffix]
      rfl
  | cons name names ih =>
    obtain ⟨⟨hname, hcomma⟩, hrest⟩ := List.forall_mem_cons.mp hnames
    obtain ⟨l, c, rfl⟩ := (List.eq_nil_or_concat' name).resolve_left hname
    have hc : c ≠ ',' := fun heq => hcomma (by simp [heq])
    unfold folded at h
    split at h
    · obtain ⟨rfl, rfl⟩ := List.cons.inj h
      rcases hmore : folded ([' '] ++ (l ++ [c])) folds.tail names with _ | ⟨v', more'⟩
      · exact absurd hmore folded_ne_nil
      · have hcontinued := ih (front ++ (first ++ [','])) hmore ⟨' ' :: l, c, rfl, hc⟩ hrest
        have hsuffix : [','].isSuffixOf (front ++ (first ++ [','])) = true := by
          rw [List.isSuffixOf_iff_suffix, ← List.append_assoc]
          exact List.suffix_append _ _
        have hbegins : [' '].isPrefixOf v' = true := by
          rw [List.isPrefixOf_iff_prefix]
          exact (List.prefix_append _ _).trans (folded_head hmore)
        rw [List.cons_append, continued, hsuffix, hbegins, Bool.true_and, if_pos rfl, hcontinued]
        simp [joined]
    · have hcontinued := ih front h ⟨first ++ [',', ' '] ++ l, c, by simp, hc⟩ hrest
      rw [hcontinued]
      simp [joined]

lemma items_joined {u : String} {us : List String}
    (h : ∀ n ∈ u :: us, ¬ [',', ' '] <:+: n.toList) :
    items (joined u.toList (us.map String.toList)) = u :: us := by
  have hsplit := Text.split_intercalate (x := ',') (y := ' ') (by decide) u.toList
    (us.map String.toList) (by simpa using h)
  rw [items, joined, hsplit]
  simp [Function.comp_def]

/-- The parser stores a field and goes on behind it. -/
lemma fieldsOf_lines (hp : Renderable p) (hb : b = .uploaders → p.uploaders ≠ []) :
    fieldsOf 0 pkg (b.lines p ++ rest) = fieldsOf 0 (b.store p pkg) rest := by
  cases b with
  | package =>
    refine fieldsOf_stored (by decide) ?_
    exact congrArg (fun base => ({ pkg with base := some base }, 0)) String.ofList_toList
  | version =>
    refine fieldsOf_stored (by decide) ?_
    exact congrArg (fun version => ({ pkg with version := some version }, 0)) String.ofList_toList
  | directory =>
    refine fieldsOf_stored (by decide) ?_
    exact congrArg (fun directory => ({ pkg with directory := some directory }, 0))
      String.ofList_toList
  | architecture =>
    refine fieldsOf_stored (by decide) ?_
    exact congrArg (fun architecture => ({ pkg with architecture := some architecture }, 0))
      String.ofList_toList
  | uploaders =>
    obtain ⟨u, us, hus⟩ := List.exists_cons_of_ne_nil (hb rfl)
    have hitems : items (joined u.toList (us.map String.toList)) = u :: us :=
      items_joined fun n hn => (hp.uploaders n (hus ▸ hn)).2
    rw [Block.lines, Block.store, hus]
    refine fieldsOf_stored (by decide) ?_
    exact congrArg (fun uploaders => ({ pkg with uploaders := uploaders }, 0)) hitems
  | binary folds =>
    obtain ⟨n, ns, hns⟩ := List.exists_cons_of_ne_nil hp.someBinary
    have hname (m : String) (hm : m ∈ n :: ns) : m.toList ≠ [] ∧ ',' ∉ m.toList :=
      ⟨by simpa using (hp.binary m (hns ▸ hm)).2.1, (hp.binary m (hns ▸ hm)).2.2.1⟩
    have hitems : items (joined n.toList (ns.map String.toList)) = n :: ns :=
      items_joined fun m hm hwithin => (hname m hm).2 (hwithin.subset List.mem_cons_self)
    rcases hmore : folded n.toList folds (ns.map String.toList) with _ | ⟨v, more⟩
    · exact absurd hmore folded_ne_nil
    · obtain ⟨l, c, hl⟩ := (List.eq_nil_or_concat' n.toList).resolve_left (hname n List.mem_cons_self).1
      have hc : c ≠ ',' := fun heq => (hname n List.mem_cons_self).2 (by simp [hl, heq])
      have hcontinued : continued v (more ++ rest) =
          (joined n.toList (ns.map String.toList), more.length) := by
        refine continued_folded [] hmore ⟨l, c, hl, hc⟩ ?_
        rw [List.forall_mem_map]
        exact fun m hm => hname m (List.mem_cons_of_mem n hm)
      have hset : pkg.set "Binary".toList v (more ++ rest) =
          ({ pkg with binary := some (n :: ns) }, more.length) := by
        change ({ pkg with binary := some (items (continued v (more ++ rest)).1) },
          (continued v (more ++ rest)).2) = _
        rw [hcontinued, ← hitems]
      rw [Block.lines, hns, List.map_cons]
      dsimp only
      rw [hmore, List.modifyHead_cons, List.cons_append, fieldsOf_field (by decide), hset,
        fieldsOf_skip, Block.store, hns]

/-! ### Lines of a stanza -/

lemma not_mem_folded {c : Char} (hcomma : c ≠ ',') (hblank : c ≠ ' ') (hfirst : c ∉ first)
    (hnames : ∀ name ∈ names, c ∉ name) : ∀ line ∈ folded first folds names, c ∉ line := by
  induction names generalizing first folds with
  | nil => simpa [folded] using hfirst
  | cons name names ih =>
    obtain ⟨hname, hrest⟩ := List.forall_mem_cons.mp hnames
    unfold folded
    split
    · refine List.forall_mem_cons.mpr ⟨by simp [hfirst, hcomma], ih (by simp [hname, hblank]) hrest⟩
    · exact ih (by simp [hfirst, hcomma, hblank, hname]) hrest

lemma folded_line_ne_nil (hfirst : first ≠ []) : ∀ line ∈ folded first folds names, line ≠ [] := by
  induction names generalizing first folds with
  | nil => simpa [folded] using hfirst
  | cons name names ih =>
    unfold folded
    split
    · exact List.forall_mem_cons.mpr ⟨by simp, ih (by simp)⟩
    · exact ih (by simp)

lemma field_ne_nil (name : String) (value : Text) : field name value ≠ [] := by
  simp [field]

lemma not_mem_field {name : String} {c : Char} (hc : c ∉ ([':', ' '] : Text))
    (hname : c ∉ name.toList) (hvalue : c ∉ value) : c ∉ field name value := by
  simp only [field, List.mem_append, not_or]
  exact ⟨⟨hname, hc⟩, hvalue⟩

/-- The lines of a field are neither broken nor blank. -/
lemma lines_ok (hp : Renderable p) : ∀ line ∈ b.lines p, '\n' ∉ line ∧ '\r' ∉ line ∧ line ≠ [] := by
  have hone (name : String) (s : String) (hs : Unbroken s) (hname : '\n' ∉ name.toList)
      (hname' : '\r' ∉ name.toList) : ∀ line ∈ [field name s.toList],
        '\n' ∉ line ∧ '\r' ∉ line ∧ line ≠ [] := by
    rw [List.forall_mem_singleton]
    exact ⟨not_mem_field (by decide) hname hs.1, not_mem_field (by decide) hname' hs.2,
      field_ne_nil _ _⟩
  cases b with
  | package => exact hone "Package" _ hp.base (by decide) (by decide)
  | version => exact hone "Version" _ hp.version (by decide) (by decide)
  | directory => exact hone "Directory" _ hp.directory (by decide) (by decide)
  | architecture => exact hone "Architecture" _ hp.architecture (by decide) (by decide)
  | uploaders =>
    rw [Block.lines]
    rcases hus : p.uploaders.map String.toList with _ | ⟨u, us⟩
    · simp
    · have hu (c : Char) (hc : c = '\n' ∨ c = '\r') : ∀ name ∈ u :: us, c ∉ name := by
        rw [← hus, List.forall_mem_map]
        intro name hname
        rcases hc with rfl | rfl
        · exact (hp.uploaders name hname).1.1
        · exact (hp.uploaders name hname).1.2
      have hjoined (c : Char) (hc : c = '\n' ∨ c = '\r') : c ∉ joined u us := by
        obtain ⟨hfirst, hothers⟩ := List.forall_mem_cons.mp (hu c hc)
        have hsep : c ∉ ([',', ' '] : Text) := by rcases hc with rfl | rfl <;> decide
        simp only [joined, List.mem_append, List.mem_flatMap, not_or, not_exists, not_and]
        exact ⟨hfirst, fun name hname => ⟨hsep, hothers name hname⟩⟩
      rw [List.forall_mem_singleton]
      exact ⟨not_mem_field (by decide) (by decide) (hjoined _ (.inl rfl)),
        not_mem_field (by decide) (by decide) (hjoined _ (.inr rfl)), field_ne_nil _ _⟩
  | binary folds =>
    obtain ⟨n, ns, hns⟩ := List.exists_cons_of_ne_nil hp.someBinary
    have hname (m : String) (hm : m ∈ n :: ns) : Unbroken m ∧ m.toList ≠ [] :=
      ⟨(hp.binary m (hns ▸ hm)).1, by simpa using (hp.binary m (hns ▸ hm)).2.1⟩
    have hmem (c : Char) (hc : c = '\n' ∨ c = '\r') :
        ∀ line ∈ folded n.toList folds (ns.map String.toList), c ∉ line := by
      have hall (m : String) (hm : m ∈ n :: ns) : c ∉ m.toList := by
        rcases hc with rfl | rfl
        · exact (hname m hm).1.1
        · exact (hname m hm).1.2
      refine not_mem_folded ?_ ?_ (hall n List.mem_cons_self) ?_
      · rcases hc with rfl | rfl <;> decide
      · rcases hc with rfl | rfl <;> decide
      · exact List.forall_mem_map.mpr fun m hm => hall m (List.mem_cons_of_mem n hm)
    have hne : ∀ line ∈ folded n.toList folds (ns.map String.toList), line ≠ [] :=
      folded_line_ne_nil (hname n List.mem_cons_self).2
    rw [Block.lines, hns, List.map_cons]
    dsimp only
    rcases hmore : folded n.toList folds (ns.map String.toList) with _ | ⟨v, more⟩
    · exact absurd hmore folded_ne_nil
    · rw [hmore] at hmem hne
      obtain ⟨hfeed, hfeeds⟩ := List.forall_mem_cons.mp (hmem _ (.inl rfl))
      obtain ⟨hreturn, hreturns⟩ := List.forall_mem_cons.mp (hmem _ (.inr rfl))
      rw [List.modifyHead_cons, List.forall_mem_cons]
      exact ⟨⟨not_mem_field (by decide) (by decide) hfeed,
        not_mem_field (by decide) (by decide) hreturn, field_ne_nil _ _⟩,
        fun line hline => ⟨hfeeds line hline, hreturns line hline,
          hne line (List.mem_cons_of_mem v hline)⟩⟩

lemma chomp_lines (hp : Renderable p) : (b.lines p).map Text.chomp = b.lines p := by
  rw [List.map_congr_left fun line hline => Text.chomp_of_not_mem (lines_ok hp line hline).2.1,
    List.map_id']

/-! ### Stanzas -/

lemma store_comm (p : DebianSourcePkg) (pkg : NewPkg) (b b' : Block) :
    b'.store p (b.store p pkg) = b.store p (b'.store p pkg) := by
  cases b <;> cases b' <;> rfl

lemma fieldsOf_interleaved (hp : Renderable p) (h : Interleaved p bs ls)
    (hbs : .uploaders ∈ bs → p.uploaders ≠ []) :
    fieldsOf 0 pkg (ls.map Text.chomp) = bs.foldl (fun pkg b => b.store p pkg) pkg := by
  induction h generalizing pkg with
  | nil => rfl
  | other hline h ih =>
    rw [List.map_cons, fieldsOf_other fun name hname hbegins =>
      hline.noField name hname (hbegins.trans (Text.chomp_prefix _)), ih hbs]
  | field h ih =>
    rw [List.map_append, chomp_lines hp, fieldsOf_lines hp fun hb => hbs (hb ▸ List.mem_cons_self),
      List.foldl_cons, ih fun hmem => hbs (List.mem_cons_of_mem _ hmem)]

/-- No line of a stanza is blank. -/
lemma Interleaved.line_ok (hp : Renderable p) (h : Interleaved p bs ls) :
    ∀ line ∈ ls, '\n' ∉ line ∧ Text.chomp line ≠ [] := by
  induction h with
  | nil => simp
  | other hline h ih => exact List.forall_mem_cons.mpr ⟨⟨hline.noFeed, hline.notBlank⟩, ih⟩
  | field h ih =>
    refine List.forall_mem_append.mpr ⟨fun line hline => ?_, ih⟩
    obtain ⟨hfeed, hreturn, hne⟩ := lines_ok hp line hline
    exact ⟨hfeed, by rwa [Text.chomp_of_not_mem hreturn]⟩

/-- The package of a stanza is the one it was made from. -/
lemma Renders.parse (h : Renders p ls) (hp : Renderable p) :
    Debian.parse (ls.map Text.chomp) = .ok p := by
  obtain ⟨folds, bs, hperm, hls⟩ := h
  have hbs (hmem : .uploaders ∈ bs) : p.uploaders ≠ [] := by
    have hblocks := hperm.mem_iff.mp hmem
    intro hnone
    simp [blocks, hnone] at hblocks
  rw [Debian.parse, fieldsOf_interleaved hp hls hbs,
    hperm.foldl_eq' fun b _ b' _ pkg => store_comm p pkg b b']
  unfold blocks
  by_cases hnone : p.uploaders = []
  · rw [if_pos hnone]
    change Except.ok { p with uploaders := [] } = Except.ok p
    rw [← hnone]
  · rw [if_neg hnone]
    rfl

lemma index_lines {ps : List DebianSourcePkg} {stanzas : List (List Text)}
    (hps : ∀ p ∈ ps, Renderable p) (h : List.Forall₂ Renders ps stanzas) :
    ∀ line ∈ stanzas.flatMap (· ++ [[]]), '\n' ∉ line := by
  induction h with
  | nil => simp
  | cons hls hrest ih =>
    obtain ⟨hp, hps⟩ := List.forall_mem_cons.mp hps
    obtain ⟨folds, bs, -, hinterleaved⟩ := hls
    rw [List.flatMap_cons, List.forall_mem_append, List.forall_mem_append]
    exact ⟨⟨fun line hline => (hinterleaved.line_ok hp line hline).1, by simp⟩, ih hps⟩

/-- Packages are appended stanza by stanza. -/
lemma extractLines_index {ps : List DebianSourcePkg} {stanzas : List (List Text)}
    (hps : ∀ p ∈ ps, Renderable p) (h : List.Forall₂ Renders ps stanzas)
    (done : List DebianSourcePkg) :
    extractLines 0 {} done ((stanzas.flatMap (· ++ [[]])).map Text.chomp) = .ok (done ++ ps) := by
  induction h generalizing done with
  | nil =>
    rw [List.append_nil]
    rfl
  | @cons p ls ps stanzas hls hrest ih =>
    obtain ⟨hp, hps⟩ := List.forall_mem_cons.mp hps
    have hparse := hls.parse hp
    obtain ⟨folds, bs, -, hinterleaved⟩ := hls
    have hblank : [] ∉ ls.map Text.chomp := by
      rintro hmem
      obtain ⟨line, hline, hchomp⟩ := List.mem_map.mp hmem
      exact (hinterleaved.line_ok hp line hline).2 hchomp
    rw [List.flatMap_cons, List.map_append, List.map_append, List.append_assoc]
    change extractLines 0 {} done (ls.map Text.chomp ++
      [] :: (stanzas.flatMap (· ++ [[]])).map Text.chomp) = _
    rw [extractLines_stanza hblank (Nat.zero_le _)]
    change Debian.parse (ls.map Text.chomp) >>= _ = _
    rw [hparse]
    change extractLines 0 {} (done ++ [p]) ((stanzas.flatMap (· ++ [[]])).map Text.chomp) = _
    rw [ih hps, List.append_assoc, List.singleton_append]

end

/-- **Source packages that are written as an index are read back from it**, whatever the order of
their fields, the lines between them and the folds of the lists. -/
theorem sources_roundTrip (ps : List DebianSourcePkg) (stanzas : List (List Text))
    (hps : ∀ p ∈ ps, Renderable p) (h : List.Forall₂ Renders ps stanzas) :
    extractPkgsUncompressed (encodeUtf8 (index stanzas)) = .ok ps := by
  unfold extractPkgsUncompressed
  rw [decodeUtf8_encodeUtf8]
  change extractLines 0 {} [] (Text.lines (index stanzas)) = _
  rw [index, Text.lines_unlines (index_lines hps h), extractLines_index hps h, List.nil_append]

/-- A source package of two binary packages. -/
def rustSource : DebianSourcePkg where
  base := "rust"
  binary := ["rustc", "cargo"]
  version := "1.0"
  directory := "pool/rust"
  architecture := "any"
  uploaders := ["Ferris <ferris@rust>"]

/-- Its stanza, with a folded list and another line. -/
def rustStanza : List Text :=
  ["Package: rust", "Uploaders: Ferris <ferris@rust>", "Homepage: https://rust", "Binary: rustc,",
    " cargo", "Version: 1.0", "Directory: pool/rust", "Architecture: any"].map String.toList

theorem rustSource_roundTrip :
    extractPkgsUncompressed (encodeUtf8 (index [rustStanza])) = .ok [rustSource] := by
  have hsource : Renderable rustSource :=
    ⟨by decide, by decide, by decide, by decide, by decide, by decide, by decide⟩
  have hother : Other "Homepage: https://rust".toList := ⟨by decide, by decide, by decide⟩
  have hstanza : Renders rustSource rustStanza :=
    ⟨[true], [.package, .uploaders, .binary [true], .version, .directory, .architecture], by
      refine .cons _ (.trans (List.perm_append_singleton _ _).symm (.of_eq rfl)),
      .field (.field (.other hother (.field (.field (.field (.field .nil))))))⟩
  exact sources_roundTrip [rustSource] [rustStanza] (List.forall_mem_singleton.mpr hsource)
    (.cons hstanza .nil)

end Rebuilderd.Tools.Debian
