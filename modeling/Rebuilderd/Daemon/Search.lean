import Rebuilderd.Lib.Like
import Rebuilderd.Daemon.BinaryFilters

/-!
Searches for a part of a name or of a peer's URL. The text of the request is made a pattern, so the
wildcards it contains are read as such.

The URLs are looked up by a clause of SQL that is put together as text; the quotes of the request
are doubled there.
-/

namespace Rebuilderd.Daemon

open Rebuilderd.Lib Rebuilderd.Common

/-! ### The clause of the peers -/

/-- `p.replace('\'', "''")`. -/
def escapeQuotes (s : List Char) : List Char :=
  s.flatMap fun c => if c = '\'' then ['\'', '\''] else [c]

/-- What stands before the pattern of a string. -/
def urlLike : List Char := "url LIKE ".toList

/-- `url LIKE '%{}%'`. -/
def urlClause (s : List Char) : List Char :=
  urlLike ++ ['\'', '%'] ++ escapeQuotes s ++ ['%', '\'']

/-- What joins the clauses of the strings. -/
def orText : List Char := " OR ".toList

/-- `parts.join(" OR ")`. -/
def orClause : List (List Char) → List Char
  | [] => []
  | [s] => urlClause s
  | s :: ss => urlClause s ++ orText ++ orClause ss

/-- The tokenizer of SQL inside a string: the string, and what follows its closing quote. -/
def readString : List Char → Option (List Char × List Char)
  | [] => none
  | '\'' :: '\'' :: rest => (readString rest).map fun (s, rest) => ('\'' :: s, rest)
  | '\'' :: rest => some ([], rest)
  | c :: rest => (readString rest).map fun (s, rest) => (c :: s, rest)

/-- The patterns of a clause, of which one has to match. -/
def readClause : ℕ → List Char → Option (List (List Char))
  | 0, _ => none
  | n + 1, text =>
    (Text.stripPrefix (urlLike ++ ['\'']) text).bind fun rest =>
      (readString rest).bind fun read =>
        if read.2 = [] then some [read.1]
        else (Text.stripPrefix orText read.2).bind fun rest =>
          (readClause n rest).map (read.1 :: ·)

/-- The URL satisfies the clause of the strings. -/
def satisfiesClause (ss : List String) (url : String) : Bool :=
  let text := orClause (ss.map String.toList)
  (readClause text.length text).any fun patterns => patterns.any (like · url.toList)

/-- A string ends at its own closing quote, whatever its text. -/
lemma readString_escapeQuotes (s rest : List Char) (h : rest.head? ≠ some '\'') :
    readString (escapeQuotes s ++ '\'' :: rest) = some (s, rest) := by
  induction s with
  | nil =>
    rw [escapeQuotes, List.flatMap_nil, List.nil_append, readString]
    rintro c rfl
    exact h rfl
  | cons c s ih =>
    rw [escapeQuotes, List.flatMap_cons, ← escapeQuotes]
    by_cases hc : c = '\''
    · rw [if_pos hc, List.append_assoc, List.cons_append, List.cons_append, List.nil_append,
        readString, ih, hc]
      rfl
    · rw [if_neg hc, List.append_assoc, List.cons_append, List.nil_append, readString, ih]
      · rfl
      · exact fun _ hquote => absurd hquote hc
      · exact hc

lemma urlClause_eq (s : List Char) :
    urlClause s = (urlLike ++ ['\'']) ++ (escapeQuotes (containing s) ++ ['\'']) := by
  simp [urlClause, containing, escapeQuotes]

lemma stripPrefix_append (p s : List Char) : Text.stripPrefix p (p ++ s) = some s := by
  simp [Text.stripPrefix]

/-- The clause is read as one pattern for each string. -/
lemma readClause_orClause (ss : List (List Char)) (h : ss ≠ []) (n : ℕ) (hn : ss.length ≤ n) :
    readClause n (orClause ss) = some (ss.map containing) := by
  induction ss generalizing n with
  | nil => exact absurd rfl h
  | cons s ss ih =>
    rw [List.length_cons] at hn
    obtain ⟨n, rfl⟩ := Nat.exists_eq_add_of_le' (Nat.one_le_of_lt hn)
    have hstring (rest : List Char) (hrest : rest.head? ≠ some '\'') :
        readString (escapeQuotes (containing s) ++ ['\''] ++ rest) = some (containing s, rest) := by
      rw [List.append_assoc, List.singleton_append, readString_escapeQuotes _ _ hrest]
    cases ss with
    | nil =>
      have hlast := hstring [] (by simp)
      rw [List.append_nil] at hlast
      rw [orClause, urlClause_eq, readClause, stripPrefix_append, Option.bind_some, hlast,
        Option.bind_some, if_pos rfl]
      rfl
    | cons s' ss =>
      have hnext := hstring (orText ++ orClause (s' :: ss)) (by simp [orText])
      have hrest : orText ++ orClause (s' :: ss) ≠ [] := by simp [orText]
      rw [orClause, urlClause_eq, List.append_assoc, List.append_assoc, readClause,
        stripPrefix_append, Option.bind_some, hnext, Option.bind_some, if_neg hrest,
        stripPrefix_append, Option.bind_some, ih (List.cons_ne_nil s' ss) n (by simpa using hn)]
      · rfl
      · exact List.cons_ne_nil s' ss

lemma length_le_orClause (ss : List (List Char)) : ss.length ≤ (orClause ss).length := by
  induction ss with
  | nil => exact Nat.zero_le _
  | cons s ss ih =>
    cases ss with
    | nil =>
      simp only [orClause, urlClause, List.length_append, List.length_cons, List.length_nil]
      omega
    | cons s' ss =>
      simp only [orClause, urlClause, List.length_append, List.length_cons] at ih ⊢
      omega

/-- The peers the request asks for are those whose URLs satisfy the clause. -/
lemma asks_eq_clause (f : DisagreementFilter) (p : PeerRebuilder) :
    f.asks p = (f.peer.isEmpty || satisfiesClause f.peer p.url) := by
  rcases hnil : f.peer with _ | ⟨s, ss⟩
  · simp [DisagreementFilter.asks, hnil]
  · rw [DisagreementFilter.asks, satisfiesClause, hnil]
    rw [readClause_orClause _ (by simp) _ (length_le_orClause _), Option.any_some, List.any_map,
      List.any_map]
    congr 1
    refine List.any_congr rfl fun u => ?_
    simp [containing]

/-! ### Searches -/

/-- What a search of the type looks for, up to ASCII case if it is for a part of the name. -/
def SearchType.Finds (t : SearchType) (s name : String) : Prop :=
  match t with
  | .exact => name = s
  | .contains => lower s.toList <:+: lower name.toList
  | .startsWith => lower s.toList <+: lower name.toList

instance (t : SearchType) (s name : String) : Decidable (SearchType.Finds t s name) :=
  match t with
  | .exact => inferInstanceAs (Decidable (name = s))
  | .contains => inferInstanceAs (Decidable (lower s.toList <:+: lower name.toList))
  | .startsWith => inferInstanceAs (Decidable (lower s.toList <+: lower name.toList))

def SourceIdentityFilter.IsLiteral (f : SourceIdentityFilter) : Prop :=
  ∀ s : SourcePackage, SourceIdentityFilter.accepts f s = true ↔
    (∀ n ∈ f.name, SearchType.Finds f.searchType n s.name) ∧ ∀ v ∈ f.version, s.version = v

def BinaryIdentityFilter.IsLiteral (f : BinaryIdentityFilter) : Prop :=
  ∀ row : BinaryRow, f.accepts row = true ↔
    (∀ n ∈ f.name, SearchType.Finds f.searchType n row.package.name) ∧
      (∀ v ∈ f.version, row.package.version = v) ∧ ∀ n ∈ f.sourceName, row.source.name = n

/-- The peers of the request's origin are asked if one of the strings occurs in their URL. -/
def PeersLiteral (peer : List String) : Prop :=
  ∀ flag o y, ∀ ids ∈ peerIds o ⟨some flag, peer⟩ y, ∀ p ∈ y.peerRebuilders.rows, p.id ∈ ids ↔
    (∀ a ∈ o.architecture, p.architecture = a) ∧ (∀ d ∈ o.distribution, p.distribution = d) ∧
      (peer = [] ∨ ∃ s ∈ peer, SearchType.Finds .contains s p.url)

/-- The name is matched exactly or has no wildcards. -/
def PlainName (t : SearchType) (name : Option String) : Prop :=
  t = .exact ∨ ∀ n ∈ name, Plain n.toList

/-- Each of the strings contains one that has no wildcards. -/
def PlainPeers (peer : List String) : Prop :=
  ∀ s ∈ peer, ∃ s' ∈ peer, Plain s'.toList ∧ SearchType.Finds .contains s' s

section
variable {t : SearchType} {name : Option String} {peer : List String}

/-- The filter on the name. -/
def nameIs (t : SearchType) (name : Option String) (column : String) : Bool :=
  match name with
  | some n =>
    match t with
    | .exact => column == n
    | .contains => like ("%" ++ n ++ "%").toList column.toList
    | .startsWith => like (n ++ "%").toList column.toList
  | none => true

lemma toList_containing (n : String) : ("%" ++ n ++ "%").toList = containing n.toList := by
  simp [containing]

lemma toList_startingWith (n : String) : (n ++ "%").toList = startingWith n.toList := by
  simp [startingWith]

/-- The filter is literal for every column exactly if the name is plain. -/
lemma nameIs_literal_iff : (∀ column, nameIs t name column = true ↔
    ∀ n ∈ name, SearchType.Finds t n column) ↔ PlainName t name := by
  rcases name with _ | n
  · simp [nameIs, PlainName]
  · simp only [nameIs, PlainName, Option.mem_some_iff, forall_eq']
    cases t with
    | exact => simp [SearchType.Finds]
    | contains =>
      simp only [SearchType.Finds, toList_containing, reduceCtorEq, false_or]
      constructor
      · intro h
        refine plain_of_infix_fill (c := 'x') (by decide) ?_
        simpa using (h (String.ofList (fill 'x' n.toList))).mp (by simpa using containing_fill 'x' n.toList)
      · exact fun h column => h.containing_iff
    | startsWith =>
      simp only [SearchType.Finds, toList_startingWith, reduceCtorEq, false_or]
      constructor
      · intro h
        refine plain_of_infix_fill (c := 'x') (by decide) (List.IsPrefix.isInfix ?_)
        simpa using (h (String.ofList (fill 'x' n.toList))).mp (by simpa using startingWith_fill 'x' n.toList)
      · exact fun h column => h.startingWith_iff

lemma sourceLiteral_iff (f : SourceIdentityFilter) :
    SourceIdentityFilter.IsLiteral f ↔ PlainName f.searchType f.name := by
  have haccepts (s : SourcePackage) : SourceIdentityFilter.accepts f s = true ↔
      nameIs f.searchType f.name s.name = true ∧ ∀ v ∈ f.version, s.version = v := by
    obtain ⟨name, t, version⟩ := f
    change (nameIs t name s.name && _) = true ↔ _
    rw [Bool.and_eq_true]
    refine and_congr_right fun _ => ?_
    cases version <;> simp
  rw [← nameIs_literal_iff]
  constructor
  · intro h column
    have hs := h ⟨0, column, f.version.getD "", "", none, none, 0, true, none, none, none⟩
    have hversion : ∀ v ∈ f.version, f.version.getD "" = v := by
      intro v hv
      rw [Option.mem_def.mp hv, Option.getD_some]
    simpa only [haccepts, and_iff_left hversion] using hs
  · intro h s
    rw [haccepts, h]

lemma binaryLiteral_iff (f : BinaryIdentityFilter) :
    f.IsLiteral ↔ PlainName f.searchType f.name := by
  have haccepts (row : BinaryRow) : f.accepts row = true ↔
      nameIs f.searchType f.name row.package.name = true ∧
        (∀ v ∈ f.version, row.package.version = v) ∧ ∀ n ∈ f.sourceName, row.source.name = n := by
    obtain ⟨name, t, version, sourceName⟩ := f
    change (nameIs t name row.package.name && _ && _) = true ↔ _
    rw [Bool.and_eq_true, Bool.and_eq_true, and_assoc]
    refine and_congr_right fun _ => ?_
    cases version <;> cases sourceName <;> simp
  rw [← nameIs_literal_iff]
  constructor
  · intro h column
    have hrow := h ⟨⟨0, 0, 0, column, f.version.getD "", "", "", true⟩,
      ⟨0, f.sourceName.getD "", "", "", none, none, 0, true, none, none, none⟩, none, none⟩
    have hgetD (o : Option String) : ∀ v ∈ o, o.getD "" = v := by
      intro v hv
      rw [Option.mem_def.mp hv, Option.getD_some]
    simpa only [haccepts, and_iff_left (⟨hgetD f.version, hgetD f.sourceName⟩ : _ ∧ _)] using hrow
  · intro h row
    rw [haccepts, h]

/-- A peer is asked by its origin and by the patterns of the strings. -/
lemma mem_peerIds {flag : Bool} {o : OriginFilter} {y : PeerDb} {ids : List ℕ}
    (h : peerIds o ⟨some flag, peer⟩ y = some ids) {p : PeerRebuilder}
    (hp : p ∈ y.peerRebuilders.rows) : p.id ∈ ids ↔
      (∀ a ∈ o.architecture, p.architecture = a) ∧ (∀ d ∈ o.distribution, p.distribution = d) ∧
        (peer = [] ∨ ∃ s ∈ peer, like (containing s.toList) p.url.toList = true) := by
  have hown : p.id ∈ ids ↔ (o.architecture.all (p.architecture == ·) &&
      o.distribution.all (p.distribution == ·) && DisagreementFilter.asks ⟨some flag, peer⟩ p) = true := by
    obtain rfl : ids = (y.peerRebuilders.rows.filter fun p => _).map (·.id) := (Option.some.inj h).symm
    rw [List.mem_map]
    constructor
    · rintro ⟨p', hp', hid⟩
      obtain ⟨hp', hok⟩ := List.mem_filter.mp hp'
      rwa [y.peerRebuilders.eq_of_key hp' hp hid] at hok
    · exact fun hok => ⟨p, List.mem_filter.mpr ⟨hp, hok⟩, rfl⟩
  rw [hown, Bool.and_eq_true, Bool.and_eq_true, and_assoc, Option.all_eq_true, Option.all_eq_true]
  simp only [beq_iff_eq, DisagreementFilter.asks, toList_containing, Bool.or_eq_true,
    List.isEmpty_iff, List.any_eq_true]
  rfl

lemma PlainPeers.isLiteral (h : PlainPeers peer) : PeersLiteral peer := by
  intro flag o y ids hids p hp
  rw [mem_peerIds hids hp]
  have hfind : (∃ s ∈ peer, like (containing s.toList) p.url.toList = true) ↔
      ∃ s ∈ peer, SearchType.Finds .contains s p.url := by
    constructor
    · rintro ⟨s, hs, hlike⟩
      obtain ⟨s', hs', hplain, hsub⟩ := h s hs
      exact ⟨s', hs', infix_of_like hsub hplain hlike⟩
    · rintro ⟨s, hs, hfinds⟩
      obtain ⟨s', hs', hplain, hsub⟩ := h s hs
      exact ⟨s', hs', hplain.containing_iff.mpr (hsub.trans hfinds)⟩
  rw [hfind]

/-- Strings that leave a character out are told apart from their patterns by it. -/
lemma PeersLiteral.plain (h : PeersLiteral peer) (hlen : (peer.map String.length).sum < 2 ^ 20) :
    PlainPeers peer := by
  intro s hs
  obtain ⟨c, hc, hnew⟩ := exists_new (peer.flatMap fun s => lower s.toList)
    (by simpa only [List.length_flatMap, length_lower, String.length_toList] using hlen)
  -- A peer whose URL is the string with the character for its wildcards.
  let url := String.ofList (fill c s.toList)
  let y : PeerDb := ⟨Db.empty, Table.empty.insert fun id => ⟨id, url, "", "", "", ""⟩, .empty⟩
  have hp : ⟨1, url, "", "", "", ""⟩ ∈ y.peerRebuilders.rows := List.mem_singleton.mpr rfl
  have hids : peerIds ⟨none, none, none, none⟩ ⟨some true, peer⟩ y = some _ := rfl
  have hasked := (mem_peerIds hids hp).mpr ⟨by simp, by simp,
    .inr ⟨s, hs, by simpa [url] using containing_fill c s.toList⟩⟩
  obtain ⟨-, -, rfl | ⟨s', hs', hfinds⟩⟩ := (h true _ y _ hids _ hp).mp hasked
  · exact absurd hs List.not_mem_nil
  · have hc' : c.toLower ∉ lower s'.toList := fun hmem => hnew (List.mem_flatMap.mpr ⟨s', hs', hmem⟩)
    have hfinds : lower s'.toList <:+: lower (fill c s.toList) := by
      simpa [SearchType.Finds, url] using hfinds
    exact ⟨s', hs', occurs_of_infix_fill hc' hfinds⟩

end

/-- **A search is literal exactly if its text has no wildcards.** A search for peers by several
strings also is if each of them contains one without wildcards; there is no other case as long as
they do not contain all characters. -/
theorem searches_literal_iff (f : SourceIdentityFilter) (g : BinaryIdentityFilter)
    (peer : List String) :
    (SourceIdentityFilter.IsLiteral f ↔ PlainName f.searchType f.name) ∧
      (g.IsLiteral ↔ PlainName g.searchType g.name) ∧
      (PlainPeers peer → PeersLiteral peer) ∧
      ((peer.map String.length).sum < 2 ^ 20 → PeersLiteral peer → PlainPeers peer) :=
  ⟨sourceLiteral_iff f, binaryLiteral_iff g, PlainPeers.isLiteral, fun hlen h => h.plain hlen⟩

/-- **A search for `gtk_doc` also finds `gtk-doc`.** -/
theorem underscore_notLiteral :
    ¬ ((∀ f : SourceIdentityFilter, SourceIdentityFilter.IsLiteral f) ∧
      (∀ f : BinaryIdentityFilter, f.IsLiteral) ∧ ∀ peer, PeersLiteral peer) := by
  rintro ⟨h, -⟩
  have hfinds := (h ⟨some "gtk_doc", .contains, none⟩
    ⟨1, "gtk-doc", "1.0", "debian", none, none, 0, true, none, none, none⟩).mp (by decide)
  exact absurd (hfinds.1 _ rfl) (by decide)

end Rebuilderd.Daemon
