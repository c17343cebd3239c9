import Rebuilderd.Common.Api
import Rebuilderd.Lib.Query
import Rebuilderd.Lib.Text

/-!
What the schedulers of `rebuildctl pkgs sync` share: the configuration of a sync, the choice of
packages, the downloads, the decompression of indices, and the grouping of binary packages by their
source package.
-/

namespace Rebuilderd.Tools

open Rebuilderd.Common Rebuilderd.Lib

/-- Whether a glob pattern matches a name. -/
abbrev Pattern := String → Bool

structure PkgsSync where
  distro : String
  components : List String
  source : String
  architectures : List String
  printJson : Bool
  maintainers : List String
  releases : List String
  pkgs : List Pattern
  excludes : List Pattern
  syncMethod : Option String
  githubToken : Option String

class Pkg (α : Type) where
  pkgName : α → String
  byMaintainer : α → List String → Bool

section

variable {α : Type} [Pkg α]

def matchName (p : α) (patterns : List Pattern) : Bool := patterns.any (· (Pkg.pkgName p))

def matchesSync (p : α) (sync : PkgsSync) : Bool :=
  if matchName p sync.excludes then false
  else if sync.maintainers.isEmpty && sync.pkgs.isEmpty then true
  else Pkg.byMaintainer p sync.maintainers || matchName p sync.pkgs

end

def startsWith (s p : String) : Bool := p.toList.isPrefixOf s.toList

/-! ### Compressed indices -/

inductive CompressedWith
  | gzip
  | bzip2
  | xz
  | zstd
  | unknown
  deriving DecidableEq

/-- The mime type that some bytes seem to have, and the decoders. -/
structure Decoders where
  mime : Bytes → String
  gzip : Bytes → Except Err Bytes
  bzip2 : Bytes → Except Err Bytes
  xz : Bytes → Except Err Bytes
  zstd : Bytes → Except Err Bytes

namespace Decoders

variable (lib : Decoders)

def detectCompression (bytes : Bytes) : CompressedWith :=
  match lib.mime bytes with
  | "application/gzip" => .gzip
  | "application/x-bzip" => .bzip2
  | "application/x-bzip2" => .bzip2
  | "application/x-xz" => .xz
  | "application/zstd" => .zstd
  | _ => .unknown

/-- What is read from the stream up to its end. -/
def stream (comp : CompressedWith) (bytes : Bytes) : Except Err Bytes :=
  match comp with
  | .gzip => lib.gzip bytes
  | .bzip2 => lib.bzip2 bytes
  | .xz => lib.xz bytes
  | .zstd => lib.zstd bytes
  | .unknown => .ok bytes

def decompress (bytes : Bytes) : Except Err Bytes := lib.stream (lib.detectCompression bytes) bytes

/-- Nothing is compressed. -/
def plain : Decoders where
  mime _ := "application/octet-stream"
  gzip _ := .error .io
  bzip2 _ := .error .io
  xz _ := .error .io
  zstd _ := .error .io

end Decoders

/-! ### Downloads -/

/-- A call of `fetch_url_or_path`: for what, from where, and what came back. -/
structure Download (κ : Type) where
  what : κ
  path : String
  result : Except Err Bytes
  deriving DecidableEq

/-- The mirror may answer differently each time: what a fetch comes back with depends on the
paths that were fetched before it. -/
abbrev Mirror := List String → String → Except Err Bytes

/-- A scheduler's run, with its downloads so far. -/
abbrev Fetch (κ : Type) := StateT (List (Download κ)) (Except Err)

def fetchUrlOrPath {κ : Type} (mirror : Mirror) (what : κ) (path : String) :
    Fetch κ (Except Err Bytes) := fun ds =>
  let result := mirror (ds.map (·.path)) path
  .ok (result, ds ++ [⟨what, path, result⟩])

/-- The `?` of the source. -/
def orFail {κ α : Type} (x : Except Err α) : Fetch κ α := fun ds => x.map (·, ds)

lemma except_bind_ok {α β : Type} {x : Except Err α} {f : α → Except Err β} {b : β}
    (h : (x >>= f) = .ok b) : ∃ a, x = .ok a ∧ f a = .ok b := by
  rcases x with e | a
  · cases h
  · exact ⟨a, rfl, h⟩

section

variable {κ α β : Type} {ds ds' : List (Download κ)}

lemma bind_ok {x : Fetch κ α} {f : α → Fetch κ β} {b : β} :
    (x >>= f) ds = .ok (b, ds') ↔ ∃ a ds₁, x ds = .ok (a, ds₁) ∧ f a ds₁ = .ok (b, ds') := by
  change (x ds >>= fun r => f r.1 r.2) = _ ↔ _
  rcases x ds with e | ⟨a, ds₁⟩
  · simp [bind, Except.bind]
  · simp [bind, Except.bind]

@[simp] lemma pure_ok {a b : α} : (pure a : Fetch κ α) ds = .ok (b, ds') ↔ a = b ∧ ds = ds' := by
  change Except.ok (a, ds) = _ ↔ _
  simp

@[simp] lemma orFail_ok {x : Except Err α} {a : α} :
    orFail x ds = .ok (a, ds') ↔ x = .ok a ∧ ds = ds' := by
  unfold orFail
  cases x <;> simp [Except.map]

/-- A fetch comes back with some result, and adds it to the downloads. -/
lemma fetch_ok {mirror : Mirror} {what : κ} {path : String} {result : Except Err Bytes} :
    fetchUrlOrPath mirror what path ds = .ok (result, ds') →
      ds' = ds ++ [⟨what, path, result⟩] := by
  rintro ⟨⟩
  rfl

/-- The invariant of a loop with downloads. -/
lemma loop_ok {f : β → α → Fetch κ β} {I : List α → β → List (Download κ) → Prop} {as : List α}
    {b b' : β} (h : as.foldlM f b ds = .ok (b', ds')) (h0 : I [] b ds)
    (hf : ∀ done a c ds c' ds', a ∈ as → I done c ds → f c a ds = .ok (c', ds') →
      I (done ++ [a]) c' ds') : I as b' ds' := by
  have hloop : ∀ (as : List α) (b : β) (ds : List (Download κ)),
      as.foldlM f b ds = as.foldlM (fun x a => f x.1 a x.2) (b, ds) := by
    intro as
    induction as with
    | nil => exact fun b ds => rfl
    | cons a as ih =>
      intro b ds
      rw [List.foldlM_cons, List.foldlM_cons]
      change (f b a ds >>= fun r => as.foldlM f r.1 r.2) = _
      simp only [ih]
  rw [hloop] at h
  exact foldlM_ok (I := fun done x => I done x.1 x.2) h h0
    fun done a x x' ha hx hok => hf done a x.1 x.2 x'.1 x'.2 ha hx hok

/-- Whatever is downloaded, a run that succeeds ends with a value of which `P` holds. -/
def Yields (x : Fetch κ α) (P : α → Prop) : Prop := ∀ ds a ds', x ds = .ok (a, ds') → P a

namespace Yields

variable {P : α → Prop}

lemma pure {a : α} (h : P a) : Yields (Pure.pure a : Fetch κ α) P := by
  rintro ds b ds' hb
  obtain ⟨rfl, -⟩ := pure_ok.mp hb
  exact h

lemma bind {x : Fetch κ β} {f : β → Fetch κ α} (h : ∀ b, Yields (f b) P) : Yields (x >>= f) P := by
  rintro ds a ds' ha
  obtain ⟨b, ds₁, -, hb⟩ := bind_ok.mp ha
  exact h b _ _ _ hb

lemma bind' {Q : β → Prop} {x : Fetch κ β} {f : β → Fetch κ α} (hx : Yields x Q)
    (h : ∀ b, Q b → Yields (f b) P) : Yields (x >>= f) P := by
  rintro ds a ds' ha
  obtain ⟨b, ds₁, hb, ha⟩ := bind_ok.mp ha
  exact h b (hx _ _ _ hb) _ _ _ ha

lemma loop {f : α → β → Fetch κ α} {I : List β → α → Prop} {bs : List β} {a : α} (h0 : I [] a)
    (hf : ∀ done b a, I done a → Yields (f a b) (I (done ++ [b]))) : Yields (bs.foldlM f a) (I bs) :=
  fun _ _ _ h => loop_ok (I := fun done a _ => I done a) h h0
    fun done b c ds c' ds' _ hc hok => hf done b c hc ds c' ds' hok

end Yields

end

/-- An entry of a tar archive. -/
structure TarEntry where
  path : String
  isRegular : Bool
  content : Except Err Bytes

/-- The order in which a hash map yields its entries. -/
structure HashOrder where
  apply : {α : Type} → List α → List α
  perm : ∀ {α : Type} (l : List α), (apply l).Perm l

def HashOrder.inserted : HashOrder where
  apply l := l
  perm l := .refl l

/-- What holds of the entries and of a new value holds after the value has replaced another one. -/
lemma forall_mem_replace {κ α : Type} [DecidableEq κ] {P : (Σ _ : κ, α) → Prop}
    {m : AList fun _ : κ => α} {k : κ} {v : α} (hm : ∀ e ∈ m.entries, P e) (hv : P ⟨k, v⟩) :
    ∀ e ∈ (m.replace k v).entries, P e := by
  suffices ∀ es : List (Σ _ : κ, α), (∀ e ∈ es, P e) → ∀ e ∈ List.kreplace k v es, P e from
    this m.entries hm
  intro es hes
  unfold List.kreplace
  induction es with
  | nil => simp
  | cons e es ih =>
    obtain ⟨he, hes⟩ := List.forall_mem_cons.mp hes
    by_cases h : k = e.1
    · have hsome : (if k = e.1 then some ⟨k, v⟩ else none : Option (Σ _ : κ, α)) = some ⟨k, v⟩ :=
        if_pos h
      rw [List.lookmap_cons_some _ _ hsome]
      exact List.forall_mem_cons.mpr ⟨hv, hes⟩
    · have hnone : (if k = e.1 then some ⟨k, v⟩ else none : Option (Σ _ : κ, α)) = none := if_neg h
      rw [List.lookmap_cons_none _ _ hnone]
      exact List.forall_mem_cons.mpr ⟨he, ih hes⟩

/-- What a lookup finds after the value of a key that is there was replaced. -/
lemma dlookup_kreplace {κ α : Type} [DecidableEq κ] (k k' : κ) (v : α) (es : List (Σ _ : κ, α)) :
    List.dlookup k' (List.kreplace k v es) =
      if k' = k ∧ k ∈ es.keys then some v else List.dlookup k' es := by
  unfold List.kreplace
  induction es with
  | nil => simp
  | cons e es ih =>
    by_cases h : k = e.1
    · have hsome : (if k = e.1 then some ⟨k, v⟩ else none : Option (Σ _ : κ, α)) = some ⟨k, v⟩ :=
        if_pos h
      rw [List.lookmap_cons_some _ _ hsome]
      obtain ⟨k, w⟩ := e
      subst h
      by_cases hk : k' = k
      · subst hk
        rw [List.dlookup_cons_eq, if_pos ⟨rfl, List.mem_cons_self⟩]
      · rw [List.dlookup_cons_ne _ _ hk, List.dlookup_cons_ne _ _ hk, if_neg fun h => hk h.1]
    · have hnone : (if k = e.1 then some ⟨k, v⟩ else none : Option (Σ _ : κ, α)) = none := if_neg h
      rw [List.lookmap_cons_none _ _ hnone]
      by_cases hk : k' = e.1
      · obtain ⟨k', w⟩ := e
        subst hk
        simp [Ne.symm h]
      · rw [List.dlookup_cons_ne _ _ hk, List.dlookup_cons_ne _ _ hk, ih]
        simp [h]

lemma lookup_replace {κ α : Type} [DecidableEq κ] {m : AList fun _ : κ => α} {k : κ} (hk : k ∈ m)
    (k' : κ) (v : α) : (m.replace k v).lookup k' = if k' = k then some v else m.lookup k' := by
  rw [AList.lookup, AList.replace, dlookup_kreplace]
  by_cases h : k' = k
  · rw [if_pos ⟨h, AList.mem_keys.mp hk⟩, if_pos h]
  · rw [if_neg fun hand => h hand.1, if_neg h]
    rfl

/-- `BufRead::lines` and `read_to_string` of bytes that need not be UTF-8. -/
def decodeUtf8 (bytes : Bytes) : Except Err Text :=
  match String.fromUTF8? ⟨bytes.toArray⟩ with
  | some s => .ok s.toList
  | none => .error .io

/-! ### Grouping -/

/-- The groups of a report by the key of their source package, in the order they were made. -/
abbrev Groups (κ : Type) := AList fun _ : κ => SourcePackageReport

/-- Adds the artifact to the group of its source package, which is made from the artifact's own
data if this is the first one. -/
def Groups.push {κ : Type} [DecidableEq κ] (groups : Groups κ) (key : κ)
    (group : SourcePackageReport) (artifact : BinaryPackageReport) : Groups κ :=
  match groups.lookup key with
  | some old => groups.replace key { old with artifacts := old.artifacts ++ [artifact] }
  | none => groups.insert key { group with artifacts := [artifact] }

def Groups.intoValues {κ : Type} (order : HashOrder) (groups : Groups κ) :
    List SourcePackageReport := order.apply (groups.entries.map (·.2))

end Rebuilderd.Tools
