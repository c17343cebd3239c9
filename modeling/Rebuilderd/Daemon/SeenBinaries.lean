import Rebuilderd.Daemon.Seen

/-!
Which binary packages are seen.

Unlike the flag of a source package, that of a binary package belongs to one scope: that of its
source package and the architecture of its build input. As long as nothing is literally called
PLACEHOLDER, the seen binary packages are those the most recent report of their scope lists.
-/

namespace Rebuilderd.Daemon

open Rebuilderd.Lib Rebuilderd.Common

/-! ### Binary packages by their names -/

/-- What identifies a binary package. -/
structure BinaryKey where
  source : SourceIdentity
  url : String
  architecture : String
  name : String
  version : String
  deriving DecidableEq

def BinaryKey.scope (k : BinaryKey) : Scope := k.source.scope k.architecture

/-- The group of the build input of the binary package. -/
def BinaryKey.group (k : BinaryKey) : Group := ⟨k.url, k.source.distribution, k.architecture⟩

/-- The package of a report has the source package, the url and the artifact. -/
def listsArtifact (p : SourcePackageReport) (k : BinaryKey) : Bool :=
  p.name == k.source.name && p.version == k.source.version && p.url == k.url &&
    p.artifacts.any fun a => a.name == k.name && a.version == k.version

def listsBinary (r : PackageReport) (k : BinaryKey) : Bool :=
  r.packages.any (listsArtifact · k)

/-- Neither the release nor the component is literally called PLACEHOLDER. -/
def isPlain (r : PackageReport) : Bool :=
  r.release != some "PLACEHOLDER" && r.component != some "PLACEHOLDER"

def Db.sourceIdentities (db : Db) : List (ℕ × SourceIdentity) :=
  db.sourcePackages.rows.map fun s => (s.id, s.identity)

/-- The columns of `binary_packages_unique_idx`. -/
def BinaryPackage.columns (b : BinaryPackage) : ℕ × ℕ × String × String × String :=
  (b.sourcePackageId, b.buildInputId, b.name, b.version, b.architecture)

/-- The row is that of the binary package `k`. -/
structure Describes (db : Db) (b : BinaryPackage) (k : BinaryKey) : Prop where
  source : (b.sourcePackageId, k.source) ∈ db.sourceIdentities
  input : (b.buildInputId, b.sourcePackageId, k.group) ∈ db.inputs
  architecture : b.architecture = k.architecture
  name : b.name = k.name
  version : b.version = k.version

/-- The seen binary packages. -/
def seenKeys (db : Db) : Set BinaryKey :=
  {k | ∃ b ∈ db.binaryPackages.rows, b.seenInLastSync = true ∧ Describes db b k}

/-- Every binary package row is that of one binary package, and no two rows of the same one. -/
structure Linked (db : Db) : Prop where
  plain : ∀ s ∈ db.sourcePackages.rows,
    s.release ≠ some "PLACEHOLDER" ∧ s.component ≠ some "PLACEHOLDER"
  described : ∀ b ∈ db.binaryPackages.rows, ∃ k, Describes db b k
  unique : (db.binaryPackages.rows.map BinaryPackage.columns).Nodup

section
variable {db db' : Db} {b b' : BinaryPackage} {k k' : BinaryKey}

lemma mem_sourceIdentities {i : ℕ} {s : SourceIdentity} : (i, s) ∈ db.sourceIdentities ↔
    ∃ row ∈ db.sourcePackages.rows, row.id = i ∧ row.identity = s := by
  simp [Db.sourceIdentities]

lemma Describes.unique (h : Describes db b k) (h' : Describes db b k') : k = k' := by
  obtain ⟨hs, hi, -, hn, hv⟩ := h
  obtain ⟨hs', hi', -, hn', hv'⟩ := h'
  obtain ⟨s, hmem, hid, hsource⟩ := mem_sourceIdentities.mp hs
  obtain ⟨s', hmem', hid', hsource'⟩ := mem_sourceIdentities.mp hs'
  obtain rfl := Table.eq_of_key hmem hmem' (hid.trans hid'.symm)
  have hgroup : k.group = k'.group := (inputs_inj hi hi').2
  simp only [BinaryKey.group, Group.mk.injEq] at hgroup
  obtain ⟨source, url, architecture, name, version⟩ := k
  obtain ⟨source', url', architecture', name', version'⟩ := k'
  simp only at *
  rw [← hsource, ← hsource', hgroup.1, hgroup.2.2, ← hn, ← hn', ← hv, ← hv']

lemma describes_congr (h : b.columns = b'.columns) : Describes db b k ↔ Describes db b' k := by
  simp only [BinaryPackage.columns, Prod.mk.injEq] at h
  obtain ⟨hs, hi, hn, hv, ha⟩ := h
  constructor
  · rintro ⟨h₁, h₂, h₃, h₄, h₅⟩
    exact ⟨hs ▸ h₁, hs ▸ hi ▸ h₂, ha ▸ h₃, hn ▸ h₄, hv ▸ h₅⟩
  · rintro ⟨h₁, h₂, h₃, h₄, h₅⟩
    exact ⟨hs ▸ h₁, hs ▸ hi ▸ h₂, ha ▸ h₃, hn ▸ h₄, hv ▸ h₅⟩

/-- A binary package has one row. -/
lemma Linked.row_unique (h : Linked db) (hu : Unique db) (hb : b ∈ db.binaryPackages.rows)
    (hb' : b' ∈ db.binaryPackages.rows) (hk : Describes db b k) (hk' : Describes db b' k) :
    b = b' := by
  obtain ⟨s, hmem, hid, hsource⟩ := mem_sourceIdentities.mp hk.source
  obtain ⟨s', hmem', hid', hsource'⟩ := mem_sourceIdentities.mp hk'.source
  obtain rfl := hu.row_of_identity hmem hmem' (hsource.trans hsource'.symm)
  have hs : b.sourcePackageId = b'.sourcePackageId := hid.symm.trans hid'
  have hi : b.buildInputId = b'.buildInputId := hu.input_eq hk.input (hs ▸ hk'.input)
  refine List.inj_on_of_nodup_map h.unique hb hb' ?_
  simp only [BinaryPackage.columns, hs, hi, hk.name, hk'.name, hk.version, hk'.version,
    hk.architecture, hk'.architecture]

/-- Source packages and build inputs were added, and none changed. -/
structure Grows (db db' : Db) : Prop where
  sources : ∀ x ∈ db.sourceIdentities, x ∈ db'.sourceIdentities
  inputs : ∀ x ∈ db.inputs, x ∈ db'.inputs

lemma Grows.of_eq (hs : db'.sourcePackages = db.sourcePackages) (hi : db'.inputs = db.inputs) :
    Grows db db' :=
  ⟨fun x hx => by rwa [Db.sourceIdentities, hs], fun x hx => hi ▸ hx⟩

lemma Grows.describes (h : Grows db db') (hk : Describes db b k) : Describes db' b k :=
  ⟨h.sources _ hk.source, h.inputs _ hk.input, hk.architecture, hk.name, hk.version⟩

/-- What a row describes does not change. -/
lemma Grows.describes_iff (h : Grows db db') (hb : ∃ k, Describes db b k) :
    Describes db' b k ↔ Describes db b k := by
  refine ⟨fun hk => ?_, h.describes⟩
  obtain ⟨k₀, hk₀⟩ := hb
  rwa [hk.unique (h.describes hk₀)]

/-- Adding source packages and build inputs keeps the rows and what is seen. -/
lemma Grows.seenKeys (h : Grows db db') (hl : Linked db)
    (hb : db'.binaryPackages = db.binaryPackages) (k : BinaryKey) :
    k ∈ seenKeys db' ↔ k ∈ seenKeys db := by
  simp only [Daemon.seenKeys, Set.mem_ofPred_eq, hb]
  exact exists_congr fun b => and_congr_right fun hmem => and_congr_right fun _ =>
    h.describes_iff (hl.described b hmem)

lemma Grows.linked (h : Grows db db') (hl : Linked db)
    (hb : db'.binaryPackages = db.binaryPackages)
    (hs : ∀ s ∈ db'.sourcePackages.rows,
      s.release ≠ some "PLACEHOLDER" ∧ s.component ≠ some "PLACEHOLDER") : Linked db' := by
  refine ⟨hs, fun b hmem => ?_, hb ▸ hl.unique⟩
  rw [hb] at hmem
  exact (hl.described b hmem).imp fun k => h.describes

end

/-! ### One package of a report -/

section
variable {r : PackageReport} {p : SourcePackageReport} {now : Time} {db db' : Db}

/-- If nothing is called PLACEHOLDER, the unique index tells the same packages apart as their
identities. -/
lemma identity_of_key (hr : isPlain r = true) {s s' : SourcePackage} (hs' : s'.IsFrom r p)
    (hs : s.release ≠ some "PLACEHOLDER" ∧ s.component ≠ some "PLACEHOLDER")
    (hkey : s.uniqueKey = reportedKey r p) : s'.identity = s.identity := by
  have hgetD {a a' : Option String} (ha : a ≠ some "PLACEHOLDER") (ha' : a' ≠ some "PLACEHOLDER")
      (h : a.getD "PLACEHOLDER" = a'.getD "PLACEHOLDER") : a = a' := by
    cases a <;> cases a' <;> simp_all
  simp only [isPlain, Bool.and_eq_true, bne_iff_ne] at hr
  simp only [SourcePackage.uniqueKey, reportedKey, Prod.mk.injEq] at hkey
  obtain ⟨hn, hv, hd, hre, hc⟩ := hkey
  rw [hs'.identity, SourcePackage.identity, hn, hv, hd, hgetD hs.1 hr.1 hre, hgetD hs.2 hr.2 hc]

lemma plain_upsertSource (now : Time) (p : SourcePackageReport) (hr : isPlain r = true) (hl : Linked db) :
    ∀ s ∈ ((newSourcePackage now r p).upsert db).2.sourcePackages.rows,
      s.release ≠ some "PLACEHOLDER" ∧ s.component ≠ some "PLACEHOLDER" := by
  intro s hs
  obtain ⟨-, -, -, hafter⟩ := upsertSource_spec now r p db
  rcases hafter.from_ s hs with hold | hfrom
  · exact hl.plain s hold
  · obtain ⟨-, hrelease, hcomponent⟩ := inOriginOf_iff_columns.mp hfrom.origin
    simpa [hrelease, hcomponent, isPlain] using hr

lemma sourceIdentities_upsertSource (now : Time) (p : SourcePackageReport) (hr : isPlain r = true) (hl : Linked db) :
    ∀ x ∈ db.sourceIdentities, x ∈ ((newSourcePackage now r p).upsert db).2.sourceIdentities := by
  rintro ⟨i, s⟩ hx
  obtain ⟨row, hrow, rfl, rfl⟩ := mem_sourceIdentities.mp hx
  obtain ⟨row', hrow', hid, hmoved, hsame⟩ := upsertSource_row now r p hrow
  refine mem_sourceIdentities.mpr ⟨row', hrow', hid, ?_⟩
  by_cases hkey : row.uniqueKey = reportedKey r p
  · exact identity_of_key hr (hmoved hkey) (hl.plain row hrow) hkey
  · rw [hsame hkey]

/-- The binary package of an artifact of the package. -/
def artifactKey (r : PackageReport) (p : SourcePackageReport) (a : BinaryPackageReport) : BinaryKey :=
  ⟨⟨p.name, p.version, r.distribution, r.release, r.component⟩, p.url, r.architecture, a.name,
    a.version⟩

lemma conflicts_binary_iff {n : NewBinaryPackage} {b : BinaryPackage} :
    n.conflicts b = true ↔ b.columns = (n.row b.id).columns := by
  simp [NewBinaryPackage.conflicts, BinaryPackage.columns, NewBinaryPackage.row, and_assoc]

/-- The row of an artifact is that of its binary package. -/
lemma describes_artifact {input : BuildInput} {a : BinaryPackageReport} {b : BinaryPackage}
    (hs : (input.sourcePackageId, (artifactKey r p a).source) ∈ db.sourceIdentities)
    (hi : (input.id, input.sourcePackageId, reportedGroup r p) ∈ db.inputs)
    (hb : b.columns = ((newBinaryPackage r input a).row b.id).columns) :
    Describes db b (artifactKey r p a) :=
  (describes_congr hb).mpr ⟨hs, hi, rfl, rfl, rfl⟩

/-- The rows after the upsert of an artifact: the url and the flag of the conflicting ones are
written, or there is a new one. -/
lemma mem_upsertBinary {input : BuildInput} {a : BinaryPackageReport} {b : BinaryPackage}
    (hb : b ∈ db.binaryPackages.rows) :
    ∃ b' ∈ ((newBinaryPackage r input a).upsert db).binaryPackages.rows, b'.columns = b.columns ∧
      (b.seenInLastSync = true ∨ b.columns = ((newBinaryPackage r input a).row b.id).columns →
        b'.seenInLastSync = true) := by
  rcases (newBinaryPackage r input a).upsert_cases db with ⟨-, -, -, hrows⟩ | ⟨hnone, hrows⟩ <;>
    rw [hrows]
  · refine ⟨_, List.mem_map.mpr ⟨b, hb, rfl⟩, ?_, ?_⟩
    · split <;> rfl
    · rintro (hseen | hcolumns)
      · split
        · rfl
        · exact hseen
      · rw [if_pos (conflicts_binary_iff.mpr hcolumns)]
        rfl
  · refine ⟨b, List.mem_append_left _ hb, rfl, ?_⟩
    rintro (hseen | hcolumns)
    · exact hseen
    · have hfree := hnone b hb
      rw [conflicts_binary_iff.mpr hcolumns] at hfree
      cases hfree

/-- The upsert of an artifact leaves the seen binary packages seen. -/
lemma seenKeys_subset_upsertBinary {input : BuildInput} {a : BinaryPackageReport}
    (hk : k ∈ seenKeys db) : k ∈ seenKeys ((newBinaryPackage r input a).upsert db) := by
  obtain ⟨b, hb, hseen, hk⟩ := hk
  obtain ⟨b', hb', hcolumns, hseen'⟩ := mem_upsertBinary hb
  exact ⟨b', hb', hseen' (.inl hseen), (describes_congr hcolumns).mpr ⟨hk.1, hk.2, hk.3, hk.4, hk.5⟩⟩

/-- The upsert of an artifact makes its binary package seen. -/
lemma artifactKey_mem_upsertBinary {input : BuildInput} {a : BinaryPackageReport}
    (hs : (input.sourcePackageId, (artifactKey r p a).source) ∈ db.sourceIdentities)
    (hi : (input.id, input.sourcePackageId, reportedGroup r p) ∈ db.inputs) :
    artifactKey r p a ∈ seenKeys ((newBinaryPackage r input a).upsert db) := by
  have hdescribes {b : BinaryPackage}
      (hb : b.columns = ((newBinaryPackage r input a).row b.id).columns) :
      Describes ((newBinaryPackage r input a).upsert db) b (artifactKey r p a) :=
    describes_artifact hs hi hb
  rcases (newBinaryPackage r input a).upsert_cases db with ⟨b₀, hb₀, hc₀, -⟩ | ⟨-, hrows⟩
  · have hcolumns₀ := conflicts_binary_iff.mp hc₀
    obtain ⟨b', hb', hcolumns, hseen⟩ := mem_upsertBinary hb₀
    exact ⟨b', hb', hseen (.inr hcolumns₀), hdescribes (hcolumns.trans hcolumns₀)⟩
  · refine ⟨(newBinaryPackage r input a).row (db.binaryPackages.seq + 1), ?_, rfl, hdescribes rfl⟩
    rw [hrows]
    exact List.mem_append_right _ (List.mem_singleton_self _)

/-- The upsert of an artifact makes its binary package seen, and no other. -/
lemma seenKeys_upsertBinary {input : BuildInput} {a : BinaryPackageReport} (hl : Linked db)
    (hs : (input.sourcePackageId, (artifactKey r p a).source) ∈ db.sourceIdentities)
    (hi : (input.id, input.sourcePackageId, reportedGroup r p) ∈ db.inputs) :
    let db' := (newBinaryPackage r input a).upsert db
    Linked db' ∧ ∀ k, k ∈ seenKeys db' ↔ k ∈ seenKeys db ∨ k = artifactKey r p a := by
  intro db'
  have hgrows : Grows db db' := ⟨fun _ h => h, fun _ h => h⟩
  rcases (newBinaryPackage r input a).upsert_cases db with ⟨b₀, hb₀, hc₀, hrows⟩ | ⟨hnone, hrows⟩
  · -- Only the url and the flag of the conflicting row are written.
    have hcolumns (b : BinaryPackage) : (if (newBinaryPackage r input a).conflicts b then
        { b with artifactUrl := a.url, seenInLastSync := true } else b).columns = b.columns := by
      split <;> rfl
    have hmem {b' : BinaryPackage} : b' ∈ db'.binaryPackages.rows ↔
        ∃ b ∈ db.binaryPackages.rows, (if (newBinaryPackage r input a).conflicts b then
          { b with artifactUrl := a.url, seenInLastSync := true } else b) = b' := by
      change b' ∈ ((newBinaryPackage r input a).upsert db).binaryPackages.rows ↔ _
      rw [hrows]
      exact List.mem_map
    refine ⟨⟨hl.plain, fun b' hb' => ?_, ?_⟩, fun k => ⟨?_, ?_⟩⟩
    · obtain ⟨b, hb, rfl⟩ := hmem.mp hb'
      refine (hl.described b hb).imp fun k hk => ?_
      exact hgrows.describes ((describes_congr (hcolumns b)).mpr hk)
    · have hsame : ((newBinaryPackage r input a).upsert db).binaryPackages.rows.map
          BinaryPackage.columns = db.binaryPackages.rows.map BinaryPackage.columns := by
        rw [hrows]
        exact Table.map_rows_update _ fun _ _ _ => rfl
      exact hsame ▸ hl.unique
    · rintro ⟨b', hb', hseen, hk⟩
      obtain ⟨b, hb, rfl⟩ := hmem.mp hb'
      rw [describes_congr (hcolumns b)] at hk
      by_cases hc : (newBinaryPackage r input a).conflicts b = true
      · exact .inr (hk.unique (describes_artifact hs hi (conflicts_binary_iff.mp hc)))
      · rw [if_neg hc] at hseen
        exact .inl ⟨b, hb, hseen, (hgrows.describes_iff (hl.described b hb)).mp hk⟩
    · rintro (hk | rfl)
      · exact seenKeys_subset_upsertBinary hk
      · exact artifactKey_mem_upsertBinary hs hi
  · have hmem {b' : BinaryPackage} : b' ∈ db'.binaryPackages.rows ↔ b' ∈ db.binaryPackages.rows ∨
        b' = (newBinaryPackage r input a).row (db.binaryPackages.seq + 1) := by
      change b' ∈ ((newBinaryPackage r input a).upsert db).binaryPackages.rows ↔ _
      rw [hrows]
      exact Table.mem_insert _
    refine ⟨⟨hl.plain, fun b' hb' => ?_, ?_⟩, fun k => ⟨?_, ?_⟩⟩
    · rcases hmem.mp hb' with hb | rfl
      · exact (hl.described b' hb).imp fun k => hgrows.describes
      · exact ⟨_, hgrows.describes (describes_artifact hs hi rfl)⟩
    · have hadded : ((newBinaryPackage r input a).upsert db).binaryPackages.rows =
          db.binaryPackages.rows ++
            [(newBinaryPackage r input a).row (db.binaryPackages.seq + 1)] := by
        rw [hrows]
        rfl
      change (((newBinaryPackage r input a).upsert db).binaryPackages.rows.map
        BinaryPackage.columns).Nodup
      rw [hadded, List.map_append, List.nodup_append]
      refine ⟨hl.unique, by simp, ?_⟩
      rintro _ hx _ hx' rfl
      obtain ⟨b, hb, hcol⟩ := List.mem_map.mp hx
      have := hnone b hb
      rw [conflicts_binary_iff.mpr (hcol.trans (List.mem_singleton.mp hx'))] at this
      cases this
    · rintro ⟨b', hb', hseen, hk⟩
      rcases hmem.mp hb' with hb | rfl
      · exact .inl ⟨b', hb, hseen, (hgrows.describes_iff (hl.described b' hb)).mp hk⟩
      · exact .inr (hk.unique (hgrows.describes (describes_artifact hs hi rfl)))
    · rintro (hk | rfl)
      · exact seenKeys_subset_upsertBinary hk
      · exact artifactKey_mem_upsertBinary hs hi

/-- The artifacts of a package. -/
lemma seenKeys_upsertBinaries {input : BuildInput} (as : List BinaryPackageReport) (hl : Linked db)
    (hs : (input.sourcePackageId, (⟨p.name, p.version, r.distribution, r.release, r.component⟩ :
      SourceIdentity)) ∈ db.sourceIdentities)
    (hi : (input.id, input.sourcePackageId, reportedGroup r p) ∈ db.inputs) :
    let db' := as.foldl (fun db a => (newBinaryPackage r input a).upsert db) db
    Linked db' ∧ ∀ k, k ∈ seenKeys db' ↔ k ∈ seenKeys db ∨ ∃ a ∈ as, k = artifactKey r p a := by
  induction as generalizing db with
  | nil => exact ⟨hl, by simp⟩
  | cons a as ih =>
    obtain ⟨hl', hseen⟩ := seenKeys_upsertBinary (a := a) hl hs hi
    obtain ⟨hl'', hseen'⟩ := ih hl' hs hi
    refine ⟨hl'', fun k => ?_⟩
    rw [List.foldl_cons, hseen', hseen, List.exists_mem_cons_iff, or_assoc]

lemma listsArtifact_iff {k : BinaryKey} : k.scope = r.scope ∧ listsArtifact p k = true ↔
    ∃ a ∈ p.artifacts, k = artifactKey r p a := by
  obtain ⟨⟨name, version, distribution, release, component⟩, url, architecture, bname, bversion⟩ := k
  simp only [BinaryKey.scope, SourceIdentity.scope, PackageReport.scope, Scope.mk.injEq,
    listsArtifact, Bool.and_eq_true, beq_iff_eq, List.any_eq_true, artifactKey, BinaryKey.mk.injEq,
    SourceIdentity.mk.injEq]
  constructor
  · rintro ⟨⟨rfl, rfl, rfl, rfl⟩, ⟨⟨rfl, rfl⟩, rfl⟩, a, ha, rfl, rfl⟩
    exact ⟨a, ha, by simp⟩
  · rintro ⟨a, ha, ⟨rfl, rfl, rfl, rfl, rfl⟩, rfl, rfl, rfl, rfl⟩
    exact ⟨by simp, by simp, a, ha, by simp⟩

/-- The import of a package makes its artifacts seen, and nothing else. -/
lemma seenKeys_importRows (now : Time) (first : Option Time) (p : SourcePackageReport)
    (hr : isPlain r = true) (hl : Linked db) :
    let db' := (importRows now first r p db).2
    Linked db' ∧ ∀ k, k ∈ seenKeys db' ↔
      k ∈ seenKeys db ∨ (k.scope = r.scope ∧ listsArtifact p k = true) := by
  obtain ⟨hinputs, hmem, hfrom, -⟩ := upsertSource_spec now r p db
  have hplain := plain_upsertSource now p hr hl
  have hsources := sourceIdentities_upsertSource now p hr hl
  have hbinaries : ((newSourcePackage now r p).upsert db).2.binaryPackages = db.binaryPackages := rfl
  unfold importRows
  generalize (newSourcePackage now r p).upsert db = source at hinputs hmem hfrom hplain hsources hbinaries
  obtain ⟨source, db₁⟩ := source
  dsimp only at hinputs hmem hfrom hplain hsources hbinaries ⊢
  have hgrows : Grows db db₁ := ⟨hsources, fun x hx => by rw [Db.inputs, hinputs]; exact hx⟩
  have hl₁ : Linked db₁ := hgrows.linked hl hbinaries hplain
  obtain ⟨hsrc, hstored, hid, hgroup, hin⟩ := upsertInput_spec first r p source.id db₁
  have hbinaries' := upsertInput_binaries (newBuildInput first r p source.id) db₁
  generalize (newBuildInput first r p source.id).upsert db₁ = input at hsrc hstored hid hgroup hin hbinaries'
  obtain ⟨input, db₂⟩ := input
  dsimp only at hsrc hstored hid hgroup hin hbinaries' ⊢
  have hgrows' : Grows db₁ db₂ := by
    refine ⟨fun x hx => by rw [Db.sourceIdentities, hsrc]; exact hx, fun x hx => ?_⟩
    rcases hin with h | h <;> rw [h]
    · exact hx
    · exact List.mem_append_left _ hx
  have hl₂ : Linked db₂ := hgrows'.linked hl₁ hbinaries' (hsrc ▸ hplain)
  have hsource : (input.sourcePackageId, (⟨p.name, p.version, r.distribution, r.release,
      r.component⟩ : SourceIdentity)) ∈ db₂.sourceIdentities := by
    exact mem_sourceIdentities.mpr ⟨source, hsrc ▸ hmem, hid.symm, hfrom.identity⟩
  obtain ⟨hl', hseen⟩ := seenKeys_upsertBinaries p.artifacts hl₂ hsource
    (mem_inputs.mpr ⟨input, hstored, rfl, rfl, hgroup⟩)
  refine ⟨hl', fun k => ?_⟩
  rw [hseen, hgrows'.seenKeys hl₁ hbinaries', hgrows.seenKeys hl hbinaries, listsArtifact_iff]

/-- Copying rebuilds and enqueueing leave the packages alone. -/
lemma importPackage_rows {c : ScheduleConfig} {T : Ties} {now : Time}
    (hok : importPackage c T now r db p = .ok db') :
    ∃ first, db'.sourcePackages = (importRows now first r p db).2.sourcePackages ∧
      db'.inputs = (importRows now first r p db).2.inputs ∧
      db'.binaryPackages = (importRows now first r p db).2.binaryPackages := by
  obtain ⟨first, -, henq⟩ := importPackage_ok hok
  have hcopy : (importWithHistory now first r p db).2.sourcePackages =
      (importRows now first r p db).2.sourcePackages ∧
      (importWithHistory now first r p db).2.inputs = (importRows now first r p db).2.inputs ∧
      (importWithHistory now first r p db).2.binaryPackages =
        (importRows now first r p db).2.binaryPackages := by
    unfold importWithHistory
    dsimp only
    split
    · exact ⟨copyExistingRebuilds_frame (g := Db.sourcePackages) (fun _ _ => rfl) (fun _ _ => rfl) _ _,
        copyExistingRebuilds_frame (g := Db.inputs) (fun _ _ => rfl) (fun _ _ => rfl) _ _,
        copyExistingRebuilds_frame (g := Db.binaryPackages) (fun _ _ => rfl) (fun _ _ => rfl) _ _⟩
    · exact ⟨rfl, rfl, rfl⟩
  have himp := importWithHistory_imported now first r p db
  obtain ⟨⟨hs, hi⟩, -⟩ := enqueueImported_queue (mem_inputs.mpr ⟨_, himp.stored, rfl, rfl, rfl⟩) henq
  have hb : db'.binaryPackages = (importWithHistory now first r p db).2.binaryPackages := by
    rcases enqueueImported_cases henq with ⟨-, rfl⟩ | ⟨-, -, n, -, ⟨-, rfl⟩ | ⟨-, priority, rfl⟩⟩ <;>
      rfl
  exact ⟨first, hs.trans hcopy.1, hi.trans hcopy.2.1, hb.trans hcopy.2.2⟩

lemma seenKeys_import {c : ScheduleConfig} {T : Ties} (hr : isPlain r = true) (hl : Linked db)
    (hok : importPackage c T now r db p = .ok db') :
    Linked db' ∧ ∀ k, k ∈ seenKeys db' ↔
      k ∈ seenKeys db ∨ (k.scope = r.scope ∧ listsArtifact p k = true) := by
  obtain ⟨first, hs, hi, hb⟩ := importPackage_rows hok
  obtain ⟨hl₁, hseen⟩ := seenKeys_importRows now first p hr hl
  have hgrows : Grows (importRows now first r p db).2 db' := .of_eq hs hi
  refine ⟨hgrows.linked hl₁ hb ?_, fun k => ?_⟩
  · rw [hs]
    exact hl₁.plain
  · rw [hgrows.seenKeys hl₁ hb, hseen]

/-! ### A whole report -/

/-- A binary package is marked if it is of the scope. -/
lemma contains_scoped_iff {b : BinaryPackage} {k : BinaryKey} (hk : Describes db b k) :
    ((scopedBuildInputs r (fun _ => true) db).map (·.id)).contains b.buildInputId = true ↔
      k.scope = r.scope := by
  obtain ⟨s, hs, hsid, hsource⟩ := mem_sourceIdentities.mp hk.source
  obtain ⟨i, hi, hiid, his, hgroup⟩ := mem_inputs.mp hk.input
  have harch : i.architecture = k.architecture := congrArg Group.architecture hgroup
  simp only [List.contains_iff_mem, List.mem_map, scopedBuildInputs, List.mem_filter,
    Bool.and_eq_true, beq_iff_eq, List.any_eq_true, Bool.and_true]
  constructor
  · rintro ⟨i', ⟨hi', harch', s', hs', hsid', horigin⟩, hid⟩
    obtain rfl := Table.eq_of_key hi hi' (hiid.trans hid.symm)
    obtain rfl := Table.eq_of_key hs hs' (hsid.trans (his.symm.trans hsid'.symm))
    rw [BinaryKey.scope, ← harch, harch', ← hsource]
    exact inOriginOf_iff.mp horigin
  · intro hscope
    have harch' : k.architecture = r.architecture := congrArg Scope.architecture hscope
    refine ⟨i, ⟨hi, harch.trans harch', s, hs, hsid.trans his.symm, inOriginOf_iff.mpr ?_⟩, hiid⟩
    rw [hsource, ← harch']
    exact hscope

lemma seenKeys_mark (hl : Linked db) : Linked (markScopedPackagesUnseen r db) ∧
    ∀ k, k ∈ seenKeys (markScopedPackagesUnseen r db) ↔ k ∈ seenKeys db ∧ k.scope ≠ r.scope := by
  let affected := scopedBuildInputs r (fun _ => true) db
  have hgrows : Grows db (markScopedPackagesUnseen r db) := by
    refine ⟨fun x hx => ?_, fun x hx => hx⟩
    rwa [show (markScopedPackagesUnseen r db).sourceIdentities = db.sourceIdentities from
      Table.map_rows_update _ fun _ _ _ => rfl]
  have hcolumns (b : BinaryPackage) : (if (affected.map (·.id)).contains b.buildInputId then
      { b with seenInLastSync := false } else b).columns = b.columns := by
    split <;> rfl
  have hmem {b' : BinaryPackage} : b' ∈ (markScopedPackagesUnseen r db).binaryPackages.rows ↔
      ∃ b ∈ db.binaryPackages.rows, (if (affected.map (·.id)).contains b.buildInputId then
        { b with seenInLastSync := false } else b) = b' := List.mem_map
  refine ⟨⟨fun s hs => ?_, fun b' hb' => ?_, ?_⟩, fun k => ⟨?_, ?_⟩⟩
  · obtain ⟨s₀, hs₀, rfl⟩ := mem_mark.mp hs
    split <;> exact hl.plain s₀ hs₀
  · obtain ⟨b, hb, rfl⟩ := hmem.mp hb'
    refine (hl.described b hb).imp fun k hk => ?_
    exact hgrows.describes ((describes_congr (hcolumns b)).mpr hk)
  · have hsame : (markScopedPackagesUnseen r db).binaryPackages.rows.map BinaryPackage.columns =
        db.binaryPackages.rows.map BinaryPackage.columns := Table.map_rows_update _ fun _ _ _ => rfl
    exact hsame ▸ hl.unique
  · rintro ⟨b', hb', hseen, hk⟩
    obtain ⟨b, hb, rfl⟩ := hmem.mp hb'
    rw [describes_congr (hcolumns b), hgrows.describes_iff (hl.described b hb)] at hk
    split at hseen
    · cases hseen
    · rename_i hout
      exact ⟨⟨b, hb, hseen, hk⟩, fun h => hout ((contains_scoped_iff hk).mpr h)⟩
  · rintro ⟨⟨b, hb, hseen, hk⟩, hne⟩
    refine ⟨_, hmem.mpr ⟨b, hb, rfl⟩, ?_, hgrows.describes ((describes_congr (hcolumns b)).mpr hk)⟩
    rw [if_neg fun h => hne ((contains_scoped_iff hk).mp h)]
    exact hseen

/-- After a report, the seen binary packages of its scope are those it lists. -/
lemma seenKeys_commit {c : ScheduleConfig} {T : Ties} (hr : isPlain r = true) (hl : Linked db)
    (hok : commitPackageReport c T now r db = .ok db') :
    Linked db' ∧ ∀ k, k ∈ seenKeys db' ↔
      if r.scope = k.scope then listsBinary r k = true else k ∈ seenKeys db := by
  obtain ⟨hlm, hmark⟩ := seenKeys_mark (r := r) hl
  obtain ⟨db₁, hf, rfl⟩ := commitPackageReport_ok hok
  let I : List SourcePackageReport → Db → Prop := fun ps d => Linked d ∧ ∀ k, k ∈ seenKeys d ↔
    (k ∈ seenKeys db ∧ k.scope ≠ r.scope) ∨ (k.scope = r.scope ∧ ∃ p ∈ ps, listsArtifact p k = true)
  have hI : I r.packages db₁ := by
    refine foldlM_ok hf ⟨hlm, fun k => by rw [hmark]; simp⟩ fun ps p d d' _ hd hp => ?_
    obtain ⟨hl', hseen⟩ := seenKeys_import hr hd.1 hp
    refine ⟨hl', fun k => ?_⟩
    rw [hseen, hd.2, or_assoc, ← and_or_left]
    simp only [List.mem_append, List.mem_singleton, or_and_right, exists_or, exists_eq_left]
  have hgrows : Grows db₁ (dropUnseenScopedJobs r db₁) := .of_eq rfl rfl
  refine ⟨hgrows.linked hI.1 rfl hI.1.plain, fun k => ?_⟩
  rw [hgrows.seenKeys hI.1 rfl, hI.2]
  by_cases hscope : k.scope = r.scope
  · simp [hscope, listsBinary]
  · simp [hscope, Ne.symm hscope]

end

/-! ### Sequences of reports -/

/-- The most recent report of its scope lists the binary package. -/
def listedNow (log : List PackageReport) (k : BinaryKey) : Bool :=
  current PackageReport.scope listsBinary BinaryKey.scope log k

/-- What holds of the binary packages after every sequence of reports. -/
structure SeenBinaries (x : Syncs) : Prop where
  unique : Unique x.db
  linked : Linked x.db
  seen : ∀ k, k ∈ seenKeys x.db ↔ listedNow x.log k = true

lemma SeenBinaries.submit {env : Env} {x : Syncs} (h : SeenBinaries x) {c : Submission}
    (hc : isPlain c.1.2 = true) : SeenBinaries (x.submit env c) := by
  rcases submit_cases env x c with ⟨-, heq⟩ | ⟨-, db', heq, hok⟩ <;> rw [heq]
  · exact h
  · obtain ⟨hl, hseen⟩ := seenKeys_commit hc h.linked hok
    refine ⟨unique_commit h.unique hok, hl, fun k => ?_⟩
    rw [hseen, listedNow, current_cons]
    split
    · rfl
    · exact h.seen k

/-- The seen binary packages are those of which the most recent report of the scope lists the
source package with this url and this artifact. -/
def BinaryFlags (x : Syncs) : Prop :=
  ∀ b ∈ x.db.binaryPackages.rows,
    ∃ s ∈ x.db.sourcePackages.rows, s.id = b.sourcePackageId ∧
    ∃ i ∈ x.db.buildInputs.rows, i.id = b.buildInputId ∧ i.sourcePackageId = s.id ∧
      (b.seenInLastSync = true ↔ ∃ r, latest PackageReport.scope x.log
          ⟨s.distribution, s.release, s.component, i.architecture⟩ = some r ∧
        ∃ p ∈ r.packages, p.name = s.name ∧ p.version = s.version ∧ p.url = i.url ∧
          ∃ a ∈ p.artifacts, a.name = b.name ∧ a.version = b.version)

/-- **The seen flag of the binary packages** is right after every sequence of package reports in
which no release or component is called PLACEHOLDER. -/
theorem seenBinaries (env : Env) (x : Syncs)
    (h : Runs (Syncs.submit env) (fun _ c => isPlain c.1.2 = true) (Syncs.start env) x) :
    BinaryFlags x := by
  have hinv : SeenBinaries x := by
    refine h.inv (I := SeenBinaries) ⟨⟨List.nodup_nil, List.nodup_nil⟩, ⟨?_, ?_, List.nodup_nil⟩, ?_⟩
      fun y c _ hy hc => hy.submit hc
    · simp [Syncs.start, Env.start, Db.empty]
    · simp [Syncs.start, Env.start, Db.empty]
    · simp [seenKeys, Syncs.start, Env.start, Db.empty, listedNow]
  intro b hb
  obtain ⟨k, hk⟩ := hinv.linked.described b hb
  obtain ⟨s, hs, hsid, hsource⟩ := mem_sourceIdentities.mp hk.source
  obtain ⟨i, hi, hiid, his, hgroup⟩ := mem_inputs.mp hk.input
  refine ⟨s, hs, hsid, i, hi, hiid, his.trans hsid.symm, ?_⟩
  have hurl : i.url = k.url := congrArg Group.url hgroup
  have harch : i.architecture = k.architecture := congrArg Group.architecture hgroup
  have hflag : b.seenInLastSync = true ↔ k ∈ seenKeys x.db := by
    refine ⟨fun hseen => ⟨b, hb, hseen, hk⟩, ?_⟩
    rintro ⟨b', hb', hseen, hk'⟩
    rwa [hinv.linked.row_unique hinv.unique hb hb' hk hk']
  rw [hflag, hinv.seen, listedNow, current_iff, harch, hurl, hk.name, hk.version]
  have hscope : k.scope = ⟨s.distribution, s.release, s.component, k.architecture⟩ := by
    rw [BinaryKey.scope, ← hsource]
    rfl
  have hname : k.source.name = s.name := by rw [← hsource]; rfl
  have hversion : k.source.version = s.version := by rw [← hsource]; rfl
  rw [hscope]
  simp only [listsBinary, listsArtifact, List.any_eq_true, Bool.and_eq_true, beq_iff_eq, hname,
    hversion, and_assoc]

/-- A package with an artifact is listed on two architectures, and then on one. -/
theorem seenBinaries_droppedArchitecture :
    let hello : SourcePackageReport :=
      ⟨"hello", "1.0", "https://hello", [⟨"hello", "1.0", "all", "https://hello.deb"⟩], none, none, none⟩
    BinaryFlags ([archReport "amd64" [hello], archReport "arm64" [hello], archReport "amd64" []].foldl
      (Syncs.submit (openDaemon none)) (.start (openDaemon none))) :=
  seenBinaries (openDaemon none) _ (Runs.of_allowed (by decide +kernel))

end Rebuilderd.Daemon
