import Rebuilderd.Migrations.Redesign

/-!
What the rebuilds of a build input say about the pkgbase it was made from.

A rebuild gathers the builds of all pkgbases that became the same source package, whatever their
architectures, and so do its artifacts. Its status is the least of theirs as a text.
-/

namespace Rebuilderd.Migrations

open Rebuilderd.Lib Rebuilderd.Common
open Rebuilderd.Daemon (BuildLog DiffoscopeLog AttestationLog)

/-- The columns that the pkgbases of a source package have in common. -/
def Pkgbase.group (p : Pkgbase) : String × String × String × String :=
  (p.name, p.version, p.distro, p.suite)

/-- The package has a build. -/
def Built (o : OldDb) (k : Package) : Prop := ∃ d ∈ o.builds.rows, k.buildId = some d.id

/-- What a rebuild of a build input made from `p` is to say about `p`. -/
structure Preserved (o : OldDb) (d : NewDb) (p : Pkgbase) (r : Rebuild) : Prop where
  artifacts : ∀ a ∈ d.rebuildArtifacts, a.2.rebuildId = r.id →
    a.1.package.pkgbaseId = p.id ∧ a.1.package.architecture = p.architecture
  log : ∃ k ∈ o.packages.rows, k.pkgbaseId = p.id ∧ ∃ b ∈ o.builds.rows, k.buildId = some b.id ∧
    ∃ l ∈ d.buildLogs, l.2.id = r.buildLogId ∧ l.2.buildLog = b.log
  status : r.status = some "GOOD" → ∀ k ∈ o.packages.rows, k.pkgbaseId = p.id → Built o k →
    k.status = "GOOD"

/-- Only `p` itself has built packages among the pkgbases of its source package, and if one of them
is GOOD, they all are or one has a status that comes before GOOD. -/
structure Separate (o : OldDb) (p : Pkgbase) : Prop where
  own : ∀ q ∈ o.pkgbases.rows, q.group = p.group → ∀ k ∈ o.packages.rows, k.pkgbaseId = q.id →
    Built o k → q = p ∧ k.architecture = p.architecture
  good : ∀ k ∈ o.packages.rows, k.pkgbaseId = p.id → Built o k → k.status = "GOOD" →
    (∀ k' ∈ o.packages.rows, k'.pkgbaseId = p.id → Built o k' → k'.status = "GOOD") ∨
      ∃ k' ∈ o.packages.rows, k'.pkgbaseId = p.id ∧ Built o k' ∧ k'.status < "GOOD"

/-! ### Source packages -/

/-- The source package a pkgbase is inserted as. -/
def Pkgbase.source (p : Pkgbase) : SourcePackage :=
  ⟨p.id, p.name, p.version, p.distro, none, some p.suite⟩

def SourcePackage.columns (s : SourcePackage) : String × String × String × Option String :=
  (s.name, s.version, s.distribution, s.component)

lemma columns_source_inj {p q : Pkgbase} :
    p.source.columns = q.source.columns ↔ p.group = q.group := by
  simp [SourcePackage.columns, Pkgbase.source, Pkgbase.group]

/-- One source package for each group of the pkgbases `ps`, with the id of one of them. -/
structure SourcesOf (ps : List Pkgbase) (ss : List SourcePackage) : Prop where
  of : ∀ s ∈ ss, ∃ p ∈ ps, p.source = s
  has : ∀ p ∈ ps, ∃ s ∈ ss, s.columns = p.source.columns
  unique : ∀ s ∈ ss, ∀ s' ∈ ss, s.columns = s'.columns → s = s'

section
variable {S : Scan} {o : OldDb} {p q : Pkgbase} {ps : List Pkgbase} {ss : List SourcePackage}

lemma SourcesOf.insertSource (h : SourcesOf ps ss) (p : Pkgbase) :
    SourcesOf (ps ++ [p]) (insertSource ss p) := by
  have hof (s : SourcePackage) (hs : s ∈ ss) : ∃ q ∈ ps ++ [p], q.source = s := by
    obtain ⟨q, hq, hqs⟩ := h.of s hs
    exact ⟨q, List.mem_append_left _ hq, hqs⟩
  unfold Migrations.insertSource
  split
  · rename_i hsome
    obtain ⟨s, hs, hsp⟩ := List.any_eq_true.mp hsome
    simp only [Bool.and_eq_true, beq_iff_eq] at hsp
    obtain ⟨⟨⟨⟨hname, hversion⟩, hdistro⟩, -⟩, hsuite⟩ := hsp
    refine ⟨hof, fun q hq => ?_, h.unique⟩
    rcases List.mem_append.mp hq with hq | hq
    · exact h.has q hq
    · rw [List.mem_singleton.mp hq]
      exact ⟨s, hs, by rw [SourcePackage.columns, hname, hversion, hdistro, hsuite]; rfl⟩
  · rename_i hnone
    -- No row conflicts, so no row has the columns of the new one.
    have hnew (s : SourcePackage) (hs : s ∈ ss) : s.columns ≠ p.source.columns := by
      intro hsp
      obtain ⟨q, -, rfl⟩ := h.of s hs
      simp only [SourcePackage.columns, Pkgbase.source, Prod.mk.injEq] at hsp
      obtain ⟨hname, hversion, hdistro, hsuite⟩ := hsp
      refine hnone (List.any_eq_true.mpr ⟨q.source, hs, ?_⟩)
      simp [Pkgbase.source, hname, hversion, hdistro, hsuite]
    refine ⟨fun s hs => ?_, fun q hq => ?_, fun s hs s' hs' hcolumns => ?_⟩
    · rcases List.mem_append.mp hs with hs | hs
      · exact hof s hs
      · exact ⟨p, by simp, (List.mem_singleton.mp hs).symm⟩
    · rcases List.mem_append.mp hq with hq | hq
      · obtain ⟨s, hs, hsq⟩ := h.has q hq
        exact ⟨s, List.mem_append_left _ hs, hsq⟩
      · exact ⟨p.source, List.mem_append_right _ (List.mem_singleton.mpr rfl),
          by rw [List.mem_singleton.mp hq]⟩
    · rcases List.mem_append.mp hs with hs | hs <;> rcases List.mem_append.mp hs' with hs' | hs'
      · exact h.unique s hs s' hs' hcolumns
      · rw [List.mem_singleton.mp hs'] at hcolumns
        exact absurd hcolumns (hnew s hs)
      · rw [List.mem_singleton.mp hs] at hcolumns
        exact absurd hcolumns.symm (hnew s' hs')
      · rw [List.mem_singleton.mp hs, List.mem_singleton.mp hs']

lemma sourcesOf (o : OldDb) : SourcesOf o.pkgbases.rows (sourcePackages o) := by
  unfold sourcePackages
  induction o.pkgbases.rows using List.reverseRecOn with
  | nil => exact ⟨by simp, by simp, by simp⟩
  | append_singleton ps p ih =>
    rw [List.foldl_append]
    exact ih.insertSource p

/-! ### The lookup table -/

lemma mem_lookup {t : ℕ × ℕ} : t ∈ lookup o ↔ ∃ p ∈ o.pkgbases.rows, ∃ s ∈ sourcePackages o,
    s.columns = p.source.columns ∧ (p.id, s.id) = t := by
  simp only [lookup, List.mem_flatMap, List.mem_ite_nil_right, List.mem_singleton, Bool.and_eq_true,
    beq_iff_eq, SourcePackage.columns, Pkgbase.source, Prod.mk.injEq, and_assoc, eq_comm (a := t)]

lemma exists_lookup (hp : p ∈ o.pkgbases.rows) : ∃ i, (p.id, i) ∈ lookup o := by
  obtain ⟨s, hs, hsp⟩ := (sourcesOf o).has p hp
  exact ⟨s.id, mem_lookup.mpr ⟨p, hp, s, hs, hsp, rfl⟩⟩

/-- Two pkgbases have the same source package exactly if they are of one group. -/
lemma lookup_iff {i : ℕ} (hp : p ∈ o.pkgbases.rows) (h : (p.id, i) ∈ lookup o) {j : ℕ} :
    (j, i) ∈ lookup o ↔ ∃ q ∈ o.pkgbases.rows, q.group = p.group ∧ q.id = j := by
  obtain ⟨p', hp', s, hs, hsp, heq⟩ := mem_lookup.mp h
  obtain ⟨hid, rfl⟩ := Prod.mk.inj heq
  obtain rfl := Table.eq_of_key hp' hp hid
  constructor
  · intro hj
    obtain ⟨q, hq, s', hs', hsq, heq⟩ := mem_lookup.mp hj
    obtain ⟨rfl, hss⟩ := Prod.mk.inj heq
    obtain ⟨u, hu, rfl⟩ := (sourcesOf o).of s hs
    obtain ⟨u', hu', rfl⟩ := (sourcesOf o).of s' hs'
    obtain rfl := Table.eq_of_key hu' hu hss
    exact ⟨q, hq, columns_source_inj.mp (hsq.symm.trans hsp), rfl⟩
  · rintro ⟨q, hq, hgroup, rfl⟩
    exact mem_lookup.mpr ⟨q, hq, s, hs, hsp.trans (columns_source_inj.mpr hgroup.symm), rfl⟩

lemma mem_inputRows {i : ℕ} :
    (p, i) ∈ inputRows o ↔ p ∈ o.pkgbases.rows ∧ (p.id, i) ∈ lookup o := by
  simp only [inputRows, List.mem_flatMap, List.mem_ite_nil_right, List.mem_singleton, beq_iff_eq,
    Prod.mk.injEq]
  constructor
  · rintro ⟨p', hp, t, ht, hid, rfl, rfl⟩
    refine ⟨hp, ?_⟩
    rw [hid]
    exact ht
  · rintro ⟨hp, hi⟩
    exact ⟨p, hp, (p.id, i), hi, rfl, rfl, rfl⟩

lemma mem_buildInputs {i : ℕ} {b : BuildInput} (h : ((p, i), b) ∈ buildInputs o) :
    p ∈ o.pkgbases.rows ∧ (p.id, i) ∈ lookup o ∧ b.sourcePackageId = i := by
  obtain ⟨n, rfl⟩ := inserted_eq h
  obtain ⟨hp, hi⟩ := mem_inputRows.mp (of_inserted h)
  exact ⟨hp, hi, rfl⟩

lemma exists_buildInput (hp : p ∈ o.pkgbases.rows) : ∃ i b, ((p, i), b) ∈ buildInputs o := by
  obtain ⟨i, hi⟩ := exists_lookup hp
  obtain ⟨b, hb⟩ := exists_inserted (mem_inputRows.mpr ⟨hp, hi⟩)
  exact ⟨i, b, hb⟩

/-- The id of a build input names it. -/
lemma buildInputs_inj {x y : Pkgbase × ℕ} {b b' : BuildInput} (h : (x, b) ∈ buildInputs o)
    (h' : (y, b') ∈ buildInputs o) (hid : b.id = b'.id) : x = y ∧ b = b' :=
  inserted_inj (fun _ _ => rfl) h h' hid

/-! ### Rebuilds -/

/-- The rows of a build input's group are built packages of the pkgbases with its source package. -/
lemma mem_builtRows {i : ℕ} {b : BuildInput} (hb : ((p, i), b) ∈ buildInputs o) {x : BuiltRow} :
    x ∈ builtRows S o b ↔ x.package ∈ o.packages.rows ∧ (x.package.pkgbaseId, i) ∈ lookup o ∧
      x.build ∈ o.builds.rows ∧ x.package.buildId = some x.build.id ∧
        ∃ l ∈ buildLogs S o, l.2 = x.log ∧ l.2.buildLog = x.build.log := by
  obtain ⟨hp, hi, rfl⟩ := mem_buildInputs hb
  simp only [builtRows, List.mem_flatMap, List.mem_ite_nil_right, beq_iff_eq, List.any_eq_true,
    Bool.and_eq_true]
  constructor
  · rintro ⟨s, -, hs, k, hk, ⟨t, ht, htk, hts⟩, d, hjoin, l, hl, hlog, hx⟩
    rcases mem_leftJoin.mp hjoin with ⟨d, hd, hon, rfl⟩ | ⟨-, rfl⟩
    · obtain rfl : x = ⟨k, d, l.2⟩ := by simpa using hx
      refine ⟨hk, ?_, hd, by simpa using hon, l, hl, rfl, hlog⟩
      rw [← htk, hs, ← hts]
      exact ht
    · exact absurd hx List.not_mem_nil
  · rintro ⟨hk, ht, hd, hid, l, hl, hlog, hcontent⟩
    obtain ⟨q, -, s, hs, -, heq⟩ := mem_lookup.mp ht
    obtain ⟨-, hsid⟩ := Prod.mk.inj heq
    refine ⟨s, hs, hsid.symm, x.package, hk, ⟨_, ht, rfl, hsid.symm⟩, some x.build,
      mem_leftJoin.mpr (.inl ⟨x.build, hd, by simpa using hid, rfl⟩), l, hl, hcontent, ?_⟩
    rw [hlog]
    exact List.mem_singleton.mpr rfl

/-- Every build has a log. -/
lemma exists_log {d : Build} (hd : d ∈ o.builds.rows) :
    ∃ l ∈ buildLogs S o, l.2.buildLog = d.log := by
  obtain ⟨l, hl⟩ : ∃ l, (d, l) ∈ buildLogs S o := exists_inserted (Scan.mem_arrange.mpr hd)
  obtain ⟨n, rfl⟩ := inserted_eq hl
  exact ⟨_, hl, rfl⟩

lemma exists_builtRow {i : ℕ} {b : BuildInput} (hb : ((p, i), b) ∈ buildInputs o) {k : Package}
    (hk : k ∈ o.packages.rows) (hi : (k.pkgbaseId, i) ∈ lookup o) (hbuilt : Built o k) :
    ∃ x ∈ builtRows S o b, x.package = k := by
  obtain ⟨d, hd, hid⟩ := hbuilt
  obtain ⟨l, hl, hlog⟩ := exists_log (S := S) hd
  exact ⟨⟨k, d, l.2⟩, (mem_builtRows hb).mpr ⟨hk, hi, hd, hid, l, hl, rfl, hlog⟩, rfl⟩

lemma status_eq_some {rows : List BuiltRow} {m : String} : Group.status rows = some m ↔
    (∃ x ∈ rows, x.package.status = m) ∧ ∀ x ∈ rows, m ≤ x.package.status := by
  rw [Group.status, List.min?_eq_some_iff, List.mem_map, List.forall_mem_map]

/-- A group that is not empty has a least status, and so a row to read its log from. -/
lemma exists_aggregated {rows : List BuiltRow} (h : rows ≠ []) :
    ∃ x ∈ rows, x ∈ Group.aggregated rows := by
  obtain ⟨m, hm⟩ : ∃ m, Group.status rows = some m :=
    Option.isSome_iff_exists.mp (by simpa [Group.status, List.isSome_min?_iff] using h)
  obtain ⟨x, hx, hstatus⟩ := (status_eq_some.mp hm).1
  exact ⟨x, hx, List.mem_filter.mpr ⟨hx, by simp [hstatus, hm]⟩⟩

/-- A rebuild is made of the group of its build input. -/
lemma mem_rebuilds {i : ℕ} {b : BuildInput} (hb : ((p, i), b) ∈ buildInputs o) {g : Group}
    {r : Rebuild} (hr : (g, r) ∈ rebuilds S o) (hid : r.buildInputId = b.id) :
    g.rows = builtRows S o b ∧ ∃ x ∈ builtRows S o b, r.buildLogId = x.log.id ∧
      r.status = Group.status (builtRows S o b) := by
  have hg := Scan.mem_arrange.mp (of_inserted hr)
  obtain ⟨n, rfl⟩ := inserted_eq hr
  obtain ⟨⟨y, b'⟩, hb', hpick⟩ := List.mem_flatMap.mp hg
  obtain ⟨x, hx, rfl⟩ := Option.map_eq_some_iff.mp (Option.mem_toList.mp hpick)
  obtain ⟨-, rfl⟩ := buildInputs_inj hb' hb hid
  exact ⟨rfl, x, (List.mem_filter.mp (Scan.mem_of_pick hx)).1, rfl, rfl⟩

lemma exists_rebuild {i : ℕ} {b : BuildInput} (hb : ((p, i), b) ∈ buildInputs o)
    (h : builtRows S o b ≠ []) : ∃ r ∈ rebuilds S o, r.2.buildInputId = b.id := by
  obtain ⟨x, -, hx⟩ := exists_aggregated h
  obtain ⟨x, hpick⟩ := Scan.exists_pick (S := S) hx
  obtain ⟨r, hr⟩ : ∃ r, (⟨b, builtRows S o b, x.log⟩, r) ∈ rebuilds S o := by
    refine exists_inserted (Scan.mem_arrange.mpr (List.mem_flatMap.mpr ⟨_, hb, ?_⟩))
    simp [hpick]
  obtain ⟨n, hn⟩ := inserted_eq hr
  exact ⟨_, hr, hn ▸ rfl⟩

/-! ### Artifacts -/

lemma leftJoin_ne_nil {β : Type} (l : List β) (on : β → Bool) : ∃ y, y ∈ leftJoin l on := by
  by_cases h : ∃ y ∈ l, on y = true
  · obtain ⟨y, hy, hon⟩ := h
    exact ⟨some y, mem_leftJoin.mpr (.inl ⟨y, hy, hon, rfl⟩)⟩
  · refine ⟨none, mem_leftJoin.mpr (.inr ⟨fun y hy => ?_, rfl⟩)⟩
    simpa using fun hon => h ⟨y, hy, hon⟩

/-- The artifacts of a rebuild are the built packages of the pkgbases with its source package. -/
lemma mem_artifacts {i : ℕ} {b : BuildInput} (hb : ((p, i), b) ∈ buildInputs o) {g : Group}
    {r : Rebuild} (hr : (g, r) ∈ rebuilds S o) (hid : r.buildInputId = b.id) {k : Package} :
    (∃ a ∈ rebuildArtifacts S o, a.2.rebuildId = r.id ∧ a.1.package = k) ↔
      k ∈ o.packages.rows ∧ (k.pkgbaseId, i) ∈ lookup o ∧ Built o k := by
  constructor
  · rintro ⟨⟨x, a⟩, ha, hrebuild, rfl⟩
    obtain ⟨n, rfl⟩ := inserted_eq ha
    have hx := Scan.mem_arrange.mp (of_inserted ha)
    simp only [artifactRows, List.mem_flatMap, List.mem_ite_nil_right, List.mem_map, beq_iff_eq,
      Bool.and_eq_true] at hx
    obtain ⟨k, hk, t, ht, ⟨y, b'⟩, hb', ⟨hkt, hbt⟩, ⟨g', r'⟩, hr', d, hd, ⟨hrb, hkd⟩, _, _, _, _,
      rfl⟩ := hx
    obtain ⟨-, rfl⟩ := inserted_inj (fun _ _ => rfl) hr' hr hrebuild
    obtain ⟨hy, rfl⟩ := buildInputs_inj hb' hb (hrb.symm.trans hid)
    obtain ⟨-, -, rfl⟩ := mem_buildInputs hb
    refine ⟨hk, ?_, d, hd, hkd⟩
    rw [hkt, hbt]
    exact ht
  · rintro ⟨hk, hi, d, hd, hkd⟩
    obtain ⟨-, -, hbi⟩ := mem_buildInputs hb
    obtain ⟨y, hy⟩ := leftJoin_ne_nil ((diffoscopeLogs S o).map (·.2)) fun l =>
      d.diffoscope == some l.diffoscopeLog
    obtain ⟨z, hz⟩ := leftJoin_ne_nil ((attestationLogs S o).map (·.2)) fun l =>
      d.attestation == some l.attestationLog
    obtain ⟨a, ha⟩ : ∃ a, (⟨k, r, y, z⟩, a) ∈ rebuildArtifacts S o := by
      refine exists_inserted (Scan.mem_arrange.mpr ?_)
      simp only [artifactRows, List.mem_flatMap, List.mem_ite_nil_right, List.mem_map, beq_iff_eq,
        Bool.and_eq_true]
      exact ⟨k, hk, _, hi, _, hb, ⟨rfl, hbi⟩, _, hr, d, hd, ⟨hid, hkd⟩, y, hy, z, hz, rfl⟩
    obtain ⟨n, hn⟩ := inserted_eq ha
    exact ⟨_, ha, hn ▸ rfl, rfl⟩

/-! ### Rebuilds and pkgbases -/

/-- If all built packages of the source package are those of `p`, its rebuilds say what they do. -/
lemma Separate.preserved (h : Separate o p) {d : NewDb} (hd : redesign S o = some d) {i : ℕ}
    {b : BuildInput} (hb : ((p, i), b) ∈ buildInputs o) {g : Group} {r : Rebuild}
    (hr : (g, r) ∈ rebuilds S o) (hid : r.buildInputId = b.id) : Preserved o d p r := by
  obtain rfl := (Option.ite_some_none_eq_some.mp hd).2
  obtain ⟨hp, hi, -⟩ := mem_buildInputs hb
  have hown (k : Package) (hk : k ∈ o.packages.rows) (hki : (k.pkgbaseId, i) ∈ lookup o)
      (hbuilt : Built o k) : k.pkgbaseId = p.id ∧ k.architecture = p.architecture := by
    obtain ⟨q, hq, hgroup, hqk⟩ := (lookup_iff hp hi).mp hki
    obtain ⟨rfl, harch⟩ := h.own q hq hgroup k hk hqk.symm hbuilt
    exact ⟨hqk.symm, harch⟩
  have hrow (x : BuiltRow) (hx : x ∈ builtRows S o b) : x.package ∈ o.packages.rows ∧
      x.package.pkgbaseId = p.id ∧ Built o x.package := by
    obtain ⟨hk, hki, hbuild, hbid, -⟩ := (mem_builtRows hb).mp hx
    exact ⟨hk, (hown _ hk hki ⟨_, hbuild, hbid⟩).1, _, hbuild, hbid⟩
  obtain ⟨-, x, hx, hlog, hstatus⟩ := mem_rebuilds hb hr hid
  refine ⟨fun a ha har => ?_, ?_, fun hgood k hk hkp hbuilt => ?_⟩
  · obtain ⟨hk, hki, hbuilt⟩ := (mem_artifacts hb hr hid).mp ⟨a, ha, har, rfl⟩
    exact hown _ hk hki hbuilt
  · obtain ⟨hk, hki, hbuild, hbid, l, hl, hlx, hcontent⟩ := (mem_builtRows hb).mp hx
    exact ⟨_, hk, (hrow x hx).2.1, _, hbuild, hbid, l, hl, by rw [hlx, hlog], hcontent⟩
  · -- The least status is GOOD: one is, and none comes before it.
    obtain ⟨⟨y, hy, hgoody⟩, hleast⟩ := status_eq_some.mp (hstatus.symm.trans hgood)
    obtain ⟨hky, hyp, hbuilty⟩ := hrow y hy
    rcases h.good _ hky hyp hbuilty hgoody with hall | ⟨k', hk', hkp', hbuilt', hlt⟩
    · exact hall k hk hkp hbuilt
    · obtain ⟨z, hz, rfl⟩ := exists_builtRow (S := S) hb hk' (hkp' ▸ hi) hbuilt'
      exact absurd hlt (not_lt.mpr (hleast z hz))

/-- Rebuilds that say what `p` does were made of the packages of `p` alone. -/
lemma separate_of_preserved (hp : p ∈ o.pkgbases.rows) {d : NewDb} (hd : redesign S o = some d)
    {i : ℕ} {b : BuildInput} (hb : ((p, i), b) ∈ buildInputs o)
    (h : ∀ r ∈ rebuilds S o, r.2.buildInputId = b.id → Preserved o d p r.2) : Separate o p := by
  obtain rfl := (Option.ite_some_none_eq_some.mp hd).2
  obtain ⟨-, hi, -⟩ := mem_buildInputs hb
  have hrebuild (k : Package) (hk : k ∈ o.packages.rows) (hki : (k.pkgbaseId, i) ∈ lookup o)
      (hbuilt : Built o k) : ∃ r ∈ rebuilds S o, r.2.buildInputId = b.id := by
    obtain ⟨x, hx, -⟩ := exists_builtRow (S := S) hb hk hki hbuilt
    exact exists_rebuild hb (List.ne_nil_of_mem hx)
  have hown (k : Package) (hk : k ∈ o.packages.rows) (hki : (k.pkgbaseId, i) ∈ lookup o)
      (hbuilt : Built o k) : k.pkgbaseId = p.id ∧ k.architecture = p.architecture := by
    obtain ⟨⟨g, r⟩, hr, hid⟩ := hrebuild k hk hki hbuilt
    obtain ⟨a, ha, har, rfl⟩ := (mem_artifacts hb hr hid).mpr ⟨hk, hki, hbuilt⟩
    exact (h _ hr hid).artifacts a ha har
  refine ⟨fun q hq hgroup k hk hkq hbuilt => ?_, fun k hk hkp hbuilt hgood => ?_⟩
  · obtain ⟨hkp, harch⟩ := hown k hk ((lookup_iff hp hi).mpr ⟨q, hq, hgroup, hkq.symm⟩) hbuilt
    exact ⟨Table.eq_of_key hq hp (hkq.symm.trans hkp), harch⟩
  · by_cases hless : ∃ k' ∈ o.packages.rows, k'.pkgbaseId = p.id ∧ Built o k' ∧ k'.status < "GOOD"
    · exact .inr hless
    · -- Nothing comes before GOOD, so that is the status of the rebuild.
      obtain ⟨⟨g, r⟩, hr, hid⟩ := hrebuild k hk (hkp ▸ hi) hbuilt
      obtain ⟨-, -, -, -, hstatus⟩ := mem_rebuilds hb hr hid
      refine .inl ((h _ hr hid).status (hstatus.trans (status_eq_some.mpr ⟨?_, fun x hx => ?_⟩)))
      · obtain ⟨x, hx, hxk⟩ := exists_builtRow (S := S) hb hk (hkp ▸ hi) hbuilt
        exact ⟨x, hx, hxk ▸ hgood⟩
      · obtain ⟨hkx, hki, hbuild, hbid, -⟩ := (mem_builtRows hb).mp hx
        have hbuiltx : Built o x.package := ⟨_, hbuild, hbid⟩
        exact not_lt.mp fun hlt => hless ⟨_, hkx, (hown _ hkx hki hbuiltx).1, hbuiltx, hlt⟩

end

/-- **The rebuilds of a build input are those of its pkgbase exactly if only that one has built
packages, all of its architecture, among the pkgbases of its source package, and if a text before
GOOD is among its statuses where GOOD and another one are.** -/
theorem redesign_preserves_iff (S : Scan) (o : OldDb) {d : NewDb} (hd : redesign S o = some d)
    {p : Pkgbase} (hp : p ∈ o.pkgbases.rows) :
    (∀ b ∈ d.buildInputs, b.1.1 = p → ∀ r ∈ d.rebuilds, r.2.buildInputId = b.2.id →
      Preserved o d p r.2) ↔ Separate o p := by
  obtain rfl := (Option.ite_some_none_eq_some.mp hd).2
  constructor
  · intro h
    obtain ⟨i, b, hb⟩ := exists_buildInput hp
    exact separate_of_preserved hp hd hb fun r hr hid => h _ hb rfl r hr hid
  · rintro h ⟨⟨q, i⟩, b⟩ hb rfl ⟨g, r⟩ hr hid
    exact h.preserved hd hb hr hid

/-- One pkgbase with a GOOD and a BAD package. -/
def oneArchitecture : OldDb where
  pkgbases := ⟨[⟨1, "rust", "1.0", "debian", "main", "amd64", some "rust.dsc", 0, none⟩], 1,
    by decide, by decide⟩
  packages := ⟨[⟨1, 1, "rustc", "1.0", "GOOD", "debian", "main", "amd64", "rustc.deb", some 1, none⟩,
    ⟨2, 1, "cargo", "1.0", "BAD", "debian", "main", "amd64", "cargo.deb", some 1, none⟩], 2,
    by decide, by decide⟩
  builds := ⟨[⟨1, none, some [1], none⟩], 1, by decide, by decide⟩
  pkgbaseUnique := by decide
  packagesUnique := by decide
  pkgbaseExists := by decide
  buildExists := by decide

theorem oneArchitecture_preserved : ∃ d, redesign .inOrder oneArchitecture = some d ∧
    ((∀ b ∈ d.buildInputs, b.1.1 = oneArchitecture.pkgbases.rows.head (by decide) →
      ∀ r ∈ d.rebuilds, r.2.buildInputId = b.2.id →
        Preserved oneArchitecture d (oneArchitecture.pkgbases.rows.head (by decide)) r.2) ↔
      Separate oneArchitecture (oneArchitecture.pkgbases.rows.head (by decide))) :=
  have h : redesign .inOrder oneArchitecture = some _ := if_pos (by decide +kernel)
  ⟨_, h, redesign_preserves_iff .inOrder oneArchitecture h (List.head_mem _)⟩

/-- The same version was built for two architectures. -/
def twoArchitectures : OldDb where
  pkgbases := ⟨[⟨1, "rust", "1.0", "debian", "main", "amd64", some "rust.dsc", 0, none⟩,
    ⟨2, "rust", "1.0", "debian", "main", "arm64", some "rust.dsc", 0, none⟩], 2, by decide, by decide⟩
  packages := ⟨[⟨1, 1, "rustc", "1.0", "BAD", "debian", "main", "amd64", "amd64.deb", some 1, none⟩,
    ⟨2, 2, "rustc", "1.0", "GOOD", "debian", "main", "arm64", "arm64.deb", some 2, none⟩], 2,
    by decide, by decide⟩
  builds := ⟨[⟨1, none, some [1], none⟩, ⟨2, none, some [2], none⟩], 2, by decide, by decide⟩
  pkgbaseUnique := by decide
  packagesUnique := by decide
  pkgbaseExists := by decide
  buildExists := by decide

/-- **A package that was built for arm64 is an artifact of the rebuild for amd64.** -/
theorem twoArchitectures_mixed : ¬ ∀ (S : Scan) (o : OldDb) (d : NewDb), redesign S o = some d →
    ∀ b ∈ d.buildInputs, ∀ r ∈ d.rebuilds, r.2.buildInputId = b.2.id →
      Preserved o d b.1.1 r.2 := by
  intro h
  have hd : redesign .inOrder twoArchitectures = some _ := if_pos (by decide +kernel)
  have hp : ⟨1, "rust", "1.0", "debian", "main", "amd64", some "rust.dsc", 0, none⟩ ∈
      twoArchitectures.pkgbases.rows := List.mem_cons_self
  obtain ⟨i, b, hb⟩ := exists_buildInput hp
  have hseparate := separate_of_preserved hp hd hb fun r hr hid => h _ _ _ hd _ hb r hr hid
  obtain ⟨heq, -⟩ := hseparate.own _ (List.mem_cons_of_mem _ List.mem_cons_self) rfl _
    (List.mem_cons_of_mem _ List.mem_cons_self) rfl ⟨_, List.mem_cons_of_mem _ List.mem_cons_self, rfl⟩
  cases heq

end Rebuilderd.Migrations
