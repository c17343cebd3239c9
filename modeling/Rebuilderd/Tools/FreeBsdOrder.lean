import Rebuilderd.Lib.Reordering
import Rebuilderd.Tools.FreeBsd
import Rebuilderd.Tools.Stanzas

/-!
The order of a FreeBSD index.

Packages are sorted by their names before they are grouped, and the timestamp of a commit is the
earliest one of its builds. So an index whose lines come in another order is reported in the same way.
-/

namespace Rebuilderd.Tools

open Rebuilderd.Common Rebuilderd.Lib

/-! ### Two runs -/

section
variable {κ α β γ δ : Type}

/-- Two runs that fail in the same way, or both succeed with related results after downloads from the
same paths. -/
inductive SameRun (R : α → β → Prop) :
    Except Err (α × List (Download κ)) → Except Err (β × List (Download κ)) → Prop
  | error (e : Err) : SameRun R (.error e) (.error e)
  | ok {a : α} {b : β} {ds ds' : List (Download κ)} (h : R a b)
      (hpaths : ds.map (·.path) = ds'.map (·.path)) : SameRun R (.ok (a, ds)) (.ok (b, ds'))

/-- Two schedulers whose runs after downloads from the same paths are the same. -/
def Relates (R : α → β → Prop) (x : Fetch κ α) (y : Fetch κ β) : Prop :=
  ∀ ds ds' : List (Download κ), ds.map (·.path) = ds'.map (·.path) → SameRun R (x ds) (y ds')

namespace Relates

variable {R : α → β → Prop} {S : γ → δ → Prop}

lemma pure {a : α} {b : β} (h : R a b) :
    Relates R (Pure.pure a : Fetch κ α) (Pure.pure b : Fetch κ β) := fun _ _ hpaths => .ok h hpaths

lemma bind {x : Fetch κ α} {y : Fetch κ β} {f : α → Fetch κ γ} {g : β → Fetch κ δ}
    (h : Relates R x y) (hf : ∀ a b, R a b → Relates S (f a) (g b)) :
    Relates S (x >>= f) (y >>= g) := by
  intro ds ds' hpaths
  change SameRun S (x ds >>= fun r => f r.1 r.2) (y ds' >>= fun r => g r.1 r.2)
  have hrun := h ds ds' hpaths
  generalize x ds = run at hrun
  generalize y ds' = run' at hrun
  cases hrun with
  | error e => exact .error e
  | ok hab hpaths => exact hf _ _ hab _ _ hpaths

lemma loop {f : α → γ → Fetch κ α} {g : β → γ → Fetch κ β} {a : α} {b : β} (cs : List γ) (h : R a b)
    (hf : ∀ c a b, R a b → Relates R (f a c) (g b c)) :
    Relates R (cs.foldlM f a) (cs.foldlM g b) := by
  induction cs generalizing a b with
  | nil => exact pure h
  | cons c cs ih =>
    rw [List.foldlM_cons, List.foldlM_cons]
    exact bind (hf c a b h) fun a' b' h' => ih h'

lemma fetch {mirror mirror' : Mirror} {P : Except Err Bytes → Except Err Bytes → Prop} (what : κ)
    (path : String) (h : ∀ paths, P (mirror paths path) (mirror' paths path)) :
    Relates P (fetchUrlOrPath mirror what path) (fetchUrlOrPath mirror' what path) := by
  intro ds ds' hpaths
  refine .ok (hpaths ▸ h (ds.map (·.path))) ?_
  rw [List.map_append, List.map_append, hpaths]
  rfl

end Relates

lemma orFail_bind (x : Except Err α) (f : α → Except Err β) :
    (orFail (x >>= f) : Fetch κ β) = orFail x >>= fun a => orFail (f a) := by
  funext ds
  cases x <;> rfl

lemma orFail_map (x : Except Err α) (f : α → β) :
    (orFail (x.map f) : Fetch κ β) = orFail x >>= fun a => Pure.pure (f a) := by
  funext ds
  cases x <;> rfl

end

namespace FreeBsd

/-! ### The report about an index -/

/-- What is read of the index of an architecture. -/
def packagesite (env : Env) (bytes : Bytes) : Except Err (Option Text) := do
  let entries ← env.untar (← env.zstd bytes)
  match ← findPackagesite entries with
  | none => return none
  | some packagesite => some <$> decodeUtf8 packagesite

/-- The packages of an index that a sync takes. -/
def infosOf (env : Env) (sync : PkgsSync) (release arch : String) (lines : List Text) :
    List PackageInfo := lines.filterMap (packageInfo env sync release arch)

/-- The report about the lines of an index, if no commits are looked up. -/
def indexReport (env : Env) (sync : PkgsSync) (release arch : String) (lines : List Text) :
    PackageReport :=
  let infos := infosOf env sync release arch lines
  let timestamps := infos.foldl addBuildTimestamp ∅
  { distribution := "freebsd"
    release := some release
    component := none
    architecture := arch
    packages := ((infos.insertionSort fun a b => a.pkg.name ≤ b.pkg.name).foldl
      (addInfo timestamps) ∅).intoValues env.order }

/-- What a sync without a token makes of a download. -/
def readIndex (env : Env) (sync : PkgsSync) (release arch : String) :
    Except Err Bytes → Except Err (Option PackageReport)
  | .error _ => .ok none
  | .ok bytes => (packagesite env bytes).map fun text =>
      text.map fun text => indexReport env sync release arch (Text.lines text)

def indexUrl (sync : PkgsSync) (release arch : String) : String :=
  sync.source ++ "/FreeBSD:" ++ release ++ ":" ++ arch ++ "/latest/packagesite.pkg"

variable {env env' : Env} {s : PkgsSync} {release arch : String} {lines lines' : List Text}

lemma report_eq (htoken : s.githubToken = none) :
    report env s release arch =
      fetchUrlOrPath env.mirror (.packagesite release arch) (indexUrl s release arch) >>= fun result =>
        orFail (readIndex env s release arch result) := by
  have hfetch (infos : List PackageInfo) : fetchTimestamps env s infos = Pure.pure ∅ := by
    rw [fetchTimestamps, htoken]
    rfl
  unfold report
  refine bind_congr fun result => ?_
  rcases result with e | bytes
  · rfl
  · simp only [hfetch, readIndex, packagesite, orFail_map, orFail_bind, bind_assoc, pure_bind]
    refine bind_congr fun raw => bind_congr fun entries => bind_congr fun content => ?_
    rcases content with _ | content
    · rfl
    · change (orFail (decodeUtf8 content) >>= _) = orFail (some <$> decodeUtf8 content) >>= _
      rcases decodeUtf8 content with e | text <;> rfl

/-! ### Timestamps -/

/-- The build timestamps of the packages of a commit. -/
def buildTimes (infos : List PackageInfo) (hash : String) : List Time :=
  infos.filterMap fun info => if info.gitHash = some hash then info.buildTimestamp else none

lemma lookup_addBuildTimestamp (timestamps : Timestamps) (info : PackageInfo) (hash : String) :
    (addBuildTimestamp timestamps info).lookup hash =
      (buildTimes [info] hash).foldl lowered (timestamps.lookup hash) := by
  rw [buildTimes, List.filterMap_cons, List.filterMap_nil, addBuildTimestamp]
  rcases info.gitHash with _ | gitHash
  · rfl
  rcases info.buildTimestamp with _ | buildTs
  · simp
  by_cases hhash : gitHash = hash
  · subst hhash
    rw [if_pos rfl]
    change _ = lowered (timestamps.lookup gitHash) buildTs
    dsimp only
    rcases hts : timestamps.lookup gitHash with _ | ts
    · exact AList.lookup_insert timestamps
    · dsimp only
      have hmem : gitHash ∈ timestamps := AList.lookup_isSome.mp (by rw [hts]; rfl)
      by_cases hlt : buildTs < ts
      · rw [if_pos hlt, lookup_replace hmem, if_pos rfl, lowered, min_eq_right hlt.le]
      · rw [if_neg hlt, hts, lowered, min_eq_left (not_lt.mp hlt)]
  · have hne : some gitHash ≠ some hash := fun heq => hhash (Option.some.inj heq)
    rw [if_neg hne]
    dsimp only
    rcases hts : timestamps.lookup gitHash with _ | ts
    · exact AList.lookup_insert_ne (Ne.symm hhash)
    · dsimp only
      have hmem : gitHash ∈ timestamps := AList.lookup_isSome.mp (by rw [hts]; rfl)
      split
      · rw [lookup_replace hmem, if_neg (Ne.symm hhash)]
        rfl
      · rfl

/-- The earliest build of a commit stands for the commit. -/
lemma lookup_foldl (infos : List PackageInfo) (hash : String) :
    AList.lookup hash (infos.foldl addBuildTimestamp ∅) = (buildTimes infos hash).min? := by
  rw [← foldl_lowered]
  induction infos using List.reverseRecOn with
  | nil => rfl
  | append_singleton infos info ih =>
    rw [List.foldl_append, List.foldl_cons, List.foldl_nil, lookup_addBuildTimestamp, ih, buildTimes,
      buildTimes, buildTimes, List.filterMap_append, List.foldl_append]

/-- A package of an index is grouped by what the timestamps say of its commit alone. -/
lemma addInfo_congr {timestamps timestamps' : Timestamps}
    (h : ∀ hash, timestamps.lookup hash = timestamps'.lookup hash) :
    addInfo timestamps = addInfo timestamps' := by
  funext groups info
  unfold addInfo
  rw [funext h]

/-! ### Reports -/

/-- Reports about the same, with the same packages. -/
structure SameReport (r r' : PackageReport) : Prop where
  scope : r.scope = r'.scope
  packages : r.packages.Perm r'.packages

/-- What a sync with its own mirror and hash seed shares with another one. -/
structure SameParsers (env env' : Env) : Prop where
  zstd : env.zstd = env'.zstd
  untar : env.untar = env'.untar
  pkgOfJson : env.pkgOfJson = env'.pkgOfJson
  parseTime : env.parseTime = env'.parseTime

/-- The package of a line. -/
def packageOf (env : Env) (line : Text) : Option FreeBSDPkg :=
  if line.all Text.isWhiteSpace then none else env.pkgOfJson line

/-- No two packages of an index have one name. -/
def DistinctNames (env : Env) (lines : List Text) : Prop :=
  ((lines.filterMap (packageOf env)).map (·.name)).Nodup

lemma packageOf_of_packageInfo {line : Text} {info : PackageInfo}
    (h : packageInfo env s release arch line = some info) : packageOf env line = some info.pkg := by
  unfold packageInfo at h
  simp only [Option.bind_eq_bind, Option.bind_eq_some_iff, Option.guard_eq_some'] at h
  obtain ⟨-, hline, pkg, hpkg, -, -, hinfo⟩ := h
  cases hinfo
  rw [packageOf, if_neg (by simpa using hline)]
  exact hpkg

/-- What is taken of a line, by its package. -/
lemma packageInfo_of_packageOf {line : Text} {pkg : FreeBSDPkg} (h : packageOf env line = some pkg)
    (hpkg : matchesSync pkg s = true) : packageInfo env s release arch line = some
      { pkg
        pkgUrl := s.source ++ "/FreeBSD:" ++ release ++ ":" ++ arch ++ "/latest/All/" ++ pkg.name ++
          "-" ++ pkg.version ++ ".pkg"
        buildTimestamp := pkg.annotations.bind (·.buildTimestamp) |>.bind env.parseTime
        gitHash := pkg.annotations.bind (·.portsTopGitHash) } := by
  unfold packageOf at h
  split at h
  · cases h
  · rename_i hline
    simp [packageInfo, hline, h, hpkg]

lemma infosOf_sublist (env : Env) (s : PkgsSync) (release arch : String) (lines : List Text) :
    ((infosOf env s release arch lines).map (·.pkg)).Sublist (lines.filterMap (packageOf env)) := by
  unfold infosOf
  induction lines with
  | nil => exact .slnil
  | cons line lines ih =>
    rw [List.filterMap_cons, List.filterMap_cons]
    rcases hinfo : packageInfo env s release arch line with _ | info
    · rcases packageOf env line with _ | pkg
      · exact ih
      · exact ih.cons pkg
    · rw [packageOf_of_packageInfo hinfo]
      exact ih.cons_cons info.pkg

lemma nodup_infosOf (h : DistinctNames env lines) :
    ((infosOf env s release arch lines).map (·.pkg.name)).Nodup := by
  have hsub := (infosOf_sublist env s release arch lines).map (·.name)
  rw [List.map_map] at hsub
  exact hsub.nodup h

lemma infosOf_congr (h : SameParsers env env') :
    infosOf env s release arch = infosOf env' s release arch := by
  funext lines
  unfold infosOf packageInfo
  rw [h.pkgOfJson, h.parseTime]

/-- Packages that are sorted in the same way are reported in the same way. -/
lemma sameReport_of_sorted (h : SameParsers env env')
    (hperm : (infosOf env s release arch lines).Perm (infosOf env s release arch lines'))
    (hsorted : (infosOf env s release arch lines).insertionSort (fun a b => a.pkg.name ≤ b.pkg.name) =
      (infosOf env s release arch lines').insertionSort fun a b => a.pkg.name ≤ b.pkg.name) :
    SameReport (indexReport env s release arch lines) (indexReport env' s release arch lines') := by
  refine ⟨rfl, ?_⟩
  have hlookup (hash : String) :
      AList.lookup hash ((infosOf env s release arch lines).foldl addBuildTimestamp ∅) =
        AList.lookup hash ((infosOf env s release arch lines').foldl addBuildTimestamp ∅) := by
    rw [lookup_foldl, lookup_foldl]
    exact min?_eq_of_perm (hperm.filterMap _)
  simp only [indexReport, Groups.intoValues, ← infosOf_congr h, addInfo_congr hlookup, hsorted]
  exact (env.order.perm _).trans (env'.order.perm _).symm

/-- An index whose lines come in another order is reported in the same way. -/
lemma sameReport_of_perm (h : SameParsers env env') (hlines : lines.Perm lines')
    (hnames : DistinctNames env lines) :
    SameReport (indexReport env s release arch lines) (indexReport env' s release arch lines') :=
  sameReport_of_sorted h (hlines.filterMap _)
    (insertionSort_eq_of_perm (hlines.filterMap _) (nodup_infosOf hnames))

/-- What holds of every group that is made, whatever its artifacts are, holds of all of them. -/
lemma forall_groups {timestamps : Timestamps} {P : SourcePackageReport → Prop}
    {groups : Groups (String × String)} {info : PackageInfo} (hgroups : ∀ e ∈ groups.entries, P e.2)
    (hartifacts : ∀ g artifacts, P g → P { g with artifacts := artifacts })
    (hnew : P ⟨info.pkg.origin, info.pkg.version, info.pkgUrl, [], info.gitHash, info.buildTimestamp,
      info.gitHash.bind timestamps.lookup⟩) :
    ∀ e ∈ (addInfo timestamps groups info).entries, P e.2 := by
  unfold addInfo Groups.push
  rcases hold : groups.lookup (info.pkg.origin, info.pkg.version) with _ | old
  · dsimp only
    intro e he
    rw [AList.entries_insert_of_notMem (AList.lookup_eq_none.mp hold)] at he
    rcases List.mem_cons.mp he with rfl | he
    · exact hartifacts _ _ hnew
    · exact hgroups e he
  · exact forall_mem_replace hgroups
      (hartifacts old _ (hgroups _ (AList.mem_lookup_iff.mp hold)))

/-- The timestamp of a commit is that of its earliest build. -/
lemma timestamp_of_mem {g : SourcePackageReport}
    (hg : g ∈ (indexReport env s release arch lines).packages) :
    g.fbsdPortsTopGitTimestamp = g.fbsdPortsTopGitHash.bind fun hash =>
      (buildTimes (infosOf env s release arch lines) hash).min? := by
  have hfold (infos : List PackageInfo) (timestamps : Timestamps) :
      ∀ e ∈ (infos.foldl (addInfo timestamps) ∅).entries,
        e.2.fbsdPortsTopGitTimestamp = e.2.fbsdPortsTopGitHash.bind timestamps.lookup := by
    induction infos using List.reverseRecOn with
    | nil => simp
    | append_singleton infos info ih =>
      rw [List.foldl_append, List.foldl_cons, List.foldl_nil]
      exact forall_groups
        (P := fun g => g.fbsdPortsTopGitTimestamp = g.fbsdPortsTopGitHash.bind timestamps.lookup) ih
        (fun _ _ h => h) rfl
  obtain ⟨e, he, rfl⟩ := List.mem_map.mp ((env.order.perm _).subset hg)
  rw [hfold _ _ e he]
  exact congrArg _ (funext fun hash => lookup_foldl _ hash)

/-! ### Syncs -/

/-- Answers of two mirrors for an index: the same, or archives of the same lines in another order, in
which no two packages have one name. -/
inductive Reordered (env : Env) : Except Err Bytes → Except Err Bytes → Prop
  | same (answer : Except Err Bytes) : Reordered env answer answer
  | lines {bytes bytes' : Bytes} {text text' : Text}
      (htext : packagesite env bytes = .ok (some text))
      (htext' : packagesite env bytes' = .ok (some text'))
      (hlines : (Text.lines text).Perm (Text.lines text'))
      (hnames : DistinctNames env (Text.lines text)) : Reordered env (.ok bytes) (.ok bytes')

lemma packagesite_congr (h : SameParsers env env') : packagesite env = packagesite env' := by
  funext bytes
  unfold packagesite
  rw [h.zstd, h.untar]

/-- Two results of reading an index. -/
lemma relates_readIndex (h : SameParsers env env') {answer answer' : Except Err Bytes}
    (hanswer : Reordered env answer answer') :
    Relates (Option.Rel SameReport) (orFail (readIndex env s release arch answer) : Fetch Request _)
      (orFail (readIndex env' s release arch answer')) := by
  intro ds ds' hpaths
  unfold orFail
  cases hanswer with
  | same answer =>
    rcases answer with e | bytes
    · exact .ok .none hpaths
    · rw [readIndex, readIndex, ← packagesite_congr h]
      rcases packagesite env bytes with e | _ | text
      · exact .error e
      · exact .ok .none hpaths
      · refine .ok (.some (sameReport_of_sorted h (.refl _) rfl)) hpaths
  | lines htext htext' hlines hnames =>
    rw [readIndex, readIndex, ← packagesite_congr h, htext, htext']
    exact .ok (.some (sameReport_of_perm h hlines hnames)) hpaths

lemma relates_report (h : SameParsers env env') (htoken : s.githubToken = none)
    (hmirror : ∀ paths path, Reordered env (env.mirror paths path) (env'.mirror paths path)) :
    Relates (Option.Rel SameReport) (report env s release arch) (report env' s release arch) := by
  rw [report_eq htoken, report_eq htoken]
  exact .bind (.fetch _ _ fun paths => hmirror paths _) fun _ _ hanswer => relates_readIndex h hanswer

lemma relates_sync (h : SameParsers env env') (htoken : s.githubToken = none)
    (hmirror : ∀ paths path, Reordered env (env.mirror paths path) (env'.mirror paths path)) :
    Relates (List.Forall₂ SameReport) (sync env s) (sync env' s) := by
  refine .loop _ .nil fun release reports reports' hreports => ?_
  refine .loop _ hreports fun arch reports reports' hreports => ?_
  refine .bind (relates_report h htoken hmirror) fun r r' hr => .pure ?_
  refine List.rel_append hreports ?_
  cases hr with
  | some hr => exact .cons hr .nil
  | none => exact .nil

/-- The index that a report is about: it was downloaded, and its packages make the report. -/
def MadeOf (env : Env) (s : PkgsSync) (ds : List (Download Request)) (r : PackageReport) : Prop :=
  ∃ release arch bytes text,
    ⟨.packagesite release arch, indexUrl s release arch, .ok bytes⟩ ∈ ds ∧
      packagesite env bytes = .ok (some text) ∧
      r = indexReport env s release arch (Text.lines text)

section
variable {ds ds' : List (Download Request)} {r : PackageReport} {reports reports' : List PackageReport}

lemma MadeOf.mono (h : MadeOf env s ds r) (hds : ds <+: ds') : MadeOf env s ds' r := by
  obtain ⟨release, arch, bytes, text, hmem, hrest⟩ := h
  exact ⟨release, arch, bytes, text, hds.subset hmem, hrest⟩

lemma report_madeOf (htoken : s.githubToken = none) {found : Option PackageReport}
    (h : report env s release arch ds = .ok (found, ds')) :
    ds <+: ds' ∧ ∀ r ∈ found, MadeOf env s ds' r := by
  rw [report_eq htoken, bind_ok] at h
  obtain ⟨result, ds₁, hfetch, h⟩ := h
  obtain ⟨hread, rfl⟩ := orFail_ok.mp h
  obtain rfl := fetch_ok hfetch
  refine ⟨List.prefix_append _ _, fun r hr => ?_⟩
  rcases result with e | bytes
  · cases hread
    cases hr
  · rw [readIndex] at hread
    rcases htext : packagesite env bytes with e | _ | text
    · rw [htext] at hread
      cases hread
    · rw [htext] at hread
      cases hread
      cases hr
    · rw [htext] at hread
      cases hread
      cases hr
      exact ⟨release, arch, bytes, text, by simp, htext, rfl⟩

/-- Every report of a sync is made of an index that it downloaded. -/
lemma sync_madeOf (htoken : s.githubToken = none) (h : sync env s [] = .ok (reports, ds)) :
    ∀ r ∈ reports, MadeOf env s ds r := by
  refine loop_ok (I := fun _ reports ds => ∀ r ∈ reports, MadeOf env s ds r) h (by simp)
    fun _ release reports ds reports' ds' _ hreports hrelease => ?_
  refine loop_ok (I := fun _ reports ds => ∀ r ∈ reports, MadeOf env s ds r) hrelease hreports
    fun _ arch reports ds reports' ds' _ hreports harch => ?_
  obtain ⟨found, ds₁, hreport, hreturn⟩ := bind_ok.mp harch
  obtain ⟨rfl, rfl⟩ := pure_ok.mp hreturn
  obtain ⟨hds, hfound⟩ := report_madeOf htoken hreport
  intro r hr
  rcases List.mem_append.mp hr with hr | hr
  · exact (hreports r hr).mono hds
  · exact hfound r (Option.mem_toList.mp hr)

end

/-- **The order of an index does not matter**: without a token, a sync from a mirror whose indices
have their lines in another order fails in the same way or reports the same source packages, each with
the same artifacts in the same order; and the timestamp of a commit is that of the earliest build of
it that the index lists. -/
theorem sync_reordered (h : SameParsers env env') (htoken : s.githubToken = none)
    (hmirror : ∀ paths path, Reordered env (env.mirror paths path) (env'.mirror paths path)) :
    SameRun (List.Forall₂ SameReport) (sync env s []) (sync env' s []) ∧
      ∀ reports ds, sync env s [] = .ok (reports, ds) → ∀ r ∈ reports,
        ∃ release arch bytes text,
          ⟨.packagesite release arch, indexUrl s release arch, .ok bytes⟩ ∈ ds ∧
          packagesite env bytes = .ok (some text) ∧
          r.scope = ⟨"freebsd", some release, none, arch⟩ ∧
          ∀ g ∈ r.packages, g.fbsdPortsTopGitTimestamp = g.fbsdPortsTopGitHash.bind fun hash =>
            (buildTimes (infosOf env s release arch (Text.lines text)) hash).min? := by
  refine ⟨relates_sync h htoken hmirror [] [] rfl, fun reports ds hok r hr => ?_⟩
  obtain ⟨release, arch, bytes, text, hmem, htext, rfl⟩ := sync_madeOf htoken hok r hr
  exact ⟨release, arch, bytes, text, hmem, htext, rfl, fun g hg => timestamp_of_mem hg⟩

/-! ### Two packages of a port -/

/-- A line of the index: a package that was built from the commit `c0ffee`. -/
def openjdkLine (name timestamp : String) : Text :=
  "\x7b\"name\":\"".toList ++ name.toList ++ "\",\"origin\":\"java/openjdk26\",".toList ++
    "\"version\":\"26\",\"arch\":\"amd64\",".toList ++ "\"annotations\":".toList ++
    "\x7b\"ports_top_git_hash\":\"c0ffee\",".toList ++ "\"build_timestamp\":\"".toList ++
    timestamp.toList ++ "\"\x7d\x7d".toList

def openjdk : Text := openjdkLine "openjdk26" "2026-05-02T00:00:20+0000"

def openjdkJre : Text := openjdkLine "openjdk26-jre" "2026-05-02T00:00:10+0000"

def openjdkPkg (name buildTimestamp : String) : FreeBSDPkg :=
  ⟨name, "java/openjdk26", "26", "amd64", some ⟨some "c0ffee", some buildTimestamp⟩⟩

/-- A mirror whose only index has these lines. -/
def mirrorOf (lines : List Text) : Env where
  mirror _ _ := .ok (encodeUtf8 (Text.unlines lines))
  order := .inserted
  zstd := .ok
  untar raw := .ok [.ok ⟨"packagesite.yaml", true, .ok raw⟩]
  pkgOfJson line :=
    if line = openjdk then some (openjdkPkg "openjdk26" "2026-05-02T00:00:20+0000")
    else if line = openjdkJre then some (openjdkPkg "openjdk26-jre" "2026-05-02T00:00:10+0000")
    else none
  parseTime t :=
    if t = "2026-05-02T00:00:20+0000" then some (1777680020 * second)
    else if t = "2026-05-02T00:00:10+0000" then some (1777680010 * second)
    else none
  commitDate _ := none

def latest : PkgsSync where
  distro := "freebsd"
  components := []
  source := "https://pkg.freebsd.org"
  architectures := ["amd64"]
  printJson := false
  maintainers := []
  releases := ["15"]
  pkgs := []
  excludes := []
  syncMethod := none
  githubToken := none

lemma sameParsers_mirrorOf (lines lines' : List Text) :
    SameParsers (mirrorOf lines) (mirrorOf lines') := ⟨rfl, rfl, rfl, rfl⟩

lemma packagesite_mirrorOf (lines : List Text) (text : Text) :
    packagesite (mirrorOf lines) (encodeUtf8 text) = .ok (some text) := by
  change some <$> decodeUtf8 (encodeUtf8 text) = _
  rw [decodeUtf8_encodeUtf8]
  rfl

lemma lines_of_two {l l' : Text} (h : l ∈ [openjdk, openjdkJre]) (h' : l' ∈ [openjdk, openjdkJre]) :
    Text.lines (Text.unlines [l, l']) = [l, l'] := by
  have hplain : ∀ l ∈ [openjdk, openjdkJre], '\n' ∉ l ∧ Text.chomp l = l := by decide +kernel
  rw [Text.lines_unlines (by simp [(hplain l h).1, (hplain l' h').1])]
  simp [(hplain l h).2, (hplain l' h').2]

lemma packageOf_mirrorOf (lines : List Text) :
    packageOf (mirrorOf lines) openjdk = some (openjdkPkg "openjdk26" "2026-05-02T00:00:20+0000") ∧
      packageOf (mirrorOf lines) openjdkJre =
        some (openjdkPkg "openjdk26-jre" "2026-05-02T00:00:10+0000") := by
  have hblank : openjdk.all Text.isWhiteSpace = false ∧ openjdkJre.all Text.isWhiteSpace = false ∧
      openjdkJre ≠ openjdk := by decide +kernel
  obtain ⟨h, h', hne⟩ := hblank
  simp [packageOf, mirrorOf, h, h', hne]

lemma openjdk_distinct : DistinctNames (mirrorOf [openjdk, openjdkJre])
    (Text.lines (Text.unlines [openjdk, openjdkJre])) := by
  obtain ⟨h, h'⟩ := packageOf_mirrorOf [openjdk, openjdkJre]
  rw [lines_of_two (by simp) (by simp), DistinctNames]
  simp [h, h', openjdkPkg]

lemma openjdk_perm : (Text.lines (Text.unlines [openjdk, openjdkJre])).Perm
    (Text.lines (Text.unlines [openjdkJre, openjdk])) := by
  rw [lines_of_two (by simp) (by simp), lines_of_two (by simp) (by simp)]
  exact .swap _ _ _

/-- The sync reports about the only index. -/
lemma sync_mirrorOf (lines : List Text) : ∃ ds, sync (mirrorOf lines) latest [] =
    .ok ([indexReport (mirrorOf lines) latest "15" "amd64" (Text.lines (Text.unlines lines))], ds) := by
  have hread : readIndex (mirrorOf lines) latest "15" "amd64" (.ok (encodeUtf8 (Text.unlines lines))) =
      .ok (some (indexReport (mirrorOf lines) latest "15" "amd64"
        (Text.lines (Text.unlines lines)))) := by
    rw [readIndex, packagesite_mirrorOf]
    rfl
  have hreport : ∃ ds, report (mirrorOf lines) latest "15" "amd64" [] =
      .ok (some (indexReport (mirrorOf lines) latest "15" "amd64"
        (Text.lines (Text.unlines lines))), ds) := by
    rw [report_eq rfl]
    exact ⟨_, bind_ok.mpr ⟨_, _, rfl, orFail_ok.mpr ⟨hread, rfl⟩⟩⟩
  obtain ⟨ds, hreport⟩ := hreport
  refine ⟨ds, bind_ok.mpr ⟨_, ds, bind_ok.mpr ⟨_, ds, bind_ok.mpr ⟨_, ds, hreport, rfl⟩, rfl⟩, rfl⟩⟩

lemma reordered_mirrorOf {lines lines' : List Text}
    (hlines : (Text.lines (Text.unlines lines)).Perm (Text.lines (Text.unlines lines')))
    (hnames : DistinctNames (mirrorOf lines) (Text.lines (Text.unlines lines))) (paths : List String)
    (path : String) :
    Reordered (mirrorOf lines) ((mirrorOf lines).mirror paths path)
      ((mirrorOf lines').mirror paths path) :=
  .lines (packagesite_mirrorOf lines _) (packagesite_mirrorOf lines _) hlines hnames

lemma timestamps_openjdk : (indexReport (mirrorOf [openjdk, openjdkJre]) latest "15" "amd64"
    [openjdk, openjdkJre]).packages.map (·.fbsdPortsTopGitTimestamp) =
      [some (1777680010 * second)] := by
  obtain ⟨h, h'⟩ := packageOf_mirrorOf [openjdk, openjdkJre]
  rw [indexReport, infosOf, List.filterMap_cons, packageInfo_of_packageOf h (by decide),
    List.filterMap_cons, packageInfo_of_packageOf h' (by decide)]
  decide +kernel

/-- Whichever package comes first, the commit is as old as the earlier build. -/
theorem sync_openjdk :
    SameRun (List.Forall₂ SameReport) (sync (mirrorOf [openjdk, openjdkJre]) latest [])
        (sync (mirrorOf [openjdkJre, openjdk]) latest []) ∧
      ∃ r ds, sync (mirrorOf [openjdk, openjdkJre]) latest [] = .ok ([r], ds) ∧
        r.packages.map (·.fbsdPortsTopGitTimestamp) = [some (1777680010 * second)] ∧
        ∃ release arch bytes text,
          ⟨.packagesite release arch, indexUrl latest release arch, .ok bytes⟩ ∈ ds ∧
          packagesite (mirrorOf [openjdk, openjdkJre]) bytes = .ok (some text) ∧
          r.scope = ⟨"freebsd", some release, none, arch⟩ ∧
          ∀ g ∈ r.packages, g.fbsdPortsTopGitTimestamp = g.fbsdPortsTopGitHash.bind fun hash =>
            (buildTimes (infosOf (mirrorOf [openjdk, openjdkJre]) latest release arch
              (Text.lines text)) hash).min? := by
  obtain ⟨hsame, htimes⟩ := sync_reordered (s := latest) (sameParsers_mirrorOf _ _) rfl
    (reordered_mirrorOf openjdk_perm openjdk_distinct)
  obtain ⟨ds, hok⟩ := sync_mirrorOf [openjdk, openjdkJre]
  rw [lines_of_two (by simp) (by simp)] at hok
  exact ⟨hsame, _, ds, hok, timestamps_openjdk, htimes _ ds hok _ List.mem_cons_self⟩

end FreeBsd

end Rebuilderd.Tools
