import Rebuilderd.Lib.Stream
import Rebuilderd.Daemon.ArtifactNames
import Rebuilderd.Daemon.Compat

/-!
From the log of a report to the response of the log endpoints.

Whether a log is compressed is told by its first bytes, once when it is stored and once when it is
asked for.
-/

namespace Rebuilderd.Daemon

open Rebuilderd.Lib Rebuilderd.Common Prog

/-! ### Compression -/

abbrev Zstd := StreamCodec UInt8

def zstdChunkSize : ℕ := 1024 * 128

def zstdCompress (z : Zstd) (data : Bytes) : Bytes := z.compress zstdChunkSize data

/-- The loop ends with the read that returns nothing. -/
def zstdDecompress (z : Zstd) (fuel : ℕ) (data : Bytes) : Option Bytes :=
  z.decompress zstdChunkSize fuel data

/-! ### Endpoints -/

inductive LogAnswer where
  | ok (headers : List (String × String)) (body : Bytes)
  | notFound
  | failed
  deriving DecidableEq

/-- What actix makes of the `Accept-Encoding` header: the encoding it negotiates for zstd, if it can
parse the header and the client accepts it. -/
abbrev Negotiate := Option String → Option String

def forwardHeaders (contentType : String) : List (String × String) :=
  [("Content-Type", contentType), ("X-Content-Type-Options", "nosniff"),
    ("Content-Security-Policy", "default-src 'none'")]

def zstdEncoding : String × String := ("Content-Encoding", "zstd")

def forwardCompressedData (z : Zstd) (fuel : ℕ) (negotiate : Negotiate) (accept : Option String)
    (contentType : String) (data : Bytes) : LogAnswer :=
  if Handler.isZstdCompressed data then
    if ((negotiate accept).map (· == "zstd")).getD false then
      .ok (forwardHeaders contentType ++ [zstdEncoding]) data
    else
      match zstdDecompress z fuel data with
      | some decodedLog => .ok (forwardHeaders contentType) decodedLog
      | none => .failed
  else .ok (forwardHeaders contentType) data

namespace V1

/-- `GET builds/{id}/log`. -/
def getBuildLog (z : Zstd) (fuel : ℕ) (negotiate : Negotiate) (accept : Option String) (id : ℕ)
    (db : Db) : LogAnswer :=
  match (buildLogOf db id).head? with
  | some buildLog => forwardCompressedData z fuel negotiate accept "text/plain; charset=utf-8" buildLog
  | none => .failed

/-- The log of one kind of an artifact of a rebuild, `NULL` if it has none. -/
def artifactLog (logId : RebuildArtifact → Option ℕ) (logs : List (ℕ × Bytes)) (id artifactId : ℕ)
    (db : Db) : List (Option Bytes) := do
  let r ← db.rebuilds.rows.filter fun r => r.id == id
  let a ← db.rebuildArtifacts.rows.filter fun a => a.rebuildId == r.id && a.id == artifactId
  let l ← leftJoin logs fun l => logId a == some l.1
  return l.map (·.2)

/-- `GET builds/{id}/artifacts/{artifact_id}/attestation`, unless attestations are signed as they are
asked for. -/
def getBuildArtifactAttestation (z : Zstd) (fuel : ℕ) (negotiate : Negotiate) (accept : Option String)
    (id artifactId : ℕ) (db : Db) : LogAnswer :=
  match (artifactLog (·.attestationLogId) db.attestations id artifactId db).head?.join with
  | some attestation =>
    forwardCompressedData z fuel negotiate accept "application/json; charset=utf-8" attestation
  | none => .notFound

end V1

/-! ### Round trips -/

/-- The answer is `c`, or marked as compressed, and `c` once it is decompressed. -/
def Decodes (z : Zstd) (answer : LogAnswer) (c : Bytes) : Prop :=
  ∃ headers body, answer = .ok headers body ∧
    (zstdEncoding ∉ headers ∧ body = c ∨
      zstdEncoding ∈ headers ∧ ∀ fuel, c.length < fuel → zstdDecompress z fuel body = some c)

/-- What the daemon stores of the data of a log. -/
def storedBytes (env : Env) (data : Bytes) : Bytes :=
  if Handler.isZstdCompressed data then data else env.zstd data

section
variable {z : Zstd} {Remains : z.Decoder → Bytes → Prop}

lemma isZstdCompressed_iff (data : Bytes) :
    Handler.isZstdCompressed data = true ↔ Handler.zstdMagic <+: data := by
  rw [Handler.isZstdCompressed, List.isPrefixOf_iff_prefix]

lemma isZstdCompressed_compress (hz : z.Lawful Handler.zstdMagic Remains) (c : Bytes) :
    Handler.isZstdCompressed (zstdCompress z c) = true :=
  (isZstdCompressed_iff _).mpr (hz.magic _)

lemma zstdDecompress_compress (hz : z.Lawful Handler.zstdMagic Remains) (c : Bytes) {fuel : ℕ}
    (hfuel : c.length < fuel) : zstdDecompress z fuel (zstdCompress z c) = some c :=
  hz.decompress_compress (by simp [zstdChunkSize]) (by simp [zstdChunkSize]) c hfuel

/-- Whatever encoding is negotiated, the answer is what is stored. -/
lemma forward_decodes_stored {fuel : ℕ} {stored c : Bytes}
    (h : (if Handler.isZstdCompressed stored then zstdDecompress z fuel stored else some stored) =
      some c) (negotiate : Negotiate) (accept : Option String) (contentType : String) :
    Decodes z (forwardCompressedData z fuel negotiate accept contentType stored) c := by
  have hheaders : zstdEncoding ∉ forwardHeaders contentType := by
    simp [zstdEncoding, forwardHeaders]
  unfold forwardCompressedData
  split at h
  · rename_i hzstd
    rw [if_pos hzstd]
    split
    · exact ⟨_, _, rfl, .inr ⟨by simp, fun fuel' hfuel' =>
        StreamCodec.decompress_of_decompress h hfuel'⟩⟩
    · rw [h]
      exact ⟨_, _, rfl, .inl ⟨hheaders, rfl⟩⟩
  · rename_i hplain
    rw [if_neg hplain]
    exact ⟨_, _, rfl, .inl ⟨hheaders, Option.some.inj h⟩⟩

end

/-! ### Rows that stay -/

/-- Rebuilds and artifacts stay, with what they refer to. -/
structure RowsKept (db db' : Db) : Prop where
  rebuilds : ∀ r ∈ db.rebuilds.rows, ∃ r' ∈ db'.rebuilds.rows, r'.id = r.id ∧
    r'.buildLogId = r.buildLogId
  artifacts : ∀ a ∈ db.rebuildArtifacts.rows, ∃ a' ∈ db'.rebuildArtifacts.rows, a'.id = a.id ∧
    a'.rebuildId = a.rebuildId ∧ a'.diffoscopeLogId = a.diffoscopeLogId ∧
      a'.attestationLogId = a.attestationLogId

section
variable {db db' db'' : Db}

lemma RowsKept.of_subset (hr : ∀ r ∈ db.rebuilds.rows, r ∈ db'.rebuilds.rows)
    (ha : ∀ a ∈ db.rebuildArtifacts.rows, a ∈ db'.rebuildArtifacts.rows) : RowsKept db db' :=
  ⟨fun r h => ⟨r, hr r h, rfl, rfl⟩, fun a h => ⟨a, ha a h, rfl, rfl, rfl, rfl⟩⟩

lemma RowsKept.of_eq (hr : db'.rebuilds = db.rebuilds)
    (ha : db'.rebuildArtifacts = db.rebuildArtifacts) : RowsKept db db' :=
  .of_subset (fun _ h => hr ▸ h) fun _ h => ha ▸ h

lemma RowsKept.refl (db : Db) : RowsKept db db := .of_eq rfl rfl

lemma RowsKept.trans (h : RowsKept db db') (h' : RowsKept db' db'') : RowsKept db db'' := by
  refine ⟨fun r hr => ?_, fun a ha => ?_⟩
  · obtain ⟨r', hr', hid, hlog⟩ := h.rebuilds r hr
    obtain ⟨r'', hr'', hid', hlog'⟩ := h'.rebuilds r' hr'
    exact ⟨r'', hr'', hid'.trans hid, hlog'.trans hlog⟩
  · obtain ⟨a', ha', hid, hrebuild, hdiffoscope, hattestation⟩ := h.artifacts a ha
    obtain ⟨a'', ha'', hid', hrebuild', hdiffoscope', hattestation'⟩ := h'.artifacts a' ha'
    exact ⟨a'', ha'', hid'.trans hid, hrebuild'.trans hrebuild, hdiffoscope'.trans hdiffoscope,
      hattestation'.trans hattestation⟩

lemma rowsKept_foldl {α : Type} {f : Db → α → Db} (hf : ∀ d a, RowsKept d (f d a)) (as : List α)
    (db : Db) : RowsKept db (as.foldl f db) := by
  induction as generalizing db with
  | nil => exact .refl db
  | cons a as ih => exact (hf db a).trans (ih _)

lemma rowsKept_copyExistingRebuilds (id : ℕ) (db : Db) :
    RowsKept db (copyExistingRebuilds id db) := by
  have hcopy (d : Db) (r : Rebuild) : RowsKept d (copyRebuild id d r) := by
    have hnew : RowsKept d (NewRebuild.insert
        ⟨id, r.startedAt, r.builtAt, r.buildLogId, r.status⟩ d).2 :=
      .of_subset (fun _ h => List.mem_append_left _ h) fun _ h => h
    refine hnew.trans (rowsKept_foldl (fun d' a => ?_) _ _)
    exact .of_subset (fun _ h => h) fun _ h => List.mem_append_left _ h
  unfold copyExistingRebuilds
  split
  · split
    · exact rowsKept_foldl hcopy _ _
    · exact .refl db
  · exact .refl db

lemma rowsKept_commit {c : ScheduleConfig} {T : Ties} {now : Time} {r : PackageReport}
    (hok : commitPackageReport c T now r db = .ok db') : RowsKept db db' := by
  obtain ⟨db₁, hf, rfl⟩ := commitPackageReport_ok hok
  have hend : RowsKept db db₁ := by
    refine foldlM_ok (I := fun _ d => RowsKept db d) hf (.of_eq rfl rfl) fun _ p d d' _ hd hp => ?_
    obtain ⟨first, -, he⟩ := importPackage_ok hp
    have hsame := sameRecords_enqueueImported he
    obtain ⟨-, hr, ha⟩ := importRows_frame now first r p d
    have hrows : RowsKept d (importRows now first r p d).2 := .of_eq hr ha
    have himport : RowsKept d (importWithHistory now first r p d).2 := by
      unfold importWithHistory
      dsimp only
      split
      · exact hrows.trans (rowsKept_copyExistingRebuilds _ _)
      · exact hrows
    exact hd.trans (himport.trans (.of_eq hsame.rebuilds hsame.artifacts))
  exact hend.trans (.of_eq rfl rfl)

lemma exec_rowsKept (env : Env) (t : Time) (s : Stmt) (db : Db) :
    RowsKept db ((exec env).answer t s db).2 := by
  by_cases hs : s.keepsRecords = true
  · have hsame := exec_sameRecords env t hs db
    exact .of_eq hsame.rebuilds hsame.artifacts
  · cases s with
    | insertBuildLog => exact .of_eq rfl rfl
    | insertRebuild => exact .of_subset (fun _ h => List.mem_append_left _ h) fun _ h => h
    | insertRebuildArtifact => exact .of_subset (fun _ h => h) fun _ h => List.mem_append_left _ h
    | resetRebuild id =>
      refine ⟨fun r hr => ⟨_, List.mem_map.mpr ⟨r, hr, rfl⟩, ?_⟩, fun a ha =>
        ⟨a, ha, rfl, rfl, rfl, rfl⟩⟩
      split <;> exact ⟨rfl, rfl⟩
    | resetArtifacts id =>
      refine ⟨fun r hr => ⟨r, hr, rfl, rfl⟩, fun a ha => ⟨_, List.mem_map.mpr ⟨a, ha, rfl⟩, ?_⟩⟩
      split <;> exact ⟨rfl, rfl, rfl, rfl⟩
    | commitPackageReport now r =>
      exact Exec.answer_inv (I := RowsKept db) (.refl db) fun u db' hok => rowsKept_commit (exec_commit hok)
    | _ => exact absurd rfl hs

end

/-! ### What a run has stored -/

section
variable {env : Env} {tr : List Event} {ok : Call → OwnSteps → Time → Stmt → Prop} {i : ℕ}

/-- The rebuild a handler has inserted is still there, with its log. -/
lemma did_insertRebuild (hh : History (exec env) ok env.start tr) {new : NewRebuild} {id : ℕ}
    (h : Did (own i tr) (.insertRebuild new) id) :
    ∃ r ∈ (stateAfter (exec env) env.start tr).rebuilds.rows, r.id = id ∧
      r.buildLogId = new.buildLogId := by
  refine did_stable (I := fun db => ∃ r ∈ db.rebuilds.rows, r.id = id ∧
    r.buildLogId = new.buildLogId) (fun t s db h => ?_) hh h fun t db db' hok => ?_
  · obtain ⟨r, hr, hid, hlog⟩ := h
    obtain ⟨r', hr', hid', hlog'⟩ := (exec_rowsKept env t s db).rebuilds r hr
    exact ⟨r', hr', hid'.trans hid, hlog'.trans hlog⟩
  · cases hok
    exact ⟨_, List.mem_append_right _ (List.mem_singleton_self _), rfl, rfl⟩

/-- The rebuild a handler works on is one it has inserted. -/
lemma did_of_recording {own : OwnSteps} {id : ℕ} {names : List String}
    (h : recording own = some (id, names)) : ∃ new, Did own (.insertRebuild new) id := by
  induction own using List.reverseRecOn generalizing names with
  | nil => simp [recording] at h
  | append_singleton own a ih =>
    have hold {names : List String} (h : recording own = some (id, names)) :
        ∃ new, Did (own ++ [a]) (.insertRebuild new) id :=
      (ih h).imp fun _ hdid => hdid.append [a]
    by_cases hother : a.stmt.recordsNames = false
    · rw [recording_append_other hother] at h
      exact hold h
    · obtain ⟨t, s, r⟩ := a
      rw [recording_append] at h
      cases s with
      | insertRebuild new =>
        cases r with
        | ok id' =>
          cases h
          exact ⟨new, did_last _ _ _ _⟩
        | error e => exact hold h
      | insertRebuildArtifact new =>
        obtain ⟨x, hx, heq⟩ := Option.map_eq_some_iff.mp h
        cases heq
        exact hold hx
      | _ => exact absurd rfl hother

end

/-! ### Reports and their logs -/

section
variable {z : Zstd} {Remains : z.Decoder → Bytes → Prop} {env : Env} {as : Schedule} {db : Db}

/-- The logs of a table that have the id of one of its rows. -/
lemma filter_log {ρ : Type} [Row ρ] {t : Table ρ} {l : ρ} (hl : l ∈ t.rows) (log : ρ → Bytes) :
    ((t.rows.map fun x => (key x, log x)).filter fun x => some (key l) == some x.1) =
      [(key l, log l)] := by
  have hsame : t.rows.filter ((fun x : ℕ × Bytes => some (key l) == some x.1) ∘
      fun x => (key x, log x)) = t.rows.filter fun x => key x == key l :=
    List.filter_congr fun x _ => by simp [Bool.beq_comm]
  rw [List.filter_map, hsame, Table.filter_key hl]
  rfl

lemma artifactLog_eq {logId : RebuildArtifact → Option ℕ} {logs : List (ℕ × Bytes)} {r : Rebuild}
    (hr : r ∈ db.rebuilds.rows) {a : RebuildArtifact} (ha : a ∈ db.rebuildArtifacts.rows)
    (hrebuild : a.rebuildId = r.id) {l : ℕ × Bytes}
    (hlogs : logs.filter (fun x => logId a == some x.1) = [l]) :
    V1.artifactLog logId logs r.id a.id db = [some l.2] := by
  have hrows : db.rebuilds.rows.filter (fun x => x.id == r.id) = [r] := Table.filter_key hr
  have hartifacts : db.rebuildArtifacts.rows.filter
      (fun x => x.rebuildId == r.id && x.id == a.id) = [a] := by
    have hkey : db.rebuildArtifacts.rows.filter (fun x => x.id == a.id) = [a] := Table.filter_key ha
    rw [← List.filter_filter, hkey]
    simp [hrebuild]
  simp only [V1.artifactLog, List.bind_eq_flatMap, List.pure_def, hrows, hartifacts,
    List.flatMap_singleton]
  rw [leftJoin_eq_map (by rw [hlogs]; simp), hlogs]
  rfl

end

/-- Frames are the magic number and the data. -/
def plainZstd : Zstd where
  Encoder := Bytes
  new := []
  write encoded data := encoded ++ data
  finish encoded := Handler.zstdMagic ++ encoded
  Decoder := Bytes
  begin data := if Handler.isZstdCompressed data then some (data.drop 4) else none
  read rest n := some (rest.take n, rest.drop n)

lemma plainZstd_lawful : plainZstd.Lawful Handler.zstdMagic fun d rest => d = rest := by
  have hframe (data : List Bytes) : plainZstd.frame data = Handler.zstdMagic ++ data.flatten := by
    have hwritten (data : List Bytes) (start : Bytes) :
        data.foldl (· ++ ·) start = start ++ data.flatten := by
      induction data generalizing start with
      | nil => simp
      | cons chunk data ih => rw [List.foldl_cons, ih, List.flatten_cons, List.append_assoc]
    change Handler.zstdMagic ++ data.foldl (· ++ ·) [] = _
    rw [hwritten, List.nil_append]
  refine ⟨fun data => ?_, fun data => ⟨data.flatten, ?_, rfl⟩, ?_⟩
  · rw [hframe]
    exact List.prefix_append _ _
  · have hmagic : Handler.isZstdCompressed (plainZstd.frame data) = true := by
      rw [isZstdCompressed_iff, hframe]
      exact List.prefix_append _ _
    change (if Handler.isZstdCompressed (plainZstd.frame data) then
      some ((plainZstd.frame data).drop 4) else none) = _
    rw [if_pos hmagic, hframe]
    rfl
  · rintro d _ n rfl hn
    refine ⟨d.take n, d.drop n, d.drop n, rfl, (List.take_append_drop n d).symm, rfl, fun hnil => ?_⟩
    rcases List.take_eq_nil_iff.mp hnil with h | h
    · omega
    · exact h

end Rebuilderd.Daemon
