import Rebuilderd.Daemon.Runs

/-!
What a handler stores as the logs of a report.

The logs of an artifact are inserted for the first artifact of its name, and every other artifact of
the name refers to them.
-/

namespace Rebuilderd.Daemon

open Rebuilderd.Lib Rebuilderd.Common Prog

/-- The handler stores `data` as `stored`: compressed, unless it is compressed already. -/
def Encoded (own : OwnSteps) (data stored : Bytes) : Prop :=
  if Handler.isZstdCompressed data then stored = data else Did own (.zstdCompress data) stored

/-- The handler has inserted the log `data`, if there is one, under `id`. -/
def InsertedLog (own : OwnSteps) (inserted : Bytes → ℕ → Prop) (data : Option Bytes)
    (id : Option ℕ) : Prop :=
  (data = none → id = none) ∧
    ∀ bytes, data = some bytes → ∃ stored i, id = some i ∧ Encoded own bytes stored ∧ inserted stored i

/-- The handler has inserted the logs of the artifact. -/
structure LogsOf (own : OwnSteps) (a : RebuildArtifactReport) (ids : Option ℕ × Option ℕ) : Prop where
  diffoscope : InsertedLog own (fun log i => Did own (.insertDiffoscopeLog log) i) a.diffoscope ids.1
  attestation : InsertedLog own (fun log i => Did own (.insertAttestationLog log) i) a.attestation ids.2

/-- The handler has inserted the build log of the report. -/
def BuildLogOf (own : OwnSteps) (r : RebuildReport) (id : ℕ) : Prop :=
  ∃ stored, Encoded own r.buildLog stored ∧ Did own (.insertBuildLog stored) id

/-- The first artifact of the name. -/
def firstNamed (as : List RebuildArtifactReport) (name : String) : Option RebuildArtifactReport :=
  as.find? (·.name == name)

/-- A rebuild refers to the build log of the report, and an artifact to the logs of the first
artifact of its name. A report commits no package report and resets no results. -/
def refersToReported (c : Call) (own : OwnSteps) (_ : Time) : Stmt → Prop
  | .insertRebuild new => ∃ h r, c = .submitRebuildReport h r ∧ BuildLogOf own r new.buildLogId
  | .insertRebuildArtifact new => ∃ h r, c = .submitRebuildReport h r ∧
      ∃ a, firstNamed r.artifacts new.name = some a ∧
        LogsOf own a (new.diffoscopeLogId, new.attestationLogId)
  | .commitPackageReport _ _ | .resetRebuild _ | .resetArtifacts _ => ∀ h r, c ≠ .submitRebuildReport h r
  | _ => True

/-- The statements that a report may execute without referring to a log. -/
def Stmt.refersToNothing : Stmt → Bool
  | .insertRebuild _ | .insertRebuildArtifact _ | .commitPackageReport _ _ | .resetRebuild _
  | .resetArtifacts _ => false
  | _ => true

/-- The handler has inserted the build log, and the logs of the artifacts it knows by name. -/
structure Storing (r : RebuildReport) (log : ℕ) (logs : Handler.ArtifactLogs) (own : OwnSteps) :
    Prop where
  build : BuildLogOf own r log
  artifacts : ∀ x ∈ logs, ∃ a, firstNamed r.artifacts x.1 = some a ∧ LogsOf own a x.2

section
variable {own : OwnSteps} {r : RebuildReport} {log : ℕ} {logs : Handler.ArtifactLogs} {c : Call}

lemma Encoded.append {data stored : Bytes} (h : Encoded own data stored) (own' : OwnSteps) :
    Encoded (own ++ own') data stored := by
  unfold Encoded at *
  split <;> rename_i hzstd
  · simpa [hzstd] using h
  · rw [if_neg hzstd] at h
    exact h.append own'

lemma LogsOf.append {a : RebuildArtifactReport} {ids : Option ℕ × Option ℕ} (h : LogsOf own a ids)
    (own' : OwnSteps) : LogsOf (own ++ own') a ids := by
  refine ⟨⟨h.diffoscope.1, fun bytes hb => ?_⟩, ⟨h.attestation.1, fun bytes hb => ?_⟩⟩
  · obtain ⟨stored, i, hid, henc, hdid⟩ := h.diffoscope.2 bytes hb
    exact ⟨stored, i, hid, henc.append own', hdid.append own'⟩
  · obtain ⟨stored, i, hid, henc, hdid⟩ := h.attestation.2 bytes hb
    exact ⟨stored, i, hid, henc.append own', hdid.append own'⟩

lemma BuildLogOf.append {id : ℕ} (h : BuildLogOf own r id) (own' : OwnSteps) :
    BuildLogOf (own ++ own') r id :=
  h.imp fun _ hlog => ⟨hlog.1.append own', hlog.2.append own'⟩

lemma Storing.append (h : Storing r log logs own) (own' : OwnSteps) :
    Storing r log logs (own ++ own') :=
  ⟨h.build.append own', fun x hx => (h.artifacts x hx).imp fun _ ha => ⟨ha.1, ha.2.append own'⟩⟩

lemma refersToReported_of_other (c : Call) (own : OwnSteps) (t : Time) {s : Stmt}
    (h : s.refersToNothing = true) : refersToReported c own t s := by
  cases s <;> trivial

/-- A program that refers to no log keeps what only grows with the journal. -/
lemma keeps_reported {α : Type} {p : Handler α} {ok : Stmt → Prop} (hp : Only ok p)
    (hok : ∀ s, ok s → s.refersToNothing = true) {I : OwnSteps → Prop}
    (hI : ∀ own a, I own → I (own ++ [a])) : Keeps (.journal (refersToReported c)) I p := by
  refine hp.keeps fun own t s hs h => ⟨refersToReported_of_other c own t (hok s hs), ?_⟩
  rintro a own' rfl
  exact hI own _ h

/-- What is encoded. -/
lemma wp_encode (data : Bytes) {I : OwnSteps → Prop} (hI : ∀ own a, I own → I (own ++ [a]))
    (h : I own) : wp (.journal (refersToReported c)) (Handler.encode data)
      (fun own' stored => I own' ∧ Encoded own' data stored) (fun _ _ => True) own := by
  unfold Handler.encode
  split <;> rename_i hzstd
  · exact ⟨h, by rw [Encoded, if_pos hzstd]⟩
  · refine wp_sql (fun _ => trivial) (fun t stored => ⟨hI _ _ h, ?_⟩) fun _ _ => trivial
    rw [Encoded, if_neg hzstd]
    exact did_last _ _ _ _

/-- What is stored of a log that may be missing. -/
def EncodedOptional (own : OwnSteps) (data stored : Option Bytes) : Prop :=
  (data = none → stored = none) ∧
    ∀ bytes, data = some bytes → ∃ log, stored = some log ∧ Encoded own bytes log

lemma EncodedOptional.append {data stored : Option Bytes} (h : EncodedOptional own data stored)
    (own' : OwnSteps) : EncodedOptional (own ++ own') data stored :=
  ⟨h.1, fun bytes hb => (h.2 bytes hb).imp fun _ hlog => ⟨hlog.1, hlog.2.append own'⟩⟩

lemma wp_encodeOptional (data : Option Bytes) {I : OwnSteps → Prop}
    (hI : ∀ own a, I own → I (own ++ [a])) (h : I own) :
    wp (.journal (refersToReported c)) (Handler.encodeOptional data)
      (fun own' stored => I own' ∧ EncodedOptional own' data stored) (fun _ _ => True) own := by
  cases data with
  | none => exact ⟨h, fun _ => rfl, by simp⟩
  | some data =>
    refine (wp_bind _ _).mpr (wp_mono (wp_encode data hI h) (fun own' stored h' => ?_)
      fun _ _ _ => trivial)
    refine ⟨h'.1, by simp, ?_⟩
    rintro _ ⟨⟩
    exact ⟨stored, rfl, h'.2⟩

lemma wp_insertDiffoscope {data stored : Option Bytes} {I : OwnSteps → Prop}
    (hI : ∀ own a, I own → I (own ++ [a])) (h : I own) (henc : EncodedOptional own data stored) :
    wp (.journal (refersToReported c)) (Handler.insertDiffoscope stored)
      (fun own' id => I own' ∧
        InsertedLog own' (fun log i => Did own' (.insertDiffoscopeLog log) i) data id)
      (fun _ _ => True) own := by
  cases stored with
  | none =>
    refine ⟨h, fun _ => rfl, fun bytes hb => ?_⟩
    obtain ⟨log, hlog, -⟩ := henc.2 bytes hb
    cases hlog
  | some log =>
    refine (wp_bind _ _).mpr (wp_sql (fun _ => trivial) (fun t id => ?_) fun _ _ => trivial)
    refine ⟨hI _ _ h, fun hb => absurd (henc.1 hb) (by simp), fun bytes hb => ?_⟩
    obtain ⟨_, ⟨⟩, hlog⟩ := henc.2 bytes hb
    exact ⟨log, id, rfl, hlog.append _, did_last _ _ _ _⟩

lemma wp_insertAttestation {data stored : Option Bytes} {I : OwnSteps → Prop}
    (hI : ∀ own a, I own → I (own ++ [a])) (h : I own) (henc : EncodedOptional own data stored) :
    wp (.journal (refersToReported c)) (Handler.insertAttestation stored)
      (fun own' id => I own' ∧
        InsertedLog own' (fun log i => Did own' (.insertAttestationLog log) i) data id)
      (fun _ _ => True) own := by
  cases stored with
  | none =>
    refine ⟨h, fun _ => rfl, fun bytes hb => ?_⟩
    obtain ⟨log, hlog, -⟩ := henc.2 bytes hb
    cases hlog
  | some log =>
    refine (wp_bind _ _).mpr (wp_sql (fun _ => trivial) (fun t id => ?_) fun _ _ => trivial)
    refine ⟨hI _ _ h, fun hb => absurd (henc.1 hb) (by simp), fun bytes hb => ?_⟩
    obtain ⟨_, ⟨⟩, hlog⟩ := henc.2 bytes hb
    exact ⟨log, id, rfl, hlog.append _, did_last _ _ _ _⟩

lemma wp_insertArtifactLogs (a : RebuildArtifactReport) (h : Storing r log logs own) :
    wp (.journal (refersToReported c)) (Handler.insertArtifactLogs a)
      (fun own' ids => Storing r log logs own' ∧ LogsOf own' a ids) (fun _ _ => True) own := by
  refine (wp_bind _ _).mpr (wp_mono (wp_encodeOptional a.diffoscope (fun _ _ h => h.append _) h)
    (fun own₁ d h₁ => ?_) fun _ _ _ => trivial)
  refine (wp_bind _ _).mpr (wp_mono (wp_encodeOptional a.attestation
    (I := fun own => Storing r log logs own ∧ EncodedOptional own a.diffoscope d)
    (fun _ _ h => ⟨h.1.append _, h.2.append _⟩) h₁) (fun own₂ o h₂ => ?_) fun _ _ _ => trivial)
  refine (wp_bind _ _).mpr (wp_mono (wp_insertDiffoscope
    (I := fun own => Storing r log logs own ∧ EncodedOptional own a.attestation o)
    (fun _ _ h => ⟨h.1.append _, h.2.append _⟩) ⟨h₂.1.1, h₂.2⟩ h₂.1.2) (fun own₃ di h₃ => ?_)
    fun _ _ _ => trivial)
  have hgrow (own : OwnSteps) (x) (h : Storing r log logs own ∧
      InsertedLog own (fun log i => Did own (.insertDiffoscopeLog log) i) a.diffoscope di) :
      Storing r log logs (own ++ [x]) ∧ InsertedLog (own ++ [x])
        (fun log i => Did (own ++ [x]) (.insertDiffoscopeLog log) i) a.diffoscope di := by
    refine ⟨h.1.append _, h.2.1, fun bytes hb => ?_⟩
    obtain ⟨stored, i, hid, henc, hdid⟩ := h.2.2 bytes hb
    exact ⟨stored, i, hid, henc.append _, hdid.append _⟩
  refine (wp_bind _ _).mpr (wp_mono (wp_insertAttestation hgrow ⟨h₃.1.1, h₃.2⟩ h₃.1.2)
    (fun own₄ ai h₄ => ?_) fun _ _ _ => trivial)
  exact ⟨h₄.1.1, ⟨h₄.1.2, h₄.2⟩⟩

/-- The artifact has the logs of the first one of its name: those are stored already, or it is the
first itself. -/
lemma wp_artifactLogs_storing (a : RebuildArtifactReport) (h : Storing r log logs own)
    (hfirst : logs.lookup a.name = none → firstNamed r.artifacts a.name = some a) :
    wp (.journal (refersToReported c)) (Handler.artifactLogs logs a)
      (fun own' out => Storing r log out.2 own' ∧ (a.name, out.1) ∈ out.2 ∧
        (∀ n, (logs.lookup n).isSome = true → (out.2.lookup n).isSome = true) ∧
        (out.2.lookup a.name).isSome = true) (fun _ _ => True) own := by
  unfold Handler.artifactLogs
  split
  · rename_i ids hids
    obtain ⟨pre, post, hlogs, -⟩ := List.lookup_eq_some_iff.mp hids
    refine ⟨h, ?_, fun _ hn => hn, by rw [hids]; rfl⟩
    rw [hlogs]
    simp
  · rename_i hnone
    refine (wp_bind _ _).mpr (wp_mono (wp_insertArtifactLogs a h) (fun own' ids hids => ?_)
      fun _ _ _ => trivial)
    refine ⟨⟨hids.1.build, List.forall_mem_cons.mpr ⟨⟨a, hfirst hnone, hids.2⟩, hids.1.artifacts⟩⟩,
      List.mem_cons_self, fun n hn => ?_, by simp⟩
    rw [List.lookup_cons]
    split
    · rfl
    · exact hn

/-- The artifacts of one friend. -/
lemma wp_recordArtifacts_storing (h : Headers) (rebuild : ℕ) (hstoring : Storing r log logs own) :
    wp (.journal (refersToReported (.submitRebuildReport h r)))
      (r.artifacts.foldlM (Handler.recordArtifact rebuild) logs)
      (fun own' logs' => Storing r log logs' own') (fun _ _ => True) own := by
  have hloop := wp_foldlM (L := .journal (refersToReported (.submitRebuildReport h r)))
    (F := fun _ _ => True) (f := Handler.recordArtifact rebuild)
    (fun own' (logs' : Handler.ArtifactLogs) rest => ∃ done, done ++ rest = r.artifacts ∧
      Storing r log logs' own' ∧ ∀ b ∈ done, (logs'.lookup b.name).isSome = true)
    (fun own' logs' a rest => ?_) r.artifacts logs ⟨[], rfl, hstoring, by simp⟩
  · exact wp_mono hloop (fun own' logs' hend => hend.choose_spec.2.1) fun _ _ _ => trivial
  rintro ⟨done, hdone, hown, hknown⟩
  have hfirst (hnone : logs'.lookup a.name = none) : firstNamed r.artifacts a.name = some a := by
    rw [firstNamed, ← hdone, List.find?_append, List.find?_cons_of_pos (by simp)]
    have hnot : done.find? (·.name == a.name) = none := by
      refine List.find?_eq_none.mpr fun b hb hname => ?_
      have hsome := hknown b hb
      rw [beq_iff_eq.mp hname, hnone] at hsome
      cases hsome
    rw [hnot]
    rfl
  refine (wp_bind _ _).mpr (wp_mono (wp_artifactLogs_storing a hown hfirst) ?_ fun _ _ _ => trivial)
  rintro own₁ ⟨ids, logs₁⟩ ⟨h₁, hmem, hkept, hname⟩
  refine (wp_bind _ _).mpr (wp_sql (fun t => ⟨h, r, rfl, h₁.artifacts _ hmem⟩) (fun t u => ?_)
    fun _ _ => trivial)
  refine ⟨done ++ [a], by simpa using hdone, h₁.append _, fun b hb => ?_⟩
  rcases List.mem_append.mp hb with hb | hb
  · exact hkept _ (hknown b hb)
  · rw [List.mem_singleton.mp hb]
    exact hname

end

/-- A report refers to what it has inserted. -/
lemma wp_submitRebuildReport_reported (cfg : Config) (h : Headers) (r : RebuildReport) :
    wp (.journal (refersToReported (.submitRebuildReport h r))) (Handler.submitRebuildReport cfg h r)
      (fun _ _ => True) (fun _ _ => True) [] := by
  have hother {α : Type} {p : Handler α} {ok : Stmt → Prop} (hp : Only ok p)
      (hok : ∀ s, ok s → s.refersToNothing = true) (own : OwnSteps) :
      wp (.journal (refersToReported (.submitRebuildReport h r))) p (fun _ _ => True)
        (fun _ _ => True) own :=
    keeps_reported (I := fun _ => True) hp hok (fun _ _ _ => trivial) own trivial
  refine (wp_bind _ _).mpr ((wp_attempt _).mpr (wp_mono (hother (only_worker cfg h)
    (fun s hs => by cases s <;> first | rfl | cases hs) []) (fun own w _ => ?_)
    fun _ _ _ => trivial))
  refine (wp_bind _ _).mpr (wp_sql (fun _ => trivial) (fun t q => ?_) fun _ _ => trivial)
  refine (wp_bind _ _).mpr ((wp_bind _ _).mpr (wp_sql (fun _ => trivial) (fun t' friends => ?_)
    fun _ _ => trivial))
  refine (wp_bind _ _).mpr (wp_mono (wp_encode r.buildLog (I := fun _ => True)
    (fun _ _ _ => trivial) trivial) (fun own encoded henc => ?_) fun _ _ _ => trivial)
  refine (wp_bind _ _).mpr (wp_sql (fun _ => trivial) (fun t log => ?_) fun _ _ => trivial)
  have hstart : Storing r log [] (own ++ [⟨t, .insertBuildLog encoded, .ok log⟩]) :=
    ⟨⟨encoded, henc.2.append _, did_last _ _ _ _⟩, by simp⟩
  refine (wp_bind _ _).mpr (wp_mono (wp_foldlM (F := fun _ _ => True)
    (fun own' logs _ => Storing r log logs own')
    (fun own' logs friend _ h' => ?_) friends [] hstart) (fun own' _ _ => ?_) fun _ _ _ => trivial)
  · refine (wp_bind _ _).mpr (wp_sql (fun _ => ⟨h, r, rfl, h'.build⟩) (fun t rebuild => ?_)
      fun _ _ => trivial)
    exact wp_recordArtifacts_storing h rebuild (h'.append _)
  · have hrest : Only (fun s : Stmt => s.refersToNothing = true) (do
        let _ ← sql (.deleteQueued [q.id])
        if r.status ≠ .good then Handler.retry cfg q friends) := by
      refine .bind (.stmt rfl) fun _ => ?_
      split
      · exact (only_retry cfg q friends).mono fun s hs => by cases s <;> first | rfl | cases hs
      · exact .pure _
    exact hother hrest (fun s hs => hs) _

/-- **Handlers refer to the logs of their reports.** -/
lemma handler_refersToReported (cfg : Config) (c : Call) :
    wp (.journal (refersToReported c)) (handler cfg c) (fun _ _ => True) (fun _ _ => True) [] := by
  cases c with
  | submitRebuildReport h r => exact wp_submitRebuildReport_reported cfg h r
  | _ =>
    refine wp_rules (handler_justified cfg _) (fun own t s hs => ?_) fun _ _ _ _ _ h => h
    cases s with
    | insertRebuild | insertRebuildArtifact =>
      obtain ⟨q, h, r, hc, -⟩ := hs
      cases hc
    | commitPackageReport | resetRebuild | resetArtifacts => exact fun h r hc => by cases hc
    | _ => trivial

end Rebuilderd.Daemon
