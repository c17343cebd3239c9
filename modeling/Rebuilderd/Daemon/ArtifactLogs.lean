import Rebuilderd.Daemon.NewRebuilds

/-!
Whose logs the artifacts of a rebuild refer to.

A report stores the logs of an artifact under its name, once for all friends, and looks them up by
that name ever after. So two artifacts of one name have the logs of the first.
-/

namespace Rebuilderd.Daemon

open Rebuilderd.Lib Rebuilderd.Common Prog

/-! ### Logs that say the same -/

/-- The log `c` is sent or stored as `data`: as it is, or compressed. -/
def DecodesTo (z : Zstd) (data c : Bytes) : Prop :=
  if Handler.isZstdCompressed data then ∃ n, ∀ fuel, n ≤ fuel → zstdDecompress z fuel data = some c
  else data = c

/-- The same bytes, or two forms of one log. -/
def SameLog (z : Zstd) (data data' : Bytes) : Prop :=
  data = data' ∨ ∃ c, DecodesTo z data c ∧ DecodesTo z data' c

section
variable {z : Zstd} {Remains : z.Decoder → Bytes → Prop} {env : Env} {data data' c c' : Bytes}

lemma DecodesTo.unique (h : DecodesTo z data c) (h' : DecodesTo z data c') : c = c' := by
  unfold DecodesTo at h h'
  split at h
  · rename_i hzstd
    rw [if_pos hzstd] at h'
    obtain ⟨n, hn⟩ := h
    obtain ⟨m, hm⟩ := h'
    have hboth := hn (n + m) (Nat.le_add_right n m)
    rw [hm (n + m) (Nat.le_add_left m n)] at hboth
    exact (Option.some.inj hboth).symm
  · rename_i hplain
    rw [if_neg hplain] at h'
    exact h.symm.trans h'

lemma decodesTo_compress (hz : z.Lawful Handler.zstdMagic Remains) (c : Bytes) :
    DecodesTo z (zstdCompress z c) c := by
  rw [DecodesTo, if_pos (isZstdCompressed_compress hz c)]
  exact ⟨c.length + 1, fun fuel hfuel => zstdDecompress_compress hz c hfuel⟩

/-- What the daemon stores says the same as what it was sent. -/
lemma sameLog_storedBytes (hz : z.Lawful Handler.zstdMagic Remains) (henv : env.zstd = zstdCompress z) :
    SameLog z (storedBytes env data) data' ↔ SameLog z data data' := by
  rw [storedBytes]
  split
  · rfl
  · rename_i hplain
    have hself : DecodesTo z data data := by rw [DecodesTo, if_neg hplain]
    have hstored : DecodesTo z (env.zstd data) data := henv ▸ decodesTo_compress hz data
    constructor
    · rintro (rfl | ⟨c, hc, hc'⟩)
      · exact .inr ⟨data, hself, hstored⟩
      · exact .inr ⟨data, hself, hstored.unique hc ▸ hc'⟩
    · rintro (rfl | ⟨c, hc, hc'⟩)
      · exact .inr ⟨data, hstored, hself⟩
      · exact .inr ⟨data, hstored, hself.unique hc ▸ hc'⟩

end

/-! ### The artifacts of a report -/

/-- The id is that of a log that says the same, `NULL` if there is no log. -/
def RefersTo (z : Zstd) (logs : List (ℕ × Bytes)) : Option Bytes → Option ℕ → Prop :=
  Option.Rel fun data id => ∃ stored, (id, stored) ∈ logs ∧ SameLog z stored data

/-- The row is of the artifact, and has its logs. -/
structure IsArtifact (z : Zstd) (db : Db) (a : RebuildArtifactReport) (x : RebuildArtifact) : Prop where
  name : x.name = a.name
  status : x.status = some a.status
  diffoscope : RefersTo z db.diffoscopes a.diffoscope x.diffoscopeLogId
  attestation : RefersTo z db.attestations a.attestation x.attestationLogId

/-- The report has left one rebuild more with each friend, which has a row for each artifact of the
report, with the logs of that artifact. -/
def LogsKeptApart (z : Zstd) (r : RebuildReport) (db db' : Db) : Prop :=
  ∀ q ∈ db.queue.rows, q.id = r.queueId → ∀ i ∈ buildInputFriends db q.buildInputId,
    ∃ rb, rebuildsOf db' i = rebuildsOf db i ++ [rb] ∧
      List.Forall₂ (IsArtifact z db') r.artifacts (artifactRowsOf db' rb.id)

/-- Artifacts of one name have the same logs, if any. -/
def SharesLogsByName (z : Zstd) (r : RebuildReport) : Prop :=
  ∀ a ∈ r.artifacts, ∀ b, firstNamed r.artifacts a.name = some b →
    Option.Rel (SameLog z) b.diffoscope a.diffoscope ∧ Option.Rel (SameLog z) b.attestation a.attestation

section
variable {z : Zstd} {Remains : z.Decoder → Bytes → Prop} {env : Env} {r : RebuildReport} {db db' : Db}

lemma forall₂_of_mem {α β : Type} {R S : α → β → Prop} {as : List α} {bs : List β}
    (h : List.Forall₂ R as bs) (hS : ∀ a ∈ as, ∀ b ∈ bs, R a b → S a b) : List.Forall₂ S as bs := by
  induction h with
  | nil => exact .nil
  | cons hab _ ih =>
    refine .cons (hS _ List.mem_cons_self _ List.mem_cons_self hab) (ih fun a ha b hb => ?_)
    exact hS a (List.mem_cons_of_mem _ ha) b (List.mem_cons_of_mem _ hb)

/-- A key names one log. -/
lemma log_unique {ρ : Type} [Row ρ] {t : Table ρ} (log : ρ → Bytes) {id : ℕ} {bytes bytes' : Bytes}
    (h : (id, bytes) ∈ t.rows.map fun x => (key x, log x))
    (h' : (id, bytes') ∈ t.rows.map fun x => (key x, log x)) : bytes = bytes' := by
  obtain ⟨l, hl, heq⟩ := List.mem_map.mp h
  obtain ⟨l', hl', heq'⟩ := List.mem_map.mp h'
  obtain ⟨hid, hlog⟩ := Prod.ext_iff.mp heq
  obtain ⟨hid', hlog'⟩ := Prod.ext_iff.mp heq'
  obtain rfl := Table.eq_of_key hl hl' (hid.trans hid'.symm)
  exact hlog.symm.trans hlog'

lemma diffoscopes_unique {id : ℕ} {log log' : Bytes} (h : (id, log) ∈ db.diffoscopes)
    (h' : (id, log') ∈ db.diffoscopes) : log = log' :=
  log_unique (t := db.diffoscopeLogs) DiffoscopeLog.diffoscopeLog h h'

lemma attestations_unique {id : ℕ} {log log' : Bytes} (h : (id, log) ∈ db.attestations)
    (h' : (id, log') ∈ db.attestations) : log = log' :=
  log_unique (t := db.attestationLogs) AttestationLog.attestationLog h h'

/-- A row that has the log `data` refers to `data'` if these say the same. -/
lemma refersTo_iff (hz : z.Lawful Handler.zstdMagic Remains) (henv : env.zstd = zstdCompress z)
    {logs : List (ℕ × Bytes)}
    (hlogs : ∀ {id log log'}, (id, log) ∈ logs → (id, log') ∈ logs → log = log')
    {data data' : Option Bytes} {id : Option ℕ} (h : KeepsLog env logs data id) :
    RefersTo z logs data' id ↔ Option.Rel (SameLog z) data data' := by
  cases h with
  | none =>
    constructor <;> rintro ⟨⟩ <;> exact .none
  | some h =>
    constructor
    · rintro (⟨⟨stored, hin, hsame⟩⟩ | _)
      obtain rfl := hlogs h hin
      exact .some ((sameLog_storedBytes hz henv).mp hsame)
    · rintro (⟨hsame⟩ | _)
      exact .some ⟨_, h, (sameLog_storedBytes hz henv).mpr hsame⟩

/-- If artifacts of one name have the same logs, no logs are mixed up. -/
lemma LogsKeptApart.of_shares (hz : z.Lawful Handler.zstdMagic Remains)
    (henv : env.zstd = zstdCompress z) {q : Queued} (hq : q ∈ db.queue.rows)
    (hid : q.id = r.queueId)
    (hnew : ∀ i ∈ buildInputFriends db q.buildInputId, ∃ rb, NewRebuildOf env r q db db' i rb)
    (hshares : SharesLogsByName z r) : LogsKeptApart z r db db' := by
  intro q' hq' hid' i hi
  obtain rfl := Table.eq_of_key hq hq' (hid.trans hid'.symm)
  obtain ⟨rb, hrb⟩ := hnew i hi
  refine ⟨rb, hrb.last, ?_⟩
  have hshape : List.Forall₂ (fun a x => (a.name, some a.status) = (x.name, x.status)) r.artifacts
      (artifactRowsOf db' rb.id) := by
    rw [← List.forall₂_map_right_iff (f := fun x : RebuildArtifact => (x.name, x.status)),
      hrb.artifacts, List.forall₂_map_right_iff]
    exact List.forall₂_same.mpr fun _ _ => rfl
  refine forall₂_of_mem hshape fun a ha x hx heq => ?_
  obtain ⟨hname, hstatus⟩ : a.name = x.name ∧ some a.status = x.status := Prod.ext_iff.mp heq
  obtain ⟨b, hb, hdiffoscope, hattestation⟩ := hrb.logs x hx
  obtain ⟨hsameD, hsameA⟩ := hshares a ha b (hname ▸ hb)
  exact ⟨hname.symm, hstatus.symm, (refersTo_iff hz henv diffoscopes_unique hdiffoscope).mpr hsameD,
    (refersTo_iff hz henv attestations_unique hattestation).mpr hsameA⟩

/-- The build input of a job is one of its friends. -/
lemma friend_of_queued (hdb : Reachable env db) {q : Queued} (hq : q ∈ db.queue.rows) :
    q.buildInputId ∈ buildInputFriends db q.buildInputId := by
  obtain ⟨s, g, hin⟩ := reachable_queueInput hdb q hq
  obtain ⟨b, hb, hid, -⟩ := mem_inputs.mp hin
  exact hid ▸ self_mem_buildInputFriends hb

/-- If logs are not mixed up, artifacts of one name have the same logs. -/
lemma LogsKeptApart.shares (hz : z.Lawful Handler.zstdMagic Remains)
    (henv : env.zstd = zstdCompress z) (hdb : Reachable env db) {hd : Headers} {t : ℕ → Time}
    (hok : (serve (exec env) (handler env.config) db (.submitRebuildReport hd r, t)).1 =
      .ok .noContent)
    (h : LogsKeptApart z r db (served env db (.submitRebuildReport hd r, t))) :
    SharesLogsByName z r := by
  intro a ha b hb
  obtain ⟨q, hq, hid, -, hnew⟩ := served_newRebuilds (reachable_fresh hdb) hok
  have hself := friend_of_queued hdb hq
  obtain ⟨rb, hlast, hrows⟩ := h q hq hid _ hself
  obtain ⟨rb', hrb'⟩ := hnew _ hself
  obtain rfl : rb = rb' := by simpa using hlast.symm.trans hrb'.last
  obtain ⟨x, hx, hax⟩ := exists_of_forall₂ hrows ha
  obtain ⟨b', hb', hdiffoscope, hattestation⟩ := hrb'.logs x hx
  obtain rfl := Option.some.inj (hb.symm.trans (hax.name ▸ hb'))
  exact ⟨(refersTo_iff hz henv diffoscopes_unique hdiffoscope).mp hax.diffoscope,
    (refersTo_iff hz henv attestations_unique hattestation).mp hax.attestation⟩

end

/-- **When the logs of artifacts are not mixed up**, for every report that is accepted in a reachable
database: exactly if artifacts of one name have the same logs. -/
theorem logsKeptApart_iff (z : Zstd) (Remains : z.Decoder → Bytes → Prop)
    (hz : z.Lawful Handler.zstdMagic Remains) (env : Env) (henv : env.zstd = zstdCompress z)
    (db : Db) (hdb : Reachable env db) (h : Headers) (r : RebuildReport) (t : ℕ → Time)
    (hok : (serve (exec env) (handler env.config) db (.submitRebuildReport h r, t)).1 =
      .ok .noContent) :
    LogsKeptApart z r db (served env db (.submitRebuildReport h r, t)) ↔ SharesLogsByName z r := by
  refine ⟨fun hkept => hkept.shares hz henv hdb hok, fun hshares => ?_⟩
  obtain ⟨q, hq, hid, -, hnew⟩ := served_newRebuilds (reachable_fresh hdb) hok
  exact .of_shares hz henv hq hid hnew hshares

/-- The daemon with the stand-in for zstd. -/
def plainDaemon : Env := { openDaemon none with zstd := zstdCompress plainZstd }

/-- Two versions of `hello` were built, and only the second differs. -/
def secondDiffers : RebuildReport :=
  ⟨1, 15, [], .bad, [⟨"hello", none, none, .good⟩, ⟨"hello", some Handler.zstdMagic, none, .bad⟩]⟩

theorem logsKeptApart_iff_handedOut :
    LogsKeptApart plainZstd ⟨1, 15, [], .good, [⟨"hello", none, none, .good⟩]⟩
        (runPool plainDaemon handedOut).state
        (served plainDaemon (runPool plainDaemon handedOut).state
          (.submitRebuildReport (workerHeaders "alice")
            ⟨1, 15, [], .good, [⟨"hello", none, none, .good⟩]⟩, fun _ => 20 * second)) ↔
      SharesLogsByName plainZstd ⟨1, 15, [], .good, [⟨"hello", none, none, .good⟩]⟩ :=
  logsKeptApart_iff plainZstd (fun d rest => d = rest) plainZstd_lawful plainDaemon rfl
    (runPool plainDaemon handedOut).state ⟨handedOut, rfl⟩ (workerHeaders "alice")
    ⟨1, 15, [], .good, [⟨"hello", none, none, .good⟩]⟩ (fun _ => 20 * second) (by decide +kernel)

lemma not_shares_secondDiffers : ¬ SharesLogsByName plainZstd secondDiffers := by
  intro h
  obtain ⟨hdiffoscope, -⟩ := h ⟨"hello", some Handler.zstdMagic, none, .bad⟩ (by simp [secondDiffers])
    ⟨"hello", none, none, .good⟩ (by decide +kernel)
  cases hdiffoscope

/-- **The diffoscope of the second version is lost.** -/
theorem logs_mixedUp :
    let db := (runPool plainDaemon handedOut).state
    let report : Request :=
      (.submitRebuildReport (workerHeaders "alice") secondDiffers, fun _ => 20 * second)
    (serve (exec plainDaemon) (handler plainDaemon.config) db report).1 = .ok .noContent ∧
      ¬ LogsKeptApart plainZstd secondDiffers db (served plainDaemon db report) := by
  have haccepted : (serve (exec plainDaemon) (handler plainDaemon.config)
      (runPool plainDaemon handedOut).state (.submitRebuildReport (workerHeaders "alice")
        secondDiffers, fun _ => 20 * second)).1 = .ok .noContent := by
    decide +kernel
  exact ⟨haccepted, fun hkept => not_shares_secondDiffers
    (hkept.shares plainZstd_lawful rfl ⟨handedOut, rfl⟩ haccepted)⟩

end Rebuilderd.Daemon
