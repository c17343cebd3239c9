import Rebuilderd.Daemon.LogRoundTrip

/-!
Attestations that the daemon signs as they are asked for.

The first request for an attestation without a signature of the daemon's key rewrites its row. The
requests after that find the signature, and leave the row as it is.
-/

namespace Rebuilderd.Daemon.Signing

open Rebuilderd.Lib Rebuilderd.Common

/-! ### Attestations -/

/-- Metadata and its signatures. -/
structure Metablock (Signature Metadata : Type) where
  signatures : List Signature
  metadata : Metadata

/-- The library for attestations. -/
structure InToto where
  Metadata : Type
  Signature : Type
  PrivateKey : Type
  keyId : Signature → String
  publicKeyId : PrivateKey → String
  /-- Signs the metadata with each of the keys. -/
  new : Metadata → List PrivateKey → Option (Metablock Signature Metadata)
  parse : Bytes → Option (Metablock Signature Metadata)
  serialize : Metablock Signature Metadata → Option Bytes

/-- A key makes one signature, and what is serialized is parsed as it was. -/
structure InToto.Lawful (T : InToto) : Prop where
  new_one : ∀ metadata key, ∃ sig, T.new metadata [key] = some ⟨[sig], metadata⟩ ∧
    T.keyId sig = T.publicKeyId key
  parse_serialize : ∀ m, ∃ text, T.serialize m = some text ∧ T.parse text = some m

/-- The daemon, with its configuration and the client's headers negotiated. -/
structure Server where
  inToto : InToto
  privateKey : inToto.PrivateKey
  z : Zstd
  fuel : ℕ
  negotiate : Negotiate
  transparentlySignAttestations : Bool

namespace Server

variable (s : Server)

abbrev Attestation := Metablock s.inToto.Signature s.inToto.Metadata

def hasSignature (m : s.Attestation) : Bool :=
  m.signatures.any fun sig => s.inToto.keyId sig == s.inToto.publicKeyId s.privateKey

def sign (m : s.Attestation) : Option s.Attestation := do
  let new ← s.inToto.new m.metadata [s.privateKey]
  return ⟨m.signatures ++ new.signatures, m.metadata⟩

def toCompressedBytes (m : s.Attestation) : Option Bytes := do
  return zstdCompress s.z (← s.inToto.serialize m)

/-- The text of a stored attestation. -/
def decompressed (bytes : Bytes) : Option Bytes :=
  if Handler.isZstdCompressed bytes then zstdDecompress s.z s.fuel bytes else some bytes

/-- The attestation that is stored. -/
def read (bytes : Bytes) : Option s.Attestation := do
  s.inToto.parse (← s.decompressed bytes)

/-- The bytes, and whether they are new. -/
def compressedAttestationSignIfNecessary (bytes : Bytes) : Option (Bytes × Bool) := do
  let attestation ← s.read bytes
  if s.hasSignature attestation then return (bytes, false)
  else
    let signed ← s.sign attestation
    return (← s.toCompressedBytes signed, true)

end Server

/-! ### The endpoint -/

/-- A request for the attestation of an artifact. -/
structure Get where
  id : ℕ
  artifactId : ℕ
  accept : Option String

def writeAttestation (id : ℕ) (bytes : Bytes) (db : Db) : Db :=
  { db with attestationLogs :=
      db.attestationLogs.update (·.id == id) fun l => { l with attestationLog := bytes } }

/-- The answer, and the rows of the attestation logs that are written. -/
def getBuildArtifactAttestation (s : Server) (g : Get) (db : Db) :
    LogAnswer × List (ℕ × Bytes) :=
  let forward := forwardCompressedData s.z s.fuel s.negotiate g.accept
    "application/json; charset=utf-8"
  match (V1.artifactLog (·.attestationLogId) db.attestations g.id g.artifactId db).head?.join with
  | none => (.notFound, [])
  | some attestation =>
    if s.transparentlySignAttestations then
      match s.compressedAttestationSignIfNecessary attestation with
      | none => (.failed, [])
      | some (bytes, hasNewSignature) =>
        if hasNewSignature then
          match (db.rebuildArtifacts.rows.find? (·.id == g.artifactId)).bind (·.attestationLogId) with
          | none => (.failed, [])
          | some attestationId => (forward bytes, [(attestationId, bytes)])
        else (forward attestation, [])
    else (forward attestation, [])

/-- The database after a request. -/
def afterGet (s : Server) (db : Db) (g : Get) : Db :=
  (getBuildArtifactAttestation s g db).2.foldl (fun db w => writeAttestation w.1 w.2 db) db

/-- The database after requests that come one after the other. -/
def afterGets (s : Server) (gs : List Get) (db : Db) : Db := gs.foldl (afterGet s) db

/-! ### Signing once -/

/-- The row `l` has the attestation of the artifact. -/
structure Holds (db : Db) (g : Get) (l : AttestationLog) : Prop where
  row : l ∈ db.attestationLogs.rows
  artifact : ∃ r ∈ db.rebuilds.rows, r.id = g.id ∧ ∃ a ∈ db.rebuildArtifacts.rows,
    a.rebuildId = r.id ∧ a.id = g.artifactId ∧ a.attestationLogId = some l.id

/-- The same metadata and signatures, and one of the daemon's key after them if there was none. -/
def Signed (s : Server) (m m' : s.Attestation) : Prop :=
  m'.metadata = m.metadata ∧
    if s.hasSignature m then m'.signatures = m.signatures
    else ∃ sig, s.inToto.keyId sig = s.inToto.publicKeyId s.privateKey ∧
      m'.signatures = m.signatures ++ [sig]

/-- The answer carries the attestation. -/
def Carries (s : Server) (answer : LogAnswer) (m : s.Attestation) : Prop :=
  ∃ text, Decodes s.z answer text ∧ s.inToto.parse text = some m

/-- The first request for the attestation in the row `l` stores and returns it signed, the later ones
write nothing and return the same, and no other row changes. -/
structure SignedOnce (s : Server) (db : Db) (g : Get) (l : AttestationLog) (m : s.Attestation) :
    Prop where
  first : ∃ m' bytes, Signed s m m' ∧ s.read bytes = some m' ∧
    Carries s (getBuildArtifactAttestation s g db).1 m' ∧
    Holds (afterGet s db g) g ⟨l.id, bytes⟩ ∧
    (getBuildArtifactAttestation s g db).2 = if s.hasSignature m then [] else [(l.id, bytes)]
  later : ∀ gs again, again.id = g.id → again.artifactId = g.artifactId →
    (getBuildArtifactAttestation s again (afterGets s (g :: gs) db)).2 = [] ∧
      (again.accept = g.accept →
        (getBuildArtifactAttestation s again (afterGets s (g :: gs) db)).1 =
          (getBuildArtifactAttestation s g db).1)
  others : ∀ gs, (∀ g' ∈ gs, g'.id = g.id ∧ g'.artifactId = g.artifactId) →
    (afterGets s (g :: gs) db).attestationLogs.rows.filter (·.id != l.id) =
      db.attestationLogs.rows.filter (·.id != l.id)

/-! ### Rows -/

section
variable {s : Server} {db : Db} {g : Get} {l : AttestationLog}

lemma Holds.log (h : Holds db g l) : (V1.artifactLog (·.attestationLogId) db.attestations g.id
    g.artifactId db).head?.join = some l.attestationLog := by
  obtain ⟨r, hr, hid, a, ha, hrebuild, haid, hlog⟩ := h.artifact
  have hlogs := filter_log h.row AttestationLog.attestationLog
  rw [← hid, ← haid, artifactLog_eq hr ha hrebuild (by rw [hlog]; exact hlogs)]
  rfl

lemma Holds.logId (h : Holds db g l) :
    (db.rebuildArtifacts.rows.find? (·.id == g.artifactId)).bind (·.attestationLogId) = some l.id := by
  obtain ⟨r, hr, hid, a, ha, hrebuild, haid, hlog⟩ := h.artifact
  have hfind : db.rebuildArtifacts.rows.find? (·.id == g.artifactId) = some a := by
    rw [← haid]
    exact Table.find_key ha
  rw [hfind]
  exact hlog

/-- The log of an artifact is that of a row. -/
lemma exists_holds {bytes : Bytes} (h : (V1.artifactLog (·.attestationLogId) db.attestations g.id
    g.artifactId db).head?.join = some bytes) : ∃ l, Holds db g l ∧ l.attestationLog = bytes := by
  have hmem := List.mem_of_mem_head? (Option.join_eq_some_iff.mp h)
  simp only [V1.artifactLog, List.bind_eq_flatMap, List.pure_def, List.mem_flatMap, List.mem_filter,
    List.mem_singleton, Bool.and_eq_true, beq_iff_eq] at hmem
  obtain ⟨r, ⟨hr, hid⟩, a, ⟨ha, hrebuild, haid⟩, o, ho, hbytes⟩ := hmem
  obtain ⟨x, rfl, rfl⟩ := Option.map_eq_some_iff.mp hbytes.symm
  rcases mem_leftJoin.mp ho with ⟨x', hx, hlog, heq⟩ | ⟨-, hnone⟩
  · cases heq
    obtain ⟨l, hl, rfl⟩ := List.mem_map.mp hx
    exact ⟨l, ⟨hl, r, hr, hid, a, ha, hrebuild, haid, beq_iff_eq.mp hlog⟩, rfl⟩
  · cases hnone

lemma Holds.writeAttestation_self (h : Holds db g l) (bytes : Bytes) :
    Holds (writeAttestation l.id bytes db) g ⟨l.id, bytes⟩ := by
  exact ⟨List.mem_map.mpr ⟨l, h.row, if_pos (beq_self_eq_true _)⟩, h.artifact⟩

lemma Holds.writeAttestation_other (h : Holds db g l) {id : ℕ} (hid : l.id ≠ id) (bytes : Bytes) :
    Holds (writeAttestation id bytes db) g l :=
  ⟨List.mem_map.mpr ⟨l, h.row, if_neg (by simpa using hid)⟩, h.artifact⟩

lemma filter_writeAttestation (id : ℕ) (bytes : Bytes) (db : Db) :
    (writeAttestation id bytes db).attestationLogs.rows.filter (·.id != id) =
      db.attestationLogs.rows.filter (·.id != id) := by
  change (db.attestationLogs.rows.map _).filter _ = _
  induction db.attestationLogs.rows with
  | nil => rfl
  | cons l ls ih =>
    rw [List.map_cons, List.filter_cons, List.filter_cons, ih]
    by_cases hl : l.id = id
    · simp [hl]
    · simp [hl]

lemma Holds.eq {l' : AttestationLog} (h : Holds db g l) (h' : Holds db g l') : l = l' := by
  refine Table.eq_of_key h.row h'.row (Option.some.inj ?_)
  exact h.logId.symm.trans h'.logId

end

/-! ### Requests -/

section
variable {s : Server} {Remains : s.z.Decoder → Bytes → Prop} {db : Db} {g : Get} {l : AttestationLog}
  {m : s.Attestation}

/-- A signed attestation is answered as it is. -/
lemma get_signed (hsigns : s.transparentlySignAttestations = true) (h : Holds db g l)
    (hm : s.read l.attestationLog = some m) (hsig : s.hasSignature m = true) :
    getBuildArtifactAttestation s g db = (forwardCompressedData s.z s.fuel s.negotiate g.accept
      "application/json; charset=utf-8" l.attestationLog, []) := by
  have hnecessary : s.compressedAttestationSignIfNecessary l.attestationLog =
      some (l.attestationLog, false) := by
    rw [Server.compressedAttestationSignIfNecessary, hm, Option.bind_eq_bind, Option.bind_some,
      if_pos hsig]
    rfl
  unfold getBuildArtifactAttestation
  simp only [h.log, hsigns, hnecessary, if_true, Bool.false_eq_true, if_false]

/-- Another one is answered with a signature of the daemon's key, and written to its row. -/
lemma get_unsigned_new (hT : s.inToto.Lawful) (hsigns : s.transparentlySignAttestations = true)
    (h : Holds db g l) (hm : s.read l.attestationLog = some m) (hsig : s.hasSignature m = false) :
    ∃ sig text, s.inToto.keyId sig = s.inToto.publicKeyId s.privateKey ∧
      s.sign m = some ⟨m.signatures ++ [sig], m.metadata⟩ ∧
      s.inToto.serialize ⟨m.signatures ++ [sig], m.metadata⟩ = some text ∧
      s.inToto.parse text = some ⟨m.signatures ++ [sig], m.metadata⟩ ∧
      getBuildArtifactAttestation s g db = (forwardCompressedData s.z s.fuel s.negotiate g.accept
        "application/json; charset=utf-8" (zstdCompress s.z text),
          [(l.id, zstdCompress s.z text)]) := by
  obtain ⟨sig, hnew, hkey⟩ := hT.new_one m.metadata s.privateKey
  obtain ⟨text, htext, hparse⟩ := hT.parse_serialize ⟨m.signatures ++ [sig], m.metadata⟩
  have hsign : s.sign m = some ⟨m.signatures ++ [sig], m.metadata⟩ := by
    rw [Server.sign, hnew]
    rfl
  refine ⟨sig, text, hkey, hsign, htext, hparse, ?_⟩
  have hcompressed : s.toCompressedBytes ⟨m.signatures ++ [sig], m.metadata⟩ =
      some (zstdCompress s.z text) := by
    rw [Server.toCompressedBytes, htext]
    rfl
  have hnecessary : s.compressedAttestationSignIfNecessary l.attestationLog =
      some (zstdCompress s.z text, true) := by
    rw [Server.compressedAttestationSignIfNecessary, hm, Option.bind_eq_bind, Option.bind_some,
      if_neg (by simp [hsig]), hsign]
    simp [hcompressed]
  unfold getBuildArtifactAttestation
  simp only [h.log, hsigns, hnecessary, if_true, h.logId]

/-- New bytes are those of an attestation that was not signed. -/
lemma unsigned_of_new {bytes bytes' : Bytes}
    (h : s.compressedAttestationSignIfNecessary bytes = some (bytes', true)) :
    ∃ m, s.read bytes = some m ∧ s.hasSignature m = false := by
  obtain ⟨m, hm, hrest⟩ := Option.bind_eq_some_iff.mp h
  refine ⟨m, hm, ?_⟩
  by_contra hsig
  rw [if_pos (by simpa using hsig)] at hrest
  cases hrest

/-- What a request writes: the row of an attestation that is not signed. -/
lemma writes_cases (s : Server) (db : Db) (g : Get) :
    (getBuildArtifactAttestation s g db).2 = [] ∨ ∃ l m bytes, Holds db g l ∧
      s.read l.attestationLog = some m ∧ s.hasSignature m = false ∧
        (getBuildArtifactAttestation s g db).2 = [(l.id, bytes)] := by
  unfold getBuildArtifactAttestation
  dsimp only
  split
  · exact .inl rfl
  · rename_i attestation hlog
    obtain ⟨l, hl, rfl⟩ := exists_holds hlog
    split
    · split
      · exact .inl rfl
      · rename_i bytes new hnew
        split
        · rename_i htrue
          rw [htrue] at hnew
          obtain ⟨m, hm, hsig⟩ := unsigned_of_new hnew
          rw [hl.logId]
          exact .inr ⟨l, m, bytes, hl, hm, hsig, rfl⟩
        · exact .inl rfl
    · exact .inl rfl

/-- The row `l` keeps a signed attestation. -/
structure Settled (s : Server) (g : Get) (l : AttestationLog) (db : Db) : Prop where
  holds : Holds db g l
  signed : ∃ m, s.read l.attestationLog = some m ∧ s.hasSignature m = true

lemma Settled.afterGet (h : Settled s g l db) (g' : Get) : Settled s g l (afterGet s db g') := by
  unfold Signing.afterGet
  rcases writes_cases s db g' with hnone | ⟨l', m', bytes, hl', hm', hsig', hwrite⟩
  · rw [hnone]
    exact h
  · rw [hwrite]
    refine ⟨h.holds.writeAttestation_other (fun hid => ?_) bytes, h.signed⟩
    -- The row that is written had no signature yet.
    obtain ⟨m, hm, hsig⟩ := h.signed
    obtain rfl := Table.eq_of_key h.holds.row hl'.row hid
    rw [Option.some.inj (hm.symm.trans hm'), hsig'] at hsig
    cases hsig

lemma Settled.afterGets (h : Settled s g l db) (gs : List Get) : Settled s g l (afterGets s gs db) := by
  induction gs generalizing db with
  | nil => exact h
  | cons g' gs ih => exact ih (h.afterGet g')

/-- Whatever encoding is negotiated, the answer carries what is stored. -/
lemma carries_forward {bytes : Bytes} {accept : Option String} (hm : s.read bytes = some m) :
    Carries s (forwardCompressedData s.z s.fuel s.negotiate accept "application/json; charset=utf-8"
      bytes) m := by
  obtain ⟨text, htext, hparse⟩ := Option.bind_eq_some_iff.mp hm
  exact ⟨text, forward_decodes_stored htext _ _ _, hparse⟩

lemma Holds.congr {g' : Get} (h : Holds db g l) (hid : g'.id = g.id)
    (hartifact : g'.artifactId = g.artifactId) : Holds db g' l :=
  ⟨h.row, hid ▸ hartifact ▸ h.artifact⟩

/-- Requests for a signed attestation write nothing. -/
lemma afterGets_signed (hsigns : s.transparentlySignAttestations = true) (h : Holds db g l)
    (hm : s.read l.attestationLog = some m) (hsig : s.hasSignature m = true) {gs : List Get}
    (hgs : ∀ g' ∈ gs, g'.id = g.id ∧ g'.artifactId = g.artifactId) : afterGets s gs db = db := by
  induction gs with
  | nil => rfl
  | cons g' gs ih =>
    have hsame := hgs g' List.mem_cons_self
    have hget : afterGet s db g' = db := by
      rw [afterGet, get_signed hsigns (h.congr hsame.1 hsame.2) hm hsig]
      rfl
    rw [afterGets, List.foldl_cons, hget]
    exact ih fun g'' hg'' => hgs g'' (List.mem_cons_of_mem g' hg'')

/-- What holds once the first request has left a signed attestation in the row. -/
lemma signedOnce_of_first {bytes : Bytes} {m' : s.Attestation}
    (hsigns : s.transparentlySignAttestations = true) (hsigned : Signed s m m')
    (hread : s.read bytes = some m') (hsig : s.hasSignature m' = true)
    (hanswer : (getBuildArtifactAttestation s g db).1 = forwardCompressedData s.z s.fuel s.negotiate
      g.accept "application/json; charset=utf-8" bytes)
    (hwrites : (getBuildArtifactAttestation s g db).2 =
      if s.hasSignature m then [] else [(l.id, bytes)])
    (hafter : Holds (afterGet s db g) g ⟨l.id, bytes⟩) : SignedOnce s db g l m := by
  refine ⟨⟨m', bytes, hsigned, hread, ?_, hafter, hwrites⟩, fun gs again hid hartifact => ?_,
    fun gs hgs => ?_⟩
  · rw [hanswer]
    exact carries_forward hread
  · have hsettled : Settled s g ⟨l.id, bytes⟩ (afterGets s (g :: gs) db) :=
      Settled.afterGets ⟨hafter, m', hread, hsig⟩ gs
    rw [get_signed hsigns (hsettled.holds.congr hid hartifact) hread hsig]
    refine ⟨rfl, fun haccept => ?_⟩
    rw [hanswer, haccept]
  · change (afterGets s gs (afterGet s db g)).attestationLogs.rows.filter _ = _
    rw [afterGets_signed hsigns hafter hread hsig hgs, afterGet, hwrites]
    split
    · rfl
    · exact filter_writeAttestation l.id bytes db

end

/-- **An attestation is signed once**: by the first request for it, unless it has a signature of the
daemon's key. -/
theorem attestation_signedOnce (s : Server) (Remains : s.z.Decoder → Bytes → Prop)
    (hz : s.z.Lawful Handler.zstdMagic Remains) (hT : s.inToto.Lawful)
    (hsigns : s.transparentlySignAttestations = true) (db : Db) (g : Get) (l : AttestationLog)
    (m : s.Attestation) (h : Holds db g l) (hm : s.read l.attestationLog = some m)
    (hfuel : ∀ m' text, s.sign m = some m' → s.inToto.serialize m' = some text →
      text.length < s.fuel) :
    SignedOnce s db g l m := by
  rcases hsig : s.hasSignature m with _ | _
  · obtain ⟨sig, text, hkey, hsign, htext, hparse, hget⟩ := get_unsigned_new hT hsigns h hm hsig
    have hsigned : Signed s m ⟨m.signatures ++ [sig], m.metadata⟩ := by
      refine ⟨rfl, ?_⟩
      rw [if_neg (by simp [hsig])]
      exact ⟨sig, hkey, rfl⟩
    have hread : s.read (zstdCompress s.z text) = some ⟨m.signatures ++ [sig], m.metadata⟩ := by
      rw [Server.read, Server.decompressed, if_pos (isZstdCompressed_compress hz text),
        zstdDecompress_compress hz text (hfuel _ text hsign htext)]
      exact hparse
    refine signedOnce_of_first hsigns hsigned hread ?_ (congrArg Prod.fst hget) ?_ ?_
    · simp [Server.hasSignature, hkey]
    · rw [hget, hsig]
      rfl
    · rw [afterGet, hget]
      exact h.writeAttestation_self _
  · have hget := get_signed hsigns h hm hsig
    have hsigned : Signed s m m := ⟨rfl, by rw [if_pos hsig]⟩
    refine signedOnce_of_first hsigns hsigned hm hsig (congrArg Prod.fst hget) ?_ ?_
    · rw [hget, hsig]
      rfl
    · rw [afterGet, hget]
      exact h

/-! ### Attestations in JSON -/

def hexDigit (n : ℕ) : UInt8 := UInt8.ofNat (if n < 10 then 0x30 + n else 0x57 + n)

def fromHexDigit (b : UInt8) : ℕ := if b < 0x3A then b.toNat - 0x30 else b.toNat - 0x57

def hex (bs : Bytes) : Bytes := bs.flatMap fun b => [hexDigit (b.toNat / 16), hexDigit (b.toNat % 16)]

/-- The bytes up to the closing quote, and what follows it. -/
def unhex : Bytes → Option (Bytes × Bytes)
  | 0x22 :: rest => some ([], rest)
  | hi :: lo :: rest => do
    let (bs, rest) ← unhex rest
    return (UInt8.ofNat (16 * fromHexDigit hi + fromHexDigit lo) :: bs, rest)
  | _ => none

def ascii (text : String) : Bytes := text.toUTF8.data.toList

def strip (p bs : Bytes) : Option Bytes := if p.isPrefixOf bs then some (bs.drop p.length) else none

/-- The key id and the signature. -/
abbrev JsonSignature := Bytes × Bytes

def signatureText (sig : JsonSignature) : Bytes :=
  ascii "\x7b\"keyid\":\"" ++ hex sig.1 ++ 0x22 :: (ascii ",\"sig\":\"" ++ hex sig.2 ++
    0x22 :: ascii "\x7d")

def parseSignature (bs : Bytes) : Option (JsonSignature × Bytes) := do
  let bs ← strip (ascii "\x7b\"keyid\":\"") bs
  let (keyid, bs) ← unhex bs
  let bs ← strip (ascii ",\"sig\":\"") bs
  let (sig, bs) ← unhex bs
  let bs ← strip (ascii "\x7d") bs
  return ((keyid, sig), bs)

/-- The signatures after the first one, and the end of the list. -/
def moreText : List JsonSignature → Bytes
  | [] => [0x5D]
  | sig :: sigs => 0x2C :: (signatureText sig ++ moreText sigs)

def parseMore : ℕ → Bytes → Option (List JsonSignature × Bytes)
  | _, 0x5D :: bs => some ([], bs)
  | fuel + 1, 0x2C :: bs => do
    let (sig, bs) ← parseSignature bs
    let (sigs, bs) ← parseMore fuel bs
    return (sig :: sigs, bs)
  | _, _ => none

def signaturesText : List JsonSignature → Bytes
  | [] => [0x5D]
  | sig :: sigs => signatureText sig ++ moreText sigs

def parseSignatures : Bytes → Option (List JsonSignature × Bytes)
  | 0x5D :: bs => some ([], bs)
  | bs => do
    let (sig, bs) ← parseSignature bs
    let (sigs, bs) ← parseMore bs.length bs
    return (sig :: sigs, bs)

/-- The metadata is kept as its text. -/
def attestationText (m : Metablock JsonSignature Bytes) : Bytes :=
  ascii "\x7b\"signatures\":[" ++ (signaturesText m.signatures ++ (ascii ",\"signed\":" ++
    (m.metadata ++ [0x7D])))

def parseAttestation (bs : Bytes) : Option (Metablock JsonSignature Bytes) := do
  let bs ← strip (ascii "\x7b\"signatures\":[") bs
  let (sigs, bs) ← parseSignatures bs
  let bs ← strip (ascii ",\"signed\":") bs
  if bs.getLast? = some 0x7D then return ⟨sigs, bs.dropLast⟩ else none

/-- Attestations with key ids and signatures in hexadecimal; a key signs with its own bytes and those
of the metadata. -/
def jsonInToto : InToto where
  Metadata := Bytes
  Signature := JsonSignature
  PrivateKey := Bytes
  keyId sig := String.ofList ((hex sig.1).map fun b => Char.ofNat b.toNat)
  publicKeyId key := String.ofList ((hex key).map fun b => Char.ofNat b.toNat)
  new metadata keys := some ⟨keys.map fun key => (key, key ++ metadata), metadata⟩
  parse := parseAttestation
  serialize m := some (attestationText m)

lemma strip_append (p bs : Bytes) : strip p (p ++ bs) = some bs := by
  rw [strip, if_pos (List.isPrefixOf_iff_prefix.mpr (List.prefix_append _ _)), List.drop_left]

lemma fromHexDigit_hexDigit : ∀ n < 16, fromHexDigit (hexDigit n) = n ∧ hexDigit n ≠ 0x22 := by
  decide

lemma unhex_hex (bs rest : Bytes) : unhex (hex bs ++ 0x22 :: rest) = some (bs, rest) := by
  induction bs with
  | nil => rfl
  | cons b bs ih =>
    obtain ⟨hhi, hquote⟩ := fromHexDigit_hexDigit (b.toNat / 16) (by have := b.toNat_lt; omega)
    obtain ⟨hlo, -⟩ := fromHexDigit_hexDigit (b.toNat % 16) (Nat.mod_lt _ (by decide))
    change unhex (hexDigit (b.toNat / 16) :: hexDigit (b.toNat % 16) :: (hex bs ++ 0x22 :: rest)) = _
    rw [unhex, ih, hhi, hlo, Nat.div_add_mod]
    · simp
    · exact hquote

lemma parseSignature_text (sig : JsonSignature) (rest : Bytes) :
    parseSignature (signatureText sig ++ rest) = some (sig, rest) := by
  unfold parseSignature signatureText
  simp only [List.append_assoc, List.cons_append, strip_append, unhex_hex, Option.bind_eq_bind,
    Option.bind_some]
  rfl

lemma parseMore_text (sigs : List JsonSignature) (rest : Bytes) {fuel : ℕ} (h : sigs.length ≤ fuel) :
    parseMore fuel (moreText sigs ++ rest) = some (sigs, rest) := by
  induction sigs generalizing fuel with
  | nil => cases fuel <;> rfl
  | cons sig sigs ih =>
    obtain ⟨fuel, rfl⟩ := Nat.exists_eq_add_of_lt (Nat.lt_of_lt_of_le (Nat.succ_pos _) h)
    rw [Nat.zero_add] at h ⊢
    change parseMore (fuel + 1) (0x2C :: ((signatureText sig ++ moreText sigs) ++ rest)) = _
    rw [parseMore, List.append_assoc, parseSignature_text, Option.bind_eq_bind, Option.bind_some]
    dsimp only
    rw [ih (Nat.le_of_succ_le_succ h)]
    rfl

lemma length_le_moreText (sigs : List JsonSignature) : sigs.length ≤ (moreText sigs).length := by
  induction sigs with
  | nil => exact Nat.zero_le _
  | cons sig sigs ih =>
    rw [moreText, List.length_cons, List.length_cons, List.length_append]
    omega

/-- A signature does not begin like the end of the list. -/
lemma signatureText_cons (sig : JsonSignature) :
    ∃ bs, signatureText sig = 0x7B :: bs := by
  have hbrace : ascii "\x7b\"keyid\":\"" = 0x7B :: ascii "\"keyid\":\"" := by decide +kernel
  rw [signatureText, hbrace]
  exact ⟨_, rfl⟩

lemma parseSignatures_text (sigs : List JsonSignature) (rest : Bytes) :
    parseSignatures (signaturesText sigs ++ rest) = some (sigs, rest) := by
  cases sigs with
  | nil => rfl
  | cons sig sigs =>
    have hlength : sigs.length ≤ (moreText sigs ++ rest).length := by
      rw [List.length_append]
      exact Nat.le_add_right_of_le (length_le_moreText sigs)
    rw [signaturesText, List.append_assoc, parseSignatures, parseSignature_text,
      Option.bind_eq_bind, Option.bind_some]
    · dsimp only
      rw [parseMore_text sigs rest hlength]
      rfl
    · obtain ⟨bs, hbs⟩ := signatureText_cons sig
      rw [hbs]
      intro bs' heq
      cases heq

lemma parseAttestation_text (m : Metablock JsonSignature Bytes) :
    parseAttestation (attestationText m) = some m := by
  unfold parseAttestation attestationText
  simp only [strip_append, Option.bind_eq_bind, Option.bind_some, parseSignatures_text,
    List.getLast?_concat, if_true, List.dropLast_concat]
  rfl

lemma jsonInToto_lawful : jsonInToto.Lawful where
  new_one _ _ := ⟨_, rfl, rfl⟩
  parse_serialize m := ⟨_, rfl, parseAttestation_text m⟩

/-- A daemon that signs with a key of one byte. -/
def signingServer : Server where
  inToto := jsonInToto
  privateKey := [0xA1]
  z := plainZstd
  fuel := 1000
  negotiate := id
  transparentlySignAttestations := true

/-- What a worker has signed. -/
def workerAttestation : Metablock JsonSignature Bytes :=
  ⟨[([0xC2, 0x5D], [0x8C, 0xD7])], ascii "\x7b\"_type\":\"link\"\x7d"⟩

/-- A database with an artifact and its attestation, which is not compressed. -/
def attestedOnce : Db :=
  { Db.empty with
    rebuilds := Table.empty.insert (NewRebuild.row ⟨1, some 0, some second, 1, some .good⟩)
    rebuildArtifacts := Table.empty.insert
      (NewRebuildArtifact.row ⟨1, "hello.deb", none, some 1, some .good⟩)
    attestationLogs := Table.empty.insert fun id => ⟨id, attestationText workerAttestation⟩ }

lemma attestedOnce_holds :
    Holds attestedOnce ⟨1, 1, none⟩ ⟨1, attestationText workerAttestation⟩ where
  row := List.mem_singleton_self _
  artifact := ⟨_, List.mem_singleton_self _, rfl, _, List.mem_singleton_self _, rfl, rfl, rfl⟩

lemma read_workerAttestation :
    signingServer.read (attestationText workerAttestation) = some workerAttestation := by
  have hplain : Handler.isZstdCompressed (attestationText workerAttestation) = false := by
    decide +kernel
  rw [Server.read, Server.decompressed, if_neg (by simp [hplain])]
  exact parseAttestation_text workerAttestation

theorem attestation_signedOnce_worker : SignedOnce signingServer attestedOnce ⟨1, 1, none⟩
    ⟨1, attestationText workerAttestation⟩ workerAttestation :=
  attestation_signedOnce signingServer (fun d rest => d = rest) plainZstd_lawful jsonInToto_lawful rfl
    attestedOnce ⟨1, 1, none⟩ ⟨1, attestationText workerAttestation⟩ workerAttestation
    attestedOnce_holds read_workerAttestation (by
      intro m' text hsign htext
      cases hsign
      cases htext
      decide +kernel)

end Rebuilderd.Daemon.Signing
