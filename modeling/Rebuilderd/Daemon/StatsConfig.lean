import Rebuilderd.Common.Api
import Rebuilderd.Lib.Text

/-!
The categories of the statistics: what a failure looks like, by its build log and its diffoscope log.

The categories of a backend come first, then those of the backend `all`. They are tried in this
order, and the first one that matches counts.
-/

namespace Rebuilderd.Daemon.Stats

open Rebuilderd.Lib Rebuilderd.Common

/-! ### Logs as texts -/

/-- A byte that continues a character. -/
def isContinuation (b : UInt8) : Bool := 0x80 ≤ b && b ≤ 0xBF

/-- For the first byte of a character of several bytes: its bits, the range of the second byte, and
the number of the bytes after that. -/
def leadByte (b : UInt8) : Option (ℕ × UInt8 × UInt8 × ℕ) :=
  if 0xC2 ≤ b && b ≤ 0xDF then some (b.toNat - 0xC0, 0x80, 0xBF, 0)
  else if b == 0xE0 then some (b.toNat - 0xE0, 0xA0, 0xBF, 1)
  else if b == 0xED then some (b.toNat - 0xE0, 0x80, 0x9F, 1)
  else if 0xE1 ≤ b && b ≤ 0xEF then some (b.toNat - 0xE0, 0x80, 0xBF, 1)
  else if b == 0xF0 then some (b.toNat - 0xF0, 0x90, 0xBF, 2)
  else if 0xF1 ≤ b && b ≤ 0xF3 then some (b.toNat - 0xF0, 0x80, 0xBF, 2)
  else if b == 0xF4 then some (b.toNat - 0xF0, 0x80, 0x8F, 2)
  else none

/-- The first character, and the number of bytes it has after the first. The bytes of a character that
is not whole are replaced as one. -/
def firstChar (b : UInt8) (bs : Bytes) : Char × ℕ :=
  if b < 0x80 then (Char.ofNat b.toNat, 0)
  else match leadByte b, bs with
    | some (bits, low, high, n), second :: rest =>
      if low ≤ second && second ≤ high then
        let more := (rest.take n).takeWhile isContinuation
        if more.length = n then
          (Char.ofNat ((second :: more).foldl (fun acc b => acc * 64 + (b.toNat - 0x80)) bits), n + 1)
        else ('\uFFFD', more.length + 1)
      else ('\uFFFD', 0)
    | _, _ => ('\uFFFD', 0)

/-- The characters after the next `skip` bytes. -/
def charsFrom : ℕ → Bytes → Text
  | _, [] => []
  | skip + 1, _ :: bs => charsFrom skip bs
  | 0, b :: bs => (firstChar b bs).1 :: charsFrom (firstChar b bs).2 bs

/-- `String::from_utf8_lossy` -/
def fromUtf8Lossy (bs : Bytes) : Text := charsFrom 0 bs

/-- The regular expressions and the decompression, which are those of libraries. -/
structure Env where
  regex : Text → Except Err (Text → Except Err Bool)
  decodeAll : Bytes → Option Bytes

/-- A stored log as a text; what cannot be decompressed is empty. -/
def Env.logText (env : Env) (log : Bytes) : Text := fromUtf8Lossy ((env.decodeAll log).getD [])

/-! ### Categories -/

structure ErrorCategory where
  name : String
  logHas : Option String
  logHasRe : Option String
  logHasAny : Option (List String)
  logHasAll : Option (List String)
  diffHas : Option String
  diffHasRe : Option String
  diffHasAny : Option (List String)
  /-- Matches when a non-empty diffoscope log is present. -/
  hasDiff : Bool
  /-- Always matches. -/
  catchAll : Bool
  /-- Skips the category for the architectures that start with one of these. -/
  excludeArchitectures : List String

/-- A category with its patterns compiled. -/
structure CompiledCategory where
  inner : ErrorCategory
  logHasRe : Option (Text → Except Err Bool)
  diffHasRe : Option (Text → Except Err Bool)

/-- The pattern matches newlines with `.` as well. -/
def compileRe (env : Env) (re : String) : Except Err (Text → Except Err Bool) :=
  env.regex ("(?s)".toList ++ re.toList)

def ErrorCategory.compile (env : Env) (cat : ErrorCategory) : Except Err CompiledCategory := do
  let logHasRe ← cat.logHasRe.mapM (compileRe env)
  let diffHasRe ← cat.diffHasRe.mapM (compileRe env)
  return ⟨cat, logHasRe, diffHasRe⟩

/-- `text.contains(s)` -/
def contains (text s : Text) : Bool := text.tails.any s.isPrefixOf

/-- The architecture in place of `{arch}`. -/
def substitute (architecture : Option String) (s : String) : Text :=
  List.intercalate ((architecture.getD "").toList) (Text.split "\x7barch\x7d".toList s.toList)

/-- `CompiledCategory::matches`: the first matcher that is set decides. -/
def CompiledCategory.matches (self : CompiledCategory) (log diff : Text)
    (architecture : Option String) : Except Err Bool :=
  let cat := self.inner
  let sub := substitute architecture
  if architecture.any fun arch => cat.excludeArchitectures.any fun x =>
      x.toList.isPrefixOf arch.toList then .ok false
  else match cat.logHas with
  | some s => .ok (contains log (sub s))
  | none => match self.logHasRe with
  | some re => re log
  | none => match cat.logHasAny with
  | some strs => .ok (strs.any fun s => contains log (sub s))
  | none => match cat.logHasAll with
  | some strs => .ok (strs.all fun s => contains log (sub s))
  | none => match cat.diffHas with
  | some s => .ok (contains diff (sub s))
  | none => match self.diffHasRe with
  | some re => re diff
  | none => match cat.diffHasAny with
  | some strs => .ok (!diff.isEmpty && strs.any fun s => contains diff (sub s))
  | none =>
    if cat.hasDiff then .ok (!diff.isEmpty)
    else if cat.catchAll then .ok true
    else .error .io

/-! ### The configuration -/

structure BackendStats where
  categories : List ErrorCategory

structure StatsConfigFile where
  backends : AList fun _ : String => BackendStats

/-- The categories of a backend, and those of the backend `all` after them. -/
def StatsConfigFile.categoriesFor (self : StatsConfigFile) (backend : String) : List ErrorCategory :=
  let specific := ((self.backends.lookup backend).map (·.categories)).getD []
  let universal := ((self.backends.lookup "all").map (·.categories)).getD []
  specific ++ universal

/-- Compiled patterns change nothing but the patterns. -/
lemma ErrorCategory.compile_inner {env : Env} {cat : ErrorCategory} {c : CompiledCategory}
    (h : cat.compile env = .ok c) : c.inner = cat := by
  unfold compile at h
  rcases hlog : cat.logHasRe.mapM (compileRe env) with e | log
  · rw [hlog] at h
    cases h
  · rcases hdiff : cat.diffHasRe.mapM (compileRe env) with e | diff
    · rw [hlog, hdiff] at h
      cases h
    · rw [hlog, hdiff] at h
      cases h
      rfl

/-- A category that always matches: it has no matcher and excludes nothing. -/
structure ErrorCategory.MatchesAll (cat : ErrorCategory) : Prop where
  catchAll : cat.catchAll = true
  noLogMatcher : cat.logHas = none ∧ cat.logHasRe = none ∧ cat.logHasAny = none ∧ cat.logHasAll = none
  noDiffMatcher : cat.diffHas = none ∧ cat.diffHasRe = none ∧ cat.diffHasAny = none ∧
    cat.hasDiff = false
  noExclusion : cat.excludeArchitectures = []

lemma ErrorCategory.MatchesAll.compile {cat : ErrorCategory} (h : cat.MatchesAll) (env : Env) :
    cat.compile env = .ok ⟨cat, none, none⟩ := by
  rw [ErrorCategory.compile, h.noLogMatcher.2.1, h.noDiffMatcher.2.1]
  rfl

lemma ErrorCategory.MatchesAll.matches {cat : ErrorCategory} (h : cat.MatchesAll) (log diff : Text)
    (architecture : Option String) :
    CompiledCategory.matches ⟨cat, none, none⟩ log diff architecture = .ok true := by
  obtain ⟨hcatch, ⟨hlogHas, -, hlogAny, hlogAll⟩, ⟨hdiffHas, -, hdiffAny, hhasDiff⟩, hexclude⟩ := h
  have hexcluded : (architecture.any fun arch => cat.excludeArchitectures.any fun x =>
      x.toList.isPrefixOf arch.toList) = false := by
    rw [hexclude]
    cases architecture <;> rfl
  unfold CompiledCategory.matches
  simp only [hexcluded, hlogHas, hlogAny, hlogAll, hdiffHas, hdiffAny, hhasDiff, hcatch]
  rfl

end Rebuilderd.Daemon.Stats
