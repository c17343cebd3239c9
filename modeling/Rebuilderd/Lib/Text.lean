import Mathlib

/-!
Texts as lists of characters: the string operations of a text format's parser.
-/

namespace Rebuilderd.Lib

abbrev Text := List Char

namespace Text

/-- What stands before and after the first occurrence of the separator. -/
def splitOnce (sep : Text) : Text → Option (Text × Text)
  | [] => if sep = [] then some ([], []) else none
  | c :: cs =>
    if sep.isPrefixOf (c :: cs) then some ([], (c :: cs).drop sep.length)
    else (splitOnce sep cs).map fun (before, after) => (c :: before, after)

/-- The pieces between the occurrences of the separator, of which the next `skip` characters are
the rest. -/
def splitFrom (sep : Text) : ℕ → Text → List Text
  | _, [] => [[]]
  | skip + 1, _ :: cs => splitFrom sep skip cs
  | 0, c :: cs =>
    if sep.isPrefixOf (c :: cs) then [] :: splitFrom sep (sep.length - 1) cs
    else match splitFrom sep 0 cs with
      | [] => [[c]]
      | piece :: pieces => (c :: piece) :: pieces

/-- The pieces between the occurrences of a separator that is not empty. -/
def split (sep s : Text) : List Text := splitFrom sep 0 s

/-- What begins with the last occurrence of the pattern. -/
def fromLast (pattern : Text) : Text → Option Text
  | [] => if pattern = [] then some [] else none
  | c :: cs => (fromLast pattern cs).or (if pattern.isPrefixOf (c :: cs) then some (c :: cs) else none)

def stripPrefix (p s : Text) : Option Text := if p.isPrefixOf s then some (s.drop p.length) else none

def stripSuffix (p s : Text) : Option Text :=
  if p.isSuffixOf s then some (s.take (s.length - p.length)) else none

/-- The first `n` bytes, if they are whole characters. -/
def sliceTo (n : ℕ) : Text → Option Text
  | [] => if n = 0 then some [] else none
  | c :: cs =>
    if n = 0 then some []
    else if c.utf8Size ≤ n then (sliceTo (n - c.utf8Size) cs).map (c :: ·)
    else none

/-- The lines of a text; a line ends with a line feed or with a carriage return and one, and the
last one may lack it. -/
def lines (s : Text) : List Text :=
  let pieces := split ['\n'] s
  let ended := pieces.dropLast.map fun line => (stripSuffix ['\r'] line).getD line
  match pieces.getLast? with
  | none | some [] => ended
  | some rest => ended ++ [rest]

/-- A character of Unicode's `White_Space`. -/
def isWhiteSpace (c : Char) : Bool :=
  ('\t' ≤ c && c ≤ '\r') || ('\u2000' ≤ c && c ≤ '\u200A') ||
    [' ', '\u0085', '\u00A0', '\u1680', '\u2028', '\u2029', '\u202F', '\u205F', '\u3000'].contains c

/-- A decimal number that fits into 64 bits; it may have a plus sign. -/
def isU64 (s : Text) : Bool :=
  let digits := (stripPrefix ['+'] s).getD s
  digits ≠ [] && digits.all Char.isDigit &&
    decide (digits.foldl (fun n c => 10 * n + (c.toNat - '0'.toNat)) 0 < 2 ^ 64)

end Text

end Rebuilderd.Lib
