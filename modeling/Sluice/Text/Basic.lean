

/-!
# Texts as lists of characters

The namespace `Text.S` has such operations on `String`.
-/

namespace Sluice

abbrev Chars := List Char

abbrev Pairs := List (String × String)

end Sluice

namespace Sluice.Text

/-! ## Cutting -/

variable (p : Char → Bool) (s : Chars)

/-- The pieces of a text between its characters of class `p`, one more than there are such characters. -/
def splitWhere : Chars → List Chars
  | [] => [[]]
  | c :: rest =>
    if p c then [] :: splitWhere rest
    else
      match splitWhere rest with
      | [] => [[c]]
      | piece :: pieces => (c :: piece) :: pieces

def oneOf (marks : String) (c : Char) : Bool := marks.toList.contains c

def splitAtChar (sep : Char) (s : Chars) : List Chars := splitWhere (· == sep) s

/-- The longest runs of characters outside the class `p`. -/
def wordsBy : List Chars := (splitWhere p s).filter (!·.isEmpty)

def dropStart? : (start s : Chars) → Option Chars
  | [], s => some s
  | _ :: _, [] => none
  | a :: start, c :: s => if a = c then dropStart? start s else none

theorem dropStart?_eq_some {start s r : Chars} (h : dropStart? start s = some r) : s = start ++ r := by
  induction start generalizing s with
  | nil => simpa [dropStart?] using h
  | cons a start ih =>
    cases s with
    | nil => simp [dropStart?] at h
    | cons c s =>
      by_cases hac : a = c
      · simp only [dropStart?, hac, if_true] at h
        simp [hac, ih h]
      · simp [dropStart?, hac] at h

def startsWith (start s : Chars) : Bool := (dropStart? start s).isSome

def endsWith (tail s : Chars) : Bool := (dropStart? tail.reverse s.reverse).isSome

/-- The text before and after the first place where `sep` stands. -/
def cutOnce (sep : Chars) : Chars → Option (Chars × Chars)
  | [] => if sep.isEmpty then some ([], []) else none
  | c :: rest =>
    match dropStart? sep (c :: rest) with
    | some after => some ([], after)
    | none => (cutOnce sep rest).map fun p => (c :: p.1, p.2)

def cutLast (sep s : Chars) : Option (Chars × Chars) :=
  (cutOnce sep.reverse s.reverse).map fun p => (p.2.reverse, p.1.reverse)

/-- `splitOn` with a bound on the number of cuts, which is never more than the length of the text. -/
def splitOnUpTo : (cuts : Nat) → (sep s : Chars) → List Chars
  | 0, _, s => [s]
  | n + 1, sep, s =>
    match cutOnce sep s with
    | none => [s]
    | some (before, after) => before :: splitOnUpTo n sep after

/-- The pieces of `s` between the places where the nonempty text `sep` stands, from the left. -/
def splitOn (sep s : Chars) : List Chars := splitOnUpTo s.length sep s

def lines : List Chars :=
  let pieces := splitAtChar '\n' s
  if pieces.getLast? = some [] then pieces.dropLast else pieces

def join (sep : Chars) : List Chars → Chars
  | [] => []
  | [p] => p
  | p :: q :: ps => p ++ sep ++ join sep (q :: ps)

def trimLeft : Chars := s.dropWhile p

def trimRight : Chars := (s.reverse.dropWhile p).reverse

/-- Without characters of class `p` at either end. -/
def trim : Chars := trimRight p (trimLeft p s)

def indexOf? (part : Chars) : Chars → Option Nat
  | [] => if part.isEmpty then some 0 else none
  | c :: rest => if startsWith part (c :: rest) then some 0 else (indexOf? part rest).map (· + 1)

def contains (part s : Chars) : Bool := (indexOf? part s).isSome

def replaceAll (old new s : Chars) : Chars := join new (splitOn old s)

def padLeft (n : Nat) (s : Chars) : Chars := List.replicate (n - s.length) ' ' ++ s

def padRight (n : Nat) (s : Chars) : Chars := s ++ List.replicate (n - s.length) ' '

end Sluice.Text

namespace Sluice.Text.S

def startsWith (start s : String) : Bool := Text.startsWith start.toList s.toList

def endsWith (tail s : String) : Bool := Text.endsWith tail.toList s.toList

open String

def dropStart? (start s : String) : Option String := (Text.dropStart? start.toList s.toList).map ofList

def dropEnd? (tail s : String) : Option String :=
  (Text.dropStart? tail.toList.reverse s.toList.reverse).map (ofList ·.reverse)

def contains (part s : String) : Bool := Text.contains part.toList s.toList

def splitOn (sep s : String) : List String := (Text.splitOn sep.toList s.toList).map ofList

/-- The text before and after the first place where `sep` stands. -/
def cutOnce (sep s : String) : Option (String × String) :=
  (Text.cutOnce sep.toList s.toList).map fun p => (ofList p.1, ofList p.2)

def cutLast (sep s : String) : Option (String × String) :=
  (Text.cutLast sep.toList s.toList).map fun p => (ofList p.1, ofList p.2)

def replaceAll (old new s : String) : String := ofList (Text.replaceAll old.toList new.toList s.toList)

def join (sep : String) (ss : List String) : String := ofList (Text.join sep.toList (ss.map toList))

/-- A text with the marks of tags, and the characters that are given, written as references. -/
def referred (more : List (Char × String)) (s : String) : String :=
  String.join (s.toList.map fun c => (([('&', "&amp;"), ('<', "&lt;"), ('>', "&gt;")] ++ more).lookup c).getD c.toString)

def lines (s : String) : List String := (Text.lines s.toList).map ofList

def take (n : Nat) (s : String) : String := ofList (s.toList.take n)

def drop (n : Nat) (s : String) : String := ofList (s.toList.drop n)

def repeated (n : Nat) (s : String) : String := ofList (List.replicate n s.toList).flatten

end Sluice.Text.S

/-!
## Decimal digits

Each script that has digits has ten of them in a row, so the table lists the zeros only.
-/

namespace Sluice.Text

/-- White space: a space separator of Unicode, or a control character that ends a line or a field. -/
def isBlank (c : Char) : Bool :=
  let n := c.toNat
  (9 ≤ n && n ≤ 13) || (0x1c ≤ n && n ≤ 0x20) || n == 0x85 || n == 0xa0 || n == 0x1680 ||
    (0x2000 ≤ n && n ≤ 0x200a) || n == 0x2028 || n == 0x2029 || n == 0x202f || n == 0x205f ||
    n == 0x3000

variable (s : Chars)

def strip : Chars := trim isBlank s

def stripLeft : Chars := trimLeft isBlank s

def stripRight : Chars := trimRight isBlank s

def words : List Chars := wordsBy isBlank s

/-- What ends a line in running text. -/
def isLineEnd (c : Char) : Bool :=
  let n := c.toNat
  (10 ≤ n && n ≤ 13) || (0x1c ≤ n && n ≤ 0x1e) || n == 0x85 || n == 0x2028 || n == 0x2029

/-- The lines of running text; what follows the last line end counts only when it is not empty. -/
def textLines : Chars → List Chars
  | [] => []
  | '\r' :: '\n' :: rest => [] :: textLines rest
  | c :: rest =>
    if isLineEnd c then [] :: textLines rest
    else
      match textLines rest with
      | line :: more => (c :: line) :: more
      | [] => [[c]]

def unifyLineEnds : Chars → Chars
  | [] => []
  | '\r' :: '\n' :: rest => '\n' :: unifyLineEnds rest
  | c :: rest => (if c = '\r' then '\n' else c) :: unifyLineEnds rest

namespace S

def strip (s : String) : String := String.ofList (Text.strip s.toList)

def stripRight (s : String) : String := String.ofList (Text.stripRight s.toList)

def words (s : String) : List String := (Text.words s.toList).map String.ofList

end S

def digitZeros : List Nat :=
  [0x30, 0x660, 0x6f0, 0x7c0, 0x966, 0x9e6, 0xa66, 0xae6, 0xb66, 0xbe6, 0xc66, 0xce6, 0xd66, 0xde6,
   0xe50, 0xed0, 0xf20, 0x1040, 0x1090, 0x17e0, 0x1810, 0x1946, 0x19d0, 0x1a80, 0x1a90, 0x1b50,
   0x1bb0, 0x1c40, 0x1c50, 0xa620, 0xa8d0, 0xa900, 0xa9d0, 0xa9f0, 0xaa50, 0xabf0, 0xff10, 0x104a0,
   0x10d30, 0x11066, 0x110f0, 0x11136, 0x111d0, 0x112f0, 0x11450, 0x114d0, 0x11650, 0x116c0,
   0x11730, 0x118e0, 0x11950, 0x11c50, 0x11d50, 0x11da0, 0x16a60, 0x16ac0, 0x16b50, 0x1d7ce,
   0x1d7d8, 0x1d7e2, 0x1d7ec, 0x1d7f6, 0x1e140, 0x1e2f0, 0x1e950, 0x1fbf0]

variable (c : Char)

def digitValue? : Option Nat :=
  let n := c.toNat
  if n < 128 then (if 48 ≤ n ∧ n ≤ 57 then some (n - 48) else none)
  else (digitZeros.find? fun z => z ≤ n && n < z + 10).map (n - ·)

def isDecimal : Bool := (digitValue? c).isSome

/-- Digits in the wide sense also take in superscripts, subscripts and circled digits. -/
def isDigitLike : Bool :=
  isDecimal c || ([(0xb2, 0xb3), (0xb9, 0xb9), (0x1369, 0x1371), (0x19da, 0x19da), (0x2070, 0x2070),
      (0x2074, 0x2079), (0x2080, 0x2089), (0x2460, 0x2468), (0x2474, 0x247c), (0x2488, 0x2490),
      (0x24ea, 0x24ea), (0x24f5, 0x24fd), (0x24ff, 0x24ff), (0x2776, 0x277e), (0x2780, 0x2788),
      (0x278a, 0x2792), (0x10a40, 0x10a43), (0x10e60, 0x10e68), (0x11052, 0x1105a),
      (0x1f100, 0x1f10a)] : List (Nat × Nat)).any fun r => r.1 ≤ c.toNat && c.toNat ≤ r.2

def hexValue? : Option Nat :=
  let n := c.toNat
  if 48 ≤ n ∧ n ≤ 57 then some (n - 48)
  else if 97 ≤ n ∧ n ≤ 102 then some (n - 87)
  else if 65 ≤ n ∧ n ≤ 70 then some (n - 55)
  else none

def hexDigit (d : Nat) : Char := if d < 10 then Char.ofNat (48 + d) else Char.ofNat (87 + d)

def hexDigits : (width n : Nat) → Chars
  | 0, _ => []
  | w + 1, n => hexDigits w (n / 16) ++ [hexDigit (n % 16)]

def digitsValue (ds : Chars) : Nat := ds.foldl (fun n c => 10 * n + (c.toNat - 48)) 0

def isAsciiDigit : Bool := 48 ≤ c.toNat && c.toNat ≤ 57

def isNameStart : Bool := c.isAlpha || c == '_'

def isNameChar : Bool := c.isAlphanum || c == '_'

end Sluice.Text
