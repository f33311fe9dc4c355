import Sluice.Fault
import Sluice.Text.Letter

/-!
# Wrapping of text

Lines break at blanks, behind hyphens inside words and around dashes; a word that is too long is cut. Codes for the
terminal take no room.
-/

namespace Sluice.Text

/-! ## Terminal codes: colours, controls and links -/

def escapeChar : Char := '\x1b'

variable (s : Chars)

def controlEnd? : Option Chars :=
  let s := s.dropWhile fun c => 0x30 ≤ c.toNat && c.toNat ≤ 0x3f
  let s := s.dropWhile fun c => 0x20 ≤ c.toNat && c.toNat ≤ 0x2f
  match s with
  | c :: rest => if 0x40 ≤ c.toNat && c.toNat ≤ 0x7e then some rest else none
  | [] => none

def settingsEnd? : (fuel : Nat) → Chars → Option Chars
  | 0, _ => none
  | _, ';' :: rest => some rest
  | fuel + 1, s =>
    let name := s.takeWhile isWordChar
    match s.drop name.length with
    | '=' :: rest =>
      let value := rest.takeWhile isWordChar
      if name.isEmpty || value.isEmpty then none
      else
        match rest.drop value.length with
        | ':' :: more => settingsEnd? fuel more
        | more => settingsEnd? fuel more
    | _ => none

def link? : Option (Chars × Chars) := do
  let s ← dropStart? "8;".toList s
  let s ← settingsEnd? (s.length + 1) s
  let uri := s.takeWhile (· != escapeChar)
  if uri.isEmpty then none
  else
    let s ← dropStart? [escapeChar, '\\'] (s.drop uri.length)
    let text := s.takeWhile (· != escapeChar)
    if text.isEmpty then none
    else
      some (text, ← dropStart? (escapeChar :: "]8;;".toList ++ [escapeChar, '\\']) (s.drop text.length))

def code? : Chars → Option (Chars × Chars)
  | c :: '[' :: rest => if c = escapeChar then (controlEnd? rest).map fun r => ([], r) else none
  | c :: ']' :: rest => if c = escapeChar then link? rest else none
  | _ => none

/-- The parts of a text: its characters, and the codes between them with what they show. -/
inductive Shown
  | char (c : Char)
  | code (written shown : Chars)

def shownParts : (fuel : Nat) → Chars → List Shown
  | 0, _ => []
  | _, [] => []
  | fuel + 1, c :: rest =>
    match code? (c :: rest) with
    | some (text, after) => .code ((c :: rest).take ((c :: rest).length - after.length)) text :: shownParts fuel after
    | none => .char c :: shownParts fuel rest

def partsOf : List Shown := shownParts (s.length + 1) s

def codesOf : List Chars :=
  (partsOf s).filterMap fun p => match p with
    | .char _ => none
    | .code w _ => some w

def hasCodes : Bool := !(codesOf s).isEmpty

def visible : Chars :=
  (partsOf s).flatMap fun p => match p with
    | .char c => [c]
    | .code _ t => t

/-! ## Wrapping of text -/

def expandTabs : (column : Nat) → Chars → Chars
  | _, [] => []
  | column, c :: rest =>
    if c = '\t' then
      let n := 8 - column % 8
      List.replicate n ' ' ++ expandTabs (column + n) rest
    else if c = '\n' ∨ c = '\r' then c :: expandTabs 0 rest
    else c :: expandTabs (column + 1) rest

def isBreakBlank (c : Char) : Bool := c == ' ' || c == '\t' || c == '\n' || c == '\x0b' || c == '\x0c' || c == '\r'

def plainBlanks : Chars := (expandTabs 0 s).map fun c => if isBreakBlank c then ' ' else c

def isWordLetter (c : Char) : Bool := isWordChar c && !isDecimal c

def isWordEnd (c : Char) : Bool := isWordChar c || "!\"'&.,?".toList.contains c

def dashThenWord : Bool :=
  let dashes := s.takeWhile (· == '-')
  2 ≤ dashes.length && (s.drop dashes.length).head?.any isWordChar

def startsWithLetters : Chars → Bool
  | a :: '-' :: b :: _ => isWordLetter a && isWordLetter b
  | a :: b :: _ => isWordLetter a && isWordLetter b
  | _ => false

/-- Whether a line may end behind a hyphen between `before` (reversed) and `after`: there must be two letters on both
sides. -/
def hyphenBreaks (before after : Chars) : Bool := startsWithLetters before && startsWithLetters after

/-- A word at the front, as far as a line may break: its characters (reversed) and the rest. -/
def takeWord : (before s word : Chars) → Chars × Chars
  | _, [], word => (word, [])
  | before, c :: rest, word =>
    let started := !word.isEmpty
    if started && isBreakBlank c then (word, c :: rest)
    else if started && c = '-' && hyphenBreaks before rest then (c :: word, rest)
    else if started && before.head?.any isWordEnd && dashThenWord (c :: rest) then (word, c :: rest)
    else takeWord (c :: before) rest (c :: word)

def pieces : (fuel : Nat) → (before s : Chars) → List Chars
  | 0, _, _ => []
  | _, _, [] => []
  | fuel + 1, before, c :: rest =>
    let s := c :: rest
    if isBreakBlank c then
      let blanks := s.takeWhile isBreakBlank
      blanks :: pieces fuel (blanks.reverse ++ before) (s.drop blanks.length)
    else if before.head?.any isWordEnd && dashThenWord s then
      let dashes := s.takeWhile (· == '-')
      dashes :: pieces fuel (dashes.reverse ++ before) (s.drop dashes.length)
    else
      let (word, after) := takeWord before s []
      word.reverse :: pieces fuel (word ++ before) after

def roomOf : Nat := (visible s).length

def isBlankText : Bool := (strip s).isEmpty

def takeFitting (width : Nat) : (used : Nat) → List Chars → List Chars → List Chars × Nat × List Chars
  | used, [], line => (line, used, [])
  | used, p :: ps, line =>
    if used + roomOf p ≤ width then takeFitting width (used + roomOf p) ps (p :: line)
    else (line, used, p :: ps)

/-- Where to cut a word so that `room` of its characters are shown; codes do not count. -/
def cutPlace (room : Nat) (word : Chars) : Nat :=
  let rec go : List Chars → (codes last : Nat) → Nat
    | [], codes, _ => codes
    | code :: more, codes, last =>
      let window := (word.drop last).take (room + 1 + codes + code.length - 1 - last)
      if contains code window then
        let found := (indexOf? code (word.drop last)).getD 0
        go more (codes + code.length) (last + found + code.length)
      else go more codes last
  room + go (codesOf word) 0 0

def resetCode : Chars := escapeChar :: "[0m".toList

def finishLine (active : List Chars) (line : Chars) : Chars × List Chars :=
  let after := (codesOf line).foldl (fun a c => if c = resetCode then [] else a ++ [c]) active
  (active.flatten ++ line ++ (if after.isEmpty then [] else resetCode), after)

def linesOf (width : Nat) : (fuel : Nat) → (first : Bool) → (active pieces : List Chars) → List Chars
  | 0, _, _, _ => []
  | _, _, _, [] => []
  | fuel + 1, first, active, p :: ps =>
    let todo := if !first && isBlankText p then ps else p :: ps
    let (line, used, rest) := takeFitting width 0 todo []
    let (line, rest) := match rest with
      | q :: qs =>
        if width < roomOf q then
          let n := cutPlace (width - used) q
          (q.take n :: line, q.drop n :: qs)
        else (line, q :: qs)
      | [] => (line, [])
    let line := match line with
      | q :: qs => if isBlankText q then qs else q :: qs
      | [] => []
    if line.isEmpty then linesOf width fuel first active rest
    else
      let (text, active) := finishLine active line.reverse.flatten
      text :: linesOf width fuel false active rest

def wrap (width : Int) (s : Chars) : Result (List Chars) :=
  if width ≤ 0 then .error (.badValue s!"invalid width {width} (must be > 0)")
  else
    let s := plainBlanks s
    .ok (linesOf width.toNat (2 * s.length + 2) true [] (pieces (s.length + 1) [] s))

end Sluice.Text

/-!
## Words of a command

Quotes keep blanks together, and a backslash keeps the next character; between double quotes only a double quote or
itself.
-/

namespace Sluice.ShellWords

/-- Where a reader of a command stands. -/
inductive Place
  | between
  | inside
  | quote (mark : Char)
  /-- behind a backslash, perhaps between quotes -/
  | escape (mark? : Option Char)

/-- Why a command cannot be divided. -/
inductive Cause
  | noClosing
  | noEscaped

def Cause.text : Cause → String
  | .noClosing => "No closing quotation"
  | .noEscaped => "No escaped character"

def isDivider (c : Char) : Bool := c == ' ' || c == '\t' || c == '\r' || c == '\n'

def isQuote (c : Char) : Bool := c == '"' || c == '\x27'

/-- What a character begins outside quotes, or that it stands for itself. -/
def placeAfter? (c : Char) : Option Place :=
  if c = '\\' then some (.escape none) else if isQuote c then some (.quote c) else none

def divide : Place → (word : List Char) → List Char → Except Cause (List String)
  | .between, _, [] => .ok []
  | .inside, word, [] => .ok [String.ofList word.reverse]
  | .quote _, _, [] => .error .noClosing
  | .escape _, _, [] => .error .noEscaped
  | .between, _, c :: cs =>
    if isDivider c then divide .between [] cs
    else
      match placeAfter? c with
      | some place => divide place [] cs
      | none => divide .inside [c] cs
  | .inside, word, c :: cs =>
    if isDivider c then (divide .between [] cs).map (String.ofList word.reverse :: ·)
    else
      match placeAfter? c with
      | some place => divide place word cs
      | none => divide .inside (c :: word) cs
  | .quote mark, word, c :: cs =>
    if c = mark then divide .inside word cs
    else if c = '\\' ∧ mark = '"' then divide (.escape (some mark)) word cs
    else divide (.quote mark) (c :: word) cs
  | .escape none, word, c :: cs => divide .inside (c :: word) cs
  | .escape (some mark), word, c :: cs =>
    if c = mark ∨ c = '\\' then divide (.quote mark) (c :: word) cs
    else divide (.quote mark) (c :: '\\' :: word) cs

/-- **The words of a command.** -/
def split (s : String) : Except Cause (List String) := divide .between [] s.toList

end Sluice.ShellWords
