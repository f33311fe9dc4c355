import Sluice.Fault
import Sluice.Text.Basic

/-!
# Tokens of YAML text

The marks that begin and end nested collections are tokens, too. `Dialect` says which of two customs a reader follows.
-/

namespace Sluice.Yaml

inductive Cause
  /-- a character that may not stand in the text -/
  | character
  | token
  | arrangement
  /-- a bad reference between nodes, or a second document -/
  | reference
  | value

def Cause.fault : Cause → Fault
  | .character => ⟨.yamlCharacter, "special characters are not allowed"⟩
  | .token => ⟨.yamlToken, "malformed token"⟩
  | .arrangement => ⟨.yamlStructure, "misplaced token"⟩
  | .reference => ⟨.yamlReference, "bad reference"⟩
  | .value => ⟨.yamlValue, "no value"⟩

structure Dialect where
  tabsSeparate : Bool := true
  /-- inside brackets a colon right before a bracket or comma ends a plain scalar; otherwise it is
  an error -/
  colonEndsPlain : Bool := false

def Dialect.isSeparator (d : Dialect) (c : Char) : Bool := c == ' ' || (d.tabsSeparate && c == '\t')

inductive Style
  | plain | quoted
deriving DecidableEq

inductive Token
  | streamEnd
  | version (major minor : Nat)
  | tagDirective (handle start : String)
  | documentStart
  | documentEnd
  | blockSequence
  | blockMapping
  | blockEnd
  | sequenceOpen
  | sequenceClose
  | mappingOpen
  | mappingClose
  | entry
  | comma
  | key
  | value
  | alias (name : String)
  | anchor (name : String)
  | tag (handle suffix : String)
  | scalar (text : String) (style : Style)
deriving DecidableEq

variable (c : Char)

def isAllowed : Bool :=
  let n := c.toNat
  n == 9 || n == 10 || n == 13 || (0x20 ≤ n && n ≤ 0x7e) || n == 0x85 || (0xa0 ≤ n && n ≤ 0xd7ff) ||
    (0xe000 ≤ n && n ≤ 0xfffd && n != 0xfeff) || 0x10000 ≤ n

def isBreak : Bool := c == '\n' || c == '\r' || c.toNat == 0x85 || c.toNat == 0x2028 || c.toNat == 0x2029

def isBlankChar : Bool := c == ' ' || c == '\t'

def isNameChar : Bool := c.isAlphanum || c == '_' || c == '-'

/-- What the next character is, the end of the text included. -/
def headIs (p : Char → Bool) : Chars → Bool
  | c :: _ => p c
  | [] => false

def atGap : Chars → Bool
  | c :: _ => isBlankChar c || isBreak c
  | [] => true

def atLineEnd : Chars → Bool
  | c :: _ => isBreak c
  | [] => true

def atDocumentMark : Chars → Bool
  | '-' :: '-' :: '-' :: rest => atGap rest
  | '.' :: '.' :: '.' :: rest => atGap rest
  | _ => false

structure Place where
  rest : Chars
  index : Nat := 0
  line : Nat := 0
  /-- how many characters of the line lie behind -/
  column : Nat := 0

namespace Place

variable (p : Place)

def sees (c : Char) : Bool := p.rest.head? == some c

def skip (n : Nat) : Place := { p with rest := p.rest.drop n, index := p.index + n, column := p.column + n }

/-- Passes the characters of class `f` ahead; gives them too. -/
def takeWhile (f : Char → Bool) : Chars × Place :=
  let taken := p.rest.takeWhile f
  (taken, p.skip taken.length)

def skipWhile (f : Char → Bool) : Place := (p.takeWhile f).2

def skipComment : Place := if p.sees '#' then p.skipWhile (!isBreak ·) else p

/-- Passes the end of a line and gives it as it counts in scalars: a line feed, but two separators stay. -/
def takeBreak : Chars × Place :=
  match p.rest with
  | '\r' :: '\n' :: rest => (['\n'], { rest, index := p.index + 2, line := p.line + 1, column := 0 })
  | c :: rest =>
    if isBreak c then
      ([if c.toNat == 0x2028 || c.toNat == 0x2029 then c else '\n'],
        { rest, index := p.index + 1, line := p.line + 1, column := 0 })
    else ([], p)
  | [] => ([], p)

end Place

end Sluice.Yaml

/-!
## Kinds of YAML values

A plain scalar without a tag has the kind that its text suggests (`Kind.ofPlain`).
-/

namespace Sluice.Yaml.Kind

def start : String := "tag:yaml.org,2002:"

def str : String := start ++ "str"

def null : String := start ++ "null"

def bool : String := start ++ "bool"

def int : String := start ++ "int"

def float : String := start ++ "float"

def timestamp : String := start ++ "timestamp"

def binary : String := start ++ "binary"

def merge : String := start ++ "merge"

def value : String := start ++ "value"

def seq : String := start ++ "seq"

def map : String := start ++ "map"

def pairs : String := start ++ "pairs"

def omap : String := start ++ "omap"

def set : String := start ++ "set"

/-- A word in its three spellings: small letters, a first capital, capitals. -/
def spellings (w : String) : List String :=
  [w, String.ofList (match w.toList with
    | c :: cs => c.toUpper :: cs
    | [] => []), w.map Char.toUpper]

def truthWords : List (String × Bool) :=
  [("yes", true), ("no", false), ("true", true), ("false", false), ("on", true), ("off", false)]

def isTruth (s : String) : Bool := truthWords.any fun w => (spellings w.1).contains s

def isNull (s : String) : Bool := s == "" || s == "~" || (spellings "null").contains s

def unsigned : Chars → Chars
  | '+' :: s => s
  | '-' :: s => s
  | s => s

def isLooseDigit (c : Char) : Bool := c.isDigit || c == '_'

def sixtieths : Chars → Option Chars
  | ':' :: a :: b :: rest =>
    if a.isDigit && b.isDigit && a.toNat ≤ 53 then some ((sixtieths rest).getD rest)
    else if a.isDigit then some ((sixtieths (b :: rest)).getD (b :: rest))
    else none
  | [':', a] => if a.isDigit then some [] else none
  | _ => none

variable (s : Chars)

def isUnsignedInt : Bool :=
  match s with
  | '0' :: 'b' :: digits => !digits.isEmpty && digits.all fun c => c == '0' || c == '1' || c == '_'
  | '0' :: 'x' :: digits => !digits.isEmpty && digits.all fun c => (c.isAlphanum && (Text.hexValue? c).isSome) || c == '_'
  | ['0'] => true
  | '0' :: digits => digits.all fun c => ('0' ≤ c && c ≤ '7') || c == '_'
  | c :: rest =>
    c.isDigit && (match rest.dropWhile isLooseDigit with
        | [] => true
        | tail => sixtieths tail == some [])
  | [] => false

def isInt : Bool := isUnsignedInt (unsigned s)

def isExponentEnd : Chars → Bool
  | [] => true
  | e :: sign :: digits =>
    (e == 'e' || e == 'E') && (sign == '-' || sign == '+') && !digits.isEmpty && digits.all Char.isDigit
  | _ => false

def isFloat : Bool :=
  let u := unsigned s
  match u with
  | '.' :: rest =>
    (spellings "inf").contains (String.ofList rest) ||
      (u == s && ["nan", "NaN", "NAN"].contains (String.ofList rest)) ||
      (u == s && headIsDigit rest && isExponentEnd (rest.dropWhile isLooseDigit))
  | c :: rest =>
    c.isDigit && (match rest.dropWhile isLooseDigit with
        | '.' :: tail => isExponentEnd (tail.dropWhile isLooseDigit)
        | tail => match sixtieths tail with
          | some ('.' :: places) => places.all isLooseDigit
          | _ => false)
  | [] => false
where
  headIsDigit : Chars → Bool
    | c :: _ => c.isDigit
    | [] => false

/-! ## Days and moments -/

structure Stamp where
  year : Nat
  month : Nat
  day : Nat
  wide : Bool
  time? : Option (Nat × Nat × Nat × Chars) := none
  /-- hours and minutes of the zone and whether it lies west; the third part is `none` for `Z` -/
  zone? : Option (Nat × Nat × Option Bool) := none

def takeDigits (least most : Nat) (s : Chars) : Option (Nat × Nat × Chars) :=
  let ds := (s.take most).takeWhile Char.isDigit
  if least ≤ ds.length then some (Text.digitsValue ds, ds.length, s.drop ds.length) else none

def takeChar (c : Char) : Chars → Option Chars
  | d :: rest => if c = d then some rest else none
  | [] => none

def takeZone : Option (Option (Nat × Nat × Option Bool)) :=
  match s with
  | [] => some none
  | _ =>
    match s.dropWhile fun c => c == ' ' || c == '\t' with
    | ['Z'] => some (some (0, 0, none))
    | sign :: rest =>
      if sign == '+' || sign == '-' then do
        let (hours, _, rest) ← takeDigits 1 2 rest
        match rest with
        | [] => some (some (hours, 0, some (sign == '-')))
        | ':' :: rest => do
          let (minutes, _, rest) ← takeDigits 2 2 rest
          if rest.isEmpty then some (some (hours, minutes, some (sign == '-'))) else none
        | _ => none
      else none
    | [] => none

def stamp? : Option Stamp := do
  let (year, _, s) ← takeDigits 4 4 s
  let s ← takeChar '-' s
  let (month, mw, s) ← takeDigits 1 2 s
  let s ← takeChar '-' s
  let (day, dw, s) ← takeDigits 1 2 s
  let wide := mw == 2 && dw == 2
  if s.isEmpty then some { year, month, day, wide }
  else
    let s ← match s with
      | 'T' :: r => some r
      | 't' :: r => some r
      | _ =>
        let r := s.dropWhile fun c => c == ' ' || c == '\t'
        if r.length < s.length then some r else none
    let (hour, _, s) ← takeDigits 1 2 s
    let s ← takeChar ':' s
    let (minute, _, s) ← takeDigits 2 2 s
    let s ← takeChar ':' s
    let (second, _, s) ← takeDigits 2 2 s
    let (fraction, s) := match s with
      | '.' :: r => (r.takeWhile Char.isDigit, r.dropWhile Char.isDigit)
      | _ => ([], s)
    let zone? ← takeZone s
    some { year, month, day, wide, time? := some (hour, minute, second, fraction), zone? }

/-- Whether a plain text is a day or a moment. A day alone has two digits for month and day. -/
def isStamp : Bool :=
  match stamp? s with
  | some t => t.time?.isSome || t.wide
  | none => false

/-- **The kind that a plain text suggests.** -/
def ofPlain : String :=
  let text := String.ofList s
  if isTruth text then bool
  else if isFloat s then float
  else if isInt s then int
  else if text == "<<" then merge
  else if isNull text then null
  else if isStamp s then timestamp
  else if text == "=" then value
  else str

end Sluice.Yaml.Kind

/-!
## Scalars of YAML text

**Plain** and **quoted** scalars fold line ends into blanks, **block** scalars keep or fold them.
-/

namespace Sluice.Yaml

structure Gap where
  blanks : Chars := []
  broken : Bool := false
  first : Chars := []
  more : Chars := []

def Gap.folded (g : Gap) : Chars :=
  if g.broken then
    if g.first == ['\n'] then (if g.more.isEmpty then [' '] else g.more) else g.first ++ g.more
  else g.blanks

/-- Passes blanks (of class `blank`) and line ends. Where `refuse` holds of a blank after a line end, the text is refused.
-/
def takeGap (blank : Char → Bool) (refuse : Place → Bool) : (fuel : Nat) → Place → Gap → Except Cause (Gap × Place)
  | 0, p, g => .ok (g, p)
  | fuel + 1, p, g =>
    match p.rest with
    | c :: _ =>
      if blank c then
        if g.broken && refuse p then .error .token
        else takeGap blank refuse fuel (p.skip 1)
          (if g.broken then g else { g with blanks := g.blanks ++ [c] })
      else if isBreak c then
        let (text, p) := p.takeBreak
        takeGap blank refuse fuel p
          (if g.broken then { g with more := g.more ++ text }
          else { g with blanks := [], broken := true, first := text })
      else .ok (g, p)
    | [] => .ok (g, p)

variable (dialect : Dialect) (inFlow : Bool) (c mark : Char)

def escaped? : Option Char :=
  ("0abt\tnvfre \"/\\N_LP".toList.zip
    "\x00\x07\x08\t\t\n\x0b\x0c\r\x1b \"/\\\u0085\u00a0\u2028\u2029".toList).lookup c

/-- How many hexadecimal digits follow a letter after a backslash. -/
def codeWidth? : Option Nat := [('x', 2), ('u', 4), ('U', 8)].lookup c

def charOfCode? (n : Nat) : Option Char := if (0xd800 ≤ n && n ≤ 0xdfff) || 0x10ffff < n then none else some (Char.ofNat n)

/-- The character that an escape stands for, and how many characters follow its backslash. -/
def takeEscape : Chars → Option (Char × Nat)
  | c :: rest =>
    match escaped? c, codeWidth? c with
    | some d, _ => some (d, 1)
    | none, some width => do
      let digits := rest.take width
      guard (digits.length == width)
      some ((← charOfCode? ((← digits.mapM Text.hexValue?).foldl (fun n d => 16 * n + d) 0)), width + 1)
    | none, none => none
  | [] => none

/-- The characters of a quoted scalar up to a gap, its end or a line end after a backslash. -/
def quotedRun : (fuel : Nat) → Place → Chars → Except Cause (Chars × Bool × Place)
  | 0, p, text => .ok (text, false, p)
  | fuel + 1, p, text =>
    if atGap p.rest then .ok (text, false, p)
    else
      match p.rest with
      | c :: rest =>
        if mark == '\x27' && c == mark && rest.head? == some mark then
          quotedRun fuel (p.skip 2) (text ++ [mark])
        else if c == mark then .ok (text, false, p)
        else if mark == '"' && c == '\\' then
          if headIs isBreak rest then .ok (text, true, ((p.skip 1).takeBreak).2)
          else match takeEscape rest with
            | some (d, n) => quotedRun fuel (p.skip (n + 1)) (text ++ [d])
            | none => .error .token
        else quotedRun fuel (p.skip 1) (text ++ [c])
      | [] => .ok (text, false, p)

def quotedBody : (fuel : Nat) → Place → List Char → Except Cause (List Char × Place)
  | 0, _, _ => .error .token
  | fuel + 1, p, text => do
    if (p.column == 0 && atDocumentMark p.rest) || p.rest.isEmpty then throw .token
    let (text, broken, p) ← quotedRun mark (p.rest.length + 1) p text
    if p.sees mark then return (text, p.skip 1)
    let (gap, p) ← takeGap isBlankChar (fun _ => false) (p.rest.length + 1) p { broken }
    quotedBody fuel p (text ++ gap.folded)

def takeQuoted (p : Place) : Except Cause (List Char × Place) := quotedBody mark (p.rest.length + 1) (p.skip 1) []

/-- Brackets and commas, which end a plain scalar inside brackets. -/
def isFlowMark : Bool := Text.oneOf ",[]\x7b\x7d" c

/-- Whether a plain scalar ends before the characters ahead; an error where a colon may not stand. -/
def plainEnds : Chars → Except Cause Bool
  | [] => .ok true
  | c :: rest =>
    if isBlankChar c || isBreak c then .ok true
    else if c == ':' && atGap rest then .ok true
    else if c == ':' && inFlow && headIs (fun d => isFlowMark d || d == '?') rest then
      if dialect.colonEndsPlain then .ok (headIs isFlowMark rest) else .error .token
    else .ok (inFlow && (isFlowMark c || (dialect.colonEndsPlain && c == '?')))

def plainRun : (fuel : Nat) → Place → Chars → Except Cause (Chars × Place)
  | 0, p, text => .ok (text, p)
  | fuel + 1, p, text => do
    if ← plainEnds dialect inFlow p.rest then return (text, p)
    plainRun fuel (p.skip 1) (text ++ p.rest.take 1)

def plainBody (indent : Int) : (fuel : Nat) → Place → Gap → Chars → Except Cause (Chars × Bool × Place)
  | 0, _, _, _ => .error .token
  | fuel + 1, p, gap, text => do
    if (p.column == 0 && atDocumentMark p.rest) || p.sees '#' then return (text, gap.broken, p)
    let (run, p) ← plainRun dialect inFlow (p.rest.length + 1) p []
    let text := if run.isEmpty then text else text ++ gap.folded ++ run
    let gap := if run.isEmpty then gap else {}
    if !headIs (fun c => isBreak c || dialect.isSeparator c) p.rest then return (text, gap.broken, p)
    let shallow (p : Place) : Bool := p.column < indent
    let (gap, p) ← takeGap dialect.isSeparator (fun p => p.sees '\t' && shallow p) (p.rest.length + 1) p gap
    if !inFlow && shallow p then return (text, gap.broken, p)
    plainBody indent fuel p gap text

def takePlain (indent : Int) (p : Place) : Except Cause (Chars × Bool × Place) :=
  plainBody dialect inFlow (indent + 1) (p.rest.length + 2) p {} []

/-! ## Block scalars -/

/-- What happens to the line ends after the last line of a block scalar. -/
inductive Chomp
  | strip
  | clip
  | keep
deriving DecidableEq

structure BlockHead where
  chomp : Chomp := .clip
  step? : Option Nat := none

def chompOf? : Option Chomp := [('+', .keep), ('-', .strip)].lookup c

def takeBlockHead (s : Chars) : Except Cause (BlockHead × Nat) :=
  let digit? (c : Char) : Option Nat := if c.isDigit then some (c.toNat - 48) else none
  match s with
  | [] => .ok ({}, 0)
  | c :: rest =>
    match chompOf? c, digit? c with
    | some chomp, _ =>
      match rest.head?.bind digit? with
      | some 0 => .error .token
      | some d => .ok ({ chomp, step? := some d }, 2)
      | none => .ok ({ chomp }, 1)
    | none, some 0 => .error .token
    | none, some d =>
      match rest.head?.bind chompOf? with
      | some chomp => .ok ({ chomp, step? := some d }, 2)
      | none => .ok ({ step? := some d }, 1)
    | none, none => .ok ({}, 0)

/-- Passes the empty lines and the indentation before the next line of a block scalar. -/
def blockBreaks (strict : Bool) (indent : Nat) :
    (fuel : Nat) → Place → (deepest : Nat) → (breaks : Chars) → Except Cause (Chars × Nat × Place)
  | 0, p, deepest, breaks => .ok (breaks, deepest, p)
  | fuel + 1, p, deepest, breaks =>
    let room := if indent == 0 then p.rest.length else indent - p.column
    let blanks := ((p.rest.take room).takeWhile (· == ' ')).length
    let p := p.skip blanks
    let deepest := max deepest p.column
    if strict && (indent == 0 || p.column < indent) && p.sees '\t' then .error .token
    else if headIs isBreak p.rest then
      let (text, p) := p.takeBreak
      blockBreaks strict indent fuel p deepest (breaks ++ text)
    else .ok (breaks, deepest, p)

def blockLines (strict literal : Bool) (chomp : Chomp) (indent : Nat) :
    (fuel : Nat) → Place → (text first breaks : Chars) → (leadBlank : Bool) →
    Except Cause (Chars × Place)
  | 0, p, text, _, _, _ => .ok (text, p)
  | fuel + 1, p, text, first, breaks, leadBlank => do
    if p.column == indent && !p.rest.isEmpty then
      let blank := headIs isBlankChar p.rest
      let joined := if !literal && first == ['\n'] && !leadBlank && !blank then
          (if breaks.isEmpty then [' '] else [])
        else first
      let (line, p) := p.takeWhile (!isBreak ·)
      let text := text ++ joined ++ breaks ++ line
      let (first, p) := p.takeBreak
      let (breaks, _, p) ← blockBreaks strict indent (p.rest.length + 1) p 0 []
      blockLines strict literal chomp indent fuel p text first breaks blank
    else
      .ok (text ++ (if chomp == .strip then [] else first) ++ (if chomp == .keep then breaks else []), p)

def takeBlock (literal : Bool) (outer : Int) (p : Place) : Except Cause (Chars × Place) := do
  let p := p.skip 1
  let (head, n) ← takeBlockHead p.rest
  let p := ((p.skip n).skipWhile dialect.isSeparator).skipComment
  if !atLineEnd p.rest then throw .token
  let p := p.takeBreak.2
  let strict := dialect.tabsSeparate
  let given := (head.step?.map (outer.toNat + ·)).getD 0
  let (breaks, deepest, p) ← blockBreaks strict given (p.rest.length + 1) p 0 []
  let indent := if given == 0 then max (max deepest (outer + 1).toNat) 1 else given
  blockLines strict literal head.chomp indent (p.rest.length + 1) p [] [] breaks false

end Sluice.Yaml
