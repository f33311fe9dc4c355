import Sluice.Fault
import Sluice.Text.Letter

/-!
# Tokens of markup

Scanning ends with a token and the rest of the text, at a character that cannot stand there, or at the end of the text
inside the token.
-/

namespace Sluice.Markup

open Text

/-- First characters with which a name can start beyond ASCII, then digits, combining marks and extenders. -/
def nameRuns : Runs :=
  .ofRows ["H$bi:bB(bC)c.c+bC$bC3jB-d%eB'CeD.s*1cB7CsB#cBkb$&b$b7bB5b*d$b$b$b$b5n/bC1b/bB-$ejC$c%c%dB%c+c%CdB/c$hB/",
   "-r$x$d$b$c$blB$f&BuB#($ki0k)$C6c(b2b'bb2cc$e%kT<dbC$%$bq&edkc%k4db+c%c9b*b$d'%b$h%c%d,be%bdc%-%3bc)e%c9b*b%b%b%%b$f'c%dl",
   "'b$*/&/db*b$b&b9b*b%b(%$bi$d$ds$(k4db+c%c9b*b%c'%$bg&c%d+ce%b&'k5cb)d&b'd%b$b%d%d&d+b&'f&d$e,b2j4db+b&b:b-b('h$d$e*cj%'k",
   "5cb+b&b:b-b('h$d$e*ch$b%'k5cb+b&b:b3'g%d$e,bi%'kFpB7bb$chfgj$kBn%b$c%b$c$g'b*b&b$b$c%b%bb$cg$%$c($b$g%kC-c)k.b$b$b'%+bB*",
   "*u$g'g$b$v&h$bIwB/kB0j$b%b&b$b%b(Bp$b$b$l$b$b$d%d$f&b$b$b$b$d%d%b$Bo$j$c$c%h%b$b*Bo$e$i$EOkG#eD/g9c)cB/c)c+b$b$b$bB(cC$b",
   "*b$d&b*d'c)e0f&b*I&n'bCq$d%c$Dd&FM9bb$zjg$flD)'c%ccD/$dgB1KXvBEX;ERqQN5"]

variable (c : Char)

def isNameStart : Bool := if c.toNat < 128 then c.isAlpha || c == '_' else nameRuns.kindOf c == 1

def isNameChar : Bool :=
  if c.toNat < 128 then c.isAlphanum || c == '_' || c == '-' || c == '.'
  else nameRuns.kindOf c != 0

def isMarkupChar : Bool :=
  let n := c.toNat
  if n < 32 then n == 9 || n == 10 || n == 13 else n != 0xfffe && n != 0xffff

def isSpace : Bool := c == ' ' || c == '\t' || c == '\n' || c == '\r'

inductive Scanned (α : Type)
  | ok (token : α) (rest : Chars)
  | invalid (place : Chars)
  /-- the text ends inside the token -/
  | cut

namespace Scanned

variable {α β : Type}

def map (f : α → β) : Scanned α → Scanned β
  | .ok a rest => .ok (f a) rest
  | .invalid place => .invalid place
  | .cut => .cut

def bind (x : Scanned α) (f : α → Chars → Scanned β) : Scanned β :=
  match x with
  | .ok a rest => f a rest
  | .invalid place => .invalid place
  | .cut => .cut

end Scanned

inductive Reference
  /-- a character by number; none if there is no such character -/
  | char (c? : Option Char)
  | entity (name : String)

/-- A part of an attribute's value. -/
inductive Piece
  | data (s : Chars)
  | reference (r : Reference)

/-- An attribute as it is written, with the number of characters from its name to the end of the
text. -/
structure RawAttribute where
  name : String
  value : List Piece
  /-- how much text there is from its name on -/
  left : Nat

structure RawTag where
  name : String
  attributes : List RawAttribute
  closed : Bool

inductive Token
  | data (s : Chars)
  | reference (r : Reference)
  | open (tag : RawTag)
  | close (name : String)
  | comment (s : Chars)
  | instruction (target data : Chars)
  | declaration (s : Chars)
  | section (s : Chars)
  | openSection

variable (namespaces : Bool) (s : Chars)

def nameTail : (colon : Bool) → Chars → Scanned Chars
  | _, [] => .ok [] []
  | colon, c :: rest =>
    if isNameChar c then (nameTail colon rest).map (c :: ·)
    else if c = ':' then
      if !namespaces then (nameTail colon rest).map (c :: ·)
      else if colon then .invalid (c :: rest)
      else
        match rest with
        | [] => .cut
        | d :: after =>
          if isNameStart d then (nameTail true after).map (c :: d :: ·)
          else .invalid (d :: after)
    else .ok [] (c :: rest)

def startsName (c : Char) : Bool := isNameStart c || (!namespaces && c == ':')

def charOfNumber? (n : Nat) : Option Char :=
  if n < 0x110000 ∧ !(0xd800 ≤ n ∧ n < 0xe000) then
    let c := Char.ofNat n
    if isMarkupChar c then some c else none
  else none

def scanDigits (isDigit : Char → Bool) (base : Nat) (value : Char → Nat) (s : Chars) : Scanned Reference :=
  let ds := s.takeWhile isDigit
  match s.drop ds.length with
  | [] => .cut
  | ';' :: rest =>
    if ds.isEmpty then .invalid (';' :: rest)
    else
      -- numbers past the last character are cut short
      let n := ds.foldl (fun n c => min 0x110000 (n * base + value c)) 0
      .ok (.char (charOfNumber? n)) rest
  | place => .invalid place

def scanReference : Chars → Scanned Reference
  | [] => .cut
  | '#' :: 'x' :: rest => scanDigits (fun c => (Text.hexValue? c).isSome) 16 (fun c => (Text.hexValue? c).getD 0) rest
  | '#' :: rest => scanDigits Text.isAsciiDigit 10 (fun c => c.toNat - 48) rest
  | c :: rest =>
    if startsName namespaces c then
      let inName (d : Char) : Bool := isNameChar d || (!namespaces && d == ':')
      let name := rest.takeWhile inName
      match rest.drop name.length with
      | [] => .cut
      | ';' :: after => .ok (.entity (String.ofList (c :: name))) after
      | place => .invalid place
    else .invalid (c :: rest)

/-! ## Tags -/

def scanValue (mark : Char) : (fuel : Nat) → Chars → Chars → List Piece → Scanned (List Piece)
  | 0, _, _, _ => .cut
  | fuel + 1, s, run, acc =>
    let flushed := if run.isEmpty then acc else .data run.reverse :: acc
    match s with
    | [] => .cut
    | c :: rest =>
      if c = mark then .ok flushed.reverse rest
      else if !isMarkupChar c || c = '<' then .invalid s
      else if c = '&' then
        match scanReference namespaces rest with
        | .ok r after => scanValue mark fuel after [] (.reference r :: flushed)
        | .invalid place => .invalid place
        | .cut => .cut
      else scanValue mark fuel rest (c :: run) acc

/-- The equals sign of an attribute and the quote behind it, with spaces around. -/
def scanAssign : Scanned Char :=
  match s.dropWhile isSpace with
  | [] => .cut
  | '=' :: rest =>
    match rest.dropWhile isSpace with
    | [] => .cut
    | q :: after => if q = '"' ∨ q = '\x27' then .ok q after else .invalid (q :: after)
  | place => .invalid place

def scanAttributes (name : String) : (fuel : Nat) → Chars → List RawAttribute → Scanned RawTag
  | 0, _, _ => .cut
  | fuel + 1, s, acc =>
    match s with
    | [] => .cut
    | '>' :: rest => .ok ⟨name, acc.reverse, false⟩ rest
    | '/' :: rest =>
      match rest with
      | [] => .cut
      | '>' :: after => .ok ⟨name, acc.reverse, true⟩ after
      | place => .invalid place
    | c :: rest =>
      if startsName namespaces c then
        (nameTail namespaces false rest).bind fun tail after =>
          (scanAssign after).bind fun mark after =>
            (scanValue namespaces mark (after.length + 1) after [] []).bind fun value after =>
              let found : RawAttribute := ⟨String.ofList (c :: tail), value, s.length⟩
              match after with
              | [] => .cut
              | d :: _ =>
                if isSpace d || d == '/' || d == '>' then
                  scanAttributes name fuel (after.dropWhile isSpace) (found :: acc)
                else .invalid after
      else .invalid s

def scanStartTag : Chars → Scanned RawTag
  | [] => .cut
  | c :: rest =>
    (nameTail namespaces false rest).bind fun tail after =>
      let name := String.ofList (c :: tail)
      match after with
      | [] => .cut
      | d :: _ =>
        if isSpace d || d == '/' || d == '>' then
          scanAttributes namespaces name (after.length + 1) (after.dropWhile isSpace) []
        else .invalid after

def scanEndTag : Chars → Scanned String
  | [] => .cut
  | c :: rest =>
    if startsName namespaces c then
      -- a colon may stand anywhere in an end tag; the name is compared as it is written
      let inName (d : Char) : Bool := isNameChar d || d == ':'
      let tail := rest.takeWhile inName
      match (rest.drop tail.length) with
      | [] => .cut
      | after =>
        match after.dropWhile isSpace with
        | [] => .cut
        | '>' :: end_ => .ok (String.ofList (c :: tail)) end_
        | place => .invalid place
    else .invalid (c :: rest)

/-! ## Comments, instructions and sections -/

def scanComment : Scanned Chars :=
  let rec body : Chars → Chars → Scanned Chars
    | [], _ => .cut
    | c :: rest, acc =>
      if !isMarkupChar c then .invalid (c :: rest)
      else if c = '-' then
        match rest with
        | [] => .cut
        | '-' :: after =>
          match after with
          | [] => .cut
          | '>' :: end_ => .ok acc.reverse end_
          | place => .invalid place
        | _ => body rest (c :: acc)
      else body rest (c :: acc)
  match s with
  | [] => .cut
  | '-' :: rest => body rest []
  | place => .invalid place

def scanInstructionText : Chars → Chars → Scanned Chars
  | [], _ => .cut
  | c :: rest, acc =>
    if !isMarkupChar c then .invalid (c :: rest)
    else if c = '?' then
      match rest with
      | [] => .cut
      | '>' :: end_ => .ok acc.reverse end_
      | _ => scanInstructionText rest (c :: acc)
    else scanInstructionText rest (c :: acc)

def isReservedTarget (t : Chars) : Bool := t.map Char.toLower == ['x', 'm', 'l']

def scanInstruction : Scanned Token :=
  match s with
  | [] => .cut
  | c :: rest =>
    if !startsName namespaces c then .invalid s
    else
      let inName (d : Char) : Bool := isNameChar d || (!namespaces && d == ':')
      let target := c :: rest.takeWhile inName
      let after := s.drop target.length
      let make (data : Chars) : Token := if target == ['x', 'm', 'l'] then .declaration data else .instruction target data
      match after with
      | [] => .cut
      | d :: more =>
        if isSpace d then
          if isReservedTarget target && target != ['x', 'm', 'l'] then .invalid after
          else (scanInstructionText (more.dropWhile isSpace) []).map make
        else if d = '?' then
          if isReservedTarget target && target != ['x', 'm', 'l'] then .invalid after
          else
            match more with
            | [] => .cut
            | '>' :: end_ => .ok (make []) end_
            | place => .invalid place
        else .invalid after

def scanSection : Chars → Chars → Scanned Token
  | [], _ => .ok .openSection []
  | c :: rest, acc =>
    if !isMarkupChar c then .invalid (c :: rest)
    else
      match c, rest with
      | ']', ']' :: '>' :: end_ => .ok (.section acc.reverse) end_
      | _, _ => scanSection rest (c :: acc)

def scanSectionStart : (word s : Chars) → Scanned Token
  | [], s => scanSection s []
  | _ :: _, [] => .cut
  | w :: word, c :: s => if w = c then scanSectionStart word s else .invalid (c :: s)

def takeData : Chars → Chars → Chars × Chars
  | [], acc => (acc.reverse, [])
  | c :: rest, acc =>
    if c = '<' ∨ c = '&' ∨ !isMarkupChar c then (acc.reverse, c :: rest)
    else if c = ']' then
      match rest with
      | ']' :: '>' :: _ => (acc.reverse, c :: rest)
      | _ => takeData rest (c :: acc)
    else takeData rest (c :: acc)

def scanContent : Scanned Token :=
  match s with
  | [] => .cut
  | '<' :: rest =>
    match rest with
    | [] => .cut
    | '!' :: after =>
      match after with
      | [] => .cut
      | '-' :: more => (scanComment more).map .comment
      | '[' :: more => scanSectionStart "CDATA[".toList more
      | place => .invalid place
    | '?' :: after => scanInstruction namespaces after
    | '/' :: after => (scanEndTag namespaces after).map .close
    | c :: _ => if startsName namespaces c then (scanStartTag namespaces rest).map .open else .invalid rest
  | '&' :: rest => (scanReference namespaces rest).map .reference
  | ']' :: ']' :: '>' :: rest => .invalid ('>' :: rest)
  | c :: _ =>
    if !isMarkupChar c then .invalid s
    else
      let (data, rest) := takeData s []
      .ok (.data data) rest

end Sluice.Markup
