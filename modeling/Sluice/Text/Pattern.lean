import Sluice.Fault
import Sluice.Number.Decimal
import Sluice.Text.Letter

/-!
# Patterns

`Pattern.parse` reads patterns; `Pattern.find` looks for the leftmost place where a pattern fits.
-/

namespace Sluice.Text

open Number String

inductive CharClass
  | one (c : Char)
  | range (lo hi : Char)
  | digit
  | blank
  | word
  | outside (c : CharClass)
  | either (a b : CharClass)
  | empty

def CharClass.has : CharClass → Char → Bool
  | one d, c => c == d
  | range lo hi, c => lo ≤ c && c ≤ hi
  | digit, c => isDecimal c
  | blank, c => isBlank c
  | word, c => isWordChar c
  | outside k, c => !k.has c
  | either a b, c => a.has c || b.has c
  | empty, _ => false

/-- How a repetition takes its part. -/
inductive Greed
  /-- as often as it can, and less often if what follows needs it -/
  | most
  | least
  /-- as often as it can, and never less often -/
  | all

/-- A place that a pattern can ask for without taking a character. -/
inductive Spot
  | start
  | finish
  /-- the end, or before a line end there -/
  | lastLine
  /-- between a character of a word and one that is none -/
  | edge
  | noEdge

inductive Pattern
  | nothing
  | char (k : CharClass)
  | any
  | spot (s : Spot)
  | seq (a b : Pattern)
  | choice (a b : Pattern)
  | rep (p : Pattern) (least : Nat) (most? : Option Nat) (greed : Greed)
  | group (number : Nat) (p : Pattern)
  | again (number : Nat)

namespace Pattern

/-! ## Reading -/

structure Refusal where
  text : String
  left : Nat

abbrev Reading (α : Type) := Except Refusal (α × Chars)

/-- What a reader of patterns keeps: how many groups were opened, and which are still open. -/
structure Progress where
  opened : Nat := 0
  pending : List Nat := []

inductive Piece
  | plain (p : Pattern)
  | fixed (p : Pattern)
  | repeated (p : Pattern)

def Piece.pattern : Piece → Pattern
  | plain p | fixed p | repeated p => p

def inOrder : List Piece → Pattern
  | [] => nothing
  | [p] => p.pattern
  | p :: rest => seq p.pattern (inOrder rest)

def escapedControl? : Char → Option Char
  | 'a' => some '\x07'
  | 'f' => some '\x0c'
  | 'n' => some '\n'
  | 'r' => some '\r'
  | 't' => some '\t'
  | 'v' => some '\x0b'
  | '\\' => some '\\'
  | _ => none

def escapedClass? : Char → Option CharClass
  | 'd' => some .digit
  | 'D' => some (.outside .digit)
  | 's' => some .blank
  | 'S' => some (.outside .blank)
  | 'w' => some .word
  | 'W' => some (.outside .word)
  | _ => none

def escapedSpot? : Char → Option Spot
  | 'A' => some .start
  | 'Z' => some .finish
  | 'b' => some .edge
  | 'B' => some .noEdge
  | _ => none

def hexCount? : Char → Option Nat
  | 'x' => some 2
  | 'u' => some 4
  | 'U' => some 8
  | _ => none

variable (c : Char) (rest : Chars) (start : Nat)

def escapedHex (count left : Nat) (rest : Chars) : Reading Char :=
  let digits := (rest.take count).takeWhile fun d => (hexValue? d).isSome
  if digits.length = count then
    .ok (Char.ofNat (digits.foldl (fun n d => n * 16 + (hexValue? d).getD 0) 0), rest.drop count)
  else .error ⟨"incomplete escape \\" ++ ofList (c :: digits), left⟩

def isLatin : Bool := ('a' ≤ c && c ≤ 'z') || ('A' ≤ c && c ≤ 'Z')

def isOctal : Bool := '0' ≤ c && c ≤ '7'

def digitsValue (base : Nat) (ds : Chars) : Nat := ds.foldl (fun n d => n * base + (d.toNat - 48)) 0

def readEscape (g : Progress) (left : Nat) : Chars → Reading Piece
  | [] => .error ⟨"bad escape (end of pattern)", left⟩
  | c :: rest =>
    let one (d : Char) : Piece := .plain (char (.one d))
    match escapedClass? c, escapedSpot? c, escapedControl? c, hexCount? c with
    | some k, _, _, _ => .ok (.plain (char k), rest)
    | _, some s, _, _ => .ok (.fixed (spot s), rest)
    | _, _, some d, _ => .ok (one d, rest)
    | _, _, _, some n => (escapedHex c n left rest).map (Prod.map one id)
    | none, none, none, none =>
      if c = '0' then
        let ds := (rest.take 2).takeWhile isOctal
        .ok (one (Char.ofNat (digitsValue 8 ds)), rest.drop ds.length)
      else if '1' ≤ c && c ≤ '9' then
        match rest with
        | d :: e :: rest' =>
          if isOctal c && isOctal d && isOctal e then
            let n := digitsValue 8 [c, d, e]
            if 255 < n then .error ⟨"octal escape value \\" ++ ofList [c, d, e] ++ " outside of range 0-0o377", left⟩
            else .ok (one (Char.ofNat n), rest')
          else reference c rest
        | _ => reference c rest
      else if isLatin c then .error ⟨"bad escape \\" ++ ofList [c], left⟩
      else .ok (one c, rest)
where
  reference (c : Char) (rest : Chars) : Reading Piece :=
    let second := (rest.take 1).takeWhile Char.isDigit
    let n := digitsValue 10 (c :: second)
    if n ≤ g.opened then
      if g.pending.contains n then .error ⟨"cannot refer to an open group", left⟩
      else .ok (.plain (again n), rest.drop second.length)
    else .error ⟨"invalid group reference " ++ intText n, left - 1⟩

def readClassEscape (left : Nat) : Chars → Reading (CharClass ⊕ Char)
  | [] => .error ⟨"bad escape (end of pattern)", left⟩
  | c :: rest =>
    match escapedClass? c, escapedControl? c, hexCount? c with
    | some k, _, _ => .ok (.inl k, rest)
    | _, some d, _ => .ok (.inr d, rest)
    | _, _, some n => (escapedHex c n left rest).map (Prod.map .inr id)
    | none, none, none =>
      if c = 'b' then .ok (.inr '\x08', rest)
      else if isOctal c then
        let ds := c :: (rest.take 2).takeWhile isOctal
        .ok (.inr (Char.ofNat (digitsValue 8 ds)), rest.drop (ds.length - 1))
      else if isLatin c || c.isDigit then .error ⟨"bad escape \\" ++ ofList [c], left⟩
      else .ok (.inr c, rest)

def readMember : Reading (CharClass ⊕ Char) :=
  match rest with
  | [] => .error ⟨"unterminated character set", start⟩
  | '\\' :: tail => readClassEscape rest.length tail
  | c :: tail => .ok (.inr c, tail)

def memberClass : CharClass ⊕ Char → CharClass
  | .inl k => k
  | .inr c => .one c

def readMembers : (fuel : Nat) → (first : Bool) → CharClass → Chars → Except Refusal (CharClass × Chars)
  | 0, _, _, _ => .error ⟨"unterminated character set", start⟩
  | fuel + 1, first, k, text => do
    if let ']' :: rest := text then
      if !first then return (k, rest)
    let (a, rest) ← readMember text start
    match rest with
    | '-' :: ']' :: after => pure (.either (.either k (memberClass a)) (.one '-'), after)
    | '-' :: after =>
      let (b, after) ← readMember after start
      let refusal : Refusal := ⟨"bad character range " ++ ofList (text.take (text.length - after.length)), text.length⟩
      match a, b with
      | .inr lo, .inr hi => if hi < lo then throw refusal else readMembers fuel false (.either k (.range lo hi)) after
      | _, _ => throw refusal
    | rest => readMembers fuel false (.either k (memberClass a)) rest

def readClass (rest : Chars) : Reading CharClass :=
  match rest with
  | '^' :: tail => (readMembers start (rest.length + 1) true .empty tail).map (Prod.map .outside id)
  | rest => readMembers start (rest.length + 1) true .empty rest

def readBounds? : Option (Nat × Option Nat × Chars) :=
  let value := digitsValue 10
  let lo := rest.takeWhile Char.isDigit
  match rest.drop lo.length with
  | ',' :: tail =>
    let hi := tail.takeWhile Char.isDigit
    match tail.drop hi.length with
    | '\x7d' :: after => some (value lo, if hi.isEmpty then none else some (value hi), after)
    | _ => none
  | '\x7d' :: after => if lo.isEmpty then none else some (value lo, some (value lo), after)
  | _ => none

def bounds? : Option (Nat × Option Nat × Chars) :=
  match c with
  | '?' => some (0, some 1, rest)
  | '*' => some (0, none, rest)
  | '+' => some (1, none, rest)
  | '\x7b' => readBounds? rest
  | _ => none

def greedOf : Chars → Greed × Chars
  | '?' :: rest => (.least, rest)
  | '+' :: rest => (.all, rest)
  | rest => (.most, rest)

def repeatLast (left least : Nat) (most? : Option Nat) (rest : Chars) (pieces : List Piece) : Reading (List Piece) :=
  if most?.any (· < least) then .error ⟨"min repeat greater than max repeat", left - 1⟩
  else
    match pieces with
    | .plain p :: before =>
      let (greed, rest) := greedOf rest
      .ok (.repeated (rep p least most? greed) :: before, rest)
    | .repeated _ :: _ => .error ⟨"multiple repeat", left⟩
    | _ => .error ⟨"nothing to repeat", left⟩

mutual

def readChoice : (fuel : Nat) → Progress → Chars → Except Refusal (Pattern × Progress × Chars)
  | 0, _, rest => .error ⟨"pattern too long", rest.length⟩
  | fuel + 1, g, rest => do
    match ← readPieces fuel g [] rest with
    | (p, g, '|' :: rest) =>
      let (q, after) ← readChoice fuel g rest
      pure (choice p q, after)
    | read => pure read

def readPieces : (fuel : Nat) → Progress → List Piece → Chars → Except Refusal (Pattern × Progress × Chars)
  | 0, _, _, rest => .error ⟨"pattern too long", rest.length⟩
  | _ + 1, g, pieces, [] => .ok (inOrder pieces.reverse, g, [])
  | fuel + 1, g, pieces, c :: rest => do
    let left := rest.length + 1
    let add (p : Piece) (rest : Chars) := readPieces fuel g (p :: pieces) rest
    if c = '|' || c = ')' then return (inOrder pieces.reverse, g, c :: rest)
    if let some (least, most?, after) := bounds? c rest then
      let (pieces, rest) ← repeatLast left least most? after pieces
      return ← readPieces fuel g pieces rest
    match c, rest with
    | '.', _ => add (.plain any) rest
    | '^', _ => add (.fixed (spot .start)) rest
    | '$', _ => add (.fixed (spot .lastLine)) rest
    | '\\', _ =>
      let (p, rest) ← readEscape g left rest
      add p rest
    | '[', _ =>
      let (k, rest) ← readClass left rest
      add (.plain (char k)) rest
    | '(', '?' :: ':' :: inner =>
      match ← readChoice fuel g inner with
      | (p, g, ')' :: rest) => readPieces fuel g (.plain p :: pieces) rest
      | _ => throw ⟨"missing ), unterminated subpattern", left⟩
    | '(', ['?'] => throw ⟨"unexpected end of pattern", 0⟩
    | '(', '?' :: d :: _ => throw ⟨"unknown extension ?" ++ ofList [d], left - 1⟩
    | '(', inner =>
      let n := g.opened + 1
      match ← readChoice fuel { opened := n, pending := n :: g.pending } inner with
      | (p, g, ')' :: rest) => readPieces fuel { g with pending := g.pending.erase n } (.plain (group n p) :: pieces) rest
      | _ => throw ⟨"missing ), unterminated subpattern", left⟩
    | c, _ => add (.plain (char (.one c))) rest

end

structure Compiled where
  pattern : Pattern
  groups : Nat

/-- **Reads a pattern.** -/
def parse (text : Chars) : Result Compiled :=
  let fault (r : Refusal) : Fault :=
    let before := text.take (text.length - r.left)
    let lines := splitAtChar '\n' before
    let place := if text.contains '\n' then
        s!" (line {intText lines.length}, column {intText ((lines.getLast?.getD []).length + 1)})"
      else ""
    ⟨.pattern, s!"{r.text} at position {intText before.length}{place}"⟩
  match readChoice (2 * text.length + 2) {} text with
  | .error r => .error (fault r)
  | .ok (p, g, []) => .ok ⟨p, g.opened⟩
  | .ok (_, _, rest) => .error (fault ⟨"unbalanced parenthesis", rest.length⟩)

/-! ## Finding -/

structure Place where
  before? : Option Char
  rest : Chars
  /-- what groups took, the latest first -/
  taken : List (Nat × Chars) := []

def Place.suits (p : Place) (s : Spot) : Bool :=
  let edge := p.before?.any isWordChar != p.rest.head?.any isWordChar
  match s with
  | .start => p.before?.isNone
  | .finish => p.rest.isEmpty
  | .lastLine => p.rest.isEmpty || p.rest == ['\n']
  | .edge => edge
  | .noEdge => !edge

def Place.skip (p : Place) : Chars → Option Place
  | [] => some p
  | c :: cs =>
    match p.rest with
    | d :: rest => if c = d then Place.skip { p with before? := some c, rest } cs else none
    | [] => none

/-- **Fits a pattern at a place**, so that what follows fits as well. The fuel bounds how deep alternatives are
tried. -/
def fit : (fuel : Nat) → Pattern → Place → (Place → Option Place) → Option Place
  | 0, _, _, _ => none
  | fuel + 1, pattern, p, next =>
    match pattern with
    | nothing => next p
    | any => match p.rest with
      | c :: rest => next { p with before? := some c, rest }
      | [] => none
    | char k => match p.rest with
      | c :: rest => if k.has c then next { p with before? := some c, rest } else none
      | [] => none
    | spot s => if p.suits s then next p else none
    | seq a b => fit fuel a p fun q => fit fuel b q next
    | choice a b => (fit fuel a p next).orElse fun _ => fit fuel b p next
    | group n a => fit fuel a p fun q =>
        next { q with taken := (n, p.rest.take (p.rest.length - q.rest.length)) :: q.taken }
    | again n => match p.taken.lookup n with
      | some text => (p.skip text).bind next
      | none => none
    | rep a least most? greed =>
      let fewer : Option Nat := most?.map (· - 1)
      let once : Option Place :=
        if most? = some 0 then none
        else fit fuel a p fun q =>
          if least = 0 && q.rest.length = p.rest.length then none
          else fit fuel (rep a (least - 1) fewer greed) q next
      match greed with
      | .most => if least = 0 then once.orElse fun _ => next p else once
      | .least => if least = 0 then (next p).orElse fun _ => once else once
      | .all =>
        match fit fuel (rep a least most? .most) p some with
        | some q => next q
        | none => none

/-- **The leftmost place where a pattern fits**: how much of the text is left where it begins, and where it ends. With
`moves`, something must be taken where the search begins. -/
def find (fuel : Nat) (pattern : Pattern) (moves : Bool) (before? : Option Char) (text : Chars) : Option (Nat × Place) :=
  let here := fit fuel pattern ⟨before?, text, []⟩ fun q => if moves && q.rest.length = text.length then none else some q
  match here, text with
  | some q, text => some (text.length, q)
  | none, c :: rest => find fuel pattern false (some c) rest
  | none, [] => none

/-- What the group of a number took in each place where a pattern fits, one place after another. -/
def findAll (fuel : Nat) (pattern : Pattern) (number : Nat) :
    (steps : Nat) → (moves : Bool) → (before? : Option Char) → Chars → List Chars
  | 0, _, _, _ => []
  | steps + 1, moves, before?, text =>
    match find fuel pattern moves before? text with
    | none => []
    | some (left, q) =>
      (q.taken.lookup number).getD [] ::
        findAll fuel pattern number steps (q.rest.length == left) q.before? q.rest

def size : Pattern → Nat
  | seq a b | choice a b => size a + size b + 1
  | rep p .. | group _ p => size p + 1
  | _ => 1

def Compiled.all (c : Compiled) (number : Nat) (text : Chars) : List Chars :=
  findAll ((text.length + 2) * (c.pattern.size + 2)) c.pattern number (2 * text.length + 2) false none text

end Pattern

end Sluice.Text
