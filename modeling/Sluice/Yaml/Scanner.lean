import Sluice.Yaml.Scalar

/-!
# From YAML text to tokens

A column deeper than the **indentation** opens a block collection, a shallower one closes it. That a scalar was a
**key** is known only at the colon behind it, so the scanner remembers the token that may be a key, and puts the mark
before it later.
-/

namespace Sluice.Yaml

structure Candidate where
  number : Nat
  place : Place
  required : Bool

structure Scanner where
  place : Place
  tokens : Array Token := #[]
  indent : Int := -1
  outer : List Int := []
  keyAllowed : Bool := true
  candidate? : Option Candidate := none
  /-- the candidates of the brackets around it and of the block around these -/
  candidates : List (Option Candidate) := []

namespace Scanner

variable (s : Scanner) (dialect : Dialect) (p : Place)

def inFlow : Bool := !s.candidates.isEmpty

def push (s : Scanner) (t : Token) : Scanner := { s with tokens := s.tokens.push t }

def insert (number : Nat) (t : Token) : Scanner :=
  { s with tokens := (s.tokens.extract 0 number).push t ++ s.tokens.extract number s.tokens.size }

def openBlock (column number : Nat) (t : Token) : Scanner :=
  if !s.inFlow && s.indent < column then
    { s.insert number t with indent := column, outer := s.indent :: s.outer }
  else s

def closeBlocks (column : Int) : List Int → Scanner → Scanner
  | [], s => s
  | i :: outer, s =>
    if column < s.indent then closeBlocks column outer { s.push .blockEnd with indent := i, outer }
    else s

def unroll (column : Int) : Scanner := if s.inFlow then s else closeBlocks column s.outer s

def dropCandidate : Except Cause Scanner :=
  match s.candidate? with
  | some c => if c.required then .error .token else .ok { s with candidate? := none }
  | none => .ok s

def noteCandidate : Except Cause Scanner :=
  if s.keyAllowed then do
    let s ← s.dropCandidate
    let required := !s.inFlow && s.indent == s.place.column
    pure { s with candidate? := some ⟨s.tokens.size, s.place, required⟩ }
  else .ok s

def isStale (c : Candidate) : Bool := c.place.line < s.place.line || c.place.index + 1024 < s.place.index

def fresh : Option Candidate → Except Cause (Option Candidate)
  | some c => if s.isStale c then (if c.required then .error .token else .ok none) else .ok (some c)
  | none => .ok none

def dropStale : Except Cause Scanner := do
  let candidates ← s.candidates.mapM s.fresh
  let candidate? ← s.fresh s.candidate?
  pure { s with candidates, candidate? }

/-- Passes blanks, comments and line ends up to the next token. -/
def toNext : (fuel : Nat) → Scanner → Scanner
  | 0, s => s
  | fuel + 1, s =>
    let tabs := dialect.tabsSeparate && (s.inFlow || !s.keyAllowed)
    let p := (s.place.skipWhile fun c => c == ' ' || (tabs && c == '\t')).skipComment
    if headIs isBreak p.rest then
      toNext fuel { s with place := p.takeBreak.2, keyAllowed := s.keyAllowed || !s.inFlow }
    else { s with place := p }

/-! ## Directives, tags and names -/

def takeNumber : Except Cause (Nat × Place) :=
  let (digits, p) := p.takeWhile Char.isDigit
  if digits.isEmpty || 9 < digits.length then .error .token else .ok (Text.digitsValue digits, p)

/-- The handle of a tag: marks around a name, or a lone mark and a name. -/
def takeHandle : Except Cause (Chars × Place) :=
  if !p.sees '!' then .error .token
  else
    let (name, p) := (p.skip 1).takeWhile isNameChar
    if p.sees '!' then .ok ('!' :: name ++ ['!'], p.skip 1) else .ok ('!' :: name, p)

def isAddressChar (full : Bool) (c : Char) : Bool :=
  isNameChar c || Text.oneOf ";/?:@&=+$.%!~*\x27()" c || (full && Text.oneOf ",[]" c)

open String

def unescapeAddress : Chars → Option (List UInt8)
  | [] => some []
  | '%' :: a :: b :: rest => do
    some ((16 * (← Text.hexValue? a) + (← Text.hexValue? b)).toUInt8 :: (← unescapeAddress rest))
  | '%' :: _ => none
  | c :: rest => do some ((singleton c).toUTF8.toList ++ (← unescapeAddress rest))

def takeAddress (full : Bool) (start : Chars) (p : Place) : Except Cause (String × Place) :=
  let (text, p) := p.takeWhile (isAddressChar full)
  match (unescapeAddress (start.drop 1 ++ text)).bind (fromUTF8? ⟨·.toArray⟩) with
  | some s => if start.isEmpty && text.isEmpty then .error .token else .ok (s, p)
  | none => .error .token

def takeTag (inFlow : Bool) (p : Place) : Except Cause (Token × Place) := do
  let (token, p) ←
    if (p.rest.drop 1).head? == some '<' then do
      let (uri, p) ← takeAddress true [] (p.skip 2)
      if !p.sees '>' then throw .token
      pure (Token.tag "" uri, p.skip 1)
    else do
      let (handle, p) ← takeHandle p
      if 1 < handle.length && handle.getLast? == some '!' then
        let (suffix, p) ← takeAddress false [] p
        pure (Token.tag (ofList handle) suffix, p)
      else
        let (suffix, p) ← takeAddress false handle p
        pure (if suffix == "" then Token.tag "" "!" else Token.tag "!" suffix, p)
  if !(atGap p.rest || (inFlow && p.sees ',')) then throw .token
  pure (token, p)

def takeName : Except Cause (String × Place) :=
  let (name, p) := (p.skip 1).takeWhile isNameChar
  if name.isEmpty || !(atGap p.rest || headIs (Text.oneOf "?:,]\x7d%@\x60") p.rest) then
    .error .token
  else .ok (ofList name, p)

def directiveEnd : Except Cause Place :=
  let p := (p.skipWhile isBlankChar).skipComment
  if atLineEnd p.rest then .ok p.takeBreak.2 else .error .token

def takeDirective : Except Cause (Option Token × Place) := do
  let (name, p) := (p.skip 1).takeWhile isNameChar
  if name.isEmpty || !atGap p.rest then throw .token
  let p' := p.skipWhile isBlankChar
  if name == "YAML".toList then
    let (major, p) ← takeNumber p'
    if !p.sees '.' then throw .token
    let (minor, p) ← takeNumber (p.skip 1)
    pure (some (.version major minor), ← directiveEnd p)
  else if name == "TAG".toList then
    let (handle, p) ← takeHandle p'
    if handle != ['!'] && handle.getLast? != some '!' then throw .token
    if !headIs isBlankChar p.rest then throw .token
    let (start, p) ← takeAddress true [] (p.skipWhile isBlankChar)
    if !atGap p.rest then throw .token
    pure (some (.tagDirective (ofList handle) start), ← directiveEnd p)
  else if dialect.colonEndsPlain then
    pure (none, ← directiveEnd (p.skipWhile (!isBreak ·)))
  else throw .token

/-! ## One token after another -/

def openBracket (t : Token) : Except Cause Scanner := do
  let s ← s.noteCandidate
  pure { s.push t with
    candidates := s.candidate? :: s.candidates, candidate? := none, keyAllowed := true
    place := s.place.skip 1 }

def closeBracket (t : Token) : Except Cause Scanner := do
  let s ← s.dropCandidate
  let s := match s.candidates with
    | c :: cs => { s with candidate? := c, candidates := cs }
    | [] => s
  pure { s.push t with keyAllowed := false, place := s.place.skip 1 }

def commaMark : Except Cause Scanner := do
  let s ← s.dropCandidate
  pure { s.push .comma with keyAllowed := true, place := s.place.skip 1 }

def blockMark (opens t : Token) (allows : Bool) : Except Cause Scanner := do
  if !s.inFlow && !s.keyAllowed then throw .token
  let s ← (s.openBlock s.place.column s.tokens.size opens).dropCandidate
  pure { s.push t with keyAllowed := allows, place := s.place.skip 1 }

def valueMark : Except Cause Scanner :=
  match s.candidate? with
  | some c =>
    let s := (s.insert c.number .key).openBlock c.place.column c.number .blockMapping
    .ok { s.push .value with candidate? := none, keyAllowed := false, place := s.place.skip 1 }
  | none =>
    if !s.inFlow && !s.keyAllowed then .error .token
    else
      let s := s.openBlock s.place.column s.tokens.size .blockMapping
      .ok { s.push .value with keyAllowed := !s.inFlow, place := s.place.skip 1 }

def keyLike (read : Place → Except Cause (Token × Place)) : Except Cause Scanner := do
  let s ← s.noteCandidate
  let (t, p) ← read s.place
  pure { s.push t with keyAllowed := false, place := p }

def quotedScalar (mark : Char) : Except Cause Scanner :=
  s.keyLike fun p => (takeQuoted mark p).map fun (text, p) => (.scalar (ofList text) .quoted, p)

def blockScalar (literal : Bool) : Except Cause Scanner := do
  let s ← s.dropCandidate
  let (text, p) ← takeBlock dialect literal s.indent s.place
  pure { s.push (.scalar (ofList text) .quoted) with keyAllowed := true, place := p }

def plainScalar : Except Cause Scanner := do
  let s ← s.noteCandidate
  let (text, broken, p) ← takePlain dialect s.inFlow s.indent s.place
  pure { s.push (.scalar (ofList text) .plain) with keyAllowed := broken, place := p }

def startsPlain (inFlow : Bool) : Chars → Bool
  | [] => false
  | c :: rest =>
    if c == '-' then !headIs isBlankChar rest
    else if c == '?' || c == ':' then !inFlow && !atGap rest
    else !(isBlankChar c || isBreak c || Text.oneOf ",[]\x7b\x7d#&*!|>\x27\"%@\x60" c)

def directive : Except Cause Scanner := do
  let s ← (s.unroll (-1)).dropCandidate
  let (t?, p) ← takeDirective dialect s.place
  let s := match t? with
    | some t => s.push t
    | none => s
  pure { s with keyAllowed := false, place := p }

def documentMark (t : Token) : Except Cause Scanner := do
  let s ← (s.unroll (-1)).dropCandidate
  pure { s.push t with keyAllowed := false, place := s.place.skip 3 }

def advance : Except Cause Scanner := do
  let s ← (toNext dialect (s.place.rest.length + 1) s).dropStale
  pure (s.unroll s.place.column)

def next? : Option (Except Cause Scanner) :=
  match s.place.rest with
  | [] => none
  | c :: rest => some <|
    if s.place.column == 0 && c == '%' then s.directive dialect
    else if s.place.column == 0 && atDocumentMark s.place.rest then
      s.documentMark (if c == '-' then .documentStart else .documentEnd)
    else if c == '[' then s.openBracket .sequenceOpen
    else if c == '\x7b' then s.openBracket .mappingOpen
    else if c == ']' then s.closeBracket .sequenceClose
    else if c == '\x7d' then s.closeBracket .mappingClose
    else if c == ',' then s.commaMark
    else if c == '-' && atGap rest then s.blockMark .blockSequence .entry true
    else if c == '?' && (s.inFlow || atGap rest) then s.blockMark .blockMapping .key (!s.inFlow)
    else if c == ':' && (s.inFlow || atGap rest) then s.valueMark
    else if c == '*' then s.keyLike fun p => (takeName p).map fun (n, p) => (.alias n, p)
    else if c == '&' then s.keyLike fun p => (takeName p).map fun (n, p) => (.anchor n, p)
    else if c == '!' then s.keyLike (takeTag s.inFlow)
    else if c == '|' && !s.inFlow then s.blockScalar dialect true
    else if c == '>' && !s.inFlow then s.blockScalar dialect false
    else if c == '\x27' || c == '"' then s.quotedScalar c
    else if startsPlain s.inFlow s.place.rest then s.plainScalar dialect
    else .error .token

def finish : Except Cause Scanner := do pure ((← (s.unroll (-1)).dropCandidate).push .streamEnd)

def settled : List Token :=
  let open_ := (s.candidate? :: s.candidates).filterMap fun c? => c?.map (·.number)
  s.tokens.toList.take (open_.foldl min s.tokens.size)

def run : (fuel : Nat) → Scanner → List Token × Option Cause
  | 0, s => (s.settled, some .token)
  | fuel + 1, s =>
    match s.advance dialect with
    | .error e => (s.settled, some e)
    | .ok s =>
      match s.next? dialect with
      | some (.error e) => (s.settled, some e)
      | some (.ok s) => run fuel s
      | none =>
        match s.finish with
        | .error e => (s.settled, some e)
        | .ok s => (s.tokens.toList, none)

end Scanner

/-- **The tokens of YAML text**, and the cause that ended the scanning, if there was one. -/
def scan (dialect : Dialect) (text : Chars) : List Token × Option Cause :=
  if text.all isAllowed then Scanner.run dialect (text.length + 2) { place := { rest := text } }
  else ([], some .character)

end Sluice.Yaml
