import Sluice.Html.Reference
import Sluice.Value.Basic

/-!
# Pages as events

Whatever is no tag is text. A construct that the page ends in is left out; so is a text at the end that may break off
inside a reference.
-/

namespace Sluice.Html

open Text String

inductive Event
  | start (tag : String)
  | finish (tag : String)
  | text (s : Chars)

/-- A place in a page: the character in front of it and the text behind it. -/
structure Spot where
  last : Char
  rest : Chars

namespace Spot

def goTo (s : Spot) (rest : Chars) : Spot := ⟨(s.rest.take (s.rest.length - rest.length)).getLast?.getD s.last, rest⟩

def skip (p : Char → Bool) (s : Spot) : Spot := s.goTo (s.rest.dropWhile p)

end Spot

def skipGaps : Chars → Chars
  | [] => []
  | '/' :: '>' :: rest => '/' :: '>' :: rest
  | c :: rest => if isBlank c || c == '/' then skipGaps rest else c :: rest

variable (s : Chars)

/-- What follows a value in quotes or without, if there is one; a quote must be closed. -/
def plainValue? : Option Chars :=
  let bare := s.dropWhile fun c => c != '>' && !isBlank c
  match s with
  | q :: rest =>
    if q = '"' ∨ q = '\x27' then
      match rest.dropWhile (· != q) with
      | _ :: after => some after
      | [] => none
    else some bare
  | [] => some []

/-- What follows an attribute's value, if it has one. A quote that is never closed belongs to no value. -/
def skipValue? : Option (List Char) :=
  let s := s.dropWhile isBlank
  let signs := s.takeWhile (· == '=')
  if signs.isEmpty then none
  else
    let after := s.drop signs.length
    let start := after.dropWhile isBlank
    match plainValue? start with
    | some rest => some rest
    | none =>
      if start.length < after.length then
        -- the blank in front of the quote is where the empty value ends
        some ((after.drop (after.length - start.length - 1)))
      else if 1 < signs.length then plainValue? ('=' :: after)
      else none

def opensName (c : Char) : Bool := c == '"' || c == '\x27' || c == '/' || isBlank c

def skipAttributes : (fuel : Nat) → Spot → Spot
  | 0, s => s
  | fuel + 1, s =>
    match s.rest with
    | [] => s
    | c :: rest =>
      if opensName s.last && !(isBlank c || oneOf "/>" c) then
        let named := rest.dropWhile fun d => !(isBlank d || oneOf "/=>" d)
        let valued := (skipValue? named).getD named
        skipAttributes fuel (s.goTo (skipGaps valued))
      else s

def isTagChar (c : Char) : Bool := !oneOf "\t\n\r\x0c />\x00" c

/-- What came of reading a construct. -/
inductive Found
  /-- events, whether verbatim text up to an end tag follows, and the rest -/
  | ok (events : List Event) (verbatim? : Option String) (rest : Chars)
  /-- the page ends inside it -/
  | cut
  | fault (f : Fault)

def upTo (s rest : Chars) : Chars := s.take (s.length - rest.length)

def startTag : Found :=
  let name := (s.drop 1).takeWhile isTagChar
  let afterName := s.drop (1 + name.length)
  let last := name.getLast?.getD '<'
  let close := ((skipAttributes (s.length + 1)
    ((Spot.mk last afterName).skip fun c => isBlank c || c == '/')).skip isBlank).rest
  let finish (rest : Chars) : Found :=
    let inner := (skipAttributes (s.length + 1) ((Spot.mk last afterName).goTo (skipGaps afterName))).rest
    let ending := strip (upTo inner rest)
    let tag := ofList (lower name)
    if ending = ['/', '>'] then .ok [.start tag, .finish tag] none rest
    else if ending = ['>'] then
      .ok [.start tag] (if tag = "script" ∨ tag = "style" then some tag else none) rest
    else .ok [.text (upTo s rest)] none rest
  match close with
  | [] => .cut
  | '>' :: rest => finish rest
  | '/' :: '>' :: rest => finish rest
  | c :: _ => if c.isAlpha || c == '=' || c == '/' then .cut else finish close

/-- A bracketed construct that means nothing, up to the next closing bracket. -/
def skipTo : Found :=
  match s.dropWhile (· != '>') with
  | _ :: rest => .ok [] none rest
  | [] => .cut

def isEndTagChar (c : Char) : Bool := c.isAlphanum || oneOf "-.:_" c

def plainEndTag? : Option (Chars × Chars) :=
  let s := (s.drop 2).dropWhile isBlank
  match s with
  | c :: _ =>
    if c.isAlpha then
      let name := s.takeWhile isEndTagChar
      match (s.drop name.length).dropWhile isBlank with
      | '>' :: rest => some (name, rest)
      | _ => none
    else none
  | [] => none

def endTag (verbatim? : Option String) (s : Chars) : Found :=
  match (s.drop 1).dropWhile (· != '>') with
  | [] => .cut
  | _ :: afterBracket =>
    match plainEndTag? s with
    | some (name, rest) =>
      let tag := ofList (lower name)
      match verbatim? with
      | some v => if v = tag then .ok [.finish tag] none rest else .ok [.text (upTo s rest)] verbatim? rest
      | none => .ok [.finish tag] none rest
    | none =>
      match verbatim? with
      | some _ => .ok [.text (upTo s afterBracket)] verbatim? afterBracket
      | none =>
        match s.drop 2 with
        | '>' :: rest => .ok [] none rest
        | c :: more =>
          if c.isAlpha then
            let name := (c :: more).takeWhile isTagChar
            match (skipGaps ((c :: more).drop name.length)).dropWhile (· != '>') with
            | _ :: rest => .ok [.finish (ofList (lower name))] none rest
            | [] => .cut
          else skipTo (c :: more)
        | [] => .cut

def afterMarks (marks : Chars) : Chars → Option Chars
  | [] => none
  | c :: rest =>
    let rec matchMarks : Chars → Chars → Option Chars
      | [], t => some t
      | m :: ms, t =>
        match t.dropWhile isBlank with
        | d :: t => if d = m then matchMarks ms t else none
        | [] => none
    match marks with
    | m :: ms =>
      if c = m then
        match matchMarks ms rest with
        | some after => some after
        | none => afterMarks marks rest
      else afterMarks marks rest
    | [] => some (c :: rest)

def afterComment : Chars → Option Chars
  | [] => none
  | '-' :: '-' :: rest =>
    match rest.dropWhile isBlank with
    | '>' :: after => some after
    | _ => afterComment ('-' :: rest)
  | _ :: rest => afterComment rest

def markedSection : Found :=
  let inner := s.drop 3
  match inner with
  | [] => .cut
  | c :: _ =>
    if !c.isAlpha then
      .fault ⟨.required, "expected name token at " ++ S.quoted (ofList (s.take 20))⟩
    else
      let name := inner.takeWhile fun d => d.isAlphanum || oneOf "-_." d
      let after := (inner.drop name.length).dropWhile isBlank
      let word := ofList (lower name)
      if after.isEmpty then .cut
      else
        let go (rest? : Option Chars) : Found :=
          match rest? with
          | some rest => .ok [] none rest
          | none => .cut
        if ["temp", "cdata", "ignore", "include", "rcdata"].contains word then
          go (afterMarks [']', ']', '>'] inner)
        else if ["if", "else", "endif"].contains word then go (afterMarks [']', '>'] inner)
        else .fault ⟨.required, s!"unknown status keyword {S.quoted (ofList (upTo inner after))} in marked section"⟩

def startsWithWord (word : String) (s : Chars) : Bool := S.lower (ofList (s.take word.length)) == word

def construct (verbatim? : Option String) (s : Chars) : Found :=
  match s with
  | '<' :: c :: rest =>
    if c.isAlpha then startTag s
    else if c = '/' then endTag verbatim? s
    else if c = '!' then
      match rest with
      | '-' :: '-' :: body =>
        match afterComment body with
        | some after => .ok [] verbatim? after
        | none => .cut
      | '[' :: _ => markedSection s
      | _ => skipTo (s.drop (if startsWithWord "<!doctype" s then 9 else 2))
    else if c = '?' then skipTo rest
    else .ok [.text ['<']] verbatim? (c :: rest)
  | _ => .cut

def mayBreakOff : Bool :=
  let tail := s.drop (s.length - 34)
  match cutLast ['&'] tail with
  | some (_, after) => !after.any fun c => isBlank c || c == ';'
  | none => false

def cutVerbatim (tag : String) : Chars → Chars → Option (Chars × Chars)
  | [], _ => none
  | c :: rest, acc =>
    match c, rest with
    | '<', '/' :: after =>
      let inner := after.dropWhile isBlank
      if startsWithWord tag inner && ((inner.drop tag.length).dropWhile isBlank).head? == some '>' then
        some (acc.reverse, c :: rest)
      else cutVerbatim tag rest (c :: acc)
    | _, _ => cutVerbatim tag rest (c :: acc)

def eventsFrom : (fuel : Nat) → (verbatim? : Option String) → Chars → Feed Event
  | 0, _, _ => .empty
  | fuel + 1, verbatim?, s =>
    match s with
    | [] => .empty
    | _ =>
      let pieces : Option (Chars × Chars) :=
        match verbatim? with
        | some tag => cutVerbatim tag s []
        | none =>
          let data := s.takeWhile (· != '<')
          let rest := s.drop data.length
          if rest.isEmpty && mayBreakOff data then none else some (data, rest)
      match pieces with
      | none => .empty
      | some (data, rest) =>
        let text : List Event :=
          if data.isEmpty then []
          else [.text (if verbatim?.isSome then data else unescape data)]
        (Feed.ofList text).append fun _ =>
          if rest.isEmpty then .empty
          else
            match construct verbatim? rest with
            | .cut => .empty
            | .fault f => .failed f
            | .ok events verbatim? rest => (Feed.ofList events).append fun _ => eventsFrom fuel verbatim? rest

def events : Feed Event := eventsFrom (s.length + 1) none s

end Sluice.Html
