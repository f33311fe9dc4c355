import Sluice.Fault
import Sluice.Number.Decimal
import Sluice.Text.Letter

/-!
# Octets and text

`Utf8.head` says which character stands at the head of octets, or what is wrong and for how many of them.
-/

namespace Sluice.Utf8

/-- What is wrong at the head of a list of octets. -/
inductive Cause
  | invalidStart
  | invalidContinuation
  | unexpectedEnd
deriving DecidableEq

def Cause.text : Cause → String
  | .invalidStart => "invalid start byte"
  | .invalidContinuation => "invalid continuation byte"
  | .unexpectedEnd => "unexpected end of data"

inductive Head
  | empty
  | char (c : Char) (length : Nat)
  /-- so many octets that are no character -/
  | bad (cause : Cause) (length : Nat)

def isContinuation (b : UInt8) : Bool := 0x80 ≤ b && b < 0xc0

/-- The character of a leading octet `a` and continuation octets, of which the first lies between
`lo` and `hi` and `more` others follow. -/
def tail (start : Nat) (lo hi : UInt8) (more : Nat) : List UInt8 → Head
  | [] => .bad .unexpectedEnd 1
  | b :: rest =>
    if b < lo ∨ hi < b then .bad .invalidContinuation 1
    else
      let rec go : (left n seen : Nat) → List UInt8 → Head
        | 0, n, seen, _ => .char (Char.ofNat n) seen
        | _ + 1, _, seen, [] => .bad .unexpectedEnd seen
        | left + 1, n, seen, c :: cs =>
          if isContinuation c then go left (n * 64 + (c.toNat - 0x80)) (seen + 1) cs
          else .bad .invalidContinuation seen
      go more (start * 64 + (b.toNat - 0x80)) 2 rest

def head : List UInt8 → Head
  | [] => .empty
  | a :: rest =>
    let n := a.toNat
    if n < 0x80 then .char (Char.ofNat n) 1
    else if n < 0xc2 then .bad .invalidStart 1
    else if n < 0xe0 then tail (n - 0xc0) 0x80 0xbf 0 rest
    else if n = 0xe0 then tail 0 0xa0 0xbf 1 rest
    else if n = 0xed then tail 13 0x80 0x9f 1 rest
    else if n < 0xf0 then tail (n - 0xe0) 0x80 0xbf 1 rest
    else if n = 0xf0 then tail 0 0x90 0xbf 2 rest
    else if n < 0xf4 then tail (n - 0xf0) 0x80 0xbf 2 rest
    else if n = 0xf4 then tail 4 0x80 0x8f 2 rest
    else .bad .invalidStart 1

/-- Where strict decoding stopped: the position, the octets that are wrong and why. -/
structure Stop where
  pos : Nat
  octets : List UInt8
  cause : Cause

def scan : (fuel pos : Nat) → List UInt8 → Chars × Option Stop
  | 0, _, _ => ([], none)
  | fuel + 1, pos, bs =>
    match head bs with
    | .empty => ([], none)
    | .char c n =>
      let (cs, stop) := scan fuel (pos + n) (bs.drop n)
      (c :: cs, stop)
    | .bad cause n => ([], some ⟨pos, bs.take n, cause⟩)

open String

def Stop.message (s : Stop) : String :=
  let place (n : Nat) : String := toString n
  "'utf-8' codec can't decode " ++
    (match s.octets with
      | [b] => s!"byte 0x{ofList (Text.hexDigits 2 b.toNat)} in position {place s.pos}"
      | bs => s!"bytes in position {place s.pos}-{place (s.pos + bs.length - 1)}") ++
    ": " ++ s.cause.text

def Stop.fault (s : Stop) : Fault := ⟨.decoding, s.message⟩

variable (bs : List UInt8)

def decode : Result String :=
  match scan (bs.length + 1) 0 bs with
  | (cs, none) => .ok (ofList cs)
  | (_, some stop) => .error stop.fault

/-- Decodes a text that arrives as a stream. Octets that break off at the end are noticed only when the stream ends. -/
def decodeStream : String × Option Fault :=
  match scan (bs.length + 1) 0 bs with
  | (cs, none) => (ofList cs, none)
  | (cs, some stop) =>
    if stop.cause = .unexpectedEnd then (ofList cs, some { stop with pos := 0 }.fault)
    else ("", some stop.fault)

def decodeLossyFrom : (fuel : Nat) → List UInt8 → Chars
  | 0, _ => []
  | fuel + 1, bs =>
    match head bs with
    | .empty => []
    | .char c n => c :: decodeLossyFrom fuel (bs.drop n)
    | .bad _ n => Char.ofNat 0xfffd :: decodeLossyFrom fuel (bs.drop n)

def decodeLossy : String := ofList (decodeLossyFrom (bs.length + 1) bs)

def encode (s : String) : List UInt8 := s.toUTF8.toList

end Sluice.Utf8

/-!
## Base-64 texts

Decoding passes over characters outside the alphabet, ends at the padding of a group, and refuses an open last group.
-/

namespace Sluice.Base64

def value? (c : Char) : Option Nat :=
  let n := c.toNat
  if 65 ≤ n ∧ n ≤ 90 then some (n - 65)
  else if 97 ≤ n ∧ n ≤ 122 then some (n - 71)
  else if 48 ≤ n ∧ n ≤ 57 then some (n + 4)
  else if c = '+' then some 62
  else if c = '/' then some 63
  else none

/-- Why a text cannot be decoded. -/
inductive Cause
  /-- one character is left over after `chars - 1` -/
  | single (chars : Nat)
  /-- a group is not filled up -/
  | padding

def Cause.fault : Cause → Fault
  | .single chars =>
    ⟨.base64, "Invalid base64-encoded string: number of data characters (" ++
      Number.intText chars ++ ") cannot be 1 more than a multiple of 4"⟩
  | .padding => ⟨.base64, "Incorrect padding"⟩

/-- Decodes from inside a group: `place` characters of it were read, `left` are the bits not yet delivered, and `pads`
padding marks were seen since. -/
def decodeFrom : (place left pads : Nat) → (octets : List UInt8) → Chars → Except Cause (List UInt8)
  | place, _, _, octets, [] =>
    if place = 0 then .ok octets.reverse
    else if place = 1 then .error (.single (octets.length / 3 * 4 + 1))
    else .error .padding
  | place, left, pads, octets, c :: rest =>
    if c = '=' then
      if 2 ≤ place ∧ 4 ≤ place + (pads + 1) then .ok octets.reverse
      else decodeFrom place left (if 2 ≤ place then pads + 1 else pads) octets rest
    else
      match value? c with
      | none => decodeFrom place left pads octets rest
      | some v =>
        if place = 0 then decodeFrom 1 v 0 octets rest
        else if place = 1 then decodeFrom 2 (v % 16) 0 (UInt8.ofNat (left * 4 + v / 16) :: octets) rest
        else if place = 2 then decodeFrom 3 (v % 4) 0 (UInt8.ofNat (left * 16 + v / 4) :: octets) rest
        else decodeFrom 0 0 0 (UInt8.ofNat (left * 64 + v) :: octets) rest

def decode (s : Chars) : Result (List UInt8) :=
  match decodeFrom 0 0 0 [] s with
  | .ok bs => .ok bs
  | .error c => .error c.fault

/-- The alphabet for addresses, with a dash and an underscore in place of plus and slash. -/
def decodeUrlSafe (s : Chars) : Result (List UInt8) :=
  decode (s.map fun c => if c = '-' then '+' else if c = '_' then '/' else c)

end Sluice.Base64

/-!
## Addresses with a host

An address `scheme://host/path?query#fragment` is cut at its marks.
-/

namespace Sluice.Text

/-! ## Network addresses -/

variable (s : Chars)

/-- Whether a text is a part of an IPv4 address: a number up to 255 without needless zeros. -/
def isOctetText : Bool :=
  !s.isEmpty && s.all isAsciiDigit && s.length ≤ 3 && !(s.length > 1 && s.head? == some '0') && digitsValue s ≤ 255

def isIPv4 : Bool :=
  let parts := splitAtChar '.' s
  parts.length == 4 && parts.all isOctetText

def isGroupText : Bool := s.length ≤ 4 && s.all fun c => (hexValue? c).isSome

def groupsOf : Option (List Chars) :=
  let parts := splitAtChar ':' s
  let last := parts.getLastD []
  if s.isEmpty || parts.length < 3 then none
  else if last.contains '.' then
    if isIPv4 last then some (parts.dropLast ++ [['0'], ['0']]) else none
  else some parts

/-- Whether groups make an IPv6 address: eight of them, or fewer with one gap. -/
def fitsGroups (parts : List Chars) : Bool :=
  let inner := (parts.drop 1).dropLast
  let gaps := inner.countP (·.isEmpty)
  let first := parts.headD []
  let last := parts.getLastD []
  if parts.length > 9 || gaps > 1 then false
  else if gaps = 1 then
    let before := 1 + (inner.takeWhile (!·.isEmpty)).length
    let behind := parts.length - before - 1
    let hi := if first.isEmpty then before - 1 else before
    let lo := if last.isEmpty then behind - 1 else behind
    !(first.isEmpty && hi != 0) && !(last.isEmpty && lo != 0) && hi + lo < 8 && ((parts.filter (!·.isEmpty)).all isGroupText)
  else parts.length == 8 && !first.isEmpty && !last.isEmpty && parts.all isGroupText

def isIPv6 : Bool :=
  let (address, zoneFits) := match cutOnce ['%'] s with
    | some (a, zone) => (a, !zone.isEmpty && !zone.contains '%')
    | none => (s, true)
  zoneFits && (match groupsOf address with
    | some parts => fitsGroups parts
    | none => false)

/-- Whether a text is an address of a future form: `v`, a hexadecimal number, a dot and more. -/
def isFutureAddress : Bool :=
  match s with
  | 'v' :: rest =>
    let digits := rest.takeWhile fun c => (hexValue? c).isSome
    match rest.drop digits.length with
    | '.' :: _ :: _ => !digits.isEmpty
    | _ => false
  | _ => false

def checkBracketed : Result Unit :=
  if s.head? == some 'v' then
    if isFutureAddress s then .ok () else .error (.badValue "IPvFuture address is invalid")
  else if isIPv4 s then .error (.badValue "An IPv4 address cannot be in brackets")
  else if isIPv6 s then .ok ()
  else .error (.badValue s!"{String.ofList (quoted s)} does not appear to be an IPv4 or IPv6 address")

/-- Characters whose compatible forms hold a mark of an address. -/
def maskedMarks : List Nat :=
  [0x2047, 0x2048, 0x2049, 0x2100, 0x2101, 0x2105, 0x2106, 0x2a74, 0xfe13, 0xfe16, 0xfe55, 0xfe56,
   0xfe5f, 0xfe6b, 0xff03, 0xff0f, 0xff1a, 0xff1f, 0xff20]

def checkBrackets (host : Chars) : Result Unit :=
  match host.contains '[', host.contains ']' with
  | false, false => .ok ()
  | true, true =>
    let inner := ((cutOnce ['['] host).map (·.2)).getD []
    checkBracketed (inner.takeWhile (· != ']'))
  | _, _ => .error (.badValue "Invalid IPv6 URL")

def checkMarks (host : Chars) : Result Unit :=
  if host.any fun c => maskedMarks.contains c.toNat then
    .error (.badValue s!"netloc '{String.ofList host}' contains invalid characters under NFKC normalization")
  else .ok ()

structure Url where
  /-- what stands before the first colon, in lower case -/
  scheme : Chars
  host : Chars
  path : Chars
  query : Chars

def isSchemeChar (c : Char) : Bool := c.isAlphanum || c == '+' || c == '-' || c == '.'

def takeScheme : Chars × Chars :=
  match cutOnce [':'] s with
  | some (c :: cs, rest) => if c.isAlpha && cs.all isSchemeChar then ((c :: cs).map Char.toLower, rest) else ([], s)
  | _ => ([], s)

/-- The schemes whose paths may end in parameters behind a semicolon; no scheme is one of them. -/
def paramSchemes : List String :=
  ["", "ftp", "hdl", "prospero", "http", "imap", "https", "shttp", "rtsp", "rtsps", "rtspu", "sip", "sips", "mms",
    "sftp", "tel"]

def dropParams (path : Chars) : Chars :=
  match cutLast ['/'] path with
  | some (before, last) => before ++ '/' :: last.takeWhile (· != ';')
  | none => path.takeWhile (· != ';')

/-- **Reads an address.** Blanks in front, tabulators, line ends and the fragment are dropped. -/
def Url.parse : Result Url := do
  let s := (s.dropWhile (·.toNat ≤ 32)).filter fun c => c != '\t' && c != '\r' && c != '\n'
  let (scheme, s) := takeScheme s
  let (host, s) := match dropStart? ['/', '/'] s with
    | some rest =>
      let host := rest.takeWhile fun c => c != '/' && c != '?' && c != '#'
      (host, rest.drop host.length)
    | none => ([], s)
  checkBrackets host
  let s := s.takeWhile (· != '#')
  let path := s.takeWhile (· != '?')
  checkMarks host
  let shown := if paramSchemes.contains (String.ofList scheme) then dropParams path else path
  pure ⟨scheme, host, shown, (s.drop path.length).drop 1⟩

/-- The octets of a text of ASCII characters; a percent sign without two hexadecimal digits stands for itself. -/
def percentOctets : Chars → List UInt8
  | '%' :: a :: b :: rest =>
    match hexValue? a, hexValue? b with
    | some x, some y => UInt8.ofNat (16 * x + y) :: percentOctets rest
    | _, _ => 0x25 :: percentOctets (a :: b :: rest)
  | c :: rest => UInt8.ofNat c.toNat :: percentOctets rest
  | [] => []

def isAscii (c : Char) : Bool := c.toNat < 128

def asciiRuns : List Chars := s.splitBy fun a b => isAscii a == isAscii b

def decodeRun (run : Chars) : Chars :=
  if run.all isAscii then
    let octets := percentOctets run
    Utf8.decodeLossyFrom (octets.length + 1) octets
  else run

/-- **Takes percent-coding out of a text.** Each run of ASCII characters is decoded by itself; octets
that are no text become the replacement character. -/
def percentDecode : Chars := (asciiRuns s).flatMap decodeRun

def queryPart : String := String.ofList (percentDecode (s.map fun c => if c == '+' then ' ' else c))

def assignment : String × String :=
  match cutOnce ['='] s with
  | some (name, value) => (queryPart name, queryPart value)
  | none => (queryPart s, "")

def queryPairs (keepBlank : Bool) (query : String) : Pairs :=
  ((splitAtChar '&' query.toList).filter fun part =>
    !part.isEmpty && (keepBlank || (((cutOnce ['='] part).map (·.2)).getD []) != [])).map assignment

def addValue (name value : String) : List (String × List String) → List (String × List String)
  | [] => [(name, [value])]
  | (n, vs) :: rest => if n = name then (n, vs ++ [value]) :: rest else (n, vs) :: addValue name value rest

/-- The values of each name of a query, names in the order in which they first occur. -/
def queryGroups (keepBlank : Bool) (query : String) : List (String × List String) :=
  (queryPairs keepBlank query).foldl (fun groups p => addValue p.1 p.2 groups) []

end Sluice.Text
