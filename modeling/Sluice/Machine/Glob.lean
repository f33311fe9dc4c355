import Sluice.Machine.FileTree

/-!
# Wildcards

A star stands for any characters, a question mark for one, and a set in brackets for one of its members, or for another
one behind an exclamation mark.
-/

namespace Sluice.Text

inductive Wildcard
  | many
  | one
  | char (c : Char)
  | set (outside : Bool) (ranges : List (Char × Char))
deriving DecidableEq

namespace Wildcard

/-! ## Sets -/

/-- The pieces of a set between the hyphens that make ranges. `left` says how many characters cannot be one. -/
def setPieces : (left : Nat) → (piece : Chars) → Chars → List Chars
  | _, piece, [] => [piece.reverse]
  | 0, piece, '-' :: rest => piece.reverse :: setPieces 2 [] rest
  | left, piece, c :: rest => setPieces (left - 1) (c :: piece) rest

def mendEnd (pieces : List Chars) : List Chars :=
  match pieces.reverse with
  | [] :: p :: ps => ((p ++ ['-']) :: ps).reverse
  | _ => pieces

def dropBackward : List Chars → List Chars
  | [] => []
  | p :: ps =>
    match dropBackward ps with
    | [] => [p]
    | q :: qs =>
      match p.getLast?, q with
      | some a, b :: rest => if b < a then (p.dropLast ++ rest) :: qs else p :: q :: qs
      | _, _ => p :: q :: qs

/-- The ranges of pieces: each hyphen between two pieces makes one of the characters around it. -/
def rangesOf (p : Chars) : List Chars → List (Char × Char)
  | [] => p.map fun c => (c, c)
  | q :: qs =>
    (p.dropLast.map fun c => (c, c)) ++ (match p.getLast?, q with
        | some a, b :: _ => [(a, b)]
        | _, _ => []) ++
      rangesOf (q.drop 1) qs

def ofSet (body : Chars) : Wildcard :=
  let pieces :=
    if body.contains '-' then
      dropBackward (mendEnd (setPieces (if body.head? == some '!' then 2 else 1) [] body))
    else [body]
  match pieces with
  | ['!' :: []] => .one
  | ('!' :: p) :: ps => .set true (rangesOf p ps)
  | p :: ps => .set false (rangesOf p ps)
  | [] => .set false []

/-- The characters of a set and what follows its bracket. A bracket right at the start is a member. -/
def takeSet (s : Chars) : Option (Chars × Chars) :=
  let (sign, s) := match s with
    | '!' :: r => (['!'], r)
    | _ => ([], s)
  let (first, s) := match s with
    | ']' :: r => ([']'], r)
    | _ => ([], s)
  let body := s.takeWhile (· != ']')
  if body.length < s.length then some (sign ++ first ++ body, s.drop (body.length + 1)) else none

/-- Reads a pattern; the fuel is never more than its length. -/
def parseFrom : (fuel : Nat) → Chars → List Wildcard
  | 0, _ => []
  | _ + 1, [] => []
  | fuel + 1, c :: rest =>
    if c == '*' then .many :: parseFrom fuel rest
    else if c == '?' then .one :: parseFrom fuel rest
    else if c == '[' then
      match takeSet rest with
      | some (body, after) => ofSet body :: parseFrom fuel after
      | none => .char c :: parseFrom fuel rest
    else .char c :: parseFrom fuel rest

def parse (s : Chars) : List Wildcard := parseFrom s.length s

def accepts (c : Char) : Wildcard → Bool
  | .many => false
  | .one => true
  | .char d => c == d
  | .set outside ranges => (ranges.any fun r => r.1 ≤ c && c ≤ r.2) != outside

def anyTail (p : Chars → Bool) : Chars → Bool
  | [] => p []
  | c :: rest => p (c :: rest) || anyTail p rest

/-- **Whether a pattern matches a whole text.** -/
def covers : List Wildcard → Chars → Bool
  | [], s => s.isEmpty
  | .many :: ws, s => anyTail (covers ws) s
  | w :: ws, s =>
    match s with
    | c :: rest => accepts c w && covers ws rest
    | [] => false

end Wildcard

namespace S

def matchesWildcard (pattern s : String) : Bool := Wildcard.covers (Wildcard.parse pattern.toList) s.toList

def hasWildcard (s : String) : Bool := s.toList.any fun c => c == '*' || c == '?' || c == '['

end S

end Sluice.Text

/-!
## Finding paths by pattern

A pattern is a path whose names may have wildcards; a name of two stars stands for any number of directories.
-/

namespace Sluice.FileTree

open Text

inductive Selector
  | exact (name : String)
  /-- names that match -/
  | wildcard (pattern : String)
  | deep
  /-- nothing: the path so far -/
  | here

def Selector.ofName (name : String) : Result Selector :=
  if name = "" then .ok .here
  else if name = "**" then .ok .deep
  else if S.contains "**" name then
    .error (.badValue "Invalid pattern: '**' can only be an entire path component")
  else if S.hasWildcard name then .ok (.wildcard name)
  else .ok (.exact name)

open Selector

def Selector.ofNames : List String → Result (List Selector)
  | [] => .ok []
  | "" :: _ => .ok [.here]
  | n :: ns => do pure ((← ofName n) :: (← ofNames ns))

variable (t : FileTree) (dir : Path) (pattern : String)

def parsePattern : Result (List Selector) :=
  if pattern = "" then .error (.badValue "Unacceptable pattern: ''")
  else
    let p := Path.ofString pattern
    if p.isAbsolute then .error ⟨.unsupported, "Non-relative patterns are unsupported"⟩
    else
      let names := p.parts ++ (if S.endsWith "/" pattern then [""] else [])
      if names.isEmpty then .error ⟨.index, "tuple index out of range"⟩ else ofNames names

def directoriesBelow : (fuel : Nat) → Path → List Path
  | 0, p => [p]
  | fuel + 1, p => p :: (t.children p).flatMap fun c => match c.2 with
    | .directory => directoriesBelow fuel (p.child c.1)
    | .file .. => []

def depth : Nat := (t.entries.map (·.1.parts.length)).foldl max 0

def selectFrom : List Selector → Path → List Path
  | [], p => [p]
  | .here :: _, p => [p]
  | .exact name :: rest, p =>
    let q := p.child name
    if if rest.isEmpty then t.pathExists q else t.isDir q then selectFrom rest q else []
  | .wildcard pattern :: rest, p =>
    (t.children p).flatMap fun c =>
      if (rest.isEmpty || t.isDir (p.child c.1)) && S.matchesWildcard pattern c.1 then
        selectFrom rest (p.child c.1)
      else []
  | .deep :: rest, p => ((t.directoriesBelow t.depth p).flatMap (selectFrom rest)).eraseDups

/-- **The paths that a pattern leads to** from a directory. -/
def select (start : Path) (pattern : String) : Result (List Path) := do
  let selectors ← parsePattern pattern
  pure (if t.isDir start then t.selectFrom selectors start else [])

def selectDeep (start : Path) (pattern : String) : Result (List Path) := do
  let p := Path.ofString pattern
  if p.isAbsolute then throw ⟨.unsupported, "Non-relative patterns are unsupported"⟩
  let selectors ← ofNames (p.parts ++ (if S.endsWith "/" pattern then [""] else []))
  pure (if t.isDir start then t.selectFrom (.deep :: selectors) start else [])

/-- What stands in and below a directory under a name that matches: what is in a directory itself comes first. -/
def matchingBelow : List Path := if t.isDir dir then t.selectFrom [.deep, .wildcard pattern] dir else []

def matching : List Path := ((t.children dir).filter (S.matchesWildcard pattern ·.1)).map (dir.child ·.1)

/-- The texts of all files below a directory, by their paths from another one on. -/
def members (base : Path) : Pairs :=
  (t.matchingBelow dir "*").filterMap fun p =>
    match t.find? p, p.relativeTo? base with
    | some (.file c _), some q => some (q.toString, match c with
        | .text s => s
        | c => Utf8.decodeLossy (Content.toOctets c))
    | _, _ => none

def subdirectories : Result (List Path) :=
  if t.isDir dir then .ok (((t.children dir).map (dir.child ·.1)).filter t.isDir)
  else .error (notADirectory dir.toString)

end Sluice.FileTree
