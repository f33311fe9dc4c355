import Sluice.Value.Basic

/-!
# Command lines

**Options** start with a dash and may be abbreviated; **positional** arguments take the other words in order. Options
are taken from the left, each with the positional words before it.
-/

namespace Sluice.CommandLine

open Text

/-- How many words an argument takes. -/
inductive Arity
  /-- none: the argument is a switch -/
  | zero
  | one
  | optional
  | several
  /-- all that remain, options included -/
  | rest
deriving DecidableEq

/-- The name for the value of an option: its last spelling without the dashes in front. -/
def nameOf (flags : List String) : String := S.replaceAll "-" "_" (S.drop 2 (flags.getLast?.getD ""))

structure Argument where
  /-- the spellings of an option; a positional argument has none -/
  flags : List String := []
  dest : String := nameOf flags
  arity : Arity := .one
  read : String → Option Value := fun s => some s
  choices : List String := []
  stored : Value := true
  /-- the value is added to a list instead of replacing the one before -/
  append : Bool := false
  required : Bool := false
  default : Value := .null

def readWhole (s : String) : Option Value := (Number.readInt? s.toList).map .int

namespace Argument

def word (dest : String) : Argument := { dest }

variable (flag : String)

def option (default : Value := .null) : Argument := { flags := [flag], default }

def whole (default : Value := .null) : Argument := { flags := [flag], read := readWhole, default }

def switch (default : Value := false) : Argument := { flags := [flag], arity := .zero, default }

def choice (choices : List String) (default : Value := .null) : Argument := { flags := [flag], choices, default }

end Argument

inductive Refusal
  /-- it does not fit the arguments -/
  | usage
  | help

structure Parsed where
  values : Fields
  extras : List String

def Parsed.get (p : Parsed) (dest : String) : Value := (Fields.get? dest p.values).getD .null

def Parsed.str? (p : Parsed) (dest : String) : Option String := (p.get dest).str?

def Parsed.text (p : Parsed) (dest : String) : String := (p.str? dest).getD ""

/-! ## Classifying words -/

inductive Word
  /-- an option, perhaps with the value after its equals sign -/
  | option (arg : Argument) (flag : String) (value? : Option String)
  | unknown
  /-- the mark after which nothing is an option -/
  | dashes
  | plain

def helpOption : Argument := { flags := ["-h", "--help"], arity := .zero }

def isNegativeNumber (w : Chars) : Bool :=
  match w with
  | '-' :: r =>
    let whole := r.takeWhile isDecimal
    match r.drop whole.length with
    | [] => !whole.isEmpty
    | '.' :: places => !places.isEmpty && places.all isDecimal
    | _ => false
  | _ => false

variable (options : List Argument)

def spelled? (flag : String) : Option Argument := options.find? (·.flags.contains flag)

def abbreviated (w : String) : List (Argument × String × Option String) :=
  let spellings := options.flatMap fun o => o.flags.map fun f => (o, f)
  match w.toList with
  | '-' :: '-' :: _ =>
    let (name, value?) := match S.cutOnce "=" w with
      | some (n, v) => (n, some v)
      | none => (w, none)
    (spellings.filter fun s => S.startsWith name s.2).map fun s => (s.1, s.2, value?)
  | '-' :: c :: tail =>
    spellings.filterMap fun s =>
      if s.2 = String.ofList ['-', c] then some (s.1, s.2, some (String.ofList tail))
      else if S.startsWith w s.2 then some (s.1, s.2, none)
      else none
  | _ => []

def classify (w : String) : Except Refusal Word :=
  match w.toList with
  | '-' :: _ :: _ =>
    match spelled? options w with
    | some o => .ok (.option o w none)
    | none =>
      let assigned := match S.cutOnce "=" w with
        | some (flag, v) => (spelled? options flag).map fun o => Word.option o flag (some v)
        | none => none
      match assigned with
      | some word => .ok word
      | none =>
        match abbreviated options w with
        | [(o, flag, v?)] => .ok (.option o flag v?)
        | _ :: _ :: _ => .error .usage
        | [] =>
          if isNegativeNumber w.toList then .ok .plain
          else if w.toList.contains ' ' then .ok .plain
          else .ok .unknown
  | _ => .ok .plain

def classifyAll : List String → Except Refusal (List (Word × String))
  | [] => .ok []
  | w :: ws =>
    if w = "--" then .ok ((.dashes, w) :: ws.map fun v => (.plain, v))
    else do pure ((← classify options w, w) :: (← classifyAll ws))

/-! ## Taking arguments -/

def isPlain : Word × String → Bool
  | (.plain, _) => true
  | _ => false

def isDashes : Word × String → Bool
  | (.dashes, _) => true
  | _ => false

/-- How many words a positional argument takes from the front, with the dashes around, if it can take enough. -/
def positionalCount? (arity : Arity) (words : List (Word × String)) : Option Nat :=
  let lead := (words.takeWhile isDashes).length
  let after := words.drop lead
  let withDashes (k : Nat) : Nat := k + ((words.drop k).takeWhile isDashes).length
  match arity with
  | .rest => some words.length
  | .zero => some 0
  | .one => if after.head?.any isPlain then some (withDashes (lead + 1)) else none
  | .optional => some (withDashes (lead + (if after.head?.any isPlain then 1 else 0)))
  | .several =>
    if after.head?.any isPlain then
      some (lead + (after.takeWhile fun w => isPlain w || isDashes w).length)
    else none

structure State where
  values : Fields
  positionals : List Argument
  seen : List String := []
  extras : List String := []

def Argument.readWord (a : Argument) (w : String) : Except Refusal Value :=
  match a.read w with
  | none => .error .usage
  | some v => if a.choices.isEmpty || a.choices.contains w then .ok v else .error .usage

def Argument.value (a : Argument) (words : List String) : Except Refusal Value :=
  let words := if a.arity = .rest then words else words.erase "--"
  match a.arity with
  | .zero => .ok a.stored
  | .one => match words with
    | [w] => a.readWord w
    | _ => .error .usage
  | .optional => match words with
    | [] => .ok a.default
    | w :: _ => a.readWord w
  | _ => (words.mapM a.readWord).map .list

def State.give (s : State) (a : Argument) (words : List String) : Except Refusal State :=
  if a.dest = "help" ∧ a.arity = .zero then .error .help
  else do
    let v ← a.value words
    let v := if a.append then
        match Fields.get? a.dest s.values with
        | some (.list vs) => .list (vs ++ [v])
        | _ => .list [v]
      else v
    pure { s with values := Fields.set a.dest v s.values, seen := a.dest :: s.seen }

open State

/-- Fills as many positional arguments as the words at the front allow, and says how many words they took. -/
def State.takePositionals : (positionals : List Argument) → State → List (Word × String) → Nat → Except Refusal (State × Nat)
  | [], s, _, n => .ok ({ s with positionals := [] }, n)
  | a :: as, s, words, n =>
    match positionalCount? a.arity words with
    | none => .ok ({ s with positionals := a :: as }, n)
    | some k =>
      match s.give a ((words.take k).map (·.2)) with
      | .error e => .error e
      | .ok s => takePositionals as s (words.drop k) (n + k)

/-- Gives an option the value behind its equals sign, or passes on to the next of several switches. -/
def State.giveJoined : (fuel : Nat) → State → Argument → String → String → Except Refusal State
  | 0, _, _, _, _ => .error .usage
  | fuel + 1, s, a, flag, value =>
    match a.arity with
    | .zero =>
      match flag.toList, value.toList with
      | '-' :: d :: _, c :: tail =>
        if d = '-' then .error .usage
        else
          let next := String.ofList ['-', c]
          match spelled? options next with
          | none => .error .usage
          | some b => do
            let s ← s.give a []
            if tail.isEmpty then
              if b.arity = .zero then s.give b [] else .error .usage
            else giveJoined fuel s b next (String.ofList tail)
      | _, _ => .error .usage
    | _ => s.give a [value]

def State.takeOption (s : State) (a : Argument) (flag : String)
    (value? : Option String) (after : List (Word × String)) : Except Refusal (State × Nat) :=
  match value? with
  | some v => (s.giveJoined options (v.length + 1) a flag v).map (·, 1)
  | none =>
    match a.arity with
    | .zero => (s.give a []).map (·, 1)
    | .one =>
      match after with
      | (.plain, w) :: _ => (s.give a [w]).map (·, 2)
      | _ => .error .usage
    | .optional =>
      match after with
      | (.plain, w) :: _ => (s.give a [w]).map (·, 2)
      | _ => (s.give a []).map (·, 1)
    | _ =>
      let ws := (after.takeWhile isPlain).map (·.2)
      if ws.isEmpty then .error .usage else (s.give a ws).map (·, ws.length + 1)

def isOptionLike : Word × String → Bool
  | (.option .., _) => true
  | (.unknown, _) => true
  | _ => false

def State.run : (fuel : Nat) → State → List (Word × String) → Except Refusal State
  | 0, _, _ => .error .usage
  | fuel + 1, s, words =>
    match words with
    | (.option a flag v?, _) :: after =>
      match s.takeOption options a flag v? after with
      | .error e => .error e
      | .ok (s, n) => run fuel s (words.drop n)
    | (.unknown, w) :: after => run fuel { s with extras := s.extras ++ [w] } after
    | _ =>
      if words.any isOptionLike then
        match s.takePositionals s.positionals words 0 with
        | .error e => .error e
        | .ok (s, n) =>
          if 0 < n then run fuel s (words.drop n)
          else
            let skipped := words.takeWhile (!isOptionLike ·)
            run fuel { s with extras := s.extras ++ skipped.map (·.2) }
              (words.drop skipped.length)
      else
        match s.takePositionals s.positionals words 0 with
        | .error e => .error e
        | .ok (s, n) => .ok { s with extras := s.extras ++ (words.drop n).map (·.2) }

/-- **Reads a command line** and keeps the words left over. -/
def parseKnown (arguments : List Argument) (words : List String) : Except Refusal Parsed := do
  let options := helpOption :: arguments.filter (!·.flags.isEmpty)
  let positionals := arguments.filter (·.flags.isEmpty)
  let classified ← classifyAll options words
  let defaults := Fields.ofPairs (arguments.map fun a => (a.dest, a.default))
  let s ← run options (2 * words.length + 2) { values := defaults, positionals } classified
  let missing := s.positionals.any fun a => a.arity = .one || a.arity = .several
  let unset := arguments.any fun a => a.required && !s.seen.contains a.dest
  if missing || unset then throw .usage
  pure ⟨s.values, s.extras⟩

def parse (arguments : List Argument) (words : List String) : Except Refusal Parsed := do
  let p ← parseKnown arguments words
  if p.extras.isEmpty then pure p else throw .usage

end Sluice.CommandLine
