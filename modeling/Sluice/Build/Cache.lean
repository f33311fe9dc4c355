import Sluice.Machine.Glob
import Sluice.Machine.Session

/-!
# Compiled programs and their cache

A compiled program is kept under a name with a digest of its sources.
-/

namespace Sluice.Sha256

/-! ## SHA-256 -/

structure State where
  a : UInt32
  b : UInt32
  c : UInt32
  d : UInt32
  e : UInt32
  f : UInt32
  g : UInt32
  h : UInt32

/-- The first 32 bits of the fractional parts of the square roots of the first eight primes. -/
def start : State := ⟨0x6a09e667, 0xbb67ae85, 0x3c6ef372, 0xa54ff53a, 0x510e527f, 0x9b05688c, 0x1f83d9ab, 0x5be0cd19⟩

/-- The first 32 bits of the fractional parts of the cube roots of the first 64 primes. -/
def constants : List UInt32 :=
  [0x428a2f98, 0x71374491, 0xb5c0fbcf, 0xe9b5dba5, 0x3956c25b, 0x59f111f1, 0x923f82a4, 0xab1c5ed5,
   0xd807aa98, 0x12835b01, 0x243185be, 0x550c7dc3, 0x72be5d74, 0x80deb1fe, 0x9bdc06a7, 0xc19bf174,
   0xe49b69c1, 0xefbe4786, 0x0fc19dc6, 0x240ca1cc, 0x2de92c6f, 0x4a7484aa, 0x5cb0a9dc, 0x76f988da,
   0x983e5152, 0xa831c66d, 0xb00327c8, 0xbf597fc7, 0xc6e00bf3, 0xd5a79147, 0x06ca6351, 0x14292967,
   0x27b70a85, 0x2e1b2138, 0x4d2c6dfc, 0x53380d13, 0x650a7354, 0x766a0abb, 0x81c2c92e, 0x92722c85,
   0xa2bfe8a1, 0xa81a664b, 0xc24b8b70, 0xc76c51a3, 0xd192e819, 0xd6990624, 0xf40e3585, 0x106aa070,
   0x19a4c116, 0x1e376c08, 0x2748774c, 0x34b0bcb5, 0x391c0cb3, 0x4ed8aa4a, 0x5b9cca4f, 0x682e6ff3,
   0x748f82ee, 0x78a5636f, 0x84c87814, 0x8cc70208, 0x90befffa, 0xa4506ceb, 0xbef9a3f7, 0xc67178f2]

variable (octets : List UInt8) (x : UInt32)

def turn (n : UInt32) : UInt32 := (x >>> n) ||| (x <<< (32 - n))

def mixLow : UInt32 := turn x 7 ^^^ turn x 18 ^^^ (x >>> 3)

def mixHigh : UInt32 := turn x 17 ^^^ turn x 19 ^^^ (x >>> 10)

def words : List UInt8 → List UInt32
  | a :: b :: c :: d :: rest => (a.toUInt32 <<< 24 ||| b.toUInt32 <<< 16 ||| c.toUInt32 <<< 8 ||| d.toUInt32) :: words rest
  | _ => []

/-- Makes `n` more words of the schedule; those so far are in reverse. -/
def extend : (n : Nat) → List UInt32 → List UInt32
  | 0, ws => ws
  | n + 1, ws =>
    let old (i : Nat) : UInt32 := ws.getD (i - 1) 0
    extend n ((old 16 + mixLow (old 15) + old 7 + mixHigh (old 2)) :: ws)

def schedule (block : List UInt8) : List UInt32 := (extend 48 (words block).reverse).reverse

def State.round (s : State) (k w : UInt32) : State :=
  let choice := (s.e &&& s.f) ^^^ (~~~s.e &&& s.g)
  let majority := (s.a &&& s.b) ^^^ (s.a &&& s.c) ^^^ (s.b &&& s.c)
  let t1 := s.h + (turn s.e 6 ^^^ turn s.e 11 ^^^ turn s.e 25) + choice + k + w
  let t2 := (turn s.a 2 ^^^ turn s.a 13 ^^^ turn s.a 22) + majority
  ⟨t1 + t2, s.a, s.b, s.c, s.d + t1, s.e, s.f, s.g⟩

def State.compress (s : State) (block : List UInt8) : State :=
  let t := (constants.zip (schedule block)).foldl (fun s kw => s.round kw.1 kw.2) s
  ⟨s.a + t.a, s.b + t.b, s.c + t.c, s.d + t.d, s.e + t.e, s.f + t.f, s.g + t.g, s.h + t.h⟩

def octetsOf : (n value : Nat) → List UInt8
  | 0, _ => []
  | n + 1, value => octetsOf n (value / 256) ++ [UInt8.ofNat value]

def pad : List UInt8 :=
  let zeros := (119 - octets.length % 64) % 64
  octets ++ 0x80 :: List.replicate zeros 0 ++ octetsOf 8 (8 * octets.length)

def compressAll : (blocks : Nat) → State → List UInt8 → State
  | 0, s, _ => s
  | blocks + 1, s, octets => compressAll blocks (s.compress (octets.take 64)) (octets.drop 64)

def finish : State :=
  let padded := pad octets
  compressAll (padded.length / 64) start padded

/-- **The digest of a list of octets** in hexadecimal digits. -/
def digest : String :=
  let s := finish octets
  String.ofList ([s.a, s.b, s.c, s.d, s.e, s.f, s.g, s.h].flatMap (Text.hexDigits 8 ·.toNat))

end Sluice.Sha256

namespace Sluice.Build

structure Outcome where
  code : Int := 0
  errors : String := ""
  emits : Bool := true
  /-- whether what it leaves may be run -/
  runnable : Bool := false

/-- The files that a run of the compiler leaves, whether it ended well or not. -/
def Outcome.leave (o : Outcome) (output : Path) (t : FileTree) : FileTree :=
  let t := if o.emits then t.write output (.text "") else t
  if o.runnable then t.allowRun output else t

structure Workshop where
  root : Path
  cache : Path
  compiler? : Option String := none
  interpreter : String
  compile : List String → Outcome := fun _ => {}

variable (w : Workshop) (t : FileTree) (name : String) (dir : Path)

def Workshop.compilerCommand : List String :=
  match w.compiler? with
  | some "" | none => [w.interpreter, "-m", "ziglang"]
  | some compiler => [compiler]

def sourcesBelow : List Path :=
  match t.selectDeep dir "*.zig" with
  | .ok paths => paths.filter t.isFile
  | .error _ => []

/-- Whether names come no later than others, by the first place at which they differ. -/
def namesLe : List String → List String → Bool
  | [], _ => true
  | _ :: _, [] => false
  | a :: as, b :: bs => if a = b then namesLe as bs else decide (a < b)

def pathLe (a b : Path) : Bool := namesLe a.parts b.parts

def sourceOctets (paths : List Path) : Result (List UInt8) := do
  let places := ((paths.map Path.resolve).eraseDups).mergeSort pathLe
  pure ((← places.mapM fun p => t.open? p p.toString).flatMap FileTree.Content.toOctets)

/-- **The digest of sources**: twelve hexadecimal digits. -/
def digestOf (paths : List Path) : Result String :=
  (sourceOctets t paths).map fun octets => Text.S.take 12 (Sha256.digest octets)

structure Recipe where
  stem : String
  directory : Path
  source? : Option Path := none
  flags : List String := []
  inputs : List Path

def sourceMissing (p : Path) : Fault := ⟨.missingPath, p.toString⟩

def queryRecipe : Result Recipe :=
  let source := ((w.root.child "zq").child "src").child "main.zig"
  if t.pathExists source then
    .ok { stem := "zq", directory := source.parent, source? := some source, inputs := [source] }
  else .error (sourceMissing source)

def libraries : List String := ["jn-core", "jn-cli", "jn-plugin"]

def Workshop.library : Path := (((w.root.child "libs").child "zig").child name).child "src"

def pluginRecipe : Result Recipe :=
  let source := dir.child "main.zig"
  if !t.pathExists source then .error (sourceMissing source)
  else
    .ok { stem := name
          directory := dir
          flags := libraries.flatMap (fun l => ["--dep", l]) ++ ["-Mroot=main.zig"] ++
            libraries.map fun l => s!"-M{l}=" ++ ((w.library l).child "root.zig").toString
          inputs := (dir :: libraries.map w.library).flatMap (sourcesBelow t) }

def isWindows (platform : String) : Bool := platform == "Windows"

def outputPath (platform stem digest : String) : Path :=
  w.cache.joinText (stem ++ "-" ++ digest ++ (if isWindows platform then ".exe" else ""))

def Recipe.command (r : Recipe) (w : Workshop) (output : Path) : List String :=
  w.compilerCommand ++ ["build-exe"] ++ (r.source?.map Path.toString).toList ++
    ["-fllvm", "-O", "ReleaseFast"] ++ r.flags ++ ["-femit-bin=" ++ output.toString]

def isUsable (platform : String) (output : Path) : Bool :=
  t.pathExists output && (isWindows platform || t.isExecutable output)

def compile (w : Workshop) (r : Recipe) (output : Path) : Act Outcome := do
  let command := r.command w output
  Act.log (.list ["run", .list (command.map .str), r.directory.toString])
  let outcome := w.compile command
  modify fun s => { s with tree := outcome.leave output s.tree }
  pure outcome

def make (r : Recipe) (output : Path) : Act String := do
  Act.changeTree fun t => t.makeAll w.cache
  let outcome ← compile w r output
  let s ← get
  if outcome.code != 0 || !s.tree.pathExists output then
    Act.fail ⟨.failure, "zig build failed for " ++ r.stem ++ ": " ++ Text.S.strip outcome.errors⟩
  else
    if !isWindows s.platform then set { s with tree := s.tree.allowRun output }
    pure output.toString

/-- **Builds a program** unless it is in the cache, and says where it is. -/
def build (r : Recipe) : Act String := do
  let s ← get
  let output := outputPath w s.platform r.stem (← Act.ofResult (digestOf s.tree r.inputs))
  if isUsable s.tree s.platform output then pure output.toString else make w r output

def buildQuery : Act String := do build w (← Act.ofResult (queryRecipe w (← get).tree))

def buildPlugin : Act String := do build w (← Act.ofResult (pluginRecipe w (← get).tree name dir))

end Sluice.Build
