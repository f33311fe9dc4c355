import Sluice.Build.Cache
import Sluice.Proofs.Machine.Path
import Sluice.Proofs.Machine.Session
import Sluice.Proofs.Value.Fields

/-!
# When a compiled program is taken from the cache

The name of a compiled program depends on the octets of the files, **one after another** (`Target.fed`), so octets that
move from one file to the next do not show.

A build that fails may leave a file in the cache. It is not made anew if it can be run (`rebuilt_iff`).
-/

namespace Sluice.Build

open List Text FileTree Act Path

variable {t : FileTree} {dir p : Path} {w : Workshop}

/-! ## Programs and their sources -/

/-- A program that can be built. -/
inductive Target
  | query
  | plugin (name : String) (dir : Path)

def contentAt (t : FileTree) (p : Path) : Content :=
  match t.find? p with
  | some (.file c _) => c
  | _ => .octets []

def octetsAt (t : FileTree) (p : Path) : List UInt8 := Content.toOctets (contentAt t p)

def places (paths : List Path) : List Path := ((paths.map resolve).eraseDups).mergeSort pathLe

def shortDigest (octets : List UInt8) : String := S.take 12 (Sha256.digest octets)

namespace Target

def directory (w : Workshop) : Target → Path
  | .query => (w.root.child "zq").child "src"
  | .plugin _ dir => dir

def main (w : Workshop) (g : Target) : Path := (g.directory w).child "main.zig"

/-- **The sources that are compiled into a program.** -/
def sources (w : Workshop) (t : FileTree) : Target → List Path
  | .query => sourcesBelow t (directory w .query)
  | .plugin _ dir => (dir :: libraries.map w.library).flatMap (sourcesBelow t)

def inputs (w : Workshop) (t : FileTree) : Target → List Path
  | .query => [main w .query]
  | .plugin name dir => sources w t (.plugin name dir)

def isReady (w : Workshop) (t : FileTree) (g : Target) : Bool :=
  match g with
  | .query => t.isFile (g.main w)
  | .plugin .. => t.pathExists (g.main w)

def recipe (w : Workshop) (t : FileTree) : Target → Result Recipe
  | .query => queryRecipe w t
  | .plugin name dir => pluginRecipe w t name dir

def build (w : Workshop) : Target → Act String
  | .query => buildQuery w
  | .plugin name dir => buildPlugin w name dir

/-- **The place in the cache** of a program, for a state of the files. -/
def place (w : Workshop) (platform : String) (t : FileTree) (g : Target) : Result String := do
  let r ← g.recipe w t
  let digest ← digestOf t r.inputs
  pure (outputPath w platform r.stem digest).toString

/-- **The octets that a digest is taken of**: those of the files, one after another. -/
def fed (w : Workshop) (t : FileTree) (g : Target) : List UInt8 := (places (g.inputs w t)).flatMap (octetsAt t)

def stem : Target → String
  | .query => "zq"
  | .plugin name _ => name

end Target

lemma places_singleton (p) : places [p] = [p.resolve] := by
  rw [places, map_singleton, eraseDups_of_nodup (nodup_singleton _), mergeSort_singleton]

lemma Target.fed_query (w t) : fed w t .query = octetsAt t (main w .query).resolve := by
  rw [fed, inputs, places_singleton, flatMap_singleton]

lemma slash_not_mem_hexDigits (width n) : '/' ∉ hexDigits width n := by
  have hd : ∀ d < 16, '/' ≠ hexDigit d := by decide
  induction width generalizing n with
  | zero => simp [hexDigits]
  | succ width ih =>
    rw [hexDigits, mem_append, mem_singleton]
    rintro (h | h)
    · exact ih _ h
    · exact hd _ (Nat.mod_lt n (by decide)) h

lemma slash_not_mem_shortDigest (octets) : '/' ∉ (shortDigest octets).toList := by
  rw [shortDigest, S.take, String.toList_ofList, Sha256.digest, String.toList_ofList]
  intro h
  obtain ⟨_, -, hd⟩ := List.mem_flatMap.mp (mem_of_mem_take h)
  exact slash_not_mem_hexDigits 8 _ hd

/-- **Different digests, different places**, whatever the name of the program is. -/
lemma outputPath_toString_inj (w platform stem) {d1 d2} (h1 : '/' ∉ d1.toList) (h2 : '/' ∉ d2.toList) :
    (outputPath w platform stem d1).toString = (outputPath w platform stem d2).toString ↔ d1 = d2 := by
  generalize hs : (if isWindows platform then ".exe" else "") = suffix
  have hsl : '/' ∉ suffix.toList := by
    rw [← hs]
    split <;> decide
  obtain ⟨f, hf⟩ := exists_toString_joinText_append w.cache stem
  have ht : ∀ d : String, '/' ∉ d.toList → (outputPath w platform stem d).toString = f ++ ("-" ++ d ++ suffix) := by
    intro d hd
    have hta : IsTail ("-" ++ d ++ suffix).toList := by simp [IsTail, hd, hsl]
    rw [outputPath, hs, ← hf _ hta]
    simp [String.append_assoc]
  rw [ht d1 h1, ht d2 h2, String.append_right_inj, String.append_left_inj, String.append_right_inj]

/-! ## Octets of files -/

lemma open?_resolve (h : t.isFile p) (shown) : t.open? p.resolve shown = .ok (contentAt t p.resolve) := by
  rw [isFile] at h
  split at h
  · rename_i c x hf
    rw [open?, contentAt, find?_resolve hf]
  · exact absurd h (by simp)

variable {paths : List Path}

lemma mem_places {q} : q ∈ places paths ↔ ∃ p ∈ paths, p.resolve = q := by
  rw [places, mem_mergeSort, mem_eraseDups, mem_map]

lemma nodup_places (paths) : (places paths).Nodup := (mergeSort_perm _ _).nodup_iff.mpr (nodup_eraseDups _)

lemma sourceOctets_of_files (h : ∀ p ∈ paths, t.isFile p) :
    sourceOctets t paths = .ok ((places paths).flatMap (octetsAt t)) := by
  have hr : ∀ q ∈ places paths, t.open? q q.toString = .ok (contentAt t q) := by
    intro q hq
    obtain ⟨p, hp, rfl⟩ := mem_places.mp hq
    exact open?_resolve (h p hp) _
  have ha := mapM_eq_ok hr
  rw [places] at ha
  rw [sourceOctets, ha]
  exact congrArg Except.ok (List.flatMap_map ..)

lemma isFile_of_mem_sourcesBelow (h : p ∈ sourcesBelow t dir) : t.isFile p := by
  rw [sourcesBelow] at h
  split at h
  · exact (mem_filter.mp h).2
  · exact absurd h (by simp)

variable {g : Target}

lemma Target.isFile_of_mem_inputs (hr : g.isReady w t) : ∀ p ∈ g.inputs w t, t.isFile p := by
  intro p hp
  cases g with
  | query =>
    obtain rfl := mem_singleton.mp hp
    exact hr
  | plugin name dir =>
    obtain ⟨d, -, hd⟩ := List.mem_flatMap.mp hp
    exact isFile_of_mem_sourcesBelow hd

lemma pathExists_of_isFile (h : t.isFile p) : t.pathExists p := by
  rw [isFile] at h
  split at h
  · rename_i hf
    rw [pathExists, hf]
    rfl
  · exact absurd h (by simp)

lemma Target.recipe_of_ready (hr : g.isReady w t) :
    ∃ r, g.recipe w t = .ok r ∧ r.stem = g.stem ∧ r.inputs = g.inputs w t := by
  cases g with
  | query => exact ⟨_, if_pos (pathExists_of_isFile hr), rfl, rfl⟩
  | plugin name dir =>
    have hm : ¬ (!t.pathExists (dir.child "main.zig")) := by
      rw [show t.pathExists (dir.child "main.zig") = true from hr]
      decide
    exact ⟨_, if_neg hm, rfl, rfl⟩

variable (platform : String)

/-- **The place of a program that is ready** is named after the octets fed to the digest. -/
lemma Target.place_of_ready (hr : g.isReady w t) :
    g.place w platform t = .ok (outputPath w platform g.stem (shortDigest (g.fed w t))).toString := by
  obtain ⟨r, hre, hs, hi⟩ := recipe_of_ready hr
  have hd : digestOf t r.inputs = .ok (shortDigest (g.fed w t)) := by
    rw [hi, digestOf, sourceOctets_of_files (isFile_of_mem_inputs hr)]
    rfl
  rw [place, hre, ← hs]
  show (digestOf t r.inputs >>= fun digest => pure (outputPath w platform r.stem digest).toString) = _
  rw [hd]
  rfl

lemma flatMap_eq_flatMap_iff {α β : Type} {f g : α → List β} {l : List α} (hl : l.Nodup) {a}
    (hle : ∀ b ∈ l, b ≠ a → (f b).length = (g b).length) : l.flatMap f = l.flatMap g ↔ ∀ b ∈ l, f b = g b := by
  refine ⟨fun h => ?_, fun h => flatMap_congr h⟩
  induction l with
  | nil => simp
  | cons b l ih =>
    obtain ⟨hb, hl⟩ := nodup_cons.mp hl
    have hr : ∀ c ∈ l, c ≠ a → (f c).length = (g c).length := fun c hc => hle c (.tail _ hc)
    -- the one that may change its length is the first, or all the others agree with it
    have hp : f b = g b ∧ l.flatMap f = l.flatMap g := by
      by_cases hba : b = a
      · have hlen : ∀ c ∈ l, (f c).length = (g c).length := fun c hc => hr c hc fun hca => hb (hba ▸ hca ▸ hc)
        refine append_inj' h ?_
        rw [length_flatMap, length_flatMap, map_congr_left hlen]
      · exact append_inj h (hle b (.head _) hba)
    intro c hc
    rcases mem_cons.mp hc with rfl | hc
    · exact hp.1
    · exact ih hl hr hp.2 c hc

/-! ## Building -/

variable {s s' : Session} {out : String}

lemma outcome_build_eq_ok {r} (h : (build w r).outcome s = (.ok out, s')) :
    ∃ digest, digestOf s.tree r.inputs = .ok digest ∧ out = (outputPath w s.platform r.stem digest).toString := by
  obtain ⟨s0, s1, hg, h⟩ := outcome_bind_eq_ok.mp h
  obtain ⟨hs, rfl⟩ := Prod.mk.inj hg
  obtain rfl := Except.ok.inj hs
  obtain ⟨digest, s2, hd, h⟩ := outcome_bind_eq_ok.mp h
  obtain ⟨hd, rfl⟩ := outcome_ofResult_eq_ok hd
  refine ⟨digest, hd, givesOnly_ite (givesOnly_pure _) ?_ _ _ _ h⟩
  -- the compiler is run: whatever it does, only the same place can be the answer
  refine givesOnly_bind fun _ => givesOnly_bind fun outcome => givesOnly_bind fun _ => ?_
  refine givesOnly_ite (givesOnly_fail _ _) ?_
  exact givesOnly_ite (givesOnly_bind fun _ => givesOnly_pure _) (givesOnly_pure _)

/-- **A build answers with the place of the program**, for the files as they are when it starts. -/
lemma Target.place_of_outcome (h : (g.build w).outcome s = (.ok out, s')) : g.place w s.platform s.tree = .ok out := by
  have hb : g.build w = get >>= fun s => ofResult (g.recipe w s.tree) >>= Build.build w := by cases g <;> rfl
  rw [hb, bind_of_ok (outcome_get s)] at h
  obtain ⟨r, between, hre, hru⟩ := outcome_bind_eq_ok.mp h
  obtain ⟨hr, rfl⟩ := outcome_ofResult_eq_ok hre
  obtain ⟨digest, hd, rfl⟩ := outcome_build_eq_ok hru
  rw [place, hr]
  show (digestOf between.tree r.inputs >>= fun digest => pure (outputPath w between.platform r.stem digest).toString) = _
  rw [hd]
  rfl

open Target

/-- **When two states of the files share a place in the cache.** A program is ready in both states, and the digest tells
their octets apart. Then builds answer with places for both, which are the same exactly when the octets of the files, one
after another, are. If the files are the same ones and at most one of them, `p`, changes its size, no content has changed
then. -/
theorem place_eq_place_iff (w : Workshop) (platform : String) (g : Target) (t₁ t₂ : FileTree)
    (h₁ : g.isReady w t₁ = true) (h₂ : g.isReady w t₂ = true)
    (hdigest : shortDigest (g.fed w t₁) = shortDigest (g.fed w t₂) → g.fed w t₁ = g.fed w t₂) :
    ∃ place₁ place₂,
      g.place w platform t₁ = .ok place₁ ∧ g.place w platform t₂ = .ok place₂ ∧
      (∀ s s' out, s.platform = platform → (g.build w).outcome s = (.ok out, s') →
        (s.tree = t₁ → out = place₁) ∧ (s.tree = t₂ → out = place₂)) ∧
      (place₁ = place₂ ↔ g.fed w t₁ = g.fed w t₂) ∧
      (places (g.inputs w t₁) = places (g.inputs w t₂) →
        ∀ p, (∀ q ∈ places (g.inputs w t₁), q ≠ p → (octetsAt t₁ q).length = (octetsAt t₂ q).length) →
          (place₁ = place₂ ↔ ∀ q ∈ places (g.inputs w t₁), octetsAt t₁ q = octetsAt t₂ q)) := by
  have hplace₁ := g.place_of_ready platform h₁
  have hplace₂ := g.place_of_ready platform h₂
  have hiff : (outputPath w platform g.stem (shortDigest (g.fed w t₁))).toString =
      (outputPath w platform g.stem (shortDigest (g.fed w t₂))).toString ↔ g.fed w t₁ = g.fed w t₂ := by
    rw [outputPath_toString_inj w platform g.stem (slash_not_mem_shortDigest _)
      (slash_not_mem_shortDigest _)]
    exact ⟨hdigest, fun h => by rw [h]⟩
  refine ⟨_, _, hplace₁, hplace₂, ?_, hiff, ?_⟩
  · rintro s s' out rfl hrun
    have hout := place_of_outcome hrun
    constructor
    · rintro rfl
      exact Except.ok.inj (hout.symm.trans hplace₁)
    · rintro rfl
      exact Except.ok.inj (hout.symm.trans hplace₂)
  · intro hsame p hsizes
    rw [hiff, fed, fed, ← hsame]
    exact flatMap_eq_flatMap_iff (nodup_places _) hsizes

lemma directoriesBelow_flat (hf : ∀ c ∈ t.children dir, c.2 ≠ .directory) (fuel) : t.directoriesBelow fuel dir = [dir] := by
  cases fuel with
  | zero => rfl
  | succ fuel =>
    rw [directoriesBelow, flatMap_eq_nil_iff.mpr]
    intro c hc
    split
    · rename_i hn
      exact absurd hn (hf c hc)
    · rfl

lemma sourcesBelow_flat (hd : t.isDir dir) (hf : ∀ c ∈ t.children dir, c.2 ≠ .directory) :
    sourcesBelow t dir = (((t.children dir).flatMap fun c =>
      if S.matchesWildcard "*.zig" c.1 then [dir.child c.1] else []).eraseDups).filter t.isFile := by
  have hs : t.selectDeep dir "*.zig" =
      .ok (if t.isDir dir then t.selectFrom [.deep, .wildcard "*.zig"] dir else []) := rfl
  rw [sourcesBelow, hs, if_pos hd, selectFrom, directoriesBelow_flat hf]
  simp [selectFrom]

/-! ## Changes that show and changes that do not -/

def bench : Workshop := { root := root, cache := root.child "cache", interpreter := "python" }

def csv : Target := .plugin "csv" (root.child "csv")

def sourceTree (dirs : List String) (other main : List UInt8) : FileTree :=
  { entries := (dirs.inits.tail.map fun names => (⟨"$ROOT", names⟩, .directory)) ++
      [(⟨"$ROOT", dirs ++ ["cell.zig"]⟩, .file (.octets other) false),
        (⟨"$ROOT", dirs ++ ["main.zig"]⟩, .file (.octets main) false)] }

lemma sourcesBelow_sourceTree {dirs} (other main) (hd : dirs = ["csv"] ∨ dirs = ["zq", "src"]) :
    sourcesBelow (sourceTree dirs other main) ⟨"$ROOT", dirs⟩ =
      [⟨"$ROOT", dirs ++ ["cell.zig"]⟩, ⟨"$ROOT", dirs ++ ["main.zig"]⟩] := by
  have hc : (sourceTree dirs other main).children ⟨"$ROOT", dirs⟩ =
      [("cell.zig", .file (.octets other) false), ("main.zig", .file (.octets main) false)] := by
    rcases hd with rfl | rfl
    all_goals
      refine mergeSort_of_pairwise (pairwise_pair.mpr ?_)
      exact (by decide : decide ("cell.zig" ≤ "main.zig"))
  have hdi : (sourceTree dirs other main).isDir ⟨"$ROOT", dirs⟩ = true := by rcases hd with rfl | rfl <;> rfl
  rw [sourcesBelow_flat hdi (by simp [hc]), hc]
  simp only [flatMap_cons]
  rcases hd with rfl | rfl <;> rfl

lemma sources_csv (other main) : csv.sources bench (sourceTree ["csv"] other main) =
    [⟨"$ROOT", ["csv", "cell.zig"]⟩, ⟨"$ROOT", ["csv", "main.zig"]⟩] := by
  have hp : sourcesBelow (sourceTree ["csv"] other main) (root.child "csv") = _ :=
    sourcesBelow_sourceTree other main (.inl rfl)
  rw [csv, sources, flatMap_cons, hp]
  rfl

lemma fed_csv (other main) : csv.fed bench (sourceTree ["csv"] other main) = other ++ main := by
  have hp : places (csv.inputs bench (sourceTree ["csv"] other main)) =
      [⟨"$ROOT", ["csv", "cell.zig"]⟩, ⟨"$ROOT", ["csv", "main.zig"]⟩] := by
    rw [show csv.inputs bench (sourceTree ["csv"] other main) = _ from sources_csv other main]
    exact mergeSort_of_pairwise (pairwise_pair.mpr (by decide))
  rw [fed, hp]
  simp only [flatMap_cons, flatMap_nil, append_nil]
  rfl

/-- A change of one source shows. -/
theorem places_of_edited_source : csv.isReady bench (sourceTree ["csv"] [1, 2] [3]) = true ∧
      csv.isReady bench (sourceTree ["csv"] [1, 2] [4]) = true ∧
      ∃ place₁ place₂, csv.place bench "Linux" (sourceTree ["csv"] [1, 2] [3]) = .ok place₁ ∧
        csv.place bench "Linux" (sourceTree ["csv"] [1, 2] [4]) = .ok place₂ ∧ place₁ ≠ place₂ := by
  have hdigest : shortDigest [1, 2, 3] ≠ shortDigest [1, 2, 4] := by decide +kernel
  obtain ⟨place₁, place₂, hplace₁, hplace₂, -, hiff, -⟩ :=
    place_eq_place_iff bench "Linux" csv (sourceTree ["csv"] [1, 2] [3]) (sourceTree ["csv"] [1, 2] [4])
      rfl rfl (by rw [fed_csv, fed_csv]; exact fun h => absurd h hdigest)
  refine ⟨rfl, rfl, place₁, place₂, hplace₁, hplace₂, fun h => ?_⟩
  have hfed := hiff.mp h
  rw [fed_csv, fed_csv] at hfed
  exact absurd hfed (by decide)

/-- **Changes that do not show**: of a source of the query program that is not its main source, and of
octets that go from the end of one source of a plugin to the beginning of the next. -/
theorem places_of_unseen_changes : (∃ p ∈ Target.query.sources bench (sourceTree ["zq", "src"] [1] [2]),
      octetsAt (sourceTree ["zq", "src"] [1] [2]) p ≠ octetsAt (sourceTree ["zq", "src"] [3] [2]) p) ∧
    (∃ place, Target.query.place bench "Linux" (sourceTree ["zq", "src"] [1] [2]) = .ok place ∧
      Target.query.place bench "Linux" (sourceTree ["zq", "src"] [3] [2]) = .ok place) ∧
    (∃ p ∈ csv.sources bench (sourceTree ["csv"] [1, 2] [3]),
      octetsAt (sourceTree ["csv"] [1, 2] [3]) p ≠ octetsAt (sourceTree ["csv"] [1] [2, 3]) p) ∧
    (∃ place, csv.place bench "Linux" (sourceTree ["csv"] [1, 2] [3]) = .ok place ∧
      csv.place bench "Linux" (sourceTree ["csv"] [1] [2, 3]) = .ok place) := by
  have hsources : query.sources bench (sourceTree ["zq", "src"] [1] [2]) =
      [⟨"$ROOT", ["zq", "src", "cell.zig"]⟩, ⟨"$ROOT", ["zq", "src", "main.zig"]⟩] :=
    sourcesBelow_sourceTree [1] [2] (.inr rfl)
  refine ⟨⟨⟨"$ROOT", ["zq", "src", "cell.zig"]⟩, by simp [hsources], by decide⟩, ⟨_, place_of_ready "Linux" rfl, ?_⟩,
    ⟨⟨"$ROOT", ["csv", "cell.zig"]⟩, by simp [sources_csv], by decide⟩,
    ⟨_, place_of_ready "Linux" rfl, ?_⟩⟩
  · rw [place_of_ready "Linux" rfl, fed_query, fed_query]
    rfl
  · rw [place_of_ready "Linux" rfl, fed_csv, fed_csv]
    rfl

/-! ## Builds that failed -/

variable {r : Recipe} {s : Session} {digest : String} {output : Path}

lemma outcome_build (hd : digestOf s.tree r.inputs = .ok digest) :
    (build w r).outcome s =
      if isUsable s.tree s.platform (outputPath w s.platform r.stem digest) then
        (.ok (outputPath w s.platform r.stem digest).toString, s)
      else (make w r (outputPath w s.platform r.stem digest)).outcome s := by
  rw [build, bind_of_ok (outcome_get s), hd, bind_of_ok (outcome_ofResult_ok digest s)]
  dsimp only
  split <;> rfl

def compileCall (w : Workshop) (r : Recipe) (output : Path) : Value :=
  .list ["run", .list ((r.command w output).map .str), r.directory.toString]

def compiled (w : Workshop) (r : Recipe) (output : Path) (t : FileTree) (s : Session) : Session :=
  { s with tree := (w.compile (r.command w output)).leave output t, calls := compileCall w r output :: s.calls }

lemma outcome_make (hca : s.tree.makeAll w.cache = .ok t) :
    ((make w r output).outcome s).2.calls = compileCall w r output :: s.calls ∧
      ((w.compile (r.command w output)).code ≠ 0 ∨ (compiled w r output t s).tree.pathExists output = false →
        ∃ f, (make w r output).outcome s = (.error (.fault f), compiled w r output t s)) := by
  have hch : (changeTree fun t => t.makeAll w.cache).outcome s = (.ok (), { s with tree := t }) := by
    rw [changeTree, bind_of_ok (outcome_get s), hca]
    rfl
  have hc : (compile w r output).outcome { s with tree := t } = (.ok _, compiled w r output t s) := rfl
  rw [make, bind_of_ok hch, bind_of_ok hc, bind_of_ok (outcome_get _)]
  split
  · exact ⟨rfl, fun _ => ⟨_, rfl⟩⟩
  · rename_i he
    refine ⟨?_, fun hf => absurd hf (by simpa using he)⟩
    split <;> rfl

lemma makeAll_of_isDir (h : t.isDir p) : t.makeAll p = .ok t := by
  rw [isDir] at h
  rw [makeAll]
  split at h
  · rename_i hf
    rw [hf]
  · cases h

/-- **After a build that failed**, the compiler is run again exactly if no program can be run at the place of the output.
Otherwise what the compiler left there is the answer. -/
theorem rebuilt_iff {left : Session} (hdigest : digestOf s.tree r.inputs = .ok digest)
    (houtput : output = outputPath w s.platform r.stem digest) (hmiss : isUsable s.tree s.platform output = false)
    (hcache : s.tree.makeAll w.cache = .ok t) (hleft : left = compiled w r output t s)
    (hfails : (w.compile (r.command w output)).code ≠ 0 ∨ left.tree.pathExists output = false)
    (hsame : digestOf left.tree r.inputs = .ok digest) (hstays : left.tree.isDir w.cache = true)
    (later : List String → Outcome) :
    (∃ f, (build w r).outcome s = (.error (.fault f), left)) ∧
      (((build { w with compile := later } r).outcome left).2.calls = compileCall w r output :: left.calls ↔
        isUsable left.tree s.platform output = false) ∧
      (isUsable left.tree s.platform output = true →
        (build { w with compile := later } r).outcome left = (.ok output.toString, left)) := by
  have hagain : (build { w with compile := later } r).outcome left = if isUsable left.tree s.platform output then
      (.ok output.toString, left) else (make { w with compile := later } r output).outcome left := by
    rw [outcome_build hsame, houtput, show left.platform = s.platform from hleft ▸ rfl]
    rfl
  refine ⟨?_, ?_, fun husable => hagain.trans (if_pos husable)⟩
  · rw [hleft] at hfails ⊢
    rw [outcome_build hdigest, ← houtput, if_neg (by simp [hmiss])]
    exact (outcome_make hcache).2 hfails
  · have hcalls : ((make { w with compile := later } r output).outcome left).2.calls = compileCall w r output :: left.calls :=
      (outcome_make (w := { w with compile := later }) (makeAll_of_isDir hstays)).1
    rw [hagain]
    cases isUsable left.tree s.platform output with
    | false => exact iff_of_true hcalls rfl
    | true => simp

lemma digestOf_singleton (h : t.isFile p) : digestOf t [p] = .ok (shortDigest (octetsAt t p.resolve)) := by
  rw [digestOf, sourceOctets_of_files (by simpa using h), places_singleton]
  simp [shortDigest, Except.map]

def queryBuild : Recipe :=
  { stem := "zq", directory := ⟨"$ROOT", ["zq", "src"]⟩, inputs := [⟨"$ROOT", ["zq", "src", "main.zig"]⟩] }

/-- The sources of the query program with an empty cache. -/
def stall : Session where
  tree := ⟨(⟨"$ROOT", ["cache"]⟩, .directory) :: (sourceTree ["zq", "src"] [1] [2]).entries⟩
  platform := platform

def breaking : Workshop := { bench with compile := fun _ => { code := 1 } }

lemma digestOf_main (h : t.isFile ⟨"$ROOT", ["zq", "src", "main.zig"]⟩)
    (ho : octetsAt t ⟨"$ROOT", ["zq", "src", "main.zig"]⟩ = [2]) : digestOf t queryBuild.inputs = .ok "dbc1b4c900ff" := by
  have hd : shortDigest [2] = "dbc1b4c900ff" := by decide +kernel
  rw [← hd, ← ho]
  exact digestOf_singleton h

def placeOfQuery : Path := outputPath bench platform "zq" "dbc1b4c900ff"

def leftover : Session := compiled breaking queryBuild (placeOfQuery platform) (stall platform).tree (stall platform)

/-- What cannot be run is made anew. -/
theorem rebuilt_on_linux : isUsable (leftover "Linux").tree "Linux" (placeOfQuery "Linux") = false ∧
      (∃ f, (build breaking queryBuild).outcome (stall "Linux") = (.error (.fault f), leftover "Linux")) ∧
      ((build bench queryBuild).outcome (leftover "Linux")).2.calls.length = 2 := by
  have husable : isUsable (leftover "Linux").tree "Linux" (placeOfQuery "Linux") = false := by decide +kernel
  obtain ⟨hfails, hcalls, -⟩ := rebuilt_iff (w := breaking) (r := queryBuild) (s := stall "Linux") (digestOf_main rfl rfl)
    rfl rfl rfl rfl (.inl (by decide)) (digestOf_main rfl rfl) rfl fun _ => {}
  exact ⟨husable, hfails, congrArg length (hcalls.mpr husable)⟩

/-- **What is left of a program on Windows** is taken for the program. -/
theorem leftover_on_windows : (∃ f, (build breaking queryBuild).outcome (stall "Windows") = (.error (.fault f), leftover "Windows")) ∧
      (build bench queryBuild).outcome (leftover "Windows") = (.ok "$ROOT/cache/zq-dbc1b4c900ff.exe", leftover "Windows") := by
  rw [outcome_build (digestOf_main rfl rfl), outcome_build (digestOf_main rfl rfl)]
  exact ⟨(outcome_make (w := breaking) rfl).2 (.inl (by decide)), rfl⟩

end Sluice.Build
