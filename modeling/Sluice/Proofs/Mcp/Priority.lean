import Sluice.Mcp.Command
import Sluice.Proofs.Feed

/-!
# Which profile is loaded

The server part comes from the first directory that says anything, the tool part from the **last** one up to there.
-/

namespace Sluice.Mcp

open List

variable {t : FileTree} {server : String} {tool? : Option String} {parts result : Parts} {dir : Path} {dirs : List Path}

def ownFile? (t : FileTree) (server : String) (file : Path → Path) (dir : Path) : Option Path :=
  let place := dir.joinText server
  if t.pathExists place && t.pathExists (file place) then some (file place) else none

def serverFile? (t : FileTree) (server : String) : Path → Option Path := ownFile? t server (·.child "_meta.json")

def toolFile? (t : FileTree) (server : String) (tool? : Option String) (dir : Path) : Option Path :=
  (tool?.filter (· != "")).bind fun name => ownFile? t server (·.joinText (name ++ ".json")) dir

/-- A value is what a file says, or an old one if there is no file. -/
def Gives (t : FileTree) (file? : Option Path) (old v : Value) : Prop :=
  match file? with
  | none => v = old
  | some p => readFile t p = .ok v

lemma gives_of_readOver {file old v} (hp : t.pathExists (dir.joinText server) = true)
    (h : readOver t (file (dir.joinText server)) old = .ok v) : Gives t (ownFile? t server file dir) old v := by
  rw [readOver] at h
  simp only [ownFile?, hp, Bool.true_and]
  split at h
  next hf => rwa [if_pos hf]
  next hf =>
    rw [if_neg hf]
    exact (Except.ok.inj h).symm

/-- **What a search does in one directory.** -/
lemma findParts_cons (hs : parts.server.truthy = false) (h : findParts t server tool? parts (dir :: dirs) = .ok result) :
    ∃ base tool, Gives t (serverFile? t server dir) parts.server base ∧
      Gives t (toolFile? t server tool? dir) parts.tool tool ∧ (base.truthy = true ∧ result = ⟨base, tool⟩ ∨
        base.truthy = false ∧ findParts t server tool? ⟨base, tool⟩ dirs = .ok result) := by
  rw [findParts] at h
  cases hp : t.pathExists (dir.joinText server) with
  | false =>
    have hn (file : Path → Path) : ownFile? t server file dir = none := by simp [ownFile?, hp]
    refine ⟨parts.server, parts.tool, ?_, ?_, .inr ⟨hs, by simpa [hp] using h⟩⟩
    · rw [serverFile?, hn]
      rfl
    · simp [toolFile?, hn, Gives]
  | true =>
    simp only [hp] at h
    obtain ⟨base, hb, h⟩ := bind_eq_ok.mp h
    obtain ⟨tool, hto, h⟩ : ∃ tool, Gives t (toolFile? t server tool? dir) parts.tool tool ∧
        (if base.truthy then pure ⟨base, tool⟩ else findParts t server tool? ⟨base, tool⟩ dirs) = .ok result := by
      split at h
      · exact ⟨parts.tool, rfl, h⟩
      · exact ⟨parts.tool, rfl, h⟩
      next name hna _ =>
        have hf : (some name).filter (· != "") = some name := by simpa [Option.filter] using hna
        obtain ⟨tool, hto, h⟩ := bind_eq_ok.mp h
        have hg : Gives t (ownFile? t server (·.joinText (name ++ ".json")) dir) parts.tool tool := gives_of_readOver hp hto
        rw [toolFile?, hf]
        exact ⟨tool, hg, h⟩
    refine ⟨base, tool, gives_of_readOver hp hb, hto, ?_⟩
    split at h
    next ht => exact .inl ⟨ht, (Except.ok.inj h).symm⟩
    next ht => exact .inr ⟨Bool.eq_false_iff.mpr ht, h⟩

/-- The parts of a profile come from these directories, the last of which has that of the server. -/
structure Supplied (pick : List Path → Option Path) (t : FileTree) (server : String) (tool? : Option String)
    (front : List Path) (dir : Path) (old : Value) (parts : Parts) : Prop where
  silent : ∀ d ∈ front, ∀ p ∈ serverFile? t server d, ∃ v, readFile t p = .ok v ∧ v.truthy = false
  base : ∃ p ∈ serverFile? t server dir, readFile t p = .ok parts.server
  own : Gives t (pick ((front ++ [dir]).filterMap (toolFile? t server tool?))) old parts.tool

/-- **What a search finds** from a directory on. -/
lemma supplied_of_findParts (hs : parts.server.truthy = false)
    (h : findParts t server tool? parts dirs = .ok result) (hr : result.server.truthy = true) :
    ∃ front dir back, dirs = front ++ dir :: back ∧ Supplied getLast? t server tool? front dir parts.tool result := by
  induction dirs generalizing parts with
  | nil =>
    rw [← Except.ok.inj h, hs] at hr
    cases hr
  | cons dir dirs ih =>
    obtain ⟨b, tool, hb, ht, ⟨htr, rfl⟩ | ⟨hfa, h⟩⟩ := findParts_cons hs h
    · refine ⟨[], dir, dirs, rfl, by simp, ?_, by cases hf : toolFile? t server tool? dir <;> simpa [hf] using ht⟩
      cases hf : serverFile? t server dir with
      | none =>
        rw [hf] at hb
        rw [hb, hs] at htr
        cases htr
      | some p =>
        rw [hf] at hb
        exact ⟨p, rfl, hb⟩
    · obtain ⟨front, last, back, rfl, hsi, hse, hl⟩ := ih hfa h
      refine ⟨dir :: front, last, back, rfl, forall_mem_cons.mpr ⟨fun p hp => ?_, hsi⟩, hse, ?_⟩
      · rw [hp] at hb
        exact ⟨b, hb, hfa⟩
      · rw [cons_append, filterMap_cons]
        cases hf : toolFile? t server tool? dir with
        | none =>
          rw [hf] at ht
          exact ht ▸ hl
        | some p =>
          rw [hf] at ht
          cases hre : (front ++ [last]).filterMap (toolFile? t server tool?) with
          | nil =>
            rw [hre] at hl
            have hk : result.tool = tool := hl
            rw [hk]
            exact ht
          | cons q r =>
            rw [hre] at hl
            exact hl

lemma eq_map_of_asMapping {v : Value} {fields} (h : v.asMapping = .ok fields) : v = .map fields := by
  cases v with
  | map own => rw [Except.ok.inj h]
  | _ => cases h

lemma parts_of_load {s fields} (h : load s server tool? = .ok fields) :
    ∃ base own, base ≠ [] ∧ findParts s.tree server tool? {} (profileDirectories s) = .ok ⟨.map base, .map own⟩ ∧
      expandFields s.env? (Fields.update base own) = .ok fields := by
  obtain ⟨⟨base, own⟩, hp, h⟩ := bind_eq_ok.mp h
  cases ht : base.truthy with
  | false =>
    simp only [ht] at h
    cases h
  | true =>
    simp only [ht] at h
    obtain ⟨fields, hb, h⟩ := bind_eq_ok.mp h
    obtain ⟨o, ho, h⟩ := bind_eq_ok.mp h
    obtain rfl := eq_map_of_asMapping hb
    obtain rfl := eq_map_of_asMapping ho
    exact ⟨fields, o, by simpa [Value.truthy] using ht, hp, h⟩

/-- **Where a profile comes from.** The part of the server is from the first directory that has more than nothing to say
about it, that of the tool from the last directory up to that one which has a file for it; if there is only one, it is the
first, too. -/
theorem load_supplied {s : Session} {fields : Fields} (h : load s server tool? = .ok fields) :
    ∃ front dir back base own, profileDirectories s = front ++ dir :: back ∧ base ≠ [] ∧
      expandFields s.env? (Fields.update base own) = .ok fields ∧
      Supplied getLast? s.tree server tool? front dir (.map []) ⟨.map base, .map own⟩ ∧
      (((front ++ [dir]).filterMap (toolFile? s.tree server tool?)).length ≤ 1 →
        Supplied head? s.tree server tool? front dir (.map []) ⟨.map base, .map own⟩) := by
  obtain ⟨base, own, hbase, hparts, hfields⟩ := parts_of_load h
  obtain ⟨front, dir, back, hdirs, hsupplied⟩ := supplied_of_findParts rfl hparts (by simpa [Value.truthy] using hbase)
  refine ⟨front, dir, back, base, own, hdirs, hbase, hfields, hsupplied, fun hone => { hsupplied with own := ?_ }⟩
  have hown := hsupplied.own
  generalize (front ++ [dir]).filterMap (toolFile? s.tree server tool?) = files at hone hown ⊢
  rcases files with _ | ⟨p, _ | ⟨q, rest⟩⟩
  · exact hown
  · exact hown
  · simp at hone

def labFile (base : List String) (name : String) : Path := ⟨"$ROOT", base ++ ["profiles", "mcp", "lab", name]⟩

/-- Both the project and the user have a file for a tool; only the user has one for its server. -/
def twoLevels : Session :=
  { tree := ⟨([[".jn"], ["home", ".local", "jn"]].flatMap fun base =>
        [((labFile base "").parent.parent, .directory), ((labFile base "").parent, .directory)]) ++
      [(labFile [".jn"] "search.json", .file (.text "\x7b\"k\": \"own\"\x7d") false),
       (labFile ["home", ".local", "jn"] "_meta.json", .file (.text "\x7b\"m\": \"lab\"\x7d") false),
       (labFile ["home", ".local", "jn"] "search.json", .file (.text "\x7b\"k\": \"home\"\x7d") false)]⟩
    env := [("HOME", "$ROOT/home")] }

theorem load_supplied_home : ∃ front dir back parts, profileDirectories twoLevels = front ++ dir :: back ∧
    Supplied getLast? twoLevels.tree "lab" (some "search") front dir (.map []) parts := by
  have hsome : (load twoLevels "lab" (some "search")).toOption.isSome = true := by decide +kernel
  cases hload : load twoLevels "lab" (some "search") with
  | error f =>
    rw [hload] at hsome
    cases hsome
  | ok fields =>
    obtain ⟨front, dir, back, base, own, hdirs, -, -, hsupplied, -⟩ := load_supplied hload
    exact ⟨front, dir, back, _, hdirs, hsupplied⟩

/-- **The file of the project comes first**, and yet the file of the user counts. -/
theorem load_not_first : (profileDirectories twoLevels).filterMap (toolFile? twoLevels.tree "lab" (some "search")) =
      [labFile [".jn"] "search.json", labFile ["home", ".local", "jn"] "search.json"] ∧
    (load twoLevels "lab" (some "search")).toOption.map (·.map fun f => (f.1, f.2.str?)) =
      some [("m", some "lab"), ("k", some "home")] := by
  decide +kernel

end Sluice.Mcp
