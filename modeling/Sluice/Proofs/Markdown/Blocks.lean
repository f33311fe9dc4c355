import Mathlib.Algebra.Group.Nat.Even
import Sluice.Markdown.FrontMatter
import Sluice.Proofs.Text.Split

/-!
# Blocks and the lines they come from

* **Nothing is lost** (`pieces_of_records`): headings and lines that are not blank come out in their order.
* **Code is opaque** exactly where no line between two fences looks like a heading (`records_opaque_iff`).
-/

namespace Sluice.Markdown

open List Text

/-! ## What is kept of a line -/

def isFence (l : Chars) : Bool := startsWith fenceMark (strip l)

inductive Piece
  | heading (level : Int) (text : String)
  | line (text : Chars)
deriving DecidableEq

def ink? (l : Chars) : Option Piece := if (strip l).isEmpty then none else some (.line l)

def pieceOfLine? (l : Chars) : Option Piece :=
  match heading? l with
  | some (level, text) => some (.heading level text)
  | none => if isFence l then none else ink? l

def piecesOfRecord (v : Value) : List Piece :=
  match v.get? "type", v.get? "level", v.get? "text", v.get? "content" with
  | some (.str "heading"), some (.int level), some (.str text), _ => [.heading level text]
  | some (.str "text"), _, _, some (.str content) => (contentLines content).filterMap ink?
  | some (.str "code"), _, _, some (.str content) => (contentLines content).filterMap ink?
  | _, _, _, _ => []

def Line.piece? : Line → Option Piece
  | .heading level text => some (.heading level text)
  | .fence _ => none
  | .plain l => ink? l.toList

open Line

lemma piece?_ofText (l) : (ofText l).piece? = pieceOfLine? l := by
  rw [ofText, pieceOfLine?, isFence, startsWith]
  cases heading? l with
  | some h => rfl
  | none =>
    cases dropStart? fenceMark (strip l) with
    | some la => rfl
    | none => simp [piece?]

variable {b : Block}

namespace Block

def lines : Block → List String
  | .heading _ _ => []
  | .text ls | .code _ ls => ls

def pieces : Block → List Piece
  | .heading level title => [.heading level title]
  | .text ls | .code _ ls => ls.filterMap (ink? ·.toList)

lemma inked_join {ls} (h : ∀ l ∈ ls, '\n' ∉ l.toList) :
    (contentLines (S.join "\n" ls)).filterMap ink? = ls.filterMap fun l => ink? l.toList := by
  have hb : "\n".toList = ['\n'] := rfl
  rw [contentLines, S.join, String.toList_ofList, splitAtChar, hb]
  by_cases hne : ls.map String.toList = []
  · rw [map_eq_nil_iff.mp hne]
    rfl
  · rw [splitWhere_join (by simp) hne fun s hs c hc => ?_, filterMap_map]
    · rfl
    · obtain ⟨l, hl, rfl⟩ := mem_map.mp hs
      exact beq_eq_false_iff_ne.mpr fun he => h l hl (he ▸ hc)

/-- **What the record of a block keeps** is what the block does. -/
lemma piecesOfRecord_toValue (h : ∀ l ∈ b.lines, '\n' ∉ l.toList) : piecesOfRecord b.toValue = b.pieces := by
  cases b with
  | heading level text => rfl
  | text ls => exact inked_join h
  | code language ls => exact inked_join h

end Block

/-! ## Nothing is lost -/

variable (p : Pending)

lemma pieces_flush : p.flush.flatMap Block.pieces = p.lines.filterMap fun l => ink? l.toList := by
  rw [Pending.flush]
  cases p with
  | text ls | code language ls =>
    cases ls with
    | nil => rfl
    | cons l ls => simp [Pending.lines, Pending.toBlock, Block.pieces]

/-- **Blocks keep what the open block holds and what follows.** -/
lemma pieces_blocksFrom (ls) :
    (blocksFrom p ls).flatMap Block.pieces = (p.lines.filterMap (ink? ·.toList)) ++ ls.filterMap piece? := by
  induction ls generalizing p with
  | nil => simpa [blocksFrom] using pieces_flush p
  | cons l ls ih =>
    cases l with
    | heading level text =>
      rw [blocksFrom, flatMap_append, pieces_flush, flatMap_cons, ih]
      rfl
    | plain text =>
      rw [blocksFrom, ih]
      cases p <;> simp [Pending.add, Pending.lines, piece?, filterMap_cons] <;> split <;> simp
    | fence language =>
      cases p with
      | text open_ =>
        rw [blocksFrom, flatMap_append, pieces_flush, ih]
        rfl
      | code language' inside =>
        rw [blocksFrom, flatMap_cons, ih]
        rfl

variable {l : String}

lemma mem_lines_blocksFrom {p ls} (hb : b ∈ blocksFrom p ls) (hl : l ∈ b.lines) : l ∈ p.lines ∨ .plain l ∈ ls := by
  have hf {p : Pending} (hb : b ∈ p.flush) : l ∈ p.lines := by
    rw [Pending.flush] at hb
    split at hb
    · cases hb
    · obtain rfl := mem_singleton.mp hb
      cases p <;> exact hl
  induction ls generalizing p with
  | nil => exact .inl (hf hb)
  | cons x ls ih =>
    -- what follows the first line starts from a block without lines, or with that line added
    have hr {p' : Pending} (hb : b ∈ blocksFrom p' ls) (hp' : p'.lines = []) : l ∈ p.lines ∨ .plain l ∈ x :: ls :=
      .inr (.tail _ ((ih hb).resolve_left (by simp [hp'])))
    cases x with
    | heading level text =>
      rw [blocksFrom, mem_append, mem_cons] at hb
      rcases hb with hb | rfl | hb
      · exact .inl (hf hb)
      · cases hl
      · exact hr hb rfl
    | plain text =>
      rcases ih hb with h | h
      · have ha : l ∈ p.lines ++ [text] := by cases p <;> exact h
        rcases mem_append.mp ha with hp | ht
        · exact .inl hp
        · exact .inr (mem_cons.mpr (.inl (congrArg plain (mem_singleton.mp ht))))
      · exact .inr (.tail _ h)
    | fence language =>
      cases p with
      | text open_ =>
        rw [blocksFrom, mem_append] at hb
        rcases hb with hb | hb
        · exact .inl (hf hb)
        · exact hr hb rfl
      | code language' inside =>
        rw [blocksFrom, mem_cons] at hb
        rcases hb with rfl | hb
        · exact .inl hl
        · exact hr hb rfl

lemma eq_of_ofText_eq_plain {s} (h : ofText s = .plain l) : l = String.ofList s := by
  rw [ofText] at h
  split at h
  · cases h
  · split at h <;> cases h
    rfl

lemma newline_not_mem_lines {content} (hb : b ∈ blocks content) (hl : l ∈ b.lines) : '\n' ∉ l.toList := by
  have hp := (mem_lines_blocksFrom hb hl).resolve_left not_mem_nil
  obtain ⟨s, hs, hs'⟩ := mem_map.mp hp
  rw [eq_of_ofText_eq_plain hs', String.toList_ofList]
  intro hm
  simpa using eq_false_of_mem_splitWhere hs hm

/-- **Nothing of content is lost**: what its lines come to is what the records keep. -/
theorem pieces_of_records (content : String) :
    (contentLines content).filterMap pieceOfLine? = ((blocks content).map Block.toValue).flatMap piecesOfRecord := by
  have hrecords : (blocks content).map (piecesOfRecord ·.toValue) = (blocks content).map Block.pieces :=
    List.map_congr_left fun b hb => Block.piecesOfRecord_toValue fun l => newline_not_mem_lines hb
  rw [List.flatMap_map, List.flatMap_def, hrecords, ← List.flatMap_def, blocks, pieces_blocksFrom, List.filterMap_map]
  exact List.filterMap_congr fun l _ => (piece?_ofText l).symm

/-! ## Content cut at its fences -/

structure Fenced where
  opening : Chars
  inside : List Chars
  closing : Chars
  opens : isFence opening
  closes : isFence closing
  noFence : ∀ l ∈ inside, isFence l = false

/-- A part of content: a line outside of fences, or a fenced block. -/
inductive Stretch
  | outside (l : Chars) (noFence : isFence l = false)
  | fenced (b : Fenced)

namespace Stretch

def lines : Stretch → List Chars
  | outside l _ => [l]
  | fenced b => b.opening :: (b.inside ++ [b.closing])

def inside : Stretch → List Chars
  | outside _ _ => []
  | fenced b => b.inside

variable {l : Chars} (noFence : isFence l = false) (b : Fenced)

@[simp] lemma lines_outside : (outside l noFence).lines = [l] := rfl

@[simp] lemma lines_fenced : (fenced b).lines = b.opening :: (b.inside ++ [b.closing]) := rfl

@[simp] lemma inside_outside : (outside l noFence).inside = [] := rfl

@[simp] lemma inside_fenced : (fenced b).inside = b.inside := rfl

end Stretch

def languageOf (fence : Chars) : String := String.ofList (strip ((strip fence).drop 3))

/-- **Content read with opaque code**: a fenced block is one block of code. `open_` is the text so far. -/
def opaqueBlocks (open_ : List String) : List Stretch → List Block
  | [] => (Pending.text open_).flush
  | .outside l _ :: rest =>
    match heading? l with
    | some (level, text) => (Pending.text open_).flush ++ .heading level text :: opaqueBlocks [] rest
    | none => opaqueBlocks (open_ ++ [String.ofList l]) rest
  | .fenced b :: rest =>
    (Pending.text open_).flush ++ .code (languageOf b.opening) (b.inside.map String.ofList) :: opaqueBlocks [] rest

/-- Content can be cut so that each fence belongs to a block exactly if its fences are even in number; else one is left
over. -/
lemma exists_stretches : (ls : List Chars) → (Even (ls.countP isFence) → ∃ S : List Stretch, S.flatMap (·.lines) = ls) ∧
      (¬ Even (ls.countP isFence) → ∃ (before : List Chars) (fence : Chars) (S : List Stretch),
        before ++ fence :: S.flatMap (·.lines) = ls ∧ isFence fence ∧ ∀ l ∈ before, isFence l = false)
  | [] => ⟨fun _ => ⟨[], rfl⟩, fun h => absurd ⟨0, rfl⟩ h⟩
  | l :: ls => by
    obtain ⟨he, ho⟩ := exists_stretches ls
    cases hl : isFence l with
    | false =>
      rw [countP_cons_of_neg (by simp [hl])]
      refine ⟨fun h => ?_, fun h => ?_⟩
      · obtain ⟨S, hS⟩ := he h
        exact ⟨.outside l hl :: S, by simp [hS]⟩
      · obtain ⟨before, fence, S, hS, hf, hb⟩ := ho h
        exact ⟨l :: before, fence, S, by simp [hS], hf, forall_mem_cons.mpr ⟨hl, hb⟩⟩
    | true =>
      rw [countP_cons_of_pos hl, Nat.even_add_one]
      refine ⟨fun h => ?_, fun h => ?_⟩
      · obtain ⟨before, fence, S, hS, hf, hb⟩ := ho h
        exact ⟨.fenced ⟨l, before, fence, hl, hf, hb⟩ :: S, by simp [hS]⟩
      · obtain ⟨S, hS⟩ := he (not_not.mp h)
        exact ⟨[], l, S, by simp [hS], hl, by simp⟩

lemma heading?_of_isFence {l} (h : isFence l) : heading? l = none := by
  cases l with
  | nil => rfl
  | cons c l =>
    by_cases hc : c = '#'
    · have hs : strip ('#' :: l) = '#' :: stripRight l := trim_around (a := []) (by decide) l
      rw [hc, isFence, hs] at h
      cases h
    · simp [heading?, hc]

lemma ofText_of_isFence {l} (h : isFence l) : ofText l = .fence (languageOf l) := by
  rw [ofText, heading?_of_isFence h]
  obtain ⟨la, hl⟩ := Option.isSome_iff_exists.mp h
  have hd : (strip l).drop 3 = la := by rw [dropStart?_eq_some hl]; rfl
  simp [hl, languageOf, hd]

lemma ofText_of_plain {l} (hf : isFence l = false) (hh : heading? l = none) : ofText l = .plain (String.ofList l) := by
  have hno : dropStart? fenceMark (strip l) = none := by simpa [isFence, startsWith] using hf
  rw [ofText, hh, hno]

lemma blocksFrom_inside {inside : List Chars} (hf : ∀ l ∈ inside, isFence l = false)
    (hh : ∀ l ∈ inside, heading? l = none) (language closing before rest) :
    blocksFrom (.code language before) (inside.map ofText ++ .fence closing :: rest) =
      .code language (before ++ inside.map String.ofList) :: blocksFrom (.text []) rest := by
  induction inside generalizing before with
  | nil => simp [blocksFrom]
  | cons l inside ih =>
    rw [forall_mem_cons] at hf hh
    rw [map_cons, cons_append, ofText_of_plain hf.1 hh.1, blocksFrom, Pending.add, ih hf.2 hh.2]
    simp

def HasPlainCode (S : List Stretch) : Prop := ∀ b, .fenced b ∈ S → ∀ l ∈ b.inside, heading? l = none

lemma blocksFrom_stretches {S} (h : HasPlainCode S) (open_) :
    blocksFrom (.text open_) ((S.flatMap (·.lines)).map ofText) = opaqueBlocks open_ S := by
  induction S generalizing open_ with
  | nil => rfl
  | cons s S ih =>
    have hS := ih fun b hb => h b (.tail _ hb)
    rw [flatMap_cons]
    cases s with
    | outside l noFence =>
      rw [opaqueBlocks]
      cases hl : heading? l with
      | some heading => simp [ofText, hl, blocksFrom, hS]
      | none => simp [ofText_of_plain noFence hl, blocksFrom, Pending.add, hS]
    | fenced b =>
      have hi := blocksFrom_inside b.noFence (h b (.head _)) (languageOf b.opening) (languageOf b.closing) []
      simp [ofText_of_isFence b.opens,
        ofText_of_isFence b.closes, blocksFrom, opaqueBlocks, hi, hS]

/-! ## Counting headings -/

def Block.isHeading : Block → Bool
  | .heading .. => true
  | _ => false

def isHeadingRecord (v : Value) : Bool :=
  match v.get? "type" with
  | some (.str "heading") => true
  | _ => false

lemma isHeadingRecord_toValue (b : Block) : isHeadingRecord b.toValue = b.isHeading := by cases b <;> rfl

lemma countP_flush : p.flush.countP Block.isHeading = 0 := by
  rw [Pending.flush]
  split
  · rfl
  · cases p <;> rfl

lemma countP_blocksFrom (ls : List Chars) :
    (blocksFrom p (ls.map ofText)).countP Block.isHeading = ls.countP fun l => (heading? l).isSome := by
  induction ls generalizing p with
  | nil => exact countP_flush p
  | cons l ls ih =>
    rw [map_cons, ofText, countP_cons]
    cases heading? l with
    | some h => simp [blocksFrom, countP_flush, countP_cons, ih, Block.isHeading]
    | none =>
      cases dropStart? fenceMark (strip l) with
      | some la => cases p <;> simp [blocksFrom, countP_flush, ih, Block.isHeading]
      | none => simp [blocksFrom, ih]

lemma countP_opaqueBlocks (S open_) :
    (opaqueBlocks open_ S).countP Block.isHeading + (S.flatMap (·.inside)).countP (fun l => (heading? l).isSome) =
      (S.flatMap (·.lines)).countP fun l => (heading? l).isSome := by
  induction S generalizing open_ with
  | nil => simp [opaqueBlocks, countP_flush]
  | cons s S ih =>
    cases s with
    | outside l noFence =>
      rw [opaqueBlocks]
      cases hl : heading? l with
      | some h =>
        simp [countP_flush, hl, ← ih [], countP_cons, Block.isHeading]
        omega
      | none => simp [hl, ← ih (open_ ++ [String.ofList l])]
    | fenced b =>
      simp [opaqueBlocks, countP_flush, Block.isHeading, heading?_of_isFence b.opens, heading?_of_isFence b.closes, ← ih []]
      omega

/-- **When code is opaque.** Content whose fences come in pairs can be cut at them, and its records are those of reading
fenced blocks as opaque exactly if no line between two fences looks like a heading. -/
theorem records_opaque_iff {content : String} (h : Even ((contentLines content).countP isFence)) :
    (∃ S : List Stretch, S.flatMap (·.lines) = contentLines content) ∧
      ∀ S : List Stretch, S.flatMap (·.lines) = contentLines content →
        ((blocks content).map Block.toValue = (opaqueBlocks [] S).map Block.toValue ↔ HasPlainCode S) := by
  refine ⟨(exists_stretches _).1 h, fun S hS => ⟨fun heq b hb l hl => ?_, fun hplain => ?_⟩⟩
  · have hcount (bs : List Block) : (bs.map Block.toValue).countP isHeadingRecord = bs.countP Block.isHeading := by
      rw [List.countP_map]
      exact List.countP_congr fun b _ => by rw [Function.comp_apply, isHeadingRecord_toValue]
    have hblocks := hcount (blocks content)
    rw [heq, hcount, blocks, countP_blocksFrom, ← hS, ← countP_opaqueBlocks S []] at hblocks
    have hnone : (S.flatMap (·.inside)).countP (fun l => (heading? l).isSome) = 0 := by omega
    simpa using List.countP_eq_zero.mp hnone l (List.mem_flatMap.mpr ⟨.fenced b, hb, hl⟩)
  · rw [blocks, ← hS, blocksFrom_stretches hplain]

def listing : Fenced where
  opening := "\x60\x60\x60sh".toList
  inside := ["ls".toList, [], "##".toList]
  closing := " \x60\x60\x60".toList
  opens := by decide
  closes := by decide
  noFence := by simp only [forall_mem_cons]; decide

theorem records_opaque_listing : Even ((contentLines "# Run\n\x60\x60\x60sh\nls\n\n##\n \x60\x60\x60\nend").countP isFence) ∧
    (blocks "# Run\n\x60\x60\x60sh\nls\n\n##\n \x60\x60\x60\nend").map Block.toValue =
      [Block.heading 1 "Run", .code "sh" ["ls", "", "##"], .text ["end"]].map Block.toValue := by
  have heven : Even ((contentLines "# Run\n\x60\x60\x60sh\nls\n\n##\n \x60\x60\x60\nend").countP isFence) := ⟨1, by decide⟩
  refine ⟨heven, ((records_opaque_iff heven).2 [.outside "# Run".toList (by decide), .fenced listing,
    .outside "end".toList (by decide)] (by decide)).mpr ?_⟩
  intro b hb
  obtain rfl : b = listing := by simpa using hb
  simp only [listing, List.forall_mem_cons]
  decide

def commented : Fenced where
  opening := "\x60\x60\x60".toList
  inside := ["# x".toList]
  closing := "\x60\x60\x60".toList
  opens := by decide
  closes := by decide
  noFence := by simp only [forall_mem_singleton]; decide

/-- **A comment ends the code it stands in.** -/
theorem records_not_opaque_comment : contentLines "\x60\x60\x60\n# x\n\x60\x60\x60" = (Stretch.fenced commented).lines ∧
    opaqueBlocks [] [.fenced commented] = [.code "" ["# x"]] ∧
    blocks "\x60\x60\x60\n# x\n\x60\x60\x60" = [.heading 1 "x"] := by
  decide

end Sluice.Markdown
