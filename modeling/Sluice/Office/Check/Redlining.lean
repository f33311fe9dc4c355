import Sluice.Markup.Tree
import Sluice.Office.Package

/-!
# Checks of tracked changes

When the changes of the author are taken back (`withdraw`), the text must be that of the archived document.
-/

namespace Sluice.Office

open Text
open Markup (Tree)

def preview (s : String) : String :=
  let q := S.quoted s
  if 50 < q.length then S.take 50 q ++ "..." else q

variable (i : Inspection) (root : Element)

def proseParts : List Path := i.parts.filter (·.name == "document.xml")

def wordName (name : String) : String := inSpace wordSpaceName name

def endsBlank (s : Chars) : Bool :=
  let first := s.takeWhile (· != '\n')
  let isLast (line : Chars) : Bool := line.getLast?.any isBlank
  match s.drop first.length with
  | [] => isLast first
  | ['\n'] | ['\n', '\n'] => true
  | _ => false

def hasOuterBlank (s : Chars) : Bool := s.head?.any isBlank || endsBlank s

def keepsBlanks (e : Element) : Bool := e.attribute? (inSpace Markup.xmlSpace "space") == some "preserve"

/-- The elements of the prose that are picked are wrong. -/
def checkProse (pick : Element → List Element) (fault kind success : String) : Report :=
  let findings := (proseParts i).flatMap fun p => partFindings i p fun root =>
    (pick root).map fun e => atLine e (fault ++ preview (e.text?.getD ""))
  .found i findings s!"{kind} violations" success

def checkBlanks : Report :=
  checkProse i (fun root => root.all.filter fun e =>
      e.hasTag (wordName "t") && hasOuterBlank (e.text?.getD "").toList && !keepsBlanks e)
    "w:t element with whitespace missing xml:space='preserve': " "whitespace preservation" "All whitespace is properly preserved"

def liveInDeletions : List Element :=
  (Element.withinAll (wordName "del") (wordName "t") "" false false root.children).map (·.1)

def deletedInInsertions : List Element :=
  ((Element.withinAll (wordName "ins") (wordName "delText") (wordName "del") false
    (root.hasTag (wordName "del")) root.children).filter (!·.2)).map (·.1)

def checkDeletions : Report :=
  checkProse i (fun root => (liveInDeletions root).filter (·.text?.any (· != ""))) "<w:t> found within <w:del>: "
    "deletion validation" "No w:t elements found within w:del elements"

def checkInsertions : Report :=
  checkProse i deletedInInsertions "<w:delText> within <w:ins>: " "insertion validation"
    "No w:delText elements within w:ins elements"

def paragraphCount : Nat := (root.inside (wordName "p")).length

/-- Counts the paragraphs of the document: those of the last main part that can be read. -/
def countParagraphs : List Path → (count : Nat) → Act Nat
  | [], count => pure count
  | p :: ps, count =>
    match i.root p with
    | .ok e => countParagraphs ps (paragraphCount e)
    | .error u => do
      Act.print s!"Error counting paragraphs in unpacked document: {u.text}"
      countParagraphs ps count

def countArchivedParagraphs : Act Nat := do
  let main := Act.temporary.joinText "word/document.xml"
  let root : Except Unread Element := match openArchive (← get).tree i.archive i.archive.toString with
    | .error f => .error (.fault f)
    | .ok ms => Inspection.element i.laboratory (extract {} ms Act.temporary) main
  match root with
  | .ok e => pure (paragraphCount e)
  | .error u =>
    Act.print s!"Error counting paragraphs in original document: {u.text}"
    pure 0

def compareParagraphs : Act Unit := do
  let old ← countArchivedParagraphs i
  let new ← countParagraphs i (proseParts i) 0
  let diff := (new : Int) - old
  Act.print (s!"\nParagraphs: {Number.intText old} → {Number.intText new} (" ++
    (if 0 < diff then "+" else "") ++ Number.intText diff ++ ")")

/-! ## Checks of tracked changes -/

def reviser : String := "Claude"

def isRevision (kind tag : String) (attributes : Pairs) : Bool :=
  tag == wordName kind && (attributes.find? (·.1 == wordName "author")).map (·.2) == some reviser

mutual

def withoutInsertions : Tree → Tree
  | .node tag attributes text tail cs => .node tag attributes text tail (withoutInsertionsAll cs)

def withoutInsertionsAll : List Tree → List Tree
  | [] => []
  | .node tag attributes text tail cs :: rest =>
    if isRevision "ins" tag attributes then withoutInsertionsAll rest
    else withoutInsertions (.node tag attributes text tail cs) :: withoutInsertionsAll rest

end

mutual

/-- An element in which the author's deletions are opened. When it is `live`, deleted text in it is live. -/
def restored (live : Bool) : Tree → Tree
  | .node tag attributes text tail cs =>
    .node (if live && tag == wordName "delText" then wordName "t" else tag) attributes text tail
      (restoredAll live cs)

/-- Elements among which the author's deletions are opened. -/
def restoredAll (live : Bool) : List Tree → List Tree
  | [] => []
  | .node tag attributes text tail cs :: rest =>
    if isRevision "del" tag attributes then restoredEach cs ++ restoredAll live rest
    else restored live (.node tag attributes text tail cs) :: restoredAll live rest

def restoredEach : List Tree → List Tree
  | [] => []
  | t :: ts => restored true t :: restoredEach ts

end

/-- **An element with the author's changes taken back.** -/
def withdraw (t : Tree) : Tree := restored false (withoutInsertions t)

mutual

def treeInside : Tree → List Tree
  | .node _ _ _ _ cs => treeAll cs

def treeAll : List Tree → List Tree
  | [] => []
  | t :: ts => t :: (treeInside t ++ treeAll ts)

end

variable (t : Tree)

def treeNamed (tag : String) : List Tree := (treeInside t).filter (·.tag == tag)

def paragraphText : String := String.join ((treeNamed t (wordName "t")).map (·.text))

/-- **The live text of a document**: its paragraphs that have any, each on a line. -/
def liveText : String := Text.S.join "\n" (((treeNamed t (wordName "p")).map paragraphText).filter (· != ""))

def hasRevisions : Bool :=
  (treeInside t).any fun e => isRevision "del" e.tag e.attributes || isRevision "ins" e.tag e.attributes

/-- The root element of a text, or where and why it is no document. -/
def parseTree (text : String) : Except String Tree :=
  match Tree.parse text, Markup.nodesOf {} text.toList with
  | .ok t, _ => .ok t
  | .error f, .ok _ => .error f.message
  | .error _, .error e => .error (Dom.malformed text.toList e).message

/-- The lines of a difference behind its first head; heads and blank lines are left out. -/
def differenceLines : (inside : Bool) → List String → List String
  | _, [] => []
  | inside, line :: rest =>
    if Text.S.startsWith "@@" line then differenceLines true rest
    else if inside && Text.S.strip line != "" then line :: differenceLines inside rest
    else differenceLines inside rest

def compareCommand (options : List String) : List String :=
  ["git", "diff", "--word-diff=plain"] ++ options ++
    ["-U0", "--no-index", (Act.temporary.child "original.txt").toString, (Act.temporary.child "modified.txt").toString]

def differences? : Act (Option String) := do
  match ← Act.attempt (do
      let first ← Act.runCommand (compareCommand ["--word-diff-regex=."]) .null
      let linesOf (r : Act.Finished) : List String :=
        if Text.S.strip r.out = "" then [] else differenceLines false (Text.S.splitOn "\n" r.out)
      match linesOf first with
      | [] =>
        let second ← Act.runCommand (compareCommand []) .null
        if Text.S.strip second.out = "" then pure none
        else pure (some (Text.S.join "\n" (linesOf second)))
      | lines => pure (some (Text.S.join "\n" lines))) with
  | .ok r => pure r
  | .error _ => pure none

def mismatchLines : List String :=
  ["FAILED - Document text doesn't match after removing Claude's tracked changes", "", "Likely causes:",
   "  1. Modified text inside another author's <w:ins> or <w:del> tags",
   "  2. Made edits without proper tracked changes",
   "  3. Didn't nest <w:del> inside <w:ins> when deleting another's insertion", "",
   "For pre-redlined documents, use correct patterns:",
   "  - To reject another's INSERTION: Nest <w:del> inside their <w:ins>",
   "  - To restore another's DELETION: Add new <w:ins> AFTER their <w:del>", ""]

def failRevisions (text : String) : Act Bool := do
  Act.print s!"FAILED - {text}"
  pure false

def compareTexts (verbose : Bool) (new old : Tree) : Act Bool := do
  if liveText (withdraw new) = liveText (withdraw old) then
    if verbose then Act.print "PASSED - All changes by Claude are properly tracked"
    pure true
  else
    let found? ← differences?
    let rest := match found? with
      | some d => if d = "" then ["Unable to generate word diff (git not available)"]
        else ["Differences:", "============", d]
      | none => ["Unable to generate word diff (git not available)"]
    Act.print (Text.S.join "\n" (mismatchLines ++ rest))
    pure false

/-- **Whether a document was changed by tracked changes only**, so far as the author has any. -/
def checkRevisions (dir archive : Path) (verbose : Bool) : Act Bool := do
  let tree := (← get).tree
  let file := dir.joinText "word/document.xml"
  if !tree.pathExists file then failRevisions s!"Modified document.xml not found at {file.toString}"
  else
    let text := match tree.open? file file.toString with
      | .ok (.text s) => s
      | .ok c => Utf8.decodeLossy (FileTree.Content.toOctets c)
      | .error _ => ""
    let new := parseTree text
    let isNeeded := match new with
      | .ok t => hasRevisions t
      | .error _ => true
    if !isNeeded then
      if verbose then Act.print "PASSED - No tracked changes by Claude found."
      pure true
    else match openArchive tree archive archive.toString with
      | .error f => failRevisions s!"Error unpacking original docx: {f.message}"
      | .ok ms =>
        match (extract {} ms Act.temporary).open? (Act.temporary.joinText "word/document.xml") "" with
        | .ok (.text s) =>
          match new, parseTree s with
          | .error e, _ => failRevisions s!"Error parsing XML files: {e}"
          | .ok _, .error e => failRevisions s!"Error parsing XML files: {e}"
          | .ok new, .ok old => compareTexts verbose new old
        | _ => failRevisions s!"Original document.xml not found in {archive.toString}"

end Sluice.Office
