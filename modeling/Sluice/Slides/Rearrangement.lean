import Sluice.Slides.Deck

/-!
# Rearrangements

A slide that is wanted more than once is duplicated (`plan`). `dropUnused` removes the other slides from the last to the
first, `moveAll` moves the slides to their places from the first to the last.
-/

/-!
## Duplicates

A duplicate gets relations of its own. How a relation gets its identifier is left open (`Registry`).
-/

namespace Sluice.Slides

open Number Act

/-- Gives identifiers to relations. What it remembers from one relation to the next is its state. -/
structure Registry (σ : Type) where
  obtain : σ → (known : List (String × Relation)) → Relation → Result (String × σ)

structure Copying (σ : Type) where
  registry : σ
  relations : List (String × Relation) := []
  /-- the calls that were made, the last one first -/
  calls : List Value := []

abbrev Copy (σ : Type) := ExceptT Fault (StateM (Copying σ))

variable {σ : Type}

def Copy.log (call : Value) : Copy σ Unit := modify fun c => { c with calls := call :: c.calls }

variable (reg : Registry σ) (r : Relation)

def Relation.isMedia : Bool := Text.S.contains "image" r.type || Text.S.contains "media" r.type

open Copy

def Copy.relate : Copy σ String := do
  log (.list ["get_or_add", r.type, r.target])
  let c ← get
  match reg.obtain c.registry c.relations r with
  | .error f => throw f
  | .ok (id, registry) =>
    let relations := if (c.relations.lookup id).isSome then c.relations else c.relations ++ [(id, r)]
    set { c with registry, relations }
    pure id

variable (media : List (String × Relation))

def Copy.rewire (ref : Reference) : Copy σ Reference :=
  match ref.role, media.lookup ref.relation with
  | .embed, some r => do
    let id ← relate reg r
    log (.list ["blip", ref.relation, id])
    pure { ref with relation := id }
  | _, _ => pure ref

def Copy.shape (s : Shape) : Copy σ Shape := do
  let shown := s.outline.references.filter (·.role = .embed)
  log (.list ["insert_shape", .list (shown.map (.str ·.relation))])
  let references ← s.outline.references.mapM (rewire reg media)
  pure (s.withOutline { s.outline with references })

def Copy.relateIfPossible : Copy σ Unit := tryCatch (do let _ ← relate reg r) fun _ => pure ()

/-- **Copies a slide.** The duplicate starts with one empty shape, which is removed. -/
def Copy.slide (source : Slide) : Copy σ Slide := do
  let media := source.relations.filter (·.2.isMedia)
  modify fun c => { c with relations := [] }
  log (.list ["remove_shape"])
  let shapes ← source.shapes.mapM (shape reg media)
  media.forM fun (_, r) => relateIfPossible reg r
  pure { name := "new", shapes, relations := (← get).relations, layout := source.layout, master? := source.master? }

inductive Use
  /-- the slide at a position, of which so many duplicates are made first -/
  | slide (position copies : Nat)
  | duplicate (position copy : Nat)

def Use.place : Use → Nat
  | slide i _ => i
  | duplicate _ p => p

/-- What there is while a plan is made: how many slides, and which duplicates are not used yet. -/
structure Stock where
  size : Nat
  copies : List (Nat × List Nat) := []

def Stock.use (sequence : List Nat) (s : Stock) (i : Nat) : Use × Stock :=
  match s.copies.lookup i with
  | some (p :: rest) => (.duplicate i p, { s with copies := (i, rest) :: s.copies })
  | some [] => (.slide i 0, s)
  | none =>
    match sequence.count i - 1 with
    | 0 => (.slide i 0, s)
    | k + 1 => (.slide i (k + 1), ⟨s.size + (k + 1), (i, List.range' s.size (k + 1)) :: s.copies⟩)

def Stock.useAll (sequence : List Nat) (s : Stock) : List Nat → List Use
  | [] => []
  | i :: rest =>
    let (u, s) := s.use sequence i
    u :: s.useAll sequence rest

/-- **What the entries of a sequence use** of a deck with so many slides. -/
def plan (size : Nat) (sequence : List Nat) : List Use := Stock.useAll sequence ⟨size, []⟩ sequence

variable {α : Type}

/-- Removes the slides before a position that are not kept, from the last to the first, and says where the others are then.
-/
def dropUnused (keep : List Nat) : (i : Nat) → List α × List Nat → List α × List Nat
  | 0, s => s
  | i + 1, (slides, places) =>
    dropUnused keep i <|
      if keep.contains i then (slides, places)
      else (slides.eraseIdx i, places.map fun p => if p > i then p - 1 else p)

def move (source target : Nat) (slides : List α) : List α :=
  match slides[source]? with
  | some a => (slides.eraseIdx source).insertIdx target a
  | none => slides

def shifted (source target p : Nat) : Nat :=
  if p > source ∧ p ≤ target then p - 1 else if p < source ∧ p ≥ target then p + 1 else p

def moveStep (s : List α × List Nat) (target : Nat) : List α × List Nat :=
  match s.2[target]? with
  | none => s
  | some source =>
    if source = target then s
    else (move source target s.1, (s.2.map (shifted source target)).set target target)

def moveAll (s : List α × List Nat) : List α × List Nat := (List.range s.2.length).foldl moveStep s

def settle (slides : List α) (places : List Nat) : List α := (moveAll (dropUnused places slides.length (slides, places))).1

/-! ## Rearranging a deck -/

def duplicateSlide (i : Nat) : (count : Nat) → List Slide → σ → Act (List Slide × σ)
  | 0, slides, known => pure (slides, known)
  | k + 1, slides, known => do
    match slides[i]? with
    | none => pure (slides, known)
    | some source =>
      let (r, c) := (slide reg source).run.run { registry := known }
      forEach c.calls.reverse log
      match r with
      | .error f => fail f
      | .ok copy => duplicateSlide i k (slides ++ [copy]) c.registry

def duplicateAll : (entry : Nat) → List Use → List Slide → σ → Act (List Slide)
  | _, [], slides, _ => pure slides
  | k, u :: rest, slides, known => do
    match u with
    | .duplicate i _ =>
      print s!"  [{intText k}] Using duplicate of slide {intText i}"
      duplicateAll (k + 1) rest slides known
    | .slide i 0 =>
      print s!"  [{intText k}] Using original slide {intText i}"
      duplicateAll (k + 1) rest slides known
    | .slide i count =>
      print s!"  [{intText k}] Using original slide {intText i}, creating {intText count} duplicate(s)"
      let (slides, known) ← duplicateSlide reg i count slides known
      duplicateAll (k + 1) rest slides known

def outOfRange (i : Int) (size : Nat) : Fault :=
  .badValue s!"Slide index {intText i} out of range (0-{intText ((size : Int) - 1)})"

def checkedSequence (size : Nat) (sequence : List Int) : Result (List Nat) :=
  match sequence.find? fun i => i < 0 || (size : Int) ≤ i with
  | some i => .error (outOfRange i size)
  | none => .ok (sequence.map Int.toNat)

def quotedPath (p : Path) : String := s!"PosixPath({Text.S.quoted p.toString})"

def copyFile (source target : Path) : Act Unit := do
  let t := (← get).tree
  let target := if t.isDir target then target.child source.name else target
  if source.resolve = target.resolve then
    fail ⟨.machine, quotedPath source ++ " and " ++ quotedPath target ++ " are the same file"⟩
  let content ← ofResult (t.open? source source.toString)
  changeTree (·.saveAs target target.toString content)

/-- **Makes a deck with the slides of a template in the order of a sequence.** The template is copied before the
sequence is checked. -/
def rearrange (decks : Decks) (reg : Registry σ) (known : σ) (template output : Path) (sequence : List Int) : Act Unit := do
  if template ≠ output then copyFile template output
  let deck ← ofResult (decks.open output.toString)
  let sequence ← ofResult (checkedSequence deck.slides.length sequence)
  print s!"Processing {intText sequence.length} slides from template..."
  let uses := plan deck.slides.length sequence
  let slides ← duplicateAll reg 0 uses deck.slides known
  let places := uses.map Use.place
  let unused := (List.range slides.length).filter (!places.contains ·)
  print s!"\nDeleting {intText unused.length} unused slides..."
  forEach unused.reverse fun i => log (.list ["drop_rel", s!"slide{intText i}"])
  print s!"Reordering {intText places.length} slides to final sequence..."
  let final := settle slides places
  save output.toString final
  print s!"\nSaved rearranged presentation to: {output.toString}"
  print s!"Final presentation has {intText final.length} slides"

end Sluice.Slides
