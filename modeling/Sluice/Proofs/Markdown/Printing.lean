import Sluice.Markdown.Command
import Sluice.Proofs.Machine.Session
import Sluice.Proofs.Markdown.Boundary
import Sluice.Proofs.Value.Fields

/-!
# Metadata that can be printed

Metadata with a day, octets or a set in it, at any depth, stops the program before anything is printed.
-/

namespace Sluice

open List Text CommandLine Act String
open Json (unwritable?)

variable {v : Value}

namespace Json

lemma unwritableItem?_eq_none {vs} : unwritableItem? vs = none ↔ ∀ v ∈ vs, unwritable? v = none := by
  induction vs with
  | nil => simp [unwritableItem?]
  | cons v vs ih => simp [unwritableItem?, ih]

lemma unwritableField?_eq_none {fs : Fields} : unwritableField? fs = none ↔ ∀ f ∈ fs, unwritable? f.2 = none := by
  induction fs with
  | nil => simp [unwritableField?]
  | cons f fs ih => simp [unwritableField?, ih]

lemma line_of_writable (h : unwritable? v = none) : line v = .ok (render {} v) := by rw [line, write, h]

end Json

namespace Yaml

/-- A scalar that JSON has: nothing, a truth value, a number with not too many digits, or a text. -/
def IsJson : Value → Prop
  | .null | .bool _ | .float _ | .str _ => True
  | .int n => (Number.natText n.natAbs).length ≤ Number.mostDigits
  | _ => False

lemma refusalOf?_eq_none {wording} : refusalOf? wording v = none ↔ IsJson v := by cases v <;> simp [refusalOf?, IsJson]

lemma IsJson.writable (h : IsJson v) : unwritable? v = none := by cases v <;> simp_all [IsJson, unwritable?]

/-! ## Parts of a datum -/

/-- A datum is part of another one, at any depth. -/
inductive Datum.Within : Datum → Datum → Prop
  | refl (d : Datum) : Within d d
  | item {part d : Datum} {items : List Datum} (mem : d ∈ items) (within : Within part d) : Within part (.list items)
  | entry {part : Datum} {e : Value × Datum} {entries : List (Value × Datum)} (mem : e ∈ entries)
      (within : Within part e.2) : Within part (.table entries)

/-- Nothing in a datum itself keeps it from being JSON, whatever its parts are. -/
def Datum.IsPlain : Datum → Prop
  | .leaf v => IsJson v
  | .list _ => True
  | .set _ => False
  | .table entries => ∀ e ∈ entries, IsJson e.1

def Datum.IsPlainThroughout (d : Datum) : Prop := ∀ part : Datum, part.Within d → part.IsPlain

lemma isPlainThroughout_leaf : (Datum.leaf v).IsPlainThroughout ↔ IsJson v := by
  constructor
  · intro h
    exact h _ (.refl _)
  · intro h part hp
    cases hp
    exact h

lemma isPlainThroughout_list {items} : (Datum.list items).IsPlainThroughout ↔ ∀ d ∈ items, d.IsPlainThroughout := by
  constructor
  · intro h d hd part hp
    exact h part (.item hd hp)
  · intro h part hp
    cases hp with
    | refl => trivial
    | item hd hp => exact h _ hd part hp

lemma isPlainThroughout_table {entries} :
    (Datum.table entries).IsPlainThroughout ↔ ∀ e ∈ entries, IsJson e.1 ∧ e.2.IsPlainThroughout := by
  constructor
  · intro h e he
    exact ⟨h _ (.refl _) e he, fun part hp => h part (.entry he hp)⟩
  · intro h part hp
    cases hp with
    | refl => exact fun e he => (h e he).1
    | entry he hp => exact (h _ he).2 part hp

mutual

/-- **Nothing is refused exactly if every part is JSON.** -/
lemma Datum.refusal?_eq_none_iff : (d : Datum) → (d.refusal? = none ↔ d.IsPlainThroughout)
  | .leaf v => by rw [Datum.refusal?, refusalOf?_eq_none, isPlainThroughout_leaf]
  | .list items => by rw [Datum.refusal?, refusalAmong?_eq_none_iff items, isPlainThroughout_list]
  | .set items => by
    constructor
    · intro h
      cases h
    · intro h
      cases h _ (.refl _)
  | .table entries => by rw [Datum.refusal?, refusalIn?_eq_none_iff entries, isPlainThroughout_table]

lemma refusalAmong?_eq_none_iff : (items : List Datum) → (refusalAmong? items = none ↔ ∀ d ∈ items, d.IsPlainThroughout)
  | [] => by simp [refusalAmong?]
  | d :: ds => by
    rw [refusalAmong?, Option.or_eq_none_iff, Datum.refusal?_eq_none_iff d, refusalAmong?_eq_none_iff ds, forall_mem_cons]

lemma refusalIn?_eq_none_iff : (entries : List (Value × Datum)) →
    (refusalIn? entries = none ↔ ∀ e ∈ entries, IsJson e.1 ∧ e.2.IsPlainThroughout)
  | [] => by simp [refusalIn?]
  | (k, d) :: rest => by
    rw [refusalIn?, Option.or_eq_none_iff, Option.or_eq_none_iff, refusalOf?_eq_none, Datum.refusal?_eq_none_iff d,
      refusalIn?_eq_none_iff rest, forall_mem_cons, and_assoc]

end

mutual

lemma Datum.IsPlainThroughout.writable : (d : Datum) → d.IsPlainThroughout → unwritable? d.toValue = none
  | .leaf v, h => (isPlainThroughout_leaf.mp h).writable
  | .list items, h => by
    rw [Datum.toValue, unwritable?, Json.unwritableItem?_eq_none]
    exact writable_toValues items (isPlainThroughout_list.mp h)
  | .set items, h => (h _ (.refl _)).elim
  | .table entries, h => by
    rw [Datum.toValue, unwritable?, Json.unwritableField?_eq_none]
    exact writable_toFields entries fun e he => (isPlainThroughout_table.mp h e he).2

lemma writable_toValues : (items : List Datum) → (∀ d ∈ items, d.IsPlainThroughout) →
    ∀ v ∈ Datum.toValues items, unwritable? v = none
  | [], _, _, hv => by cases hv
  | d :: ds, h, v, hv => by
    obtain ⟨hd, hds⟩ := forall_mem_cons.mp h
    rcases mem_cons.mp hv with rfl | hv
    · exact Datum.IsPlainThroughout.writable d hd
    · exact writable_toValues ds hds v hv

lemma writable_toFields : (entries : List (Value × Datum)) → (∀ e ∈ entries, e.2.IsPlainThroughout) →
    ∀ f ∈ Datum.toFields entries, unwritable? f.2 = none
  | [], _, _, hf => by cases hf
  | (k, d) :: rest, h, f, hf => by
    obtain ⟨hd, hr⟩ := forall_mem_cons.mp h
    rcases mem_cons.mp hf with rfl | hf
    · exact Datum.IsPlainThroughout.writable d hd
    · exact writable_toFields rest hr f hf

end

end Yaml

namespace Markdown

open Yaml (Datum)

variable {text : String} {head rest : Chars} {entries : List (Value × Datum)}

open Yaml

lemma metadataRefusal?_eq_none_iff (hh : between? dashesEnd? (strip text.toList) = some (head, rest))
    (hl : load {} (ofList head) = .ok (.table entries)) :
    metadataRefusal? text = none ↔ (Datum.table entries).IsPlainThroughout := by
  simp only [metadataRefusal?, hh, hl]
  rw [Option.or_eq_none_iff, refusalIn?_eq_none_iff, refusalIn?_eq_none_iff, isPlainThroughout_table]
  -- the type comes first, but every entry is looked at
  simp only [mem_filter, Bool.not_eq_true']
  constructor
  · rintro ⟨ht, ho⟩ e he
    cases h : (e.1 == Value.str "type") with
    | true => exact ht e ⟨he, h⟩
    | false => exact ho e ⟨he, h⟩
  · intro h
    exact ⟨fun e he => h e he.1, fun e he => h e he.1⟩

lemma writable_block (b : Block) : unwritable? b.toValue = none := by
  cases b <;> simp [Block.toValue, unwritable?, Json.unwritableField?]

lemma writable_records {page : Page} {options} (h : options.withMetadata → ∀ f ∈ page.fields, unwritable? f.2 = none) :
    ∀ r ∈ page.records options, unwritable? r = none := by
  intro r hr
  rcases mem_append.mp hr with hr | hr
  · split at hr
    · rename_i hc
      obtain rfl := mem_singleton.mp hr
      rw [unwritable?, Json.unwritableField?_eq_none]
      intro f hf
      rcases Fields.mem_update hf with hf | hf
      · obtain rfl := mem_singleton.mp hf
        rfl
      · exact h (Bool.and_eq_true_iff.mp hc).1 f hf
    · cases hr
  · split at hr
    · obtain ⟨b, -, rfl⟩ := mem_map.mp hr
      exact writable_block b
    · obtain rfl := mem_singleton.mp hr
      rfl

/-! ## The program -/

lemma outcome_read {argv args s} (ha : parse arguments argv = .ok args) (hm : args.str? "mode" = some "read")
    (hr : readInput.outcome s = (.ok text, s)) :
    (command argv).outcome s = (Act.printFeed (printed (optionsOf args) text)).outcome s := by
  have hp : (Act.arguments (parse arguments argv)).outcome s = (.ok args, s) := by
    rw [ha]
    rfl
  rw [command, bind_of_ok hp]
  simp only [hm]
  exact bind_of_ok hr

lemma outcome_printFeed_failed (f s) : (printFeed (.failed f)).outcome s = (.error (.fault f), s) := rfl

lemma outcome_printFeed {rs lines s} (hs : s.reader.limit? = none) (hl : rs.mapM Json.line = .ok lines) :
    (printFeed (.ofList rs)).outcome s = (.ok (), s.printed lines) := by
  have hi : (forEach (Feed.ofList rs).items printRecord).outcome s = (.ok (), s.printed lines) :=
    outcome_forEach_printRecord hs hl
  rw [printFeed, bind_of_ok hi]
  rfl

section Printed

variable {page : Page} {options : Options}

lemma printed_of_refusal {f} (hp : Page.parse text = .ok page) (hc : options.withMetadata)
    (hf : metadataRefusal? text = some f) : printed options text = .failed f := by
  rw [printed, hp, Feed.bindResult_ok, if_pos hc, hf]

lemma printed_of_none (hp : Page.parse text = .ok page) (hn : options.withMetadata → metadataRefusal? text = none) :
    printed options text = .ofList (page.records options) := by
  have hc : (if options.withMetadata = true then metadataRefusal? text else none) = none := by
    split
    · exact hn ‹_›
    · rfl
  rw [printed, hp, Feed.bindResult_ok, hc]

end Printed

/-- **Which documents are printed.** A document begins with a table between dashes, and the reader stays. The program
prints one line for each record and ends well exactly if each name is free and, unless the metadata does not count, JSON
has every part of it. -/
theorem prints_records_iff {argv : List String} {args : CommandLine.Parsed} {s : Session}
    (hargs : CommandLine.parse arguments argv = .ok args) (hmode : args.str? "mode" = some "read")
    (hread : Act.readInput.outcome s = (.ok text, s)) (hstays : s.reader.limit? = none)
    (hhead : between? dashesEnd? (Text.strip text.toList) = some (head, rest))
    (hload : Yaml.load {} (String.ofList head) = .ok (.table entries)) :
    (∃ rs lines, records (optionsOf args) text = .ofList rs ∧ rs.mapM Json.line = .ok lines ∧
      (command argv).outcome s = (.ok (), s.printed lines)) ↔
    FreelyNamed entries ∧ ((optionsOf args).withMetadata = true → (Datum.table entries).IsPlainThroughout) := by
  classical
  have hrefusal := metadataRefusal?_eq_none_iff hhead hload
  have hparse := parse_of_table hhead hload
  rw [outcome_read hargs hmode hread]
  constructor
  · rintro ⟨rs, lines, hrecords, -, houtcome⟩
    by_cases hfree : FreelyNamed entries
    · refine ⟨hfree, fun hcounts => hrefusal.mp ?_⟩
      rw [if_pos hfree] at hparse
      cases hf : metadataRefusal? text with
      | none => rfl
      | some f =>
        rw [printed_of_refusal hparse hcounts hf, outcome_printFeed_failed] at houtcome
        cases (Prod.mk.inj houtcome).1
    · rw [if_neg hfree] at hparse
      rw [records, hparse] at hrecords
      cases congrArg Feed.fault? hrecords
  · rintro ⟨hfree, hplain⟩
    rw [if_pos hfree] at hparse
    let page : Page := ⟨Datum.toFields entries, ofList (Text.strip rest)⟩
    have hfields (hcounts : (optionsOf args).withMetadata = true) : ∀ f ∈ page.fields, Json.unwritable? f.2 = none :=
      writable_toFields entries fun e he => (isPlainThroughout_table.mp (hplain hcounts) e he).2
    have hlines := mapM_eq_ok fun r hr => Json.line_of_writable (writable_records hfields r hr)
    refine ⟨page.records (optionsOf args), _, by rw [records, hparse, Feed.bindResult_ok], hlines, ?_⟩
    rw [printed_of_none hparse fun hcounts => hrefusal.mpr (hplain hcounts)]
    exact outcome_printFeed hstays hlines

def loadsPrintable (text : String) : Bool :=
  match load {} text with
  | .ok (.table entries) => (metadata (.table entries)).toOption.isSome && (Datum.table entries).refusal?.isNone
  | _ => false

lemma table_of_loadsPrintable (h : loadsPrintable text) :
    ∃ entries, load {} text = .ok (.table entries) ∧ FreelyNamed entries ∧ (Datum.table entries).IsPlainThroughout := by
  classical
  unfold loadsPrintable at h
  split at h
  · rename_i entries hl
    obtain ⟨hn, hr⟩ := Bool.and_eq_true_iff.mp h
    refine ⟨entries, hl, ?_, (Datum.refusal?_eq_none_iff _).mp (Option.isNone_iff_eq_none.mp hr)⟩
    by_contra hf
    rw [metadata_table, if_neg hf] at hn
    cases hn
  · cases h

/-- A document whose metadata has nothing, truth, numbers and texts, and a number for a key. -/
def teaText : String := "---\ntitle: Tea\nmade: [[~, true], \x7b1: 0x1f, off: 2.5\x7d]\n---\n\n# Boil"

def teaHead : String := "\ntitle: Tea\nmade: [[~, true], \x7b1: 0x1f, off: 2.5\x7d]\n"

theorem prints_records_tea : ∃ entries rs lines, Yaml.load {} teaHead = .ok (.table entries) ∧
      records { inBlocks := true } teaText = .ofList rs ∧ rs.mapM Json.line = .ok lines ∧
      (command ["--mode", "read", "--parse-structure"]).outcome { input := .text teaText } =
        (.ok (), Session.printed { input := .text teaText } lines) := by
  have hargs : parse arguments ["--mode", "read", "--parse-structure"] =
      .ok ⟨[("mode", .str "read"), ("metadata", .bool true), ("blocks", .bool true)], []⟩ := rfl
  have hread : Act.readInput.outcome { input := .text teaText } = (.ok teaText, { input := .text teaText }) := by
    refine Act.outcome_readInput rfl ?_
    rw [Text.toList_eq (s := teaText) rfl]
    decide
  have hhead : between? dashesEnd? (Text.strip teaText.toList) = some (teaHead.toList, "\n# Boil".toList) := by
    rw [Text.toList_eq (s := teaText) rfl, Text.toList_eq (s := teaHead) rfl, Text.toList_eq rfl]
    decide +kernel
  have hprintable : loadsPrintable teaHead = true := by decide +kernel
  obtain ⟨entries, hload, hfree, hplain⟩ := table_of_loadsPrintable hprintable
  have hload' : Yaml.load {} (String.ofList teaHead.toList) = .ok (.table entries) := by rw [String.ofList_toList, hload]
  obtain ⟨rs, lines, hprints⟩ := (prints_records_iff hargs rfl hread rfl hhead hload').mpr ⟨hfree, fun _ => hplain⟩
  exact ⟨entries, rs, lines, hload, hprints⟩

def datedText : String := "---\nd: 2024-01-15\n---\nbody"

/-- The document has its records, and the program stops before it prints the first of them. -/
theorem not_prints_dated : (∃ rs, records {} datedText = .ofList rs) ∧
      (command ["--mode", "read"]).outcome { input := .text datedText } =
        (.error (.fault (.badType "Object of type date is not JSON serializable")), { input := .text datedText }) := by
  have hargs : CommandLine.parse arguments ["--mode", "read"] =
      .ok ⟨[("mode", "read"), ("metadata", true), ("blocks", false)], []⟩ := rfl
  have hread : readInput.outcome { input := .text datedText } = (.ok datedText, { input := .text datedText }) := by
    refine outcome_readInput rfl ?_
    rw [Text.toList_eq (s := datedText) rfl]
    decide
  have hparse : (Page.parse datedText).toOption.isSome = true := by decide +kernel
  have hrefusal : metadataRefusal? datedText =
      some (.badType "Object of type date is not JSON serializable") := by decide +kernel
  cases hpage : Page.parse datedText with
  | error f =>
    rw [hpage] at hparse
    cases hparse
  | ok page =>
    refine ⟨⟨page.records {}, by rw [records, hpage, Feed.bindResult_ok]⟩, ?_⟩
    rw [outcome_read hargs rfl hread, printed_of_refusal hpage rfl hrefusal, outcome_printFeed_failed]

end Markdown

end Sluice
