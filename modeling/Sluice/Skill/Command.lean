import Sluice.Machine.Glob
import Sluice.Machine.Session
import Sluice.Yaml.Datum

/-!
# Templates of skills

The files that a new skill starts with.
-/

namespace Sluice.Skill

variable (name : String)

def guideText (title : String) : String :=
  String.intercalate "\n" [
   "---",
   "name: " ++ name,
   "description: [TODO: Complete and informative explanation of what the skill does and when to use it. " ++
    "Include WHEN to use this skill - specific scenarios, file types, or tasks that trigger it.]",
   "---",
   "",
   "# " ++ title,
   "",
   "## Overview",
   "",
   "[TODO: 1-2 sentences explaining what this skill enables]",
   "",
   "## Structuring This Skill",
   "",
   "[TODO: Choose the structure that best fits this skill's purpose. Common patterns:",
   "",
   "**1. Workflow-Based** (best for sequential processes)",
   "- Works well when there are clear step-by-step procedures",
   "- Example: DOCX skill with \"Workflow Decision Tree\" → \"Reading\" → \"Creating\" → \"Editing\"",
   "- Structure: ## Overview → ## Workflow Decision Tree → ## Step 1 → ## Step 2...",
   "",
   "**2. Task-Based** (best for tool collections)",
   "- Works well when the skill offers different operations/capabilities",
   "- Example: PDF skill with \"Quick Start\" → \"Merge PDFs\" → \"Split PDFs\" → \"Extract Text\"",
   "- Structure: ## Overview → ## Quick Start → ## Task Category 1 → ## Task Category 2...",
   "",
   "**3. Reference/Guidelines** (best for standards or specifications)",
   "- Works well for brand guidelines, coding standards, or requirements",
   "- Example: Brand styling with \"Brand Guidelines\" → \"Colors\" → \"Typography\" → \"Features\"",
   "- Structure: ## Overview → ## Guidelines → ## Specifications → ## Usage...",
   "",
   "**4. Capabilities-Based** (best for integrated systems)",
   "- Works well when the skill provides multiple interrelated features",
   "- Example: Product Management with \"Core Capabilities\" → numbered capability list",
   "- Structure: ## Overview → ## Core Capabilities → ### 1. Feature → ### 2. Feature...",
   "",
   "Patterns can be mixed and matched as needed. Most skills combine patterns (e.g., start with " ++
    "task-based, add workflow for complex operations).",
   "",
   "Delete this entire \"Structuring This Skill\" section when done - it's just guidance.]",
   "",
   "## [TODO: Replace with the first main section based on chosen structure]",
   "",
   "[TODO: Add content here. See examples in existing skills:",
   "- Code samples for technical skills",
   "- Decision trees for complex workflows",
   "- Concrete examples with realistic user requests",
   "- References to scripts/templates/references as needed]",
   "",
   "## Resources",
   "",
   "This skill includes example resource directories that demonstrate how to organize different types " ++
    "of bundled resources:",
   "",
   "### scripts/",
   "Executable code (Python/Bash/etc.) that can be run directly to perform specific operations.",
   "",
   "**Examples from other skills:**",
   "- PDF skill: \x60fill_fillable_fields.py\x60, \x60extract_form_field_info.py\x60 - utilities for " ++ "PDF manipulation",
   "- DOCX skill: \x60document.py\x60, \x60utilities.py\x60 - Python modules for document processing",
   "",
   "**Appropriate for:** Python scripts, shell scripts, or any executable code that performs " ++
    "automation, data processing, or specific operations.",
   "",
   "**Note:** Scripts may be executed without loading into context, but can still be read by Claude for " ++
    "patching or environment adjustments.",
   "",
   "### references/",
   "Documentation and reference material intended to be loaded into context to inform Claude's process " ++ "and thinking.",
   "",
   "**Examples from other skills:**",
   "- Product management: \x60communication.md\x60, \x60context_building.md\x60 - detailed workflow guides",
   "- BigQuery: API reference documentation and query examples",
   "- Finance: Schema documentation, company policies",
   "",
   "**Appropriate for:** In-depth documentation, API references, database schemas, comprehensive " ++
    "guides, or any detailed information that Claude should reference while working.",
   "",
   "### assets/",
   "Files not intended to be loaded into context, but rather used within the output Claude produces.",
   "",
   "**Examples from other skills:**",
   "- Brand styling: PowerPoint template files (.pptx), logo files",
   "- Frontend builder: HTML/React boilerplate project directories",
   "- Typography: Font files (.ttf, .woff2)",
   "",
   "**Appropriate for:** Templates, boilerplate code, document templates, images, icons, fonts, or any " ++
    "files meant to be copied or used in the final output.",
   "",
   "---",
   "",
   "**Any unneeded directories can be deleted.** Not every skill requires all three types of resources.",
   ""]

def scriptText : String :=
  String.intercalate "\n" [
   "#!/usr/bin/env python3",
   "\"\"\"",
   "Example helper script for " ++ name,
   "",
   "This is a placeholder script that can be executed directly.",
   "Replace with actual implementation or delete if not needed.",
   "",
   "Example real scripts from other skills:",
   "- pdf/scripts/fill_fillable_fields.py - Fills PDF form fields",
   "- pdf/scripts/convert_pdf_to_images.py - Converts PDF pages to images",
   "\"\"\"",
   "",
   "def main():",
   s!"    print(\"This is an example script for {name}\")",
   "    # TODO: Add actual script logic here",
   "    # This could be data processing, file conversion, API calls, etc.",
   "",
   "if __name__ == \"__main__\":",
   "    main()",
   ""]

def referenceText (title : String) : String :=
  String.intercalate "\n" [
   "# Reference Documentation for " ++ title,
   "",
   "This is a placeholder for detailed reference documentation.",
   "Replace with actual reference content or delete if not needed.",
   "",
   "Example real reference docs from other skills:",
   "- product-management/references/communication.md - Comprehensive guide for status updates",
   "- product-management/references/context_building.md - Deep-dive on gathering context",
   "- bigquery/references/ - API references and query examples",
   "",
   "## When Reference Docs Are Useful",
   "",
   "Reference docs are ideal for:",
   "- Comprehensive API documentation",
   "- Detailed workflow guides",
   "- Complex multi-step processes",
   "- Information too lengthy for main SKILL.md",
   "- Content that's only needed for specific use cases",
   "",
   "## Structure Suggestions",
   "",
   "### API Reference Example",
   "- Overview",
   "- Authentication",
   "- Endpoints with examples",
   "- Error codes",
   "- Rate limits",
   "",
   "### Workflow Guide Example",
   "- Prerequisites",
   "- Step-by-step instructions",
   "- Common patterns",
   "- Troubleshooting",
   "- Best practices",
   ""]

def assetText : String :=
  String.intercalate "\n" [
   "# Example Asset File",
   "",
   "This placeholder represents where asset files would be stored.",
   "Replace with actual asset files (templates, images, fonts, etc.) or delete if not needed.",
   "",
   "Asset files are NOT intended to be loaded into context, but rather used within",
   "the output Claude produces.",
   "",
   "Example asset files from other skills:",
   "- Brand guidelines: logo.png, slides_template.pptx",
   "- Frontend builder: hello-world/ directory with HTML/React boilerplate",
   "- Typography: custom-font.ttf, font-family.woff2",
   "- Data: sample_data.csv, test_dataset.json",
   "",
   "## Common Asset Types",
   "",
   "- Templates: .pptx, .docx, boilerplate directories",
   "- Images: .png, .jpg, .svg, .gif",
   "- Fonts: .ttf, .otf, .woff, .woff2",
   "- Boilerplate code: Project directories, starter files",
   "- Icons: .ico, .svg",
   "- Data files: .csv, .json, .xml, .yaml",
   "",
   "Note: This is a text placeholder. Actual assets can be any file type.",
   ""]

def titleOf : String := Text.S.join " " ((Text.S.splitOn "-" name).map fun w => String.ofList (Text.capitalize w.toList))

/-!
## Commands on skills

A skill is begun from a template, checked, and packed into one file.
-/

open Text
open Act (changeTree exit print)

def allowedNames : List String := ["allowed-tools", "description", "license", "metadata", "name"]

def dialect : Yaml.Dialect := { tabsSeparate := false, colonEndsPlain := true }

def headText? (text : String) : Option String := do
  let (head, _) ← S.cutOnce "\n---" (← S.dropStart? "---\n" text)
  some head

def isMalformed (f : Fault) : Bool :=
  match f.kind with
  | .yamlToken | .yamlStructure | .yamlReference | .yamlValue | .yamlCharacter => true
  | _ => false

def kindOf : Yaml.Datum → String
  | .leaf v => v.kindName
  | .list _ => "list"
  | .set _ => "set"
  | .table _ => "dict"

variable (entries : List (Value × Yaml.Datum)) (name : String) (t : FileTree) (dir : Path)

def unexpectedNames : Result (List String) := do
  let others := (entries.map (·.1)).filter fun k => !(allowedNames.any fun n => k == .str n)
  let names ← others.mapM fun k => match k with
    | .str s => pure s
    | k => .error (.badType s!"sequence item 0: expected str instance, {k.kindName} found")
  pure (names.mergeSort fun a b => a ≤ b)

def entry? : Option Yaml.Datum := (entries.find? fun e => e.1 == .str name).map (·.2)

def nameFault? : Option String :=
  let isPart (c : Char) : Bool := ('a' ≤ c && c ≤ 'z') || ('0' ≤ c && c ≤ '9') || c == '-'
  if name = "" then none
  else if !name.toList.all isPart then
    some s!"Name '{name}' should be hyphen-case (lowercase letters, digits, and hyphens only)"
  else if S.startsWith "-" name || S.endsWith "-" name || S.contains "--" name then
    some s!"Name '{name}' cannot start/end with hyphen or contain consecutive hyphens"
  else if 64 < name.length then
    some s!"Name is too long ({Number.intText name.length} characters). Maximum is 64 characters."
  else none

def descriptionFault? (text : String) : Option String :=
  if text.toList.any fun c => c == '<' || c == '>' then
    some "Description cannot contain angle brackets (< or >)"
  else if 1024 < text.length then
    some s!"Description is too long ({Number.intText text.length} characters). Maximum is 1024 characters."
  else none

def metadataFault? : Result (Option String) := do
  let unexpected ← unexpectedNames entries
  if !unexpected.isEmpty then
    return some ("Unexpected key(s) in SKILL.md frontmatter: " ++ S.join ", " unexpected ++
      ". Allowed properties are: " ++ S.join ", " allowedNames)
  match entry? entries "name", entry? entries "description" with
  | none, _ => return some "Missing 'name' in frontmatter"
  | _, none => return some "Missing 'description' in frontmatter"
  | some (.leaf (.str name)), some description =>
    match nameFault? (S.strip name) with
    | some f => return some f
    | none =>
      match description with
      | .leaf (.str text) => return descriptionFault? (S.strip text)
      | d => return some s!"Description must be a string, got {kindOf d}"
  | some d, _ => return some s!"Name must be a string, got {kindOf d}"

/-- **What is wrong with the skill in a directory**, if something is. -/
def fault? : Result (Option String) := do
  let guide := dir.child "SKILL.md"
  if !t.pathExists guide then return some "SKILL.md not found"
  let text ← t.readText guide
  if !S.startsWith "---" text then return some "No YAML frontmatter found"
  match headText? text with
  | none => return some "Invalid frontmatter format"
  | some head =>
    match Yaml.load dialect head with
    | .ok (.table entries) => metadataFault? entries
    | .ok _ => return some "Frontmatter must be a YAML dictionary"
    | .error f => if isMalformed f then return some s!"Invalid YAML in frontmatter: {f.message}" else .error f

def verdict : Result (Bool × String) := do
  match ← fault? t dir with
  | some text => pure (false, text)
  | none => pure (true, "Skill is valid!")

def checkCommand : List String → Act Unit
  | [dir] => do
    let (good, text) ← Act.ofResult (verdict (← get).tree (.ofString dir))
    print text
    exit (if good then 0 else 1)
  | _ => do
    print "Usage: python quick_validate.py <skill_directory>"
    exit 1

def pack (output? : Option String) : Act Bool := do
  let t := (← get).tree
  if !t.pathExists dir then
    print s!"❌ Error: Skill folder not found: {dir.toString}"
    return false
  if !t.isDir dir then
    print s!"❌ Error: Path is not a directory: {dir.toString}"
    return false
  if !t.pathExists (dir.child "SKILL.md") then
    print s!"❌ Error: SKILL.md not found in {dir.toString}"
    return false
  print "🔍 Validating skill..."
  let (good, text) ← Act.ofResult (verdict t dir)
  if !good then
    print s!"❌ Validation failed: {text}"
    print "   Please fix the validation errors before packaging."
    return false
  print s!"✅ {text}\n"
  let place ← match output? with
    | some output => do
      let place := (Path.ofString output).resolve
      changeTree fun t => t.makeAll place
      pure place
    | none => pure Path.root
  let file := place.child s!"{dir.name}.skill"
  match ← Act.attempt (changeTree fun t => t.saveAs file file.toString (.archive (t.members dir dir.parent))) with
  | .ok () =>
    Act.forEach (t.members dir dir.parent) fun (name, _) => print s!"  Added: {name}"
    print s!"\n✅ Successfully packaged skill to: {file.toString}"
    return true
  | .error f =>
    print s!"❌ Error creating .skill file: {f.message}"
    return false

def packCommand (argv : List String) : Act Unit := do
  match argv with
  | [] =>
    print "Usage: python utils/package_skill.py <path/to/skill-folder> [output-directory]"
    print "\nExample:"
    print "  python utils/package_skill.py skills/public/my-skill"
    print "  python utils/package_skill.py skills/public/my-skill ./dist"
    exit 1
  | dir :: rest =>
    let output? := rest.head?.filter (· != "")
    print s!"📦 Packaging skill: {dir}"
    match output? with
    | some output => print s!"   Output directory: {output}"
    | none => pure ()
    print ""
    exit (if (← pack (Path.ofString dir).resolve output?) then 0 else 1)

def makeNew : Act Unit := changeTree fun t => t.makeAll dir

def begin : Act Bool := do
  if (← get).tree.pathExists dir then
    print s!"❌ Error: Skill directory already exists: {dir.toString}"
    return false
  match ← Act.attempt (makeNew dir) with
  | .error f =>
    print s!"❌ Error creating directory: {f.message}"
    return false
  | .ok () => pure ()
  print s!"✅ Created skill directory: {dir.toString}"
  let title := titleOf name
  let write (path : List String) (text : String) : Act Unit :=
    modify fun s => { s with tree := s.tree.write ⟨dir.anchor, dir.parts ++ path⟩ (.text text) }
  write ["SKILL.md"] (guideText name title)
  print "✅ Created SKILL.md"
  write ["scripts", "example.py"] (scriptText name)
  modify fun s => { s with tree := s.tree.allowRun ⟨dir.anchor, dir.parts ++ ["scripts", "example.py"]⟩ }
  print "✅ Created scripts/example.py"
  write ["references", "api_reference.md"] (referenceText title)
  print "✅ Created references/api_reference.md"
  write ["assets", "example_asset.txt"] assetText
  print "✅ Created assets/example_asset.txt"
  print s!"\n✅ Skill '{name}' initialized successfully at {dir.toString}"
  print "\nNext steps:"
  print "1. Edit SKILL.md to complete the TODO items and update the description"
  print "2. Customize or delete the example files in scripts/, references/, and assets/"
  print "3. Run the validator when ready to check the skill structure"
  return true

def beginCommand : List String → Act Unit
  | name :: "--path" :: path :: _ => do
    print s!"🚀 Initializing skill: {name}"
    print s!"   Location: {path}"
    print ""
    exit (if (← begin name ((Path.ofString path).resolve.joinText name)) then 0 else 1)
  | _ => do
    print "Usage: init_skill.py <skill-name> --path <path>"
    print "\nSkill name requirements:"
    print "  - Hyphen-case identifier (e.g., 'data-analyzer')"
    print "  - Lowercase letters, digits, and hyphens only"
    print "  - Max 40 characters"
    print "  - Must match directory name exactly"
    print "\nExamples:"
    print "  init_skill.py my-new-skill --path skills/public"
    print "  init_skill.py my-api-helper --path skills/private"
    print "  init_skill.py custom-skill --path /custom/location"
    exit 1

end Sluice.Skill
