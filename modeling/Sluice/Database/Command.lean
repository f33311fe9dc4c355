import Sluice.Machine.Glob
import Sluice.Machine.Session

/-!
# Stored queries

The directory of a **namespace** holds its queries and a file `_meta.json` that names the database. A query is referred
to as `@namespace/query`.
-/

namespace Sluice.Database

open Text

def isFormOf (letter c : Char) : Bool :=
  c.toLower == letter || ([('s', 0x17f), ('i', 0x131), ('i', 0x130)] : List (Char × Nat)).contains (letter, c.toNat)

def dropWord? : (word s : Chars) → Option Chars
  | [], s => some s
  | _ :: _, [] => none
  | w :: ws, c :: cs => if isFormOf w c then dropWord? ws cs else none

def hasWord (word : Chars) : (inWord : Bool) → Chars → Bool
  | _, [] => false
  | inWord, c :: cs =>
    (!inWord && (match dropWord? word (c :: cs) with
      | some rest => !rest.head?.any isWordChar
      | none => false)) || hasWord word (isWordChar c) cs

variable (s : Session) (sql : String) (t : FileTree)

def hasLimit : Bool := hasWord "limit".toList false sql.toList

/-- **Bounds the number of rows** of a query that has no bound of its own. -/
def applyLimit (sql limit : String) : String :=
  if hasLimit sql then sql
  else
    let body := trimRight (· == ';') (stripRight sql.toList)
    String.ofList body ++ " LIMIT " ++ limit

/-- A text with `$` for each colon that begins a parameter: one before a letter or an underscore, behind no colon. The name
behind it is passed over. -/
def dollarFrom : (inName : Bool) → (before : Option Char) → Chars → Chars
  | _, _, [] => []
  | inName, before, c :: cs =>
    if inName && isWordChar c then c :: dollarFrom true (some c) cs
    else if c = ':' ∧ before ≠ some ':' ∧ cs.head?.any isNameStart = true then '$' :: dollarFrom true (some c) cs
    else c :: dollarFrom false (some c) cs

/-- **Writes parameters with a dollar sign.** -/
def dollarParams : String := String.ofList (dollarFrom false none sql.toList)

def headLines : List String := ((S.splitOn "\n" sql).take 20).map S.strip

def paramName (s : Chars) : String := S.strip (String.ofList (s.takeWhile (· != '(')))

def declarationAt? (s : Chars) : Option Chars := do
  let s ← dropStart? ['-', '-'] s
  let s ← dropWord? "parameter".toList (stripLeft s)
  let s := (dropWord? ['s'] s).getD s
  let s ← dropStart? [':'] s
  if s.isEmpty then none else some (strip s)

def declaration? : Chars → Option Chars
  | [] => none
  | c :: cs => (declarationAt? (c :: cs)).or (declaration? cs)

/-- **The parameters that a query declares** in a comment `-- Parameters: a, b`. -/
def declaredParams : List String :=
  match (headLines sql).findSome? fun line => declaration? line.toList with
  | none => []
  | some text => ((splitAtChar ',' text).filter fun p => !(strip p).isEmpty).map paramName

structure Notes where
  description : String := ""
  params : List String := []

def remark? (line : String) : Option String :=
  if !S.startsWith "--" line then none
  else
    let text := S.strip (String.ofList (line.toList.dropWhile (· == '-')))
    if text = "" || S.startsWith "Parameters:" text then none else some text

def listed? (line : String) : Option (List String) :=
  if S.contains "-- Parameters:" line then
    let text := ((S.cutOnce "Parameters:" line).map (·.2)).getD ""
    some ((splitAtChar ',' (S.strip text).toList).map paramName)
  else none

/-- What the head of a query says, up to the line that lists its parameters. -/
def Notes.ofSql : Notes :=
  let lines := headLines sql
  let heard := lines.take (lines.findIdx (fun line => (listed? line).isSome) + 1)
  ⟨(heard.findSome? remark?).getD "", (lines.findSome? listed?).getD []⟩

def markedNames : Chars → List String
  | [] => []
  | c :: cs =>
    let here := if c == '$' || c == ':' then
        match cs with
        | '\\' :: rest =>
          let ws := rest.takeWhile (· == 'w')
          if ws.isEmpty then [] else [String.ofList ('\\' :: ws)]
        | _ => []
      else []
    here ++ markedNames cs

structure Stored where
  file : String
  sql : String
  settings : Fields

def Stored.toValue (q : Stored) : Value := .list [q.file, q.sql, .map q.settings]

def userDirectory : Path :=
  let home := match s.env? "JN_HOME" with
    | some home => Path.ofString home
    | none => (Path.ofString ((s.env? "HOME").getD "")).child ".jn"
  (home.child "profiles").child "duckdb"

def projectDirectory? : Option Path :=
  match s.env? "JN_PROJECT_DIR" with
  | some "" | none => none
  | some dir => some (((Path.ofString dir).child "profiles").child "duckdb")

def profileDirectories : List Path := ((projectDirectory? s).toList ++ [userDirectory s]).filter s.tree.pathExists

def databaseOf (dir : Path) (settings : Fields) : Result String :=
  match Fields.get? "path" settings with
  | none => missing
  | some (.str "") => missing
  | some (.str path) => .ok (if (Path.ofString path).isAbsolute then path else (dir.joinText path).toString)
  | some v => if v.truthy then .error (.badType "a path is a text") else missing
where
  missing := .error (.badValue ("Profile missing 'path' in meta file: " ++ (dir.child "_meta.json").toString))

def Stored.read (t : FileTree) (dir file : Path) : Result Stored := do
  let sql ← t.readText file
  let settingsFile := dir.child "_meta.json"
  if !t.pathExists settingsFile then
    throw (.badValue ("Profile meta file not found: " ++ settingsFile.toString ++
      "\n  Create a _meta.json file with database path and settings"))
  let text ← t.readText settingsFile
  match ← Json.read text with
  | .map settings => pure ⟨← databaseOf dir settings, sql, settings⟩
  | v => throw (v.noMember "get")

/-- **Finds a stored query**, in the first directory that has it. -/
def load (reference : String) : Result Stored := do
  let some name := Text.S.dropStart? "@" reference
    | throw (.badValue ("Invalid profile reference: " ++ reference))
  let some (space, query) := Text.S.cutOnce "/" name
    | throw (.badValue ("Invalid profile reference format: " ++ reference))
  let fileIn (dir : Path) : Path := (dir.joinText space).joinText (query ++ ".sql")
  match (profileDirectories s).find? fun dir => s.tree.pathExists (fileIn dir) with
  | some dir => Stored.read s.tree (dir.joinText space) (fileIn dir)
  | none =>
    throw (.badValue ("DuckDB profile not found: " ++ reference ++
      "\n  Run 'jn profile list --type duckdb' to see available profiles"))

def notesOf (file : Path) : Notes :=
  match t.readText file with
  | .ok sql => .ofSql sql
  | .error _ => {}

def listedParams (file : Path) : List String :=
  match t.readText file with
  | .ok sql =>
    let params := (Notes.ofSql sql).params
    if params.isEmpty then (markedNames sql.toList).eraseDups else params
  | .error _ => []

/-- **The queries of a namespace** in the user's directory. -/
def listNamespace (space : String) : List Value :=
  let dir := (userDirectory s).joinText space
  let found := if s.tree.pathExists dir then s.tree.matching dir "*.sql" else []
  let files := found.filter fun f => f.name != "_meta.sql"
  files.map fun f =>
    let notes := notesOf s.tree f
    .map [("_type", "query"), ("_container", s!"@{space}"), ("name", f.stem),
      ("reference", s!"@{space}/{f.stem}"), ("description", notes.description),
      ("params", .list (notes.params.map .str))]

def queryRecord (space : String) (file : Path) : Value :=
  .map [("reference", s!"@{space}/{file.stem}"), ("type", "duckdb"),
    ("namespace", space), ("name", file.stem), ("path", file.toString),
    ("description", (notesOf t file).description),
    ("params", .list ((listedParams t file).map .str)), ("examples", .list [])]

def namespaceRecords (dir : Path) : Feed Value :=
  let settingsFile := dir.child "_meta.json"
  if !t.pathExists settingsFile then .empty
  else .bindResult (t.readText settingsFile) fun text =>
    match Json.read text with
    | .error f => if f.kind = .json then .empty else .failed f
    | .ok _ =>
      let files := (t.matching dir "*.sql").filter fun f => !Text.S.startsWith "_" f.name
      .ofList (files.map (queryRecord t dir.name))

/-- **All stored queries.** -/
def listProfiles : Feed Value :=
  .flatMap (fun place => .bindResult (s.tree.subdirectories place) fun dirs =>
    .flatMap (namespaceRecords s.tree) dirs) (profileDirectories s)

/-!
## Reading from databases

A database is given by what it answers. It is asked over a connection that is always closed.
-/

open Fields
open Act (exit fail forEach log printErr)

structure Address where
  file : String
  query? : Option String := none
  params : Fields := []
  table? : Option String := none

def Address.toValue (a : Address) : Value :=
  let opt (s? : Option String) : Value := (s?.map .str).getD .null
  .list [a.file, opt a.query?, .map a.params, opt a.table?]

def tableOf (s : Chars) : Option String :=
  match s.dropWhile (· == '/') with
  | [] => none
  | cs => some (String.ofList cs)

def splitPath (path : String) : String × Option String :=
  let cutAt (suffix : String) : Option (String × Option String) :=
    (S.cutOnce suffix path).map fun p => (p.1 ++ suffix, tableOf p.2.toList)
  ((cutAt ".duckdb").or (cutAt ".ddb")).getD (path, none)

/-- **Reads an address**, or the path of a file. Of repeated parameters the last one counts, but of queries and limits the
first. -/
def Address.parse (text : String) : Result Address :=
  if !S.startsWith "duckdb://" text then .ok { file := text }
  else do
    let url ← Url.parse text.toList
    let groups := queryGroups true (String.ofList url.query)
    let first (name : String) : Option String := ((groups.find? (·.1 == name)).map (·.2)).bind List.head?
    let others := groups.filter fun g => g.1 != "query" && g.1 != "limit"
    let params : Fields := others.map fun g => (g.1, g.2.getLastD "")
    let limit : Fields := match first "limit" with
      | none | some "" => []
      | some n => [("limit", n)]
    let (file, table?) := splitPath (String.ofList (url.host ++ url.path))
    pure { file, query? := first "query", params := params ++ limit, table? }

structure Answer where
  columns : List String
  rows : List (List Value)

def Answer.record (a : Answer) (row : List Value) : Value := .map (ofPairs (a.columns.zip row))

structure Engine where
  connect : String → Except String Unit := fun _ => .ok ()
  execute : String → Fields → Except String Answer := fun _ _ => .ok ⟨[], []⟩
  /-- rows of the name, kind and number of columns of each table -/
  tables : Except String (List (List Value)) := .ok []

/-! ## Plans -/

inductive Plan
  /-- the stored queries of a namespace -/
  | stored (space : String)
  | tables (file : String)
  | query (file : String) (sql : Value) (params : Fields)

variable (engine : Engine) (config : Fields) (emit : Value → Act Unit) (file : String)

def givenParams : Result Fields :=
  match get? "params" config with
  | none => .ok []
  | some v => if v.truthy then v.asMapping else .ok []

def fillParams (declared : List String) (params : Fields) : Fields :=
  declared.foldl (fun ps name => if ps.has name then ps else set name .null ps) params

def limited (sql : Value) : Result Value :=
  match (get? "limit" config).filter (·.truthy), sql with
  | none, sql => .ok sql
  | some limit, .str s => .ok ((applyLimit s limit.text))
  | some _, _ => .error (.badType "a query is a text")

def planStored (s : Session) (config : Fields) (reference : String) : Result Plan := do
  let (ref, own) : String × Fields := match S.cutOnce "?" reference with
    | some (ref, query) => (ref, ofQuery query)
    | none => (reference, [])
  let q ← load s ref
  let given ← givenParams config
  pure (.query q.file (← limited config q.sql) (fillParams (declaredParams q.sql) (update own given)))

/-- The query that an address asks for; without one, the tables are listed. -/
def Address.sql? (a : Address) : Option Value :=
  match a.table?, a.query? with
  | some table, _ => some (s!"SELECT * FROM {table}")
  | none, some sql => if sql = "" then none else some sql
  | none, none => none

def directSql? (address : Address) : Option Value := ((get? "query" config).filter (·.truthy)).or address.sql?

def planDirect (text : String) : Result Plan := do
  let address ← Address.parse text
  let params := update address.params (← givenParams config)
  match directSql? config address with
  | none => pure (.tables address.file)
  | some sql => pure (.query address.file (← limited config sql) params)

def firstGiven : List String → Option Value
  | [] => none
  | name :: names =>
    match get? name config with
    | some v => if v.truthy then some v else firstGiven names
    | none => firstGiven names

/-- **What the settings ask for.** -/
def plan (s : Session) (config : Fields) : Result Plan :=
  match firstGiven config ["url", "path", "address"] with
  | none => .error (.badValue "Database path required")
  | some (.str text) =>
    match S.dropStart? "@" text with
    | none => planDirect config text
    | some name => if S.contains "/" name then planStored s config text else .ok (.stored name)
  | some v => .error (v.noMember "startswith")

/-- Runs something over a connection that is closed afterwards, however it ended. -/
def Engine.during (failure : String → Fault) (act : Act Unit) : Act Unit := do
  log (.list ["connect", file, true])
  match engine.connect file with
  | .error e => fail (failure e)
  | .ok () => Act.ensuring act (log (.list ["close"]))

def tableRecord (row : List Value) : Result Value :=
  match row with
  | [name, .str kind, columns] =>
    .ok (.map [("_type", "table"), ("_container", file), ("name", name),
      ("type", S.lower kind), ("columns", columns)])
  | [_, kind, _] => .error (kind.noMember "lower")
  | row => .error (Value.unpackFault 3 row.length)

def Engine.listTables : Act Unit :=
  let failure (e : String) : Fault := ⟨.failure, "DuckDB error listing tables: " ++ e⟩
  engine.during file failure do
    log (.list ["list_tables"])
    match engine.tables with
    | .error e => fail (failure e)
    | .ok rows => forEach rows fun row => do emit (← Act.ofResult (tableRecord file row))

def Engine.ask (sql : Value) (params : Fields) : Act Unit :=
  let failure (sql e : String) : Fault := ⟨.failure, s!"DuckDB error: {e}\nSQL: {sql}"⟩
  engine.during file (failure sql.text) do
    match sql with
    | .str text =>
      let text := dollarParams text
      log (.list ["execute", text, if params.isEmpty then .null else .map params])
      match engine.execute text params with
      | .error e => fail (failure text e)
      | .ok answer => forEach answer.rows fun row => emit (answer.record row)
    | _ => fail (.badType "a query is a text")

/-- **Reads from a database.** -/
def read (engine : Engine) (config : Fields) : Act Unit := do
  match ← Act.ofResult (plan (← get) config) with
  | .stored space => forEach (listNamespace (← get) space) emit
  | .tables file => engine.listTables emit file
  | .query file sql params => engine.ask emit file sql params

def writeFault : Fault := ⟨.unsupported, "DuckDB writes not yet supported. Use DuckDB CLI for loading data."⟩

def arguments : List CommandLine.Argument :=
  [{ flags := ["--mode"], choices := ["read", "write", "inspect-profiles"], required := true },
   .option "--path",
   .option "--query",
   .whole "--limit",
   { dest := "address", arity := .optional }]

/-- The parameters among the words left over: each word `--param-name` with the next. -/
def extraParams : List String → Fields → Except String Fields
  | [], params => .ok params
  | [w], params => if S.startsWith "--param-" w then .error w else .ok params
  | w :: value :: rest, params =>
    match S.dropStart? "--param-" w with
    | some name => extraParams rest (set name value params)
    | none => extraParams (value :: rest) params

def readConfig (parsed : CommandLine.Parsed) (params : Fields) : Fields :=
  let path := if (parsed.get "path").truthy then parsed.get "path" else parsed.get "address"
  [("params", .map params), ("path", path), ("query", parsed.get "query"), ("limit", parsed.get "limit")]

def readCommand : Act Unit :=
  Act.catchFault (read Act.printRecord engine config) fun f => do
    if f.kind.blamesValue || f.kind.blamesRun then
      printErr f.message
      exit 1
    else if f.kind.isOrdinary then fail f
    else exit 0

def command (argv : List String) : Act Unit := do
  let parsed ← Act.arguments (CommandLine.parseKnown arguments argv)
  let extras := parsed.extras ++ (match parsed.str? "address" with
    | none | some "" => []
    | some a => [a])
  match extraParams extras [] with
  | .error word =>
    printErr s!"Missing value for {word}"
    exit 1
  | .ok params =>
    match parsed.str? "mode" with
    | some "write" =>
      printErr "Write mode not supported"
      exit 1
    | some "inspect-profiles" => Act.printProfiles listProfiles
    | _ => readCommand engine (readConfig parsed params)

end Sluice.Database
