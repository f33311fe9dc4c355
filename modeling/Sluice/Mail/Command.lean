import Sluice.Machine.Session

/-!
# Messages

The payload of a message is a tree of **parts**; those without parts, the **leaves**, carry text or are attachments.
-/

namespace Sluice.Mail

/-! ## Parts -/

open Fields

/-- **The leaves of a part**, in document order. A part without proper shape gives a fault. -/
def leaves (part : Value) : List (Result Fields) :=
  match part with
  | .map fields =>
    match _ : get? "parts" fields with
    | none => [.ok fields]
    | some (.list parts) => parts.attach.flatMap fun p => leaves p.1
    | some v =>
      match v.elements with
      | .error f => [.error f]
      | .ok elements => elements.map fun e => .error (e.noMember "get")
  | v => [.error (v.noMember "get")]
termination_by sizeOf part
decreasing_by
  have hp := List.sizeOf_lt_of_mem p.2
  have hf := sizeOf_lt_of_get? (by assumption)
  simp at hf ⊢
  omega

def decodeData : Value → Result String
  | .str s =>
    if s.toList.all fun c => c.toNat < 128 then (Base64.decodeUrlSafe s.toList).map Utf8.decodeLossy
    else .error (.badValue "string argument should contain only ASCII characters")
  | v => .error (.badType s!"argument should be a bytes-like object or ASCII string, not '{v.kindName}'")

def bodyText? (part : Value) : Result (Option String) := do
  if !(← part.hasItem "body") then return none
  let body ← part.item "body"
  if !(← body.hasItem "data") then return none
  pure (some (← decodeData (← body.item "data")))

structure Piece where
  type : Value
  text? : Option String
  attachment? : Option Value := none

def describe? (part : Fields) (type : Value) : Result (Option Value) := do
  let name := (get? "filename" part).getD .null
  if !name.truthy then return none
  let body := (get? "body" part).getD (.map [])
  let size ← body.itemD "size" (.int 0)
  let id ← body.itemD "attachmentId" .null
  pure (some (.map [("filename", name), ("mime_type", type), ("size", size), ("attachment_id", id)]))

def Piece.ofLeaf (part : Fields) : Result Piece := do
  let type := (get? "mimeType" part).getD ""
  let text? ← bodyText? (.map part)
  let attachment? ← describe? part type
  pure { type, text?, attachment? }

variable (payload : Value)

def Piece.ofPayload : Result (List Piece) := do
  match ← bodyText? payload with
  | none => pure []
  | some text =>
    let type ← payload.itemD "mimeType" ""
    pure [{ type, text? := some text }]

def Piece.ofParts : Result (List Piece) := do
  if !(← payload.hasItem "parts") then return []
  ((← (← payload.item "parts").elements).flatMap leaves).mapM (·.bind Piece.ofLeaf)

def joinTexts (type : String) (pieces : List Piece) : Value :=
  match pieces.filterMap fun p => if p.type == .str type then p.text? else none with
  | [] => .null
  | texts => (Text.S.join "\n" texts)

def bodyFields : Result Fields := do
  let pieces := (← Piece.ofPayload payload) ++ (← Piece.ofParts payload)
  let attachments := pieces.filterMap (·.attachment?)
  pure ([("body_text", joinTexts "text/plain" pieces), ("body_html", joinTexts "text/html" pieces)] ++
    (if attachments.isEmpty then [] else [("attachments", .list attachments)]))

def lowered : Value → Result String
  | .str s => .ok (Text.S.lower s)
  | v => .error (v.noMember "lower")

def header (v : Value) : Result (String × Value) := do
  let name ← lowered (← v.item "name")
  pure (name, ← v.item "value")

def headerFields (whole : Bool) (payload : Value) : Result Fields := do
  let items ← (← payload.item "headers").elements
  let headers := ofPairs (← items.mapM header)
  let get (name : String) : Value := (get? name headers).getD .null
  pure ([("from", get "from"), ("to", get "to"), ("cc", get "cc"), ("bcc", get "bcc"),
    ("subject", get "subject"), ("date_header", get "date")] ++
    (if whole then [("headers", .map headers)] else []))

def taken (msg : Value) (key name : String) : Result Fields := do
  if ← msg.hasItem key then pure [(name, ← msg.item key)] else pure []

def dateFields (msg : Value) : Result Fields := do
  if !(← msg.hasItem "internalDate") then return []
  let stamp ← msg.item "internalDate"
  pure [("internal_date", stamp), ("date", (← DateTime.ofMillis (← stamp.toWhole)).iso)]

def payloadFields (whole : Bool) (msg : Value) : Result Fields := do
  if !(← msg.hasItem "payload") then return []
  let payload ← msg.item "payload"
  let headers ← if ← payload.hasItem "headers" then headerFields whole payload else pure []
  let body ← if whole then bodyFields payload else pure []
  pure (headers ++ body)

/-- **The record of a message.** All headers and the body are kept in the format `full` only. -/
def record (format msg : Value) : Result Value := do
  let id ← msg.item "id"
  let thread ← msg.item "threadId"
  let labels ← taken msg "labelIds" "labels"
  let snippet ← taken msg "snippet" "snippet"
  let date ← dateFields msg
  let payload ← payloadFields (format == "full") msg
  pure (.map ([("id", id), ("thread_id", thread)] ++ labels ++ snippet ++ date ++ payload))

/-!
## Credentials

Tokens are kept in a file until they expire; then they are refreshed, or the user is asked for consent again. The
**authority** is given by its answers.
-/

structure Credentials where
  token : Value
  refreshToken : Value
  tokenUri : Value := .null
  clientId : Value
  clientSecret : Value
  scopes : Value := .null
  expiry? : Option DateTime := none

structure Authority where
  now : DateTime
  refreshed : String
  goodUntil : DateTime
  granted : Credentials

def wantedScopes : List String := ["https://www.googleapis.com/auth/gmail.readonly"]

def tokenEndpoint : String := "https://oauth2.googleapis.com/token"

namespace Credentials

variable (c : Credentials) (now : DateTime)

def isExpired : Bool :=
  match c.expiry? with
  | some e => e.notAfter now
  | none => false

def isValid : Bool := c.token.truthy && !c.isExpired now

def storedExpiry (info : Fields) : Result DateTime :=
  match Fields.get? "expiry" info with
  | some (.str "") | none => .ok now
  | some (.str s) =>
    let trimmed := Text.trimRight (· == 'Z') s.toList
    DateTime.ofStamp (String.ofList (trimmed.takeWhile (· != '.')))
  | some v => if v.truthy then .error (v.noMember "rstrip") else .ok now

def ofInfo (info : Value) : Result Credentials :=
  match info with
  | .map fields => do
    let missing := ["refresh_token", "client_id", "client_secret"].filter (!Fields.has fields ·)
    if !missing.isEmpty then
      throw (.badValue ("Authorized user info was not in the expected format, missing fields " ++
        Text.S.join ", " missing ++ "."))
    let expiry ← storedExpiry now fields
    let get (key : String) : Value := (Fields.get? key fields).getD .null
    pure { token := get "token", refreshToken := get "refresh_token", tokenUri := tokenEndpoint
           clientId := get "client_id", clientSecret := get "client_secret"
           scopes := .list (wantedScopes.map .str), expiry? := some expiry }
  | v => .error (v.noMember "keys")

def toInfo : Fields :=
  let fields : Fields := [("token", c.token), ("refresh_token", c.refreshToken), ("token_uri", c.tokenUri),
    ("client_id", c.clientId), ("client_secret", c.clientSecret), ("scopes", c.scopes),
    ("expiry", (c.expiry?.map fun e => Value.str s!"{e.iso}Z").getD .null)]
  fields.filter fun kv => match kv.2 with
    | .null => false
    | _ => true

end Credentials

def credentialsDirectory (s : Session) : Path :=
  match s.env? "JN_HOME" with
  | some home => .ofString home
  | none => (Path.ofString ((s.env? "HOME").getD "")).child ".jn"

def setupMessage (p : Path) : String :=
  s!"Gmail credentials not found at {p.toString}\n" ++
  "Download OAuth2 credentials from Google Cloud Console:\n" ++
  "1. Go to https://console.cloud.google.com/apis/credentials\n" ++
  "2. Create OAuth 2.0 Client ID (Desktop app)\n" ++
  "3. Download JSON and save to ~/.jn/gmail-credentials.json"

variable (authority : Authority)

open Act

def askConsent (secrets : Path) : Act Credentials := do
  if !(← get).tree.pathExists secrets then fail ⟨.missingPath, setupMessage secrets⟩
  log (.list ["oauth_flow", secrets.toString, .list (wantedScopes.map .str)])
  pure authority.granted

def renew (old? : Option Credentials) (secrets : Path) : Act Credentials := do
  match old? with
  | some c =>
    if c.isExpired authority.now && c.refreshToken.truthy then
      log (.list ["refresh"])
      pure { c with token := authority.refreshed, expiry? := some authority.goodUntil }
    else askConsent authority secrets
  | none => askConsent authority secrets

def stored? (file : Path) : Act (Option Credentials) := do
  let t := (← get).tree
  if !t.pathExists file then return none
  let text ← ofResult (t.readText file)
  pure (some (← ofResult (Credentials.ofInfo authority.now (← ofResult (Json.read text)))))

/-- **Gets credentials**: stored ones if they are good, else new ones, which are stored. -/
def credentials (tokenFile? secrets? : Option Path) : Act Credentials := do
  let home := credentialsDirectory (← get)
  let tokenFile := tokenFile?.getD (home.child "gmail-token.json")
  let secrets := secrets?.getD (home.child "gmail-credentials.json")
  let old? ← stored? authority tokenFile
  match old?.filter (·.isValid authority.now) with
  | some c => pure c
  | none =>
    let c ← renew authority old? secrets
    changeTree (·.makeAll tokenFile.parent)
    let text ← ofResult (Json.line (.map c.toInfo))
    changeTree (·.saveText tokenFile text)
    pure c

/-!
## Reading mailboxes

An address `gmail://user` stands for the labels of a mailbox, one with a path for its messages, which are listed by
pages.
-/

open Text
open Act (call exit fail log ofResult)

structure Service where
  profile : Result Value
  labels : Result Value
  page : String → Result Value
  message : Value → Result Value

structure Settings where
  url : String
  limit : Value := .null
  pageSize : Value := .int 500
  withSpam : Value := false
  format : Value := "full"
  labels : Value := .null
  tokenFile : Value := .null
  secretsFile : Value := .null
  params : Fields := []

def terms (name : String) : Value → List String
  | .list vs => vs.map (name ++ ":" ++ ·.text)
  | v => [s!"{name}:{v.text}"]

/-- **The search text** for parameters: `name:value` for each value. -/
def searchText (params : Fields) : String := S.join " " (params.flatMap fun kv => terms kv.1 kv.2)

def pathSetting? (v : Value) : Result (Option Path) :=
  match v with
  | .str "" => .ok none
  | .str s => .ok (some (.ofString s))
  | v => if v.truthy then .error (.badType "a path is a text") else .ok none

variable (emit : Value → Act Unit) (service : Service) (settings : Settings) (authority : Authority)

def openService (settings : Settings) : Act Unit := do
  let tokenFile? ← ofResult (pathSetting? settings.tokenFile)
  let secrets? ← ofResult (pathSetting? settings.secretsFile)
  log (.list ["build", "gmail", "v1", (← credentials authority tokenFile? secrets?).token])

def labelRecord (user : String) (profile label : Value) : Result Value := do
  let id ← label.item "id"
  let name ← label.item "name"
  let type ← lowered (← label.itemD "type" "user")
  let total ← label.itemD "messagesTotal" (.int 0)
  let unread ← label.itemD "messagesUnread" (.int 0)
  let email ← profile.itemD "emailAddress" .null
  pure (.map [("id", id), ("name", name), ("type", type), ("messagesTotal", total),
    ("messagesUnread", unread), ("email", email), ("_type", "label"),
    ("_container", s!"gmail://{user}")])

def emitLabels (limit : Value) (user : String) (profile : Value) : (count : Nat) → List Value → Act Unit
  | _, [] => pure ()
  | count, label :: rest => do
    emit (← ofResult (labelRecord user profile label))
    if ← ofResult (limit.reached (count + 1)) then pure ()
    else emitLabels limit user profile (count + 1) rest

def readLabels (limit : Value) (user : String) : Act Unit := do
  let profile ← call "getProfile" [.map [("userId", user)]] service.profile
  let answer ← call "labels.list" [.map [("userId", user)]] service.labels
  emitLabels emit limit user profile 0 (← ofResult (← ofResult (answer.itemD "labels" (.list []))).elements)

/-! ## Messages -/

def cappedSize : Value → Result Value
  | .int n => .ok (.int (min n 500))
  | .float x => .ok (if 500.0 < x then .int 500 else .float x)
  | .bool b => .ok b
  | v => .error (.badType s!"'<' not supported between instances of 'int' and '{v.kindName}'")

def labelList (v : Value) : Result (Option (List String)) :=
  match v with
  | .str "" => .ok none
  | .str s => .ok (some (S.splitOn "," s))
  | v => if v.truthy then .error (v.noMember "split") else .ok none

structure Question where
  user : String
  search : String
  labels? : Option (List String)

def Question.arguments (q : Question) (settings : Settings) (size token : Value) : Fields :=
  [("userId", .str q.user), ("maxResults", size), ("includeSpamTrash", settings.withSpam)] ++
    (if q.search = "" then [] else [("q", .str q.search)]) ++
    (match q.labels? with
      | some labels => [("labelIds", .list (labels.map .str))]
      | none => []) ++
    (if token.truthy then [("pageToken", token)] else [])

def refusalRecord (id : Value) (f : Fault) : Value :=
  errorRecord "gmail_api_error" s!"Failed to fetch message {id.text}: {f.message}"
    [("message_id", id)]

/-- Hands on the records of the messages of a page until there are enough; says how many there were and whether that is
enough. A refused message gives an error record that does not count. -/
def emitMessages (user : String) : (count : Nat) → List Value → Act (Nat × Bool)
  | count, [] => pure (count, false)
  | count, ref :: refs => do
    let id ← ofResult (ref.item "id")
    log (.list ["messages.get", .map [("userId", user), ("id", id), ("format", settings.format)]])
    match service.message id with
    | .error f =>
      if f.kind = .service then
        emit (refusalRecord id f)
        emitMessages user count refs
      else fail f
    | .ok msg =>
      emit (← ofResult (record settings.format msg))
      if ← ofResult (settings.limit.reached (count + 1)) then pure (count + 1, true)
      else emitMessages user (count + 1) refs

def emitPages (q : Question) : (pages : Nat) → (token : Value) → (count : Nat) → Act Unit
  | 0, _, _ => pure ()
  | pages + 1, token, count => do
    let size ← ofResult (cappedSize settings.pageSize)
    let name := if token.truthy then token.text else ""
    let page ← call "messages.list" [.map (q.arguments settings size token)] (service.page name)
    let refs ← ofResult (page.itemD "messages" (.list []))
    if !refs.truthy then pure ()
    else
      let (count, enough) ← emitMessages emit service settings q.user count (← ofResult refs.elements)
      if enough then pure ()
      else
        let next ← ofResult (page.itemD "nextPageToken" .null)
        if next.truthy then emitPages q pages next count else pure ()

def readMessages (pages : Nat) (user : String) : Act Unit := do
  let labels? ← ofResult (labelList settings.labels)
  emitPages emit service settings ⟨user, searchText settings.params, labels?⟩ pages .null 0

/-- Whether settings stand for the labels of a mailbox: no path, no labels and no search text are given. -/
def wantsLabels (path : Chars) : Bool :=
  (path == [] || path == ['/']) && !settings.labels.truthy && !((Fields.get? "q" settings.params).getD .null).truthy

/-- **Reads a mailbox**, at most so many pages. Missing credentials and refusals become records. -/
def read (service : Service) (pages : Nat) (settings : Settings) : Act Unit := do
  let url ← ofResult (Url.parse settings.url.toList)
  let user := if url.host.isEmpty then "me" else String.ofList url.host
  let body : Act Unit := do
    openService authority settings
    if wantsLabels settings url.path then readLabels emit service settings.limit user
    else readMessages emit service settings pages user
  Act.catchFault body fun f =>
    match f.kind with
    | .missingPath => emit (errorRecord "credentials_not_found" f.message)
    | .service => emit (errorRecord "gmail_api_error" ("Gmail API error: " ++ f.message))
    | _ => fail f

def arguments : List CommandLine.Argument :=
  [{ flags := ["--mode"], choices := ["read"], required := true },
   .word "url",
   .whole "--limit",
   .whole "--max-results" (.int 500),
   .switch "--include-spam-trash",
   .choice "--format" ["minimal", "metadata", "full"] "full",
   .option "--token-path",
   .option "--credentials-path"]

def settingNames : List String :=
  ["url", "limit", "max_results", "include_spam_trash", "format", "token_path", "credentials_path"]

def commandSettings (parsed : CommandLine.Parsed) (params : Fields) : Settings :=
  { url := parsed.text "url"
    limit := parsed.get "limit"
    pageSize := parsed.get "max_results"
    withSpam := parsed.get "include_spam_trash"
    format := parsed.get "format"
    labels := (Fields.get? "label_ids" params).getD .null
    tokenFile := parsed.get "token_path"
    secretsFile := parsed.get "credentials_path"
    params := Fields.erase "label_ids" params }

def command (service : Service) (pages : Nat) (argv : List String) : Act Unit := do
  let parsed ← Act.arguments (CommandLine.parse arguments argv)
  let address := parsed.text "url"
  let url ← ofResult (Url.parse address.toList)
  if String.ofList url.scheme != "gmail" then
    Act.printRecord (errorRecord "invalid_url" s!"URL must start with gmail://, got: {address}")
    exit 1
  let params := Fields.ofQuery (String.ofList url.query)
  if params.any fun kv => settingNames.contains kv.1 then
    fail (.badType "a setting is given twice")
  Act.catchFault (read Act.printRecord authority service pages (commandSettings parsed params)) fun f =>
    if f.kind.isOrdinary then fail f else exit 0

end Sluice.Mail
