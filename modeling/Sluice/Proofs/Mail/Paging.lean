import Mathlib.Data.List.Forall2
import Sluice.Mail.Command
import Sluice.Proofs.Machine.Session

/-!
# Reading a mailbox page by page

Reading follows a **chain** of pages, each of which names the token of the next, but takes a page without messages for
the last one.
-/

namespace Sluice.Mail

open List Text String Act
open Act (deliver bind_of_ok outcome_ofResult_ok)

variable {size : Value} {pages : List Page}

structure Entry where
  id : Value
  record : Value

structure Page where
  /-- what it is asked for with; the first page has no token -/
  token : Value
  entries : List Entry

variable (service : Service) (format : Value)

def Fetches (ref : Value) (entry : Entry) : Prop :=
  ref.item "id" = .ok entry.id ∧ ∃ msg, service.message entry.id = .ok msg ∧ record format msg = .ok entry.record

def Serves (page : Page) (next : Value) : Prop :=
  ∃ answer refs, service.page (if page.token.truthy then page.token.text else "") = .ok answer ∧
    answer.itemD "messages" (.list []) = .ok (.list refs) ∧
    answer.itemD "nextPageToken" .null = .ok next ∧
    List.Forall₂ (Fetches service format) refs page.entries

/-- **A chain of pages**: all pages but the last name the token of the next one. -/
inductive Chain (service : Service) (format : Value) : Value → List Page → Prop
  | last {page : Page} {next : Value} (serves : Serves service format page next) (ends : next.truthy = false) :
    Chain service format page.token [page]
  | more {page : Page} {next : Value} {rest : List Page} (serves : Serves service format page next)
    (goesOn : next.truthy = true) (chain : Chain service format next rest) :
    Chain service format page.token (page :: rest)

def upToEmpty : List Page → List Page
  | [] => []
  | page :: rest => if page.entries.isEmpty then [page] else page :: upToEmpty rest

lemma upToEmpty_prefix (pages) : upToEmpty pages <+: pages := by
  induction pages with
  | nil => exact prefix_rfl
  | cons page r ih =>
    rw [upToEmpty]
    split
    · exact ⟨r, rfl⟩
    · exact prefix_cons_inj page |>.mpr ih

lemma upToEmpty_eq_self_iff (pages) : upToEmpty pages = pages ↔ ∀ page ∈ pages.dropLast, page.entries ≠ [] := by
  induction pages with
  | nil => simp [upToEmpty]
  | cons page r ih =>
    cases r with
    | nil =>
      simp only [upToEmpty]
      simp
    | cons next r =>
      rw [upToEmpty, dropLast_cons_cons, forall_mem_cons, ← ih]
      by_cases he : page.entries = [] <;> simp [he]

/-! ## What a page adds -/

section Reading

variable {service : Service} {settings : Settings}

def fetchCall (settings : Settings) (user : String) (entry : Entry) : Value :=
  .list [.str "messages.get", .map [("userId", .str user), ("id", entry.id), ("format", settings.format)]]

def Page.calls (settings : Settings) (q : Question) (size : Value) (page : Page) : List Value :=
  .list [.str "messages.list", .map (q.arguments settings size page.token)] ::
    page.entries.map (fetchCall settings q.user)

def Page.records (page : Page) : List Value := page.entries.map (·.record)

lemma outcome_emitMessages (hl : settings.limit.truthy = false) {refs entries}
    (h : List.Forall₂ (Fetches service settings.format) refs entries) (user count s) :
    (emitMessages deliver service settings user count refs).outcome s = (.ok (count + entries.length, false),
        s.extended (entries.map (·.record)) (entries.map (fetchCall settings user))) := by
  induction h generalizing count s with
  | nil => rfl
  | @cons ref entry refs entries he _ ih =>
    obtain ⟨hid, _, hm, hr⟩ := he
    have hs : (emitMessages deliver service settings user count (ref :: refs)).outcome s =
        (emitMessages deliver service settings user (count + 1) refs).outcome
          (s.extended [entry.record] [fetchCall settings user entry]) := by
      rw [emitMessages, hid, bind_of_ok (outcome_ofResult_ok entry.id s), bind_of_ok (outcome_log _ s), hm]
      dsimp only
      rw [hr, bind_of_ok (outcome_ofResult_ok _ _),
        bind_of_ok (outcome_deliver _ _), Value.reached_of_not_truthy hl]
      rfl
    rw [hs, ih, Session.extended_extended, Nat.add_assoc, Nat.add_comm 1]
    rfl

def pagesAfter (service : Service) (settings : Settings) (q : Question) (fuel count : Nat) (page : Page)
    (next : Value) : Act Unit :=
  if page.entries.isEmpty || !next.truthy then pure ()
  else emitPages deliver service settings q fuel next (count + page.entries.length)

/-- **One page** adds its calls and its records; then the run goes on behind it. -/
lemma outcome_emitPages_page (hl : settings.limit.truthy = false)
    (hsi : cappedSize settings.pageSize = .ok size) {page next}
    (hs : Serves service settings.format page next) (q fuel count s) :
    (emitPages deliver service settings q (fuel + 1) page.token count).outcome s =
      (pagesAfter service settings q fuel count page next).outcome
        (s.extended page.records (page.calls settings q size)) := by
  obtain ⟨token, entries⟩ := page
  obtain ⟨answer, r, hp, hm, hn, he⟩ := hs
  have hc : (call "messages.list" [.map (q.arguments settings size token)] (.ok answer)).outcome s =
      (.ok answer, s.extended [] [.list [.str "messages.list", .map (q.arguments settings size token)]]) := rfl
  rw [emitPages, hsi, bind_of_ok (outcome_ofResult_ok size s)]
  dsimp only at hp he ⊢
  rw [hp, bind_of_ok hc, hm, bind_of_ok (outcome_ofResult_ok _ _), pagesAfter]
  cases he with
  | nil => rfl
  | @cons ref entry r entries hen hr =>
    have hem := outcome_emitMessages hl (List.Forall₂.cons hen hr) q.user count
      (s.extended [] [.list [.str "messages.list", .map (q.arguments settings size token)]])
    have ht : (Value.list (ref :: r)).truthy := rfl
    have hel : (Value.list (ref :: r)).elements = .ok (ref :: r) := rfl
    rw [ht, if_neg (by decide), hel, bind_of_ok (outcome_ofResult_ok _ _),
      bind_of_ok hem, Session.extended_extended]
    dsimp only
    rw [if_neg (by decide), hn, bind_of_ok (outcome_ofResult_ok _ _)]
    cases next.truthy <;> rfl

/-- **A run over a chain** adds what the pages up to the first empty one add, and no more. -/
lemma outcome_emitPages (hl : settings.limit.truthy = false) (hsi : cappedSize settings.pageSize = .ok size) {token}
    (hc : Chain service settings.format token pages) (q) {fuel} (hf : pages.length ≤ fuel) (count s) :
    (emitPages deliver service settings q fuel token count).outcome s =
      (.ok (), s.extended ((upToEmpty pages).flatMap Page.records)
        ((upToEmpty pages).flatMap (Page.calls settings q size))) := by
  induction hc generalizing fuel count s with
  | @last page next hs hen =>
    obtain ⟨fuel, rfl⟩ : ∃ n, fuel = n + 1 := ⟨fuel - 1, by simp at hf; omega⟩
    rw [outcome_emitPages_page hl hsi hs, pagesAfter, if_pos (by simp [hen]), upToEmpty, upToEmpty,
      ite_self, flatMap_singleton, flatMap_singleton]
    rfl
  | @more page next rest hs hn _ ih =>
    obtain ⟨fuel, rfl⟩ : ∃ n, fuel = n + 1 := ⟨fuel - 1, by simp at hf; omega⟩
    rw [outcome_emitPages_page hl hsi hs, pagesAfter, upToEmpty]
    by_cases he : page.entries = []
    · rw [if_pos (by simp [he]), if_pos (by simp [he]), flatMap_singleton, flatMap_singleton]
      rfl
    · rw [if_neg (by simp [he, hn]), if_neg (by simp [he]), ih (Nat.le_of_succ_le_succ hf),
        Session.extended_extended]
      rfl

lemma upToEmpty_eq_self_of_calls {q}
    (h : (upToEmpty pages).flatMap (Page.calls settings q size) = pages.flatMap (Page.calls settings q size)) :
    upToEmpty pages = pages := by
  obtain ⟨left, hl⟩ := upToEmpty_prefix pages
  have hc : left.flatMap (Page.calls settings q size) = [] := by
    rwa [← congrArg (List.flatMap (Page.calls settings q size)) hl, flatMap_append, self_eq_append_right] at h
  cases left with
  | nil => rwa [append_nil] at hl
  | cons page r => exact absurd hc (by simp [Page.calls])

end Reading

structure AsksForAll (settings : Settings) (q : Question) (size : Value) : Prop where
  address : ∃ url, Url.parse settings.url.toList = .ok url ∧ wantsLabels settings url.path = false ∧
    q.user = if url.host.isEmpty then "me" else ofList url.host
  search : q.search = searchText settings.params
  labels : labelList settings.labels = .ok q.labels?
  size : cappedSize settings.pageSize = .ok size
  unlimited : settings.limit.truthy = false

/-- **Reading a mailbox** adds what the pages up to the first empty one add. -/
lemma outcome_read {authority service settings q s opened bound} (ha : AsksForAll settings q size)
    (ho : (openService authority settings).outcome s = (.ok (), opened))
    (hc : Chain service settings.format .null pages) (hb : pages.length ≤ bound) :
    (read deliver authority service bound settings).outcome s =
      (.ok (), opened.extended ((upToEmpty pages).flatMap Page.records)
        ((upToEmpty pages).flatMap (Page.calls settings q size))) := by
  obtain ⟨url, hur, hm, hu⟩ := ha.address
  have hp := outcome_emitPages ha.unlimited ha.size hc q hb 0 opened
  obtain ⟨_, search, labels?⟩ := q
  obtain rfl : search = searchText settings.params := ha.search
  rw [read, hur, bind_of_ok (outcome_ofResult_ok url s)]
  rw [outcome_catchFault, bind_of_ok ho, hm, if_neg (by decide), readMessages, ha.labels,
    bind_of_ok (outcome_ofResult_ok _ _), ← hu, hp]

/-- **When a mailbox is read whole.** Each message gives one record, in order, and each page is asked for once, exactly if
no page before the last is empty. -/
theorem read_whole_chain_iff {authority : Authority} {service : Service} {settings : Settings} {q : Question}
    {size : Value} {s opened : Session} {pages : List Page} {bound : Nat} (hasks : AsksForAll settings q size)
    (hopen : (openService authority settings).outcome s = (.ok (), opened))
    (hchain : Chain service settings.format .null pages) (hbound : pages.length ≤ bound) :
    (read Act.deliver authority service bound settings).outcome s =
        (.ok (), opened.extended (pages.flatMap Page.records) (pages.flatMap (Page.calls settings q size))) ↔
      ∀ page ∈ pages.dropLast, page.entries ≠ [] := by
  rw [outcome_read hasks hopen hchain hbound, ← upToEmpty_eq_self_iff]
  constructor
  · intro h
    have hcalls := congrArg Session.calls (Prod.mk.inj h).2
    exact upToEmpty_eq_self_of_calls (List.reverse_injective (List.append_cancel_right hcalls))
  · intro h
    rw [h]

/-! ### A mailbox of two pages -/

def deskToken : Path := ⟨"$ROOT", ["jn", "gmail-token.json"]⟩

def deskText : String :=
  "\x7b\"token\": \"tok\", \"refresh_token\": \"r\", \"client_id\": \"c\", \"client_secret\": \"s\", " ++
  "\"expiry\": \"2999-01-01T00:00:00Z\"\x7d"

def desk : Session :=
  { tree := ⟨[(deskToken.parent, .directory), (deskToken, .file (.text deskText) false)]⟩
    env := [("JN_HOME", "$ROOT/jn")] }

def deskInfo : Fields :=
  [("token", .str "tok"), ("refresh_token", .str "r"), ("client_id", .str "c"), ("client_secret", .str "s"),
    ("expiry", .str "2999-01-01T00:00:00Z")]

def deskCredentials : Credentials :=
  { token := .str "tok", refreshToken := .str "r", tokenUri := .str tokenEndpoint, clientId := .str "c"
    clientSecret := .str "s", scopes := .list (wantedScopes.map .str)
    expiry? := some ⟨⟨2999, 1, 1⟩, ⟨0, 0, 0, 0⟩, none⟩ }

def deskAuthority : Authority :=
  { now := ⟨⟨2024, 1, 15⟩, ⟨10, 30, 0, 0⟩, none⟩
    refreshed := "", goodUntil := ⟨⟨2999, 1, 1⟩, ⟨0, 0, 0, 0⟩, none⟩, granted := deskCredentials }

def deskSettings : Settings := { url := "gmail://me/INBOX" }

def deskEntry (id : String) : Entry := ⟨.str id, .map [("id", .str id), ("thread_id", .str "t")]⟩

variable (ids : List String)

def deskPages : List Page := [⟨.null, ids.map deskEntry⟩, ⟨.str "p2", [deskEntry "m2"]⟩]

def deskService : Service :=
  { profile := .ok .null, labels := .ok .null
    page := fun name =>
      if name = "" then .ok (.map [("messages", .list (ids.map fun id => .map [("id", .str id)])),
        ("nextPageToken", .str "p2")])
      else .ok (.map [("messages", .list [.map [("id", .str "m2")]])])
    message := fun id => .ok (.map [("id", id), ("threadId", .str "t")]) }

lemma ofInfo_desk : Credentials.ofInfo deskAuthority.now (.map deskInfo) = .ok deskCredentials := by
  rw [Credentials.ofInfo]
  rfl

lemma read_deskText : Json.read deskText = .ok (.map deskInfo) := by
  have hr : Json.readWith Json.lastWins deskText.toList = .ok (.map deskInfo) := by
    unfold deskText
    rw [toList_append, toList_eq rfl, toList_eq rfl]
    rfl
  simp [Json.read, hr]

lemma return_not_mem_deskText : '\r' ∉ deskText.toList := by
  unfold deskText
  rw [toList_append, toList_eq rfl, toList_eq rfl]
  decide

lemma outcome_stored_desk : (stored? deskAuthority deskToken).outcome desk = (.ok (some deskCredentials), desk) := by
  have ht : desk.tree.readText deskToken = .ok deskText := by
    have h : ofList (unifyLineEnds deskText.toList) = deskText := by
      rw [unifyLineEnds_eq_self return_not_mem_deskText, ofList_toList]
    exact congrArg Except.ok h
  rw [stored?, bind_of_ok (outcome_get desk)]
  simp only [ht]
  refine (bind_of_ok (outcome_ofResult_ok deskText desk)).trans ?_
  rw [read_deskText, bind_of_ok (outcome_ofResult_ok _ desk), ofInfo_desk]
  rfl

lemma outcome_openService_desk : (openService deskAuthority deskSettings).outcome desk =
    (.ok (), desk.extended [] [.list [.str "build", .str "gmail", .str "v1", .str "tok"]]) := by
  have hf : (credentialsDirectory desk).child "gmail-token.json" = deskToken := by decide +kernel
  have hc : (credentials deskAuthority none none).outcome desk = (.ok deskCredentials, desk) := by
    rw [credentials, bind_of_ok (outcome_get desk)]
    simp only [Option.getD_none, hf]
    rw [bind_of_ok outcome_stored_desk]
    rfl
  refine (bind_of_ok (outcome_ofResult_ok none desk)).trans ?_
  refine (bind_of_ok (outcome_ofResult_ok none desk)).trans ?_
  exact (bind_of_ok hc).trans rfl

lemma asksForAll_desk : AsksForAll deskSettings ⟨"me", "", none⟩ (.int 500) where
  address := ⟨⟨"gmail".toList, "me".toList, "/INBOX".toList, []⟩, rfl, rfl, rfl⟩
  search := rfl
  labels := rfl
  size := rfl
  unlimited := rfl

lemma chain_desk : Chain (deskService ids) deskSettings.format .null (deskPages ids) := by
  have hf (id : String) : Fetches (deskService ids) deskSettings.format (.map [("id", .str id)]) (deskEntry id) :=
    ⟨rfl, _, rfl, rfl⟩
  have hfi : Serves (deskService ids) deskSettings.format ⟨.null, ids.map deskEntry⟩ (.str "p2") := by
    refine ⟨_, _, rfl, rfl, rfl, ?_⟩
    rw [forall₂_map_left_iff, forall₂_map_right_iff, forall₂_same]
    exact fun id _ => hf id
  have hs : Serves (deskService ids) deskSettings.format ⟨.str "p2", [deskEntry "m2"]⟩ .null :=
    ⟨_, _, rfl, rfl, rfl, .cons (hf "m2") .nil⟩
  exact .more hfi rfl (.last hs rfl)

/-- Both pages are read when both have messages. -/
theorem read_whole_chain_two : Chain (deskService ["m1"]) deskSettings.format .null (deskPages ["m1"]) ∧
    (read Act.deliver deskAuthority (deskService ["m1"]) 2 deskSettings).outcome desk =
      (.ok (), desk.extended [(deskEntry "m1").record, (deskEntry "m2").record]
        (.list [.str "build", .str "gmail", .str "v1", .str "tok"] ::
          (deskPages ["m1"]).flatMap (Page.calls deskSettings ⟨"me", "", none⟩ (.int 500)))) := by
  have hchain := chain_desk ["m1"]
  have hfull : ∀ page ∈ (deskPages ["m1"]).dropLast, page.entries ≠ [] := by simp [deskPages]
  refine ⟨hchain, ?_⟩
  exact (read_whole_chain_iff asksForAll_desk outcome_openService_desk hchain (Nat.le_refl 2)).mpr hfull

/-- When the first page is empty, the second one is not asked for, and its message is lost. -/
theorem read_empty_first_page : Chain (deskService []) deskSettings.format .null (deskPages []) ∧
    (deskPages []).flatMap Page.records = [(deskEntry "m2").record] ∧
    (read Act.deliver deskAuthority (deskService []) 2 deskSettings).outcome desk =
      (.ok (), desk.extended [] [.list [.str "build", .str "gmail", .str "v1", .str "tok"],
        .list [.str "messages.list", .map [("userId", .str "me"), ("maxResults", .int 500),
          ("includeSpamTrash", .bool false)]]]) := by
  have hchain := chain_desk []
  refine ⟨hchain, rfl, ?_⟩
  exact outcome_read asksForAll_desk outcome_openService_desk hchain (Nat.le_refl 2)

end Sluice.Mail
