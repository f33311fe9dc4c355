import Sluice.Database.Command
import Sluice.Proofs.Machine.Path
import Sluice.Proofs.Machine.Session

/-!
# Stored queries that are listed and stored queries that run

A query runs from the first directory, the project's or the user's, that has a file for it (`Runs`). A listing shows the
files in the user's directory (`Shows`).
-/

namespace Sluice

open List Text Path Act FileTree Wildcard

variable {t : FileTree} {dir : Path} {query space : String}

/-! ## Suffixes of names -/

namespace Text.Wildcard

lemma anyTail_iff {p s} : anyTail p s ↔ ∃ a b, s = a ++ b ∧ p b := by
  induction s with
  | nil => simp [anyTail]
  | cons c s ih =>
    rw [anyTail, Bool.or_eq_true, ih]
    constructor
    · rintro (h | ⟨a, b, rfl, h⟩)
      · exact ⟨[], c :: s, rfl, h⟩
      · exact ⟨c :: a, b, rfl, h⟩
    · rintro ⟨a, b, hs, h⟩
      rcases append_eq_cons_iff.mp hs.symm with ⟨rfl, rfl⟩ | ⟨a, rfl, rfl⟩
      · exact .inl h
      · exact .inr ⟨a, b, rfl, h⟩

lemma covers_chars {l s} : covers (l.map .char) s ↔ s = l := by
  induction l generalizing s with
  | nil => simp [covers]
  | cons c l ih =>
    cases s with
    | nil => simp [covers]
    | cons d s => simp [covers, accepts, ih]

end Text.Wildcard

namespace Database

lemma matches_suffix_iff (name) : S.matchesWildcard "*.sql" name ↔ ∃ query, name = query ++ ".sql" := by
  have hp : parse "*.sql".toList = .many :: ".sql".toList.map .char := by decide +kernel
  rw [S.matchesWildcard, hp, covers, anyTail_iff]
  simp only [covers_chars]
  constructor
  · rintro ⟨a, b, hn, rfl⟩
    refine ⟨String.ofList a, String.toList_injective ?_⟩
    simp only [hn, String.toList_append, String.toList_ofList]
  · rintro ⟨query, rfl⟩
    exact ⟨query.toList, _, String.toList_append, rfl⟩

lemma stem_query (dir : Path) (query) : (dir.child (query ++ ".sql")).stem = if query = "" then ".sql" else query := by
  have hcu : S.cutLast "." (query ++ ".sql") = some (query, "sql") := by
    have hc : (query ++ ".sql").toList.reverse = ['l', 'q', 's'] ++ '.' :: query.toList.reverse := by
      rw [String.toList_append, reverse_append]
      rfl
    have ho := cutOnce_of_not_mem (show '.' ∉ ['l', 'q', 's'] by decide) query.toList.reverse
    rw [S.cutLast, cutLast, hc, show ".".toList.reverse = ['.'] from rfl, ho]
    simp
  rw [stem, name_child, splitSuffix, hcu]
  by_cases he : query = ""
  · rw [he]
    rfl
  · simp [he]

lemma query_ne {name} (h : 'q' ∉ name.toList) (query) : query ++ ".sql" ≠ name := by
  rintro rfl
  simp at h

lemma joinText_query (dir : Path) (h : '/' ∉ query.toList) :
    dir.joinText (query ++ ".sql") = dir.child (query ++ ".sql") := by
  have hs : '/' ∉ (query ++ ".sql").toList := by simpa using h
  have hm : ∀ mark ∈ marks, 'q' ∉ mark.toList := by decide +kernel
  exact joinText_of_name dir hs (query_ne (by simp) query) (query_ne (by simp) query) fun hma =>
    query_ne (hm _ hma) query rfl

/-! ## Directories of a namespace -/

def Has (t : FileTree) (dir : Path) (query : String) : Prop := t.pathExists (dir.child (query ++ ".sql"))

structure Usable (t : FileTree) (dir : Path) (query : String) : Prop where
  sql : ∃ text, t.readText (dir.child (query ++ ".sql")) = .ok text
  settings : ∃ text settings path, t.readText (dir.child "_meta.json") = .ok text ∧
    Json.read text = .ok (.map settings) ∧ Fields.get? "path" settings = some (.str path) ∧ path ≠ ""

/-- A directory shows a query: the name of a file without its suffix, or its whole name if it is nothing else. -/
def Shows (t : FileTree) (dir : Path) (query : String) : Prop :=
  (query ≠ "" ∧ query ≠ "_meta" ∧ Has t dir query) ∨ (query = ".sql" ∧ Has t dir "")

def userPlace (s : Session) (space : String) : Path := (userDirectory s).joinText space

def projectPlaces (s : Session) (space : String) : List Path :=
  ((projectDirectory? s).toList.filter s.tree.pathExists).map (·.joinText space)

def places (s : Session) (space : String) : List Path := (profileDirectories s).map (·.joinText space)

/-- A query runs from the first of some directories that has a file for it, if it has all that it needs. -/
def RunsFrom (t : FileTree) (query : String) : List Path → Prop
  | [] => False
  | dir :: rest => Usable t dir query ∨ (¬ Has t dir query ∧ RunsFrom t query rest)

/-- **A query of a namespace runs.** -/
def Runs (s : Session) (space query : String) : Prop := RunsFrom s.tree query (places s space)

lemma pathExists_of_readText {p text} (h : t.readText p = .ok text) : t.pathExists p := by
  rw [readText, readTextAs, open?] at h
  rw [pathExists]
  cases hf : t.find? p with
  | some node => rfl
  | none => simp [hf] at h

lemma Usable.has (h : Usable t dir query) : Has t dir query := by
  obtain ⟨_, ht⟩ := h.sql
  exact pathExists_of_readText ht

lemma has_iff (ht : t.Proper) : Has t dir query ↔ t.pathExists dir ∧ query ++ ".sql" ∈ (t.children dir).map (·.1) :=
  ht.pathExists_child (query_ne (by simp) query)

lemma Has.slash_not_mem (ht : t.Proper) (h : Has t dir query) : '/' ∉ query.toList := by
  have hn := ht.slash_not_mem ((has_iff ht).mp h).2
  rw [String.toList_append, mem_append] at hn
  exact fun hm => hn (.inl hm)

variable {s : Session}

/-- **The names in a listing** are those that the user's directory shows. -/
lemma name_mem_listNamespace_iff (ht : s.tree.Proper) (space query) :
    (∃ r ∈ listNamespace s space, r.item "name" = .ok (.str query)) ↔ Shows s.tree (userPlace s space) query := by
  have hna : (∃ r ∈ listNamespace s space, r.item "name" = .ok (.str query)) ↔
      ∃ stored, Has s.tree (userPlace s space) stored ∧ stored ≠ "_meta" ∧
        (if stored = "" then ".sql" else stored) = query := by
    constructor
    · rintro ⟨r, hr, hn⟩
      obtain ⟨_, hfi, rfl⟩ := mem_map.mp hr
      obtain ⟨hf, hm⟩ := mem_filter.mp hfi
      obtain ⟨hd, hf⟩ := mem_ite_nil_right.mp hf
      obtain ⟨child, hc, rfl⟩ := mem_map.mp hf
      obtain ⟨hc, hma⟩ := mem_filter.mp hc
      obtain ⟨stored, hst⟩ := (matches_suffix_iff child.1).mp hma
      have hs := Value.str.inj (Except.ok.inj hn)
      rw [hst, stem_query] at hs
      refine ⟨stored, (has_iff ht).mpr ⟨hd, hst ▸ mem_map_of_mem hc⟩, ?_, hs⟩
      rintro rfl
      rw [name_child, hst] at hm
      exact absurd hm (by decide)
    · rintro ⟨stored, hh, hm, hs⟩
      obtain ⟨hd, hc⟩ := (has_iff ht).mp hh
      obtain ⟨child, hc, hn⟩ := mem_map.mp hc
      have hma := (matches_suffix_iff child.1).mpr ⟨stored, hn⟩
      have hfi : (userPlace s space).child child.1 ∈ s.tree.matching (userPlace s space) "*.sql" :=
        mem_map_of_mem (mem_filter.mpr ⟨hc, hma⟩)
      have hk : ((userPlace s space).child child.1).name != "_meta.sql" := by
        rw [name_child, hn, bne_iff_ne]
        exact fun h => hm (String.append_left_inj ".sql" |>.mp h)
      refine ⟨_, mem_map_of_mem (mem_filter.mpr ⟨mem_ite_nil_right.mpr ⟨hd, hfi⟩, hk⟩), ?_⟩
      refine congrArg (fun name => Except.ok (Value.str name)) ?_
      rw [hn, stem_query, hs]
  rw [hna]
  constructor
  · rintro ⟨stored, hh, hm, hs⟩
    by_cases he : stored = ""
    · rw [if_pos he] at hs
      exact .inr ⟨hs.symm, he ▸ hh⟩
    · rw [if_neg he] at hs
      subst hs
      exact .inl ⟨he, hm, hh⟩
  · rintro (⟨he, hm, hh⟩ | ⟨rfl, hh⟩)
    · exact ⟨query, hh, hm, if_neg he⟩
    · exact ⟨"", hh, by decide, if_pos rfl⟩

/-! ## Running -/

lemma databaseOf_ok_iff (dir settings) :
    (∃ file, databaseOf dir settings = .ok file) ↔ ∃ path, Fields.get? "path" settings = some (.str path) ∧ path ≠ "" := by
  rw [databaseOf]
  split
  · simp_all [databaseOf.missing]
  · simp_all [databaseOf.missing]
  · simp_all
  · split <;> simp_all [databaseOf.missing]

lemma read_ok_iff (t dir query) :
    (∃ stored, Stored.read t dir (dir.child (query ++ ".sql")) = .ok stored) ↔ Usable t dir query := by
  constructor
  · rintro ⟨stored, h⟩
    obtain ⟨sql, hs, h⟩ := bind_eq_ok.mp h
    dsimp only at h
    split at h
    · cases h
    · obtain ⟨text, ht, h⟩ := bind_eq_ok.mp h
      obtain ⟨v, hr, h⟩ := bind_eq_ok.mp h
      cases v with
      | map se =>
        obtain ⟨file, hf, -⟩ := bind_eq_ok.mp h
        obtain ⟨path, hp⟩ := (databaseOf_ok_iff dir se).mp ⟨file, hf⟩
        exact ⟨⟨sql, hs⟩, text, se, path, ht, hr, hp⟩
      | _ => cases h
  · rintro ⟨⟨sql, hs⟩, text, se, path, ht, hr, hp⟩
    obtain ⟨file, hf⟩ := (databaseOf_ok_iff dir se).mpr ⟨path, hp⟩
    refine ⟨⟨file, sql, se⟩, ?_⟩
    rw [Stored.read, hs]
    refine bind_eq_ok.mpr ⟨sql, rfl, ?_⟩
    simp only [pathExists_of_readText ht, ht]
    refine bind_eq_ok.mpr ⟨text, rfl, ?_⟩
    rw [hr]
    refine bind_eq_ok.mpr ⟨_, rfl, ?_⟩
    dsimp only
    rw [hf]
    rfl

lemma runsFrom_map_iff (hq : '/' ∉ query.toList) (roots : List Path) : RunsFrom t query (roots.map (·.joinText space)) ↔
      ∃ root, roots.find? (fun dir => t.pathExists ((dir.joinText space).joinText (query ++ ".sql"))) = some root ∧
        Usable t (root.joinText space) query := by
  induction roots with
  | nil => simp [RunsFrom]
  | cons root roots ih =>
    rw [map_cons, RunsFrom, ih, find?_cons, joinText_query _ hq]
    by_cases hh : Has t (root.joinText space) query
    · rw [show t.pathExists ((root.joinText space).child (query ++ ".sql")) = true from hh]
      simp [hh]
    · have hn : ¬ Usable t (root.joinText space) query := fun h => hh h.has
      rw [show t.pathExists ((root.joinText space).child (query ++ ".sql")) = false by simpa [Has] using hh]
      simp [hh, hn]

/-- **A query is found** exactly if it runs. -/
lemma load_ok_iff (s) (hs : '/' ∉ space.toList) (hq : '/' ∉ query.toList) :
    (∃ stored, load s ("@" ++ space ++ "/" ++ query) = .ok stored) ↔ Runs s space query := by
  have hst : S.dropStart? "@" ("@" ++ space ++ "/" ++ query) = some (space ++ "/" ++ query) := by
    simp [S.dropStart?, dropStart?, String.append_assoc]
  have hc : S.cutOnce "/" (space ++ "/" ++ query) = some (space, query) := by
    have ho := cutOnce_of_not_mem hs query.toList
    simp [S.cutOnce, ho]
  rw [Runs, places, runsFrom_map_iff hq, load, hst]
  dsimp only
  rw [hc]
  dsimp only
  cases hf : (profileDirectories s).find? fun dir =>
      s.tree.pathExists ((dir.joinText space).joinText (query ++ ".sql")) with
  | none => simp
  | some root => simp only [joinText_query _ hq, read_ok_iff, Option.some.injEq, exists_eq_left']

/-! ## Both -/

structure Mirrored (s : Session) (space : String) : Prop where
  /-- no query that it shows begins with an underscore -/
  visible : ∀ query, Shows s.tree (userPlace s space) query → S.startsWith "_" query = false
  runs : ∀ query, Shows s.tree (userPlace s space) query → Runs s space query
  project : ∀ dir ∈ projectPlaces s space, ∀ query, S.startsWith "_" query = false →
    Usable s.tree dir query → Shows s.tree (userPlace s space) query
  /-- a file with no name before its suffix does not run -/
  nameless : ¬ Runs s space ""

def CanRun (s : Session) (space query : String) : Prop :=
  '/' ∉ query.toList ∧ S.startsWith "_" query = false ∧ ∃ stored, load s ("@" ++ space ++ "/" ++ query) = .ok stored

lemma runsFrom_iff_of_places {dirs rest} (h : dirs.length ≤ 1) : RunsFrom t query (dirs ++ rest) ↔
      (∃ dir ∈ dirs, Usable t dir query) ∨ ((∀ dir ∈ dirs, ¬ Has t dir query) ∧ RunsFrom t query rest) := by
  match dirs, h with
  | [], _ => simp
  | [dir], _ => simp [RunsFrom]

lemma runs_iff (s space query) : Runs s space query ↔ (∃ dir ∈ projectPlaces s space, Usable s.tree dir query) ∨
      ((∀ dir ∈ projectPlaces s space, ¬ Has s.tree dir query) ∧
        s.tree.pathExists (userDirectory s) ∧ Usable s.tree (userPlace s space) query) := by
  have hl : (projectPlaces s space).length ≤ 1 := by
    rw [projectPlaces, length_map]
    refine (length_filter_le ..).trans ?_
    cases projectDirectory? s <;> simp
  rw [Runs, places, profileDirectories, filter_append, map_append]
  refine (runsFrom_iff_of_places hl).trans ?_
  by_cases hh : s.tree.pathExists (userDirectory s) = true <;> simp [hh, RunsFrom, userPlace]

lemma Shows.slash_not_mem (ht : t.Proper) (h : Shows t dir query) : '/' ∉ query.toList := by
  rcases h with ⟨-, -, hh⟩ | ⟨rfl, -⟩
  · exact hh.slash_not_mem ht
  · simp

lemma not_shows_empty (t dir) : ¬ Shows t dir "" := by
  rintro (⟨he, -⟩ | ⟨hs, -⟩)
  · exact he rfl
  · exact absurd hs (by decide)

lemma shows_iff_runs_iff (ht : s.tree.Proper) (space) : (∀ query, Shows s.tree (userPlace s space) query ↔
        '/' ∉ query.toList ∧ S.startsWith "_" query = false ∧ Runs s space query) ↔ Mirrored s space := by
  constructor
  · intro h
    refine ⟨fun query hs => ((h query).mp hs).2.1, fun query hs => ((h query).mp hs).2.2, ?_, ?_⟩
    · intro dir hd query hv hu
      have hr := (runs_iff s space query).mpr (.inl ⟨dir, hd, hu⟩)
      exact (h query).mpr ⟨hu.has.slash_not_mem ht, hv, hr⟩
    · intro hr
      exact not_shows_empty _ _ ((h "").mpr ⟨by simp, by decide, hr⟩)
  · intro h query
    refine ⟨fun hs => ⟨hs.slash_not_mem ht, h.visible query hs, h.runs query hs⟩, ?_⟩
    rintro ⟨-, hv, hr⟩
    rcases (runs_iff s space query).mp hr with ⟨dir, hd, hu⟩ | ⟨-, -, hu⟩
    · exact h.project dir hd query hv hu
    · -- a file of the user's own is shown, whatever else there is
      refine .inl ⟨?_, ?_, hu.has⟩
      · rintro rfl
        exact h.nameless hr
      · rintro rfl
        exact absurd hv (by decide)

lemma outcome_read_namespace (engine) {config} (hs : '/' ∉ space.toList)
    (hc : firstGiven config ["url", "path", "address"] = some (.str ("@" ++ space))) (s) :
    (read deliver engine config).outcome s = (.ok (), s.extended (listNamespace s space) []) := by
  have hst : S.dropStart? "@" ("@" ++ space) = some space := by simp [S.dropStart?, dropStart?]
  have hsl : S.contains "/" space = false := by
    rw [S.contains, show "/".toList = ['/'] from rfl, contains_singleton]
    simpa using hs
  have hp : plan s config = .ok (.stored space) := by
    simp only [plan, hc, hst, hsl]
    rfl
  rw [read, bind_of_ok (outcome_get s), hp, bind_of_ok (outcome_ofResult_ok _ s)]
  exact (bind_of_ok (outcome_get s)).trans (outcome_forEach_deliver ..)

/-- **When a namespace lists what it can run**: exactly if the user's directory mirrors what runs. -/
theorem lists_what_runs_iff {s : Session} (ht : s.tree.Proper) {space : String} (hspace : '/' ∉ space.toList)
    (engine : Engine) {config : Fields}
    (hconfig : firstGiven config ["url", "path", "address"] = some (.str ("@" ++ space))) :
    ∃ records, (read Act.deliver engine config).outcome s = (.ok (), s.extended records []) ∧
      ((∀ query, (∃ r ∈ records, r.item "name" = .ok (.str query)) ↔ CanRun s space query) ↔ Mirrored s space) := by
  refine ⟨listNamespace s space, outcome_read_namespace engine hspace hconfig s, ?_⟩
  rw [← shows_iff_runs_iff ht]
  refine forall_congr' fun query => ?_
  have hcan : CanRun s space query ↔ '/' ∉ query.toList ∧ Text.S.startsWith "_" query = false ∧ Runs s space query :=
    and_congr_right fun hquery => and_congr_right fun _ => load_ok_iff s hspace hquery
  rw [name_mem_listNamespace_iff ht, hcan]

/-! ### A namespace with one query -/

def salesPlace : Path := ⟨"$ROOT", ["jn", "profiles", "duckdb", "sales"]⟩

def salesTree : FileTree :=
  ⟨[(⟨"$ROOT", ["jn"]⟩, .directory), (⟨"$ROOT", ["jn", "profiles"]⟩, .directory),
    (⟨"$ROOT", ["jn", "profiles", "duckdb"]⟩, .directory), (salesPlace, .directory),
    (salesPlace.child "total.sql", .file (.text "SELECT 1") false),
    (salesPlace.child "_meta.json", .file (.text "\x7b\"path\": \"sales.db\"\x7d") false)]⟩

def userSales : Session := { tree := salesTree, env := [("JN_HOME", "$ROOT/jn")] }

def projectSales : Session := { tree := salesTree, env := [("JN_PROJECT_DIR", "$ROOT/jn"), ("JN_HOME", "$ROOT/home")] }

lemma proper_sales : salesTree.Proper where
  parents := by
    intro e he
    simp only [salesTree, mem_cons, not_mem_nil, or_false] at he
    rcases he with rfl | rfl | rfl | rfl | rfl | rfl <;> rfl
  names := by
    intro e he
    simp only [salesTree, mem_cons, not_mem_nil, or_false] at he
    rcases he with rfl | rfl | rfl | rfl | rfl | rfl <;> decide +kernel

lemma has_sales (h : Has salesTree salesPlace query) : query = "total" := by
  obtain ⟨-, hn⟩ := (has_iff proper_sales).mp h
  obtain ⟨e, he, hp⟩ := mem_children_iff.mp hn
  have hn := congrArg name hp
  simp only [salesTree, mem_cons, not_mem_nil, or_false] at he
  rcases he with rfl | rfl | rfl | rfl | rfl | rfl
  case inr.inr.inr.inr.inl => exact (String.append_left_inj ".sql").mp hn.symm
  all_goals exact absurd hn.symm (query_ne (by decide +kernel) query)

lemma usable_sales : Usable salesTree salesPlace "total" where
  sql := ⟨"SELECT 1", rfl⟩
  settings := ⟨"\x7b\"path\": \"sales.db\"\x7d", [("path", "sales.db")], "sales.db", rfl, Json.read_of_chars rfl rfl, rfl, by decide⟩

lemma slash_not_mem_sales : '/' ∉ "sales".toList := by decide

lemma firstGiven_sales : firstGiven [("path", "@sales")] ["url", "path", "address"] = some (.str ("@" ++ "sales")) := rfl

lemma mirrored_user : Mirrored userSales "sales" := by
  have hp : projectPlaces userSales "sales" = [] := rfl
  have hh {query : String} (h : Shows userSales.tree (userPlace userSales "sales") query) : query = "total" := by
    rcases h with ⟨-, -, h⟩ | ⟨-, h⟩
    · exact has_sales h
    · exact absurd (has_sales h) (by decide)
  refine ⟨fun query h => hh h ▸ by decide, fun query h => ?_, fun dir hd => ?_, fun h => ?_⟩
  · rw [hh h, runs_iff, hp]
    exact .inr ⟨by simp, by decide +kernel, usable_sales⟩
  · cases hd
  · rw [runs_iff] at h
    rcases h with ⟨dir, hd, -⟩ | ⟨-, -, h⟩
    · cases hd
    · exact absurd (has_sales h.has) (by decide)

/-- The user's namespace lists what it can run. -/
theorem lists_what_runs_user : Mirrored userSales "sales" ∧
    ∃ records, (read Act.deliver {} [("path", .str "@sales")]).outcome userSales =
        (.ok (), userSales.extended records []) ∧
      ∀ query, (∃ r ∈ records, r.item "name" = .ok (.str query)) ↔ CanRun userSales "sales" query := by
  refine ⟨mirrored_user, ?_⟩
  obtain ⟨records, hrun, hiff⟩ := lists_what_runs_iff (s := userSales) proper_sales slash_not_mem_sales {}
    firstGiven_sales
  exact ⟨records, hrun, hiff.mpr mirrored_user⟩

theorem runs_but_not_listed_project : CanRun projectSales "sales" "total" ∧
    (read Act.deliver {} [("path", .str "@sales")]).outcome projectSales = (.ok (), projectSales.extended [] []) := by
  have hproject : projectPlaces projectSales "sales" = [salesPlace] := by decide +kernel
  have hruns : Runs projectSales "sales" "total" := by
    rw [runs_iff, hproject]
    exact .inl ⟨salesPlace, List.mem_singleton_self _, usable_sales⟩
  have hquery : '/' ∉ "total".toList := by decide
  refine ⟨⟨hquery, by decide, (load_ok_iff projectSales slash_not_mem_sales hquery).mpr hruns⟩, ?_⟩
  have hnone : projectSales.tree.pathExists ((userDirectory projectSales).joinText "sales") = false := by decide +kernel
  have hlist : listNamespace projectSales "sales" = [] := by simp [listNamespace, hnone]
  rw [outcome_read_namespace {} slash_not_mem_sales firstGiven_sales, hlist]

end Database

end Sluice
