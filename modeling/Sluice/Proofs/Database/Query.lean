import Sluice.Database.Command
import Sluice.Proofs.Machine.Session

/-! # Texts of queries and the parameters in them -/

namespace Sluice.Database

open List Text Act

/-- Where one is in a query. Comments nest. -/
inductive Place
  | code | dash | slash | literal | name | line
  | block (depth : Nat) | star (depth : Nat) | opening (depth : Nat)

/-- A quote that is written twice ends a literal and begins the next one. -/
def Place.step : Place → Char → Place
  | .literal, c => if c = '\'' then .code else .literal
  | .name, c => if c = '"' then .code else .name
  | .line, c => if c = '\n' then .code else .line
  | .star 0, '/' => .code
  | .star (d + 1), '/' => .block d
  | .opening d, '*' => .block (d + 1)
  | .block d, '*' | .star d, '*' => .star d
  | .block d, '/' | .opening d, '/' => .opening d
  | .block d, _ | .star d, _ | .opening d, _ => .block d
  | .dash, '-' => .line
  | .slash, '*' => .block 0
  | _, '\'' => .literal
  | _, '"' => .name
  | _, '-' => .dash
  | _, '/' => .slash
  | _, _ => .code

def Place.isCode : Place → Bool
  | .code | .dash | .slash => true
  | _ => false

/-- The character stands in a literal, a quoted name or a comment. -/
def IsProtected (sql : Chars) (i : Nat) : Prop := ((sql.take i).foldl Place.step .code).isCode = false

/-! ## Parameters -/

variable {before : Option Char} {sql : Chars} {i : Nat}

def previous (before : Option Char) (sql : Chars) : Nat → Option Char
  | 0 => before
  | i + 1 => sql[i]?

/-- A single colon before a name. -/
def IsParameter (before : Option Char) (sql : Chars) (i : Nat) : Prop :=
  sql[i]? = some ':' ∧ previous before sql i ≠ some ':' ∧ sql[i + 1]?.any isNameStart

instance : Decidable (IsParameter before sql i) := inferInstanceAs (Decidable (_ ∧ _ ∧ _))

lemma isParameter_zero {c} :
    IsParameter before (c :: sql) 0 ↔ c = ':' ∧ before ≠ some ':' ∧ sql.head?.any isNameStart = true := by
  simp [IsParameter, previous, head?_eq_getElem?]

lemma isParameter_succ {c} : IsParameter before (c :: sql) (i + 1) ↔ IsParameter (some c) sql i := by cases i <;> rfl

/-- **The rewriting goes by position**: that a name is passed over makes no difference, as it holds no colon. -/
lemma getElem?_dollarFrom (inName) :
    (dollarFrom inName before sql)[i]? = if IsParameter before sql i then some '$' else sql[i]? := by
  have hco : isWordChar ':' = false := by decide
  induction sql generalizing inName before i with
  | nil => simp [dollarFrom, IsParameter]
  | cons c sql ih =>
    cases i with
    | zero =>
      rw [dollarFrom]
      split
      · rename_i hw
        have hc : c ≠ ':' := by
          rintro rfl
          simp [hco] at hw
        simp [isParameter_zero, hc]
      · simp only [isParameter_zero]
        split <;> simp [*]
    | succ i =>
      rw [dollarFrom]
      simp only [isParameter_succ]
      split
      · exact ih true
      · split
        · exact ih true
        · exact ih false

lemma length_dollarFrom (inName) : (dollarFrom inName before sql).length = sql.length := by
  induction sql generalizing inName before with
  | nil => rfl
  | cons c sql ih =>
    rw [dollarFrom]
    split
    · simp [ih]
    · split <;> simp [ih]

lemma getElem?_dollarFrom_ne_iff : (dollarFrom false before sql)[i]? ≠ sql[i]? ↔ IsParameter before sql i := by
  rw [getElem?_dollarFrom]
  split
  · rename_i h
    simp [h, h.1]
  · rename_i h
    simp [h]

/-- **Parameters are rewritten position by position**: a single colon before a name becomes a dollar sign and nothing else
changes, so casts stay, and what was rewritten stays as it is. -/
theorem parameters_rewritten (text : String) :
    (dollarParams text).length = text.length ∧
      (∀ i, (dollarParams text).toList[i]? = if IsParameter none text.toList i then some '$' else text.toList[i]?) ∧
      (∀ i, text.toList[i]? = some ':' → text.toList[i + 1]? = some ':' →
        (dollarParams text).toList[i]? = some ':' ∧ (dollarParams text).toList[i + 1]? = some ':') ∧
      dollarParams (dollarParams text) = dollarParams text := by
  have hat (text : String) (i : Nat) :
      (dollarParams text).toList[i]? = if IsParameter none text.toList i then some '$' else text.toList[i]? := by
    rw [dollarParams, String.toList_ofList, getElem?_dollarFrom]
  have hname : isNameStart ':' = false := by decide
  refine ⟨?_, hat text, fun i hi hnext => ⟨?_, ?_⟩, ?_⟩
  · rw [← String.length_toList, ← String.length_toList, dollarParams, String.toList_ofList, length_dollarFrom]
  · rw [hat, if_neg, hi]
    rintro ⟨-, -, h⟩
    simp [hnext, hname] at h
  · rw [hat, if_neg, hnext]
    exact fun h => h.2.1 hi
  · refine String.toList_inj.mp (List.ext_getElem? fun i => ?_)
    rw [hat (dollarParams text), if_neg]
    rintro ⟨hi, hbefore, hnext⟩
    rw [hat] at hi hnext
    split at hi
    · cases hi
    · rename_i hnot
      split at hnext
      · cases hnext
      · -- the colon stayed because of one before it, which begins no parameter
        refine hnot ⟨hi, fun hprevious => hbefore ?_, hnext⟩
        cases i with
        | zero => cases hprevious
        | succ i =>
          refine (hat text i).trans ((if_neg fun h => ?_).trans hprevious)
          have hstart := h.2.2
          simp [hi, hname] at hstart

variable {engine : Engine} {file text : String} {params config : Fields} {s : Session}

lemma notes_forEach_deliver {α : Type} (f : α → Value) (items) : (forEach items fun a => deliver (f a)).Notes [] := by
  induction items with
  | nil => exact notes_pure ()
  | cons a items ih => exact notes_bind (notes_deliver (f a)) fun _ => ih

def asked (file text : String) (params : Fields) : List Value :=
  [.list ["connect", file, true], .list ["execute", text, if params.isEmpty then .null else .map params], .list ["close"]]

lemma notes_ask (hc : engine.connect file = .ok ()) :
    (engine.ask deliver file (.str text) params).Notes (asked file (dollarParams text) params) := by
  refine notes_log_bind ?_
  rw [hc]
  change Act.Notes _ ([_] ++ [_])
  refine notes_ensuring (notes_log_bind ?_) (notes_log_bind (notes_pure ()))
  cases engine.execute (dollarParams text) params with
  | error e => exact notes_fail _
  | ok answer => exact notes_forEach_deliver answer.record answer.rows

/-- **What is asked differs from the query at its parameters**, and nowhere else; so literals, quoted names and comments are
left alone exactly if no parameter stands in them. -/
theorem asked_differs_iff {engine : Engine} {config params : Fields} {file text : String} {s : Session}
    (hplan : plan s config = .ok (.query file (.str text) params)) (hconnect : engine.connect file = .ok ()) :
    ∃ rewritten, ((read deliver engine config).outcome s).2.calls = (asked file rewritten params).reverse ++ s.calls ∧
      (∀ i, rewritten.toList[i]? ≠ text.toList[i]? ↔ IsParameter none text.toList i) ∧
      ((∀ i, IsProtected text.toList i → rewritten.toList[i]? = text.toList[i]?) ↔
        ∀ i, IsProtected text.toList i → ¬ IsParameter none text.toList i) := by
  have hdiffers (i : Nat) : (dollarParams text).toList[i]? ≠ text.toList[i]? ↔ IsParameter none text.toList i := by
    rw [dollarParams, String.toList_ofList]
    exact getElem?_dollarFrom_ne_iff
  refine ⟨dollarParams text, ?_, hdiffers, ?_⟩
  · rw [read, bind_of_ok (outcome_get s), hplan]
    exact notes_ask hconnect s
  · refine forall_congr' fun i => imp_congr_right fun _ => ?_
    rw [← hdiffers i, Decidable.not_not]

theorem asked_differs_at_parameter : ∃ rewritten,
    ((read deliver {} [("path", "f"), ("query", "SELECT :n")]).outcome {}).2.calls = (asked "f" rewritten []).reverse ∧
      rewritten.toList[7]? ≠ "SELECT :n".toList[7]? := by
  obtain ⟨rewritten, hcalls, hdiffers, -⟩ := @asked_differs_iff {} [("path", "f"), ("query", "SELECT :n")] [] "f" "SELECT :n" {} rfl rfl
  exact ⟨rewritten, hcalls, (hdiffers 7).mpr ⟨rfl, by decide, rfl⟩⟩

/-- A literal that looks like a parameter is changed. -/
theorem literal_rewritten : IsProtected "SELECT ':n'".toList 8 ∧ dollarParams "SELECT ':n'" = "SELECT '$n'" :=
  ⟨rfl, by decide +kernel⟩

/-! ## Reported parameters -/

variable {t : FileTree} {path : Path} {name line sql : String}

/-- A name stands behind a dollar sign, or behind a single colon. -/
def Uses (sql : Chars) (name : String) : Prop :=
  name.toList.head?.any isNameStart = true ∧ ∃ i, (sql.drop (i + 1)).takeWhile isWordChar = name.toList ∧
    (sql[i]? = some '$' ∨ sql[i]? = some ':' ∧ previous none sql i ≠ some ':')

/-- Names are looked for behind a backslash, which begins no name. -/
lemma not_uses_of_mem_markedNames {text cs : Chars} (h : name ∈ markedNames cs) : ¬ Uses text name := by
  induction cs with
  | nil => cases h
  | cons c cs ih =>
    rw [markedNames.eq_def] at h
    rcases mem_append.mp h with h | h
    · rintro ⟨hn, -⟩
      dsimp only at h
      split_ifs at h
      · split at h
        · split_ifs at h
          · cases h
          · rw [mem_singleton.mp h, String.toList_ofList] at hn
            cases (show isNameStart '\\' = true from hn)
        · cases h
      · cases h
    · exact ih h

lemma paramName_of_blank {p} (h : strip p = []) : paramName p = "" := by
  obtain ⟨a, b, ha, hb, hp⟩ := exists_trim_around isBlank p
  refine S.strip_eq_empty fun c hc => ?_
  rw [String.toList_ofList] at hc
  have hm := ( takeWhile_prefix _).subset hc
  rw [hp, ← strip, h] at hm
  exact (mem_append.mp hm).elim (ha c) (hb c)

/-- A line that is taken for a list of parameters in the same way by inspection and by reading. -/
def IsListing (line : String) : Prop := ∃ rest ≠ "", line = "-- Parameters:" ++ rest

lemma exists_of_isListing (h : IsListing line) : ∃ text, declaration? line.toList = some text ∧
    listed? line = some ((splitAtChar ',' text).map paramName) := by
  obtain ⟨rest, hne, rfl⟩ := h
  have hl : ("-- Parameters:" ++ rest).toList = ['-', '-', ' '] ++ ("Parameters:".toList ++ rest.toList) := by
    rw [String.toList_append, toList_eq (s := "-- Parameters:") rfl]
    rfl
  have hc : S.contains "-- Parameters:" ("-- Parameters:" ++ rest) := by
    rw [S.contains, hl]
    rfl
  have hcut : S.cutOnce "Parameters:" ("-- Parameters:" ++ rest) = some ("-- ", rest) := by
    rw [S.cutOnce, hl]
    exact congrArg (fun s => some ("-- ", s)) String.ofList_toList
  obtain ⟨c, _, hr⟩ := exists_cons_of_ne_nil (mt String.toList_eq_nil_iff.mp hne)
  refine ⟨strip rest.toList, ?_, ?_⟩
  · rw [hl, hr]
    rfl
  · rw [listed?, if_pos hc, hcut]
    simp [S.strip]

lemma listedParams_eq (h : t.readText path = .ok sql) :
    listedParams t path = ((headLines sql).findSome? listed?).getD (markedNames sql.toList).eraseDups := by
  rw [listedParams, h]
  dsimp only [Notes.ofSql]
  cases hf : (headLines sql).findSome? listed? with
  | none => rfl
  | some names =>
    obtain ⟨line, -, hl⟩ := exists_of_findSome?_eq_some hf
    have hne : names ≠ [] := by
      rintro rfl
      rw [listed?] at hl
      split_ifs at hl
      exact splitAtChar_ne_nil _ _ (map_eq_nil_iff.mp (Option.some.inj hl))
    simp [hne]

/-- **What is reported as parameters.** A line that lists them is read as the declaration that binds them; without one, the
names in use are reported exactly if there are none. -/
theorem listedParams_agree (hread : t.readText path = .ok sql) :
    (∀ before line after, headLines sql = before ++ line :: after → IsListing line →
      (∀ l ∈ before, declaration? l.toList = none ∧ listed? l = none) →
      ∀ name ≠ "", name ∈ listedParams t path ↔ name ∈ declaredParams sql) ∧
    ((∀ line ∈ headLines sql, listed? line = none) →
      ((∀ name, name ∈ listedParams t path ↔ Uses sql.toList name) ↔ listedParams t path = [] ∧ ∀ name, ¬ Uses sql.toList name)) := by
  rw [listedParams_eq hread]
  refine ⟨fun before line after hlines hline hbefore name hname => ?_, fun hno => ?_⟩
  · obtain ⟨text, hdeclared, hlisted⟩ := exists_of_isListing hline
    have hnone : before.findSome? listed? = none ∧ (before.findSome? fun l => declaration? l.toList) = none :=
      ⟨findSome?_eq_none_iff.mpr fun l hl => (hbefore l hl).2, findSome?_eq_none_iff.mpr fun l hl => (hbefore l hl).1⟩
    simp only [declaredParams, hlines, findSome?_append, hnone, findSome?_cons, hdeclared, hlisted, Option.none_or, Option.getD_some,
      mem_map, mem_filter]
    refine exists_congr fun p => ⟨?_, ?_⟩
    · rintro ⟨hp, rfl⟩
      refine ⟨⟨hp, ?_⟩, rfl⟩
      by_contra hb
      exact hname (paramName_of_blank (by simpa using hb))
    · rintro ⟨⟨hp, -⟩, rfl⟩
      exact ⟨hp, rfl⟩
  · rw [findSome?_eq_none_iff.mpr hno, Option.getD_none]
    constructor
    · intro h
      refine ⟨eq_nil_iff_forall_not_mem.mpr fun name hm => ?_, fun name hu => ?_⟩
      · exact not_uses_of_mem_markedNames (mem_eraseDups.mp hm) ((h name).mp hm)
      · exact not_uses_of_mem_markedNames (mem_eraseDups.mp ((h name).mpr hu)) hu
    · rintro ⟨hn, hu⟩ name
      rw [hn]
      exact iff_of_false not_mem_nil (hu name)

def queryFile (sql : String) : FileTree := ⟨[(⟨"/", ["q.sql"]⟩, .file (.text sql) false)]⟩

theorem listed_and_declared : "a" ∈ listedParams (queryFile "-- Parameters: a,") ⟨"/", ["q.sql"]⟩ ↔
    "a" ∈ declaredParams "-- Parameters: a," :=
  (listedParams_agree rfl).1 [] _ [] (by decide +kernel) ⟨" a,", by decide, rfl⟩ (by simp) "a" (by decide)

/-- A parameter that is not listed is not reported. -/
theorem used_not_reported : listedParams (queryFile "SELECT $a") ⟨"/", ["q.sql"]⟩ = [] ∧ Uses "SELECT $a".toList "a" :=
  ⟨by decide +kernel, by decide, 7, by decide, .inl rfl⟩

end Sluice.Database
