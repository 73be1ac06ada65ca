import StopArrivals.Batch.Scan
import StopArrivals.Proofs.EachMember
import StopArrivals.Proofs.Tokens

/-!
# The tokens of a scan

The text of a scan is read as a fixed sequence of words, marks and numbers in which each file, each
column and each text that a filter compares with stands as one token, whatever characters it is made
of (`scan_tokens`). So no value can end its quotes early, and scans of one shape that differ in a
value differ in their text.
-/

namespace StopArrivals.Sql

/-! ## Literals -/

/-- A number in tokens; a minus sign is a token of its own. -/
def numberTokens (text : String) : List Token :=
  match text.toList with
  | '-' :: cs => [.mark '-', .number (String.ofList cs)]
  | cs => [.number (String.ofList cs)]

theorem numberTokens_of_numeral {text : String} (h : IsNumeral text.toList) :
    tokens? text.toList = some (numberTokens text) := by
  obtain ⟨d, rest, hcs, hd⟩ := h.first
  rw [h.tokens?, numberTokens, hcs]
  split
  · next cs heq =>
    obtain ⟨rfl, -⟩ := List.cons.inj heq
    cases hd
  · rfl

theorem numberTokens_of_negative {text : String} {cs : List Char} (hcs : text.toList = '-' :: cs)
    (h : IsNumeral cs) : tokens? text.toList = some (numberTokens text) := by
  rw [numberTokens, hcs, h.tokens?_negative]
  rfl

/-- A floating-point number is spelled with a point or an exponent. -/
theorem isNumeral_shortest (x : Binary64) :
    ∃ body, (IsNumeral body ∧ ∃ c ∈ body, c.isDigit = false) ∧
      (Shortest.text x).toList = (if x.negative then ['-'] else []) ++ body := by
  have hsign : (if x.negative then "-" else "").toList = if x.negative then ['-'] else [] := by
    cases x.negative <;> rfl
  rw [Shortest.text]
  dsimp only
  by_cases hzero : x.isZero
  · refine ⟨['0', '.', '0'], ⟨⟨⟨'0', _, rfl, rfl⟩, rfl⟩, '.', by simp, rfl⟩, ?_⟩
    rw [if_pos hzero, String.toList_append, hsign]
    rfl
  rw [if_neg hzero]
  generalize Shortest.decimal x = decimal
  obtain ⟨d, p⟩ := decimal
  refine ⟨_, ?_, by rw [String.toList_append, hsign, String.toList_ofList]⟩
  dsimp only
  have hne : Nat.toDigits 10 d ≠ [] := Nat.toDigits_ne_nil
  have hdigit : ∀ c ∈ Nat.toDigits 10 d, c.isDigit = true :=
    fun c hc => Nat.isDigit_of_mem_toDigits (by decide) (by decide) hc
  generalize Nat.toDigits 10 d = digits at hne hdigit ⊢
  generalize (digits.length : Int) + p = lead
  have hzeros (n : Nat) : ∀ c ∈ List.replicate n '0', c.isDigit = true :=
    fun c hc => List.eq_of_mem_replicate hc ▸ rfl
  have htake (n : Nat) (hn : n ≠ 0) : IsNumeral (digits.take n) :=
    .of_digits (by simp [hn, hne]) fun c hc => hdigit c (List.mem_of_mem_take hc)
  have hdrop (n : Nat) : ∀ c ∈ digits.drop n, c.isDigit = true :=
    fun c hc => hdigit c (List.mem_of_mem_drop hc)
  split
  · split
    · exact ⟨((IsNumeral.of_digits hne hdigit).append_digits (hzeros _)).append_fraction (hzeros 1),
        '.', by simp, rfl⟩
    · split
      · exact ⟨(htake _ (by omega)).append_fraction (hdrop _), '.', by simp, rfl⟩
      · have hzero : IsNumeral ['0'] := .of_digits (by decide) (hzeros 1)
        exact ⟨hzero.append_fraction (List.forall_mem_append.mpr ⟨hzeros _, hdigit⟩),
          '.', by simp, rfl⟩
  · refine ⟨IsNumeral.append_exponent ?_ ?_ fun c hc =>
      Nat.isDigit_of_mem_toDigits (by decide) (by decide) hc, 'e', by simp, rfl⟩
    · split
      · rw [List.append_nil]
        exact htake 1 (by decide)
      · exact (htake 1 (by decide)).append_fraction (hdrop 1)
    · split
      · exact .inr rfl
      · exact .inl rfl

theorem tokens?_number (n : Number) : tokens? n.text.toList = some (numberTokens n.text) := by
  cases n with
  | integer v =>
    have hchars : (Number.integer v).text.toList = integerChars v := String.toList_ofList
    cases v with
    | ofNat n => exact numberTokens_of_numeral (hchars ▸ IsNumeral.of_toDigits n)
    | negSucc n => exact numberTokens_of_negative hchars (IsNumeral.of_toDigits (n + 1))
  | float x =>
    obtain ⟨body, ⟨hbody, -⟩, htext⟩ := isNumeral_shortest x
    change (Number.float x).text.toList = _ at htext
    split at htext
    · exact numberTokens_of_negative htext hbody
    · exact numberTokens_of_numeral (htext ▸ hbody)

def literalTokens : Json → List Token
  | .null => [.word "NULL"]
  | .bool b => [.word (if b then "true" else "false")]
  | .number n => numberTokens n.text
  | .text s => [.text s]
  | .list _ | .object _ => []

theorem tokens?_sqlLiteral {v : Json} {sql : String} (h : sqlLiteral v = .ok sql) :
    tokens? sql.toList = some (literalTokens v) := by
  cases v with
  | null => cases h; rfl
  | bool b => cases h; cases b <;> rfl
  | number n => cases h; exact tokens?_number n
  | text s => cases h; exact tokens?_sqlText s
  | list | object => cases h

/-! ## Filters -/

def separated (items : List (List Token)) : List Token := [.mark ','].intercalate items

end Sql

open Sql

def Filter.tokens (f : Filter) : List Token :=
  match f.test with
  | .differs .null => [.name f.column, .word "IS", .word "NOT", .word "NULL"]
  | .differs value =>
    [.name f.column, .word "IS", .word "NOT", .word "NULL", .word "AND", .name f.column,
      .mark '<', .mark '>'] ++ literalTokens value
  | .oneOf [] => [.word "false"]
  | .oneOf values =>
    [.name f.column, .word "IN", .mark '('] ++ separated (values.map literalTokens) ++ [.mark ')']
  | .above value => [.name f.column, .mark '>'] ++ literalTokens value

theorem Filter.sql_differs {column : String} {value : Json} (h : value ≠ .null) :
    Filter.sql ⟨column, .differs value⟩ = sqlLiteral value >>= fun literal =>
      .ok (sqlName column ++ " IS NOT NULL AND " ++ sqlName column ++ " <> " ++ literal) := by
  cases value with
  | null => exact absurd rfl h
  | bool | number | text | list | object => rfl

theorem Filter.tokens_differs {column : String} {value : Json} (h : value ≠ .null) :
    Filter.tokens ⟨column, .differs value⟩ =
      [.name column, .word "IS", .word "NOT", .word "NULL", .word "AND", .name column,
        .mark '<', .mark '>'] ++ literalTokens value := by
  cases value with
  | null => exact absurd rfl h
  | bool | number | text | list | object => rfl

namespace Sql

theorem tokens?_literals {values : List Json} {literals : List String}
    (h : values.mapM sqlLiteral = .ok literals) :
    tokens? (", ".intercalate literals).toList = some (separated (values.map literalTokens)) := by
  rw [String.toList_intercalate]
  refine tokens?_separated ?_
  rw [List.forall₂_map_left_iff, List.forall₂_map_right_iff]
  exact (mapM_eq_ok_iff.mp h).flip.imp fun _ _ hliteral => tokens?_sqlLiteral hliteral

theorem tokens?_filter {f : Filter} {sql : String} (h : f.sql = .ok sql) :
    tokens? sql.toList = some f.tokens := by
  obtain ⟨column, test⟩ := f
  have hcolumn := tokens?_sqlName column
  cases test with
  | differs value =>
    by_cases hnull : value = .null
    · subst hnull
      cases h
      rw [String.toList_append]
      have hpresent : tokens? " IS NOT NULL".toList =
          some [.word "IS", .word "NOT", .word "NULL"] := rfl
      exact tokens?_append hcolumn rfl hpresent
    · rw [Filter.sql_differs hnull] at h
      obtain ⟨literal, hliteral, h⟩ := exists_of_bind_eq_ok h
      cases h
      rw [Filter.tokens_differs hnull]
      have hpresent : Whole " IS NOT NULL AND ".toList
          [.word "IS", .word "NOT", .word "NULL", .word "AND"] := rfl
      have hdiffers : Whole " <> ".toList [.mark '<', .mark '>'] := rfl
      simp only [String.toList_append]
      have hpart := (whole_append hcolumn rfl hpresent).tokens?_append hcolumn
      exact (whole_append hpart rfl hdiffers).tokens?_append (tokens?_sqlLiteral hliteral)
  | oneOf values =>
    cases values with
    | nil =>
      cases h
      rfl
    | cons value values =>
      obtain ⟨literals, hliterals, h⟩ := exists_of_bind_eq_ok h
      cases h
      have hoptions := tokens?_literals hliterals
      have hopen : Whole " IN (".toList [.word "IN", .mark '('] := rfl
      have hclose : tokens? ")".toList = some [.mark ')'] := rfl
      simp only [String.toList_append]
      have hpart := (whole_append hcolumn rfl hopen).tokens?_append hoptions
      exact tokens?_append hpart rfl hclose
  | above value =>
    obtain ⟨literal, hliteral, h⟩ := exists_of_bind_eq_ok h
    cases h
    have habove : Whole " > ".toList [.mark '>'] := rfl
    simp only [String.toList_append]
    exact (whole_append hcolumn rfl habove).tokens?_append (tokens?_sqlLiteral hliteral)

def conditionTokens (filters : List Filter) : List Token :=
  if filters.isEmpty then [.word "true"]
  else [.word "AND"].intercalate (filters.map fun f => [.mark '('] ++ f.tokens ++ [.mark ')'])

theorem tokens?_condition {filters : List Filter} {sql : String}
    (h : conditionSql filters = .ok sql) :
    tokens? sql.toList = some (conditionTokens filters) := by
  rw [conditionSql] at h
  rw [conditionTokens]
  by_cases hnone : filters.isEmpty
  · rw [if_pos hnone] at h ⊢
    cases h
    rfl
  rw [if_neg hnone] at h ⊢
  obtain ⟨conditions, hconditions, h⟩ := exists_of_bind_eq_ok h
  cases h
  have hand : Whole " AND ".toList [.word "AND"] := rfl
  have hopen : Whole "(".toList [.mark '('] := rfl
  have hclose : Whole ")".toList [.mark ')'] := rfl
  rw [String.toList_intercalate, List.map_map]
  refine (whole_intercalate hand ?_).tokens?
  rw [List.forall₂_map_left_iff, List.forall₂_map_right_iff]
  refine (mapM_eq_ok_iff.mp hconditions).flip.imp fun condition f hcondition => ?_
  rw [Function.comp_apply, String.toList_append, String.toList_append]
  exact whole_append (hopen.tokens?_append (tokens?_filter hcondition)) rfl hclose

/-! ## Scans -/

def columnTokens (columns : List String) : List Token :=
  if columns.isEmpty then [.mark '*'] else separated (columns.map fun c => [.name c])

/-- The tokens of a scan. The files, the columns and the texts that filters compare with appear in
it as they are. -/
def scanTokens (files columns : List String) (filters : List Filter) : List Token :=
  [.word "SELECT", .word "to_json", .mark '(', .word "batch", .mark ')', .mark ':', .mark ':',
    .word "VARCHAR", .word "FROM", .mark '(', .word "SELECT"] ++ columnTokens columns ++
  [.word "FROM", .word "read_parquet", .mark '(', .mark '['] ++
    separated (files.map fun file => [.text file]) ++
  [.mark ']', .mark ',', .word "hive_partitioning", .mark '=', .number "1", .mark ',',
    .word "union_by_name", .mark '=', .number "1", .mark ')', .word "WHERE"] ++
    conditionTokens filters ++
  [.mark ')', .word "AS", .word "batch"]

theorem tokens?_columns (columns : List String) :
    tokens? (columnsSql columns).toList = some (columnTokens columns) := by
  rw [columnsSql, columnTokens]
  split
  · rfl
  · rw [String.toList_intercalate, List.map_map]
    refine tokens?_separated ?_
    rw [List.forall₂_map_left_iff, List.forall₂_map_right_iff]
    exact List.forall₂_same.mpr fun column _ => tokens?_sqlName column

theorem tokens?_files (files : List String) :
    tokens? (", ".intercalate (files.map sqlText)).toList =
      some (separated (files.map fun file => [.text file])) := by
  rw [String.toList_intercalate, List.map_map]
  refine tokens?_separated ?_
  rw [List.forall₂_map_left_iff, List.forall₂_map_right_iff]
  exact List.forall₂_same.mpr fun file _ => tokens?_sqlText file

theorem tokens?_scan {files columns : List String} {filters : List Filter} {sql : String}
    (h : scanSql files columns filters = .ok sql) :
    tokens? sql.toList = some (scanTokens files columns filters) := by
  obtain ⟨condition, hcondition, h⟩ := exists_of_bind_eq_ok h
  cases h
  have hselect : Whole
      "\n        SELECT to_json(batch)::VARCHAR\n        FROM (\n            SELECT ".toList
      [.word "SELECT", .word "to_json", .mark '(', .word "batch", .mark ')', .mark ':', .mark ':',
        .word "VARCHAR", .word "FROM", .mark '(', .word "SELECT"] := by
    decide +kernel
  have hfrom : Whole "\n            FROM read_parquet([".toList
      [.word "FROM", .word "read_parquet", .mark '(', .mark '['] := by decide +kernel
  have hwhere : Whole
      "], hive_partitioning=1, union_by_name=1)\n            WHERE ".toList
      [.mark ']', .mark ',', .word "hive_partitioning", .mark '=', .number "1", .mark ',',
        .word "union_by_name", .mark '=', .number "1", .mark ')', .word "WHERE"] := by
    decide +kernel
  have hend : tokens? "\n        ) AS batch\n        ".toList =
      some [.mark ')', .word "AS", .word "batch"] := by decide +kernel
  simp only [String.toList_append]
  have hcolumns := hselect.tokens?_append (tokens?_columns columns)
  have hfiles := (whole_append hcolumns rfl hfrom).tokens?_append (tokens?_files files)
  have hall := (whole_append hfiles rfl hwhere).tokens?_append (tokens?_condition hcondition)
  exact tokens?_append hall rfl hend

/-! ## What stands in quotes -/

def Token.name? : Token → Option String
  | .name s => some s
  | _ => none

def Token.text? : Token → Option String
  | .text s => some s
  | _ => none

theorem filterMap_intercalate {p : Token → Option String} {sep : List Token}
    (hsep : sep.filterMap p = []) : ∀ tss : List (List Token),
      (sep.intercalate tss).filterMap p = tss.flatMap fun ts => ts.filterMap p
  | [] => rfl
  | [ts] => by rw [List.intercalate_singleton, List.flatMap_cons, List.flatMap_nil, List.append_nil]
  | ts :: us :: tss => by
      rw [List.intercalate_cons_cons, List.filterMap_append, List.filterMap_append, hsep,
        filterMap_intercalate hsep (us :: tss), List.append_nil, ← List.flatMap_cons]

/-- The texts among values. -/
def textOf? : Json → Option String
  | .text s => some s
  | _ => none

theorem names_literalTokens (v : Json) : (literalTokens v).filterMap Token.name? = [] := by
  cases v with
  | number n => rw [literalTokens, numberTokens]; split <;> rfl
  | null | bool | text | list | object => rfl

theorem texts_literalTokens (v : Json) :
    (literalTokens v).filterMap Token.text? = (textOf? v).toList := by
  cases v with
  | number n => rw [literalTokens, numberTokens]; split <;> rfl
  | null | bool | text | list | object => rfl

end Sql

/-- The names in a filter: its column, as often as it is written. -/
def Filter.names (f : Filter) : List String :=
  match f.test with
  | .differs .null | .above _ => [f.column]
  | .differs _ => [f.column, f.column]
  | .oneOf values => if values.isEmpty then [] else [f.column]

/-- The texts that a filter compares with. -/
def Filter.texts (f : Filter) : List String :=
  match f.test with
  | .differs value | .above value => (textOf? value).toList
  | .oneOf values => values.filterMap textOf?

namespace Sql

theorem names_filter (f : Filter) : f.tokens.filterMap Token.name? = f.names := by
  obtain ⟨column, test⟩ := f
  cases test with
  | differs value =>
    cases value with
    | null => rfl
    | bool | number | text | list | object =>
      rw [Filter.tokens_differs Json.noConfusion, List.filterMap_append, names_literalTokens]
      rfl
  | oneOf values =>
    cases values with
    | nil => rfl
    | cons value values =>
      have hoptions :
          (separated ((value :: values).map literalTokens)).filterMap Token.name? = [] := by
        rw [separated, filterMap_intercalate rfl, List.flatMap_map]
        exact List.flatMap_eq_nil_iff.mpr fun v _ => names_literalTokens v
      rw [Filter.tokens]
      simp only [List.filterMap_append, hoptions]
      rfl
  | above value =>
    rw [Filter.tokens]
    simp only [List.filterMap_append, names_literalTokens]
    rfl

theorem texts_filter (f : Filter) : f.tokens.filterMap Token.text? = f.texts := by
  obtain ⟨column, test⟩ := f
  cases test with
  | differs value =>
    cases value with
    | null => rfl
    | bool | number | text | list | object =>
      rw [Filter.tokens_differs Json.noConfusion, List.filterMap_append, texts_literalTokens]
      rfl
  | oneOf values =>
    cases values with
    | nil => rfl
    | cons value values =>
      have hoptions : (separated ((value :: values).map literalTokens)).filterMap Token.text? =
          (value :: values).filterMap textOf? := by
        rw [separated, filterMap_intercalate rfl, List.flatMap_map,
          List.filterMap_eq_flatMap_toList]
        exact List.flatMap_congr fun v _ => texts_literalTokens v
      rw [Filter.tokens]
      simp only [List.filterMap_append, hoptions]
      exact List.append_nil _
  | above value =>
    rw [Filter.tokens]
    simp only [List.filterMap_append, texts_literalTokens]
    rfl

section

variable {p : Token → Option String} (hword : ∀ letters, p (.word letters) = none)
  (hnumber : ∀ digits, p (.number digits) = none) (hmark : ∀ c, p (.mark c) = none)

include hword hmark

theorem filterMap_condition (filters : List Filter) :
    (conditionTokens filters).filterMap p = filters.flatMap fun f => f.tokens.filterMap p := by
  have hone : ∀ f : Filter, ([Token.mark '('] ++ f.tokens ++ [Token.mark ')']).filterMap p =
      f.tokens.filterMap p := fun f => by
    simp [hmark]
  rw [conditionTokens]
  by_cases hnone : filters.isEmpty
  · rw [if_pos hnone, List.isEmpty_iff.mp hnone]
    simp [hword]
  · rw [if_neg hnone, filterMap_intercalate (by simp [hword]), List.flatMap_map]
    exact List.flatMap_congr fun f _ => hone f

include hnumber

/-- The fixed part of a scan holds nothing that stands in quotes. -/
theorem filterMap_scan (files columns : List String) (filters : List Filter) :
    (scanTokens files columns filters).filterMap p = (columnTokens columns).filterMap p ++
      ((separated (files.map fun file => [.text file])).filterMap p ++
        filters.flatMap fun f => f.tokens.filterMap p) := by
  rw [← filterMap_condition hword hmark]
  simp [scanTokens, hword, hnumber, hmark]

end

theorem names_scan (files columns : List String) (filters : List Filter) :
    (scanTokens files columns filters).filterMap Token.name? =
      columns ++ filters.flatMap Filter.names := by
  have hcolumns : (columnTokens columns).filterMap Token.name? = columns := by
    rw [columnTokens]
    split
    · next h => rw [List.isEmpty_iff.mp h]; rfl
    · rw [separated, filterMap_intercalate rfl, List.flatMap_map]
      exact List.flatMap_singleton' columns
  have hfiles : (separated (files.map fun file => [.text file])).filterMap Token.name? = [] := by
    rw [separated, filterMap_intercalate rfl, List.flatMap_map]
    exact List.flatMap_eq_nil_iff.mpr fun _ _ => rfl
  rw [filterMap_scan (fun _ => rfl) (fun _ => rfl) (fun _ => rfl), hcolumns, hfiles,
    List.nil_append]
  exact congrArg (columns ++ ·) (List.flatMap_congr fun f _ => names_filter f)

theorem texts_files (files : List String) :
    (separated (files.map fun file => [.text file])).filterMap Token.text? = files := by
  rw [separated, filterMap_intercalate rfl, List.flatMap_map]
  exact List.flatMap_singleton' files

theorem texts_scan (files columns : List String) (filters : List Filter) :
    (scanTokens files columns filters).filterMap Token.text? =
      files ++ filters.flatMap Filter.texts := by
  have hcolumns : (columnTokens columns).filterMap Token.text? = [] := by
    rw [columnTokens]
    split
    · rfl
    · rw [separated, filterMap_intercalate rfl, List.flatMap_map]
      exact List.flatMap_eq_nil_iff.mpr fun _ _ => rfl
  rw [filterMap_scan (fun _ => rfl) (fun _ => rfl) (fun _ => rfl), hcolumns, texts_files,
    List.nil_append]
  exact congrArg (files ++ ·) (List.flatMap_congr fun f _ => texts_filter f)

/-! ## Scans of one shape -/

/-- Which kind of literal a value has, without what it says. -/
def kindOf : Json → Json
  | .null => .null
  | .bool _ => .bool false
  | .number _ => .number (.integer 0)
  | .text _ => .text ""
  | .list _ => .list []
  | .object _ => .object []

theorem textOf?_kindOf (v : Json) :
    (textOf? (kindOf v)).toList.length = (textOf? v).toList.length := by
  cases v <;> rfl

end Sql

/-- A filter without its values: what it tests, with how many values of which kinds. -/
def Filter.shape (f : Filter) : Filter where
  column := ""
  test := match f.test with
    | .differs value => .differs (kindOf value)
    | .oneOf values => .oneOf (values.map kindOf)
    | .above value => .above (kindOf value)

theorem Filter.length_names_shape (f : Filter) : f.shape.names.length = f.names.length := by
  obtain ⟨column, test⟩ := f
  cases test with
  | differs value => cases value <;> rfl
  | oneOf values => cases values <;> rfl
  | above value => rfl

theorem Filter.length_texts_shape (f : Filter) : f.shape.texts.length = f.texts.length := by
  obtain ⟨column, test⟩ := f
  cases test with
  | differs value | above value => exact textOf?_kindOf value
  | oneOf values =>
    show ((values.map kindOf).filterMap textOf?).length = (values.filterMap textOf?).length
    rw [List.filterMap_map]
    induction values with
    | nil => rfl
    | cons value values ih => cases value <;> simp [List.filterMap_cons, kindOf, textOf?, ih]

namespace Sql

/-- Lists of one length each are found again in what they add up to. -/
theorem map_eq_of_flatMap_eq {α β : Type} {f : α → List β} : ∀ {xs ys : List α},
    (xs.map fun x => (f x).length) = (ys.map fun y => (f y).length) →
      xs.flatMap f = ys.flatMap f → xs.map f = ys.map f
  | [], [], _, _ => rfl
  | [], _ :: _, hlength, _ | _ :: _, [], hlength, _ => by cases hlength
  | x :: xs, y :: ys, hlength, h => by
      obtain ⟨hfirst, hrest⟩ := List.cons.inj hlength
      rw [List.flatMap_cons, List.flatMap_cons] at h
      obtain ⟨hxy, h⟩ := List.append_inj h hfirst
      rw [List.map_cons, List.map_cons, hxy, map_eq_of_flatMap_eq hrest h]

/-- An accepted scan is read as the tokens of its files, columns and filters. A scan of the same
shape with the same text has the same files and columns, and its filters have the same names and
texts; a filter with no options is `false` and has no name. -/
theorem scan_tokens {root : String} {paths columns : List String} {filters : List Filter}
    {sql : String} (h : scanSql (paths.map (resolvePath root)) columns filters = .ok sql) :
    tokens? sql.toList = some (scanTokens (paths.map (resolvePath root)) columns filters) ∧
      ∀ (paths' columns' : List String) (filters' : List Filter),
        paths'.length = paths.length → columns'.length = columns.length →
        filters'.map Filter.shape = filters.map Filter.shape →
        scanSql (paths'.map (resolvePath root)) columns' filters' = .ok sql →
          paths'.map (resolvePath root) = paths.map (resolvePath root) ∧ columns' = columns ∧
            filters'.map Filter.names = filters.map Filter.names ∧
              filters'.map Filter.texts = filters.map Filter.texts := by
  refine ⟨tokens?_scan h, fun paths' columns' filters' hpaths hcolumns hshape h' => ?_⟩
  have hsame : scanTokens (paths'.map (resolvePath root)) columns' filters' =
      scanTokens (paths.map (resolvePath root)) columns filters :=
    Option.some.inj ((tokens?_scan h').symm.trans (tokens?_scan h))
  have hnames := congrArg (List.filterMap Token.name?) hsame
  have htexts := congrArg (List.filterMap Token.text?) hsame
  rw [names_scan, names_scan] at hnames
  rw [texts_scan, texts_scan] at htexts
  obtain ⟨hcolumns, hnames⟩ := List.append_inj hnames hcolumns
  obtain ⟨hfiles, htexts⟩ :=
    List.append_inj htexts (by rw [List.length_map, List.length_map, hpaths])
  have hlengths : ∀ g : Filter → Nat, (∀ f : Filter, g f.shape = g f) →
      filters'.map g = filters.map g := fun g hg => by
    have hg' : g ∘ Filter.shape = g := funext hg
    rw [← hg', ← List.map_map, ← List.map_map, hshape]
  exact ⟨hfiles, hcolumns,
    map_eq_of_flatMap_eq (hlengths _ Filter.length_names_shape) hnames,
    map_eq_of_flatMap_eq (hlengths _ Filter.length_texts_shape) htexts⟩

/-- Quotes, a comment mark and the end of a statement within a file, a column and a text. -/
theorem scan_tokens_of_quotes :
    ∃ sql, scanSql (["s3://o'clock/*"].map (resolvePath "data")) ["a\"b"]
        [⟨"id", .differs (.text "x'); --")⟩] = .ok sql ∧
      tokens? sql.toList = some (scanTokens ["data/o'clock/*"] ["a\"b"]
        [⟨"id", .differs (.text "x'); --")⟩]) := by
  have hfile : ["s3://o'clock/*"].map (resolvePath "data") = ["data/o'clock/*"] := by
    decide +kernel
  refine ⟨_, rfl, ?_⟩
  rw [← hfile]
  exact (scan_tokens rfl).1

end Sql

end StopArrivals
