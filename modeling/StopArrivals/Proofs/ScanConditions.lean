import StopArrivals.Batch.Memory
import StopArrivals.Proofs.ByteOrder
import StopArrivals.Proofs.Conditions
import StopArrivals.Proofs.ScanTokens

/-!
# Filters as conditions

The condition of a scan is read as the conjunction of its filters, each with its own comparisons and
options (`condition?_tokens`). On a row whose columns have the kinds of what they are compared with,
it is true if and only if the row passes the filters in memory (`evaluate_condition`).
-/

namespace StopArrivals.Sql

/-- A JSON value as a value in conditions. -/
def valueOf : Json → Value
  | .null => .null
  | .bool b => .bool b
  | .number (.integer v) => .integer v
  | .text s => .text s
  | .number (.float _) | .list _ | .object _ => .other

/-- The columns of a row; one that is absent is null. -/
def columnsOf (row : Record) (name : String) : Value :=
  valueOf ((Json.lookup name row).getD .null)

end Sql

open Sql

def Filter.condition (f : Filter) : Condition :=
  match f.test with
  | .differs .null => .present (.column f.column)
  | .differs value =>
    .both (.present (.column f.column)) (.differs (.column f.column) (.literal (valueOf value)))
  | .oneOf [] => .holds (.literal (.bool false))
  | .oneOf values => .oneOf (.column f.column) (values.map valueOf)
  | .above value => .above (.column f.column) (.literal (valueOf value))

theorem Filter.condition_differs {column : String} {value : Json} (h : value ≠ .null) :
    Filter.condition ⟨column, .differs value⟩ = .both (.present (.column column))
      (.differs (.column column) (.literal (valueOf value))) := by
  cases value with
  | null => exact absurd rfl h
  | bool | number | text | list | object => rfl

namespace Sql

/-- The conjunction of filters. -/
def allOf : List Filter → Condition
  | [] => .holds (.literal (.bool true))
  | [f] => f.condition
  | f :: g :: rest => .both f.condition (allOf (g :: rest))

/-! ## Reading what filters write -/

theorem spelled_text (n : Number) : spelled n.text.toList = valueOf (.number n) := by
  cases n with
  | integer v =>
    have hchars : (Number.integer v).text.toList = integerChars v := String.toList_ofList
    rw [spelled, hchars, readInteger_integerChars]
    rfl
  | float x =>
    obtain ⟨body, ⟨hbody, c, hmem, hc⟩, htext⟩ := isNumeral_shortest x
    have hnone : readNatural body = none := by
      refine if_neg fun h => ?_
      rw [List.all_eq_true.mp h.2 c hmem] at hc
      cases hc
    obtain ⟨d, rest, rfl, hd⟩ := hbody.first
    have hread : readInteger (Number.float x).text.toList = none := by
      change readInteger (Shortest.text x).toList = none
      rw [htext]
      split
      · rw [List.singleton_append, readInteger, hnone]
        rfl
      · rw [List.nil_append, readInteger_of_isDigit hd, hnone]
        rfl
    rw [spelled, hread]
    rfl

theorem readLiteral_numberTokens (text : String) (rest : List Token) :
    readLiteral (numberTokens text ++ rest) = some (spelled text.toList, rest) := by
  rw [numberTokens]
  split
  · next cs hcs =>
    rw [hcs]
    simp only [List.cons_append, List.nil_append, readLiteral, String.toList_ofList]
  · simp only [List.cons_append, List.nil_append, readLiteral, String.toList_ofList]

theorem readLiteral_literalTokens {v : Json} {sql : String} (h : sqlLiteral v = .ok sql)
    (rest : List Token) : readLiteral (literalTokens v ++ rest) = some (valueOf v, rest) := by
  cases v with
  | null | text => rfl
  | bool b => cases b <;> rfl
  | number n => rw [literalTokens, readLiteral_numberTokens, spelled_text]
  | list | object => cases h

theorem readTerm_literalTokens {v : Json} {sql : String} (h : sqlLiteral v = .ok sql)
    (rest : List Token) : readTerm (literalTokens v ++ rest) = some (.literal (valueOf v), rest) :=
  readTerm_of_readLiteral (readLiteral_literalTokens h rest)

theorem readOptions_separated (rest : List Token) : ∀ {steps : Nat} {value : Json}
    {values : List Json} {literals : List String},
      List.Forall₂ (fun v literal => sqlLiteral v = .ok literal) (value :: values) literals →
      values.length < steps →
      readOptions steps (separated ((value :: values).map literalTokens) ++ .mark ')' :: rest) =
        some ((value :: values).map valueOf, rest)
  | steps + 1, value, [], _, .cons hvalue _, _ => by
      have hone : separated ([value].map literalTokens) = literalTokens value :=
        List.intercalate_singleton ..
      rw [hone]
      exact readOptions_last (readLiteral_literalTokens hvalue _) steps
  | steps + 1, value, next :: values, _, .cons hvalue hvalues, hsteps => by
      have hcons : separated ((value :: next :: values).map literalTokens) ++ .mark ')' :: rest =
          literalTokens value ++ .mark ',' ::
            (separated ((next :: values).map literalTokens) ++ .mark ')' :: rest) := by
        simp only [separated, List.map_cons, List.intercalate_cons_cons, List.append_assoc,
          List.cons_append, List.nil_append]
      rw [hcons]
      exact readOptions_next (readLiteral_literalTokens hvalue _)
        (readOptions_separated rest hvalues (Nat.lt_of_succ_lt_succ hsteps))

/-- Pieces of some length and what stands between them. -/
theorem le_length_intercalate {α : Type} {g : α → List Token} {n : Nat} (sep : Token) :
    ∀ (x : α) (xs : List α), (∀ y ∈ x :: xs, n ≤ (g y).length) →
      (n + 1) * xs.length + n ≤ ([sep].intercalate ((x :: xs).map g)).length
  | x, [], h => by
      rw [List.map_cons, List.map_nil, List.intercalate_singleton, List.length_nil, Nat.mul_zero,
        Nat.zero_add]
      exact h x (List.mem_cons_self ..)
  | x, y :: xs, h => by
      have hx := h x (List.mem_cons_self ..)
      have ih := le_length_intercalate sep y xs fun z hz => h z (List.mem_cons_of_mem x hz)
      rw [List.map_cons, List.map_cons, List.intercalate_cons_cons, ← List.map_cons,
        List.length_append, List.length_append, List.length_singleton, List.length_cons,
        Nat.mul_succ]
      omega

/-- A parenthesis follows each filter. -/
theorem readCondition_filter {f : Filter} {sql : String} (h : f.sql = .ok sql) (steps : Nat)
    (rest : List Token) :
    readCondition (steps + 2) (f.tokens ++ .mark ')' :: rest) =
      some (f.condition, .mark ')' :: rest) := by
  have hclosed : (Token.mark ')' :: rest).head? ≠ some (.word "AND") := by simp
  obtain ⟨column, test⟩ := f
  cases test with
  | differs value =>
    by_cases hnull : value = .null
    · subst hnull
      rfl
    · rw [Filter.sql_differs hnull] at h
      obtain ⟨literal, hliteral, -⟩ := exists_of_bind_eq_ok h
      rw [Filter.tokens_differs hnull, Filter.condition_differs hnull]
      refine readCondition_both (readOperand_comparison rfl) ?_
      refine readCondition_alone (readOperand_comparison ?_) hclosed
      exact readComparison_differs rfl (readTerm_literalTokens hliteral _)
  | oneOf values =>
    cases values with
    | nil => rfl
    | cons value values =>
      obtain ⟨literals, hliterals, -⟩ := exists_of_bind_eq_ok h
      have hcommas := le_length_intercalate (g := literalTokens) (.mark ',') value values
        fun _ _ => Nat.zero_le _
      have htokens : Filter.tokens ⟨column, .oneOf (value :: values)⟩ ++ .mark ')' :: rest =
          .name column :: .word "IN" :: .mark '(' ::
            (separated ((value :: values).map literalTokens) ++ .mark ')' :: .mark ')' :: rest) := by
        simp only [Filter.tokens, List.cons_append, List.nil_append, List.append_assoc]
      rw [htokens]
      refine readCondition_alone (readOperand_comparison ?_) hclosed
      refine readComparison_oneOf rfl (readOptions_separated _ (mapM_eq_ok_iff.mp hliterals) ?_)
      rw [List.length_append, List.length_cons, separated]
      omega
  | above value =>
    obtain ⟨literal, hliteral, -⟩ := exists_of_bind_eq_ok h
    refine readCondition_alone (readOperand_comparison ?_) hclosed
    exact readComparison_above rfl (readTerm_literalTokens hliteral _)

theorem length_tokens_pos (f : Filter) : 0 < f.tokens.length := by
  obtain ⟨column, test⟩ := f
  cases test with
  | differs value => cases value <;> simp [Filter.tokens]
  | oneOf values => cases values <;> simp [Filter.tokens]
  | above value => simp [Filter.tokens]

theorem readCondition_filters : ∀ {f : Filter} {filters : List Filter} {conditions : List String},
    List.Forall₂ (fun f condition => f.sql = .ok condition) (f :: filters) conditions →
      ∀ {steps : Nat}, filters.length + 3 ≤ steps →
        readCondition steps ([.word "AND"].intercalate
          ((f :: filters).map fun f => [.mark '('] ++ f.tokens ++ [.mark ')'])) =
            some (allOf (f :: filters), [])
  | f, [], _, .cons hf _, steps + 3, _ => by
      rw [List.map_cons, List.map_nil, List.intercalate_singleton, List.append_assoc]
      exact readCondition_alone (readOperand_inner (readCondition_filter hf _ _)) (by simp)
  | f, g :: rest, _, .cons hf hrest, steps + 3, hsteps => by
      have ih := readCondition_filters hrest (Nat.le_of_succ_le_succ hsteps)
      have htokens : [.word "AND"].intercalate
          ((f :: g :: rest).map fun f => [.mark '('] ++ f.tokens ++ [.mark ')']) =
            .mark '(' :: (f.tokens ++ .mark ')' :: .word "AND" :: [.word "AND"].intercalate
              ((g :: rest).map fun f => [.mark '('] ++ f.tokens ++ [.mark ')'])) := by
        simp only [List.map_cons, List.intercalate_cons_cons, List.append_assoc, List.cons_append,
          List.nil_append]
      rw [htokens]
      exact readCondition_both (readOperand_inner (readCondition_filter hf _ _)) ih

theorem condition?_tokens {filters : List Filter} {sql : String}
    (h : conditionSql filters = .ok sql) :
    condition? (conditionTokens filters) = some (allOf filters) := by
  cases filters with
  | nil => rfl
  | cons f filters =>
    obtain ⟨conditions, hconditions, -⟩ := exists_of_bind_eq_ok h
    have hlength := le_length_intercalate (n := 3)
      (g := fun f : Filter => [.mark '('] ++ f.tokens ++ [.mark ')']) (.word "AND") f filters
      fun g _ => by
        have := length_tokens_pos g
        simp only [List.length_append, List.length_singleton]
        omega
    rw [condition?, conditionTokens, if_neg (by simp), readCondition_filters
      (mapM_eq_ok_iff.mp hconditions) (by omega)]

/-! ## On a row -/

/-- Values of one kind: integers of 64 bits, texts or truth values. -/
inductive SameKind : Json → Json → Prop
  | integers {a b : Int} (ha : (IntRange.signed 64).contains a = true)
      (hb : (IntRange.signed 64).contains b = true) :
      SameKind (.number (.integer a)) (.number (.integer b))
  | texts (a b : String) : SameKind (.text a) (.text b)
  | bools (a b : Bool) : SameKind (.bool a) (.bool b)

/-- Two values that are of one kind, unless one of them is null. -/
def Comparable (actual expected : Json) : Prop :=
  actual = .null ∨ expected = .null ∨ SameKind actual expected

theorem compareValues_null (actual : Json) : Filter.compareValues actual .null = none := by
  cases actual <;> rfl

theorem exists_order {actual expected : Json} (h : SameKind actual expected) :
    ∃ o, Filter.compareValues actual expected = some o := by
  cases h with
  | integers ha hb =>
    simp only [Filter.compareValues, Number.compare?, Number.int64?, ha, hb, if_pos]
    exact ⟨_, rfl⟩
  | texts | bools => exact ⟨_, rfl⟩

theorem compare?_valueOf {actual expected : Json} (h : Comparable actual expected) :
    (valueOf actual).compare? (valueOf expected) =
      some (Filter.compareValues actual expected) := by
  rcases h with rfl | rfl | h
  · rfl
  · rw [compareValues_null]
    exact Value.compare?_null _
  · cases h with
    | integers ha hb =>
      simp only [valueOf, Value.compare?, Filter.compareValues, Number.compare?, Number.int64?, ha,
        hb, if_pos]
    | texts a b => exact congrArg (some ∘ some) (compare_utf8 a b)
    | bools => rfl

theorem valueOf_bne_null (v : Json) : (valueOf v != .null) = !v.isNull := by
  cases v with
  | number n => cases n <;> rfl
  | null | bool | text | list | object => rfl

theorem equalsOne?_valueOf {actual : Json} : ∀ {options : List Json},
    (∀ v ∈ options, Comparable actual v) →
      ∃ truth, equalsOne? (valueOf actual) (options.map valueOf) = some truth ∧
        (truth = .holds ↔
          (options.any fun v => Filter.compareValues actual v == some .eq) = true)
  | [], _ => ⟨.fails, rfl, by simp⟩
  | v :: options, h => by
      obtain ⟨truth, htruth, hiff⟩ := equalsOne?_valueOf fun w hw => h w (List.mem_cons_of_mem _ hw)
      have horder := compare?_valueOf (h v (List.mem_cons_self ..))
      refine ⟨(Truth.ofOrder (· == .eq) (Filter.compareValues actual v)).or truth, ?_, ?_⟩
      · simp only [List.map_cons, equalsOne?, horder, htruth, Option.bind_eq_bind, Option.bind_some]
        rfl
      · rw [Truth.or_eq_holds, Truth.ofOrder_eq_holds, hiff, List.any_cons, Bool.or_eq_true]
        cases Filter.compareValues actual v <;> simp

end Sql

/-- What a filter compares its column with. -/
def Filter.literals (f : Filter) : List Json :=
  match f.test with
  | .differs value | .above value => [value]
  | .oneOf values => values

/-- The column has the kind of each literal, unless one of the two is null. -/
def Filter.Suits (f : Filter) (row : Record) : Prop :=
  ∀ v ∈ f.literals, Comparable ((Json.lookup f.column row).getD .null) v

namespace Sql

theorem passes_differs {actual value : Json} (h : value ≠ .null) :
    Filter.passes actual (.differs value) =
      (Filter.compareValues actual value != some .eq) := by
  cases value with
  | null => exact absurd rfl h
  | bool | number | text | list | object => rfl

theorem any_beq (o : Option Ordering) (x : Ordering) : o.any (· == x) = (o == some x) := by
  cases o <;> rfl

theorem truth?_filter {f : Filter} {row : Record} (h : f.Suits row) :
    ∃ truth, f.condition.truth? (columnsOf row) = some truth ∧
      (truth = .holds ↔ f.keeps row = true) := by
  obtain ⟨column, test⟩ := f
  have hcolumn : columnsOf row column = valueOf ((Json.lookup column row).getD .null) := rfl
  rw [Filter.Suits] at h
  rw [Filter.keeps]
  dsimp only at h ⊢
  generalize (Json.lookup column row).getD .null = actual at h hcolumn ⊢
  cases test with
  | differs value =>
    by_cases hnull : value = .null
    · subst hnull
      refine ⟨.ofBool (valueOf actual != .null), ?_, ?_⟩
      · simp only [Filter.condition, Condition.truth?, Term.value, hcolumn]
      · rw [Truth.ofBool_eq_holds, valueOf_bne_null, Filter.passes, Bool.and_true]
    · have hcompare := h value (List.mem_singleton_self value)
      refine ⟨(Truth.ofBool (valueOf actual != .null)).and
        (.ofOrder (· != .eq) (Filter.compareValues actual value)), ?_, ?_⟩
      · rw [Filter.condition_differs hnull]
        simp only [Condition.truth?, Term.value, hcolumn, compare?_valueOf hcompare,
          Option.bind_eq_bind, Option.bind_some]
        rfl
      · rw [Truth.and_eq_holds, Truth.ofBool_eq_holds, Truth.ofOrder_eq_holds, valueOf_bne_null,
          Bool.and_eq_true]
        refine and_congr_right fun hpresent => ?_
        rcases hcompare with rfl | rfl | hkind
        · cases hpresent
        · exact absurd rfl hnull
        · obtain ⟨o, ho⟩ := exists_order hkind
          rw [passes_differs hnull, ho]
          cases o <;> decide
  | oneOf values =>
    cases values with
    | nil => exact ⟨.fails, rfl, by simp [Filter.passes]⟩
    | cons value values =>
      obtain ⟨truth, htruth, hiff⟩ := equalsOne?_valueOf h
      refine ⟨truth, ?_, hiff.trans ?_⟩
      · simp only [Filter.condition, Condition.truth?, Term.value, hcolumn]
        exact htruth
      · cases actual with
        | null => simp [Filter.passes, Filter.compareValues]
        | bool | number | text | list | object => exact Iff.rfl
  | above value =>
    have horder := compare?_valueOf (h value (List.mem_singleton_self value))
    refine ⟨.ofOrder (· == .gt) (Filter.compareValues actual value), ?_, ?_⟩
    · simp only [Filter.condition, Condition.truth?, Term.value, hcolumn, horder,
        Option.bind_eq_bind, Option.bind_some]
      rfl
    · rw [Truth.ofOrder_eq_holds, any_beq]
      cases actual <;> exact Iff.rfl

theorem truth?_allOf {row : Record} : ∀ {filters : List Filter}, (∀ f ∈ filters, f.Suits row) →
    ∃ truth, (allOf filters).truth? (columnsOf row) = some truth ∧
      (truth = .holds ↔ MemoryBatches.keepsRow filters row = true)
  | [], _ => ⟨.holds, rfl, by simp [MemoryBatches.keepsRow]⟩
  | [f], h => by
      obtain ⟨truth, htruth, hiff⟩ := truth?_filter (h f (List.mem_singleton_self f))
      refine ⟨truth, htruth, hiff.trans ?_⟩
      rw [MemoryBatches.keepsRow, List.all_cons, List.all_nil, Bool.and_true]
  | f :: g :: rest, h => by
      obtain ⟨first, hfirst, hkeeps⟩ := truth?_filter (h f (List.mem_cons_self ..))
      obtain ⟨second, hsecond, hrest⟩ :=
        truth?_allOf fun k hk => h k (List.mem_cons_of_mem f hk)
      refine ⟨first.and second, ?_, ?_⟩
      · simp only [allOf, Condition.truth?, hfirst, hsecond, Option.bind_eq_bind, Option.bind_some]
        rfl
      · rw [Truth.and_eq_holds, hkeeps, hrest, ← Bool.and_eq_true]
        exact Iff.rfl

theorem exists_conditionSql {filters : List Filter}
    (h : ∀ f ∈ filters, ∃ condition, f.sql = .ok condition) :
    ∃ sql, conditionSql filters = .ok sql := by
  obtain ⟨conditions, hconditions⟩ := exists_mapM_eq_ok h
  rw [conditionSql]
  split
  · exact ⟨_, rfl⟩
  · exact ⟨_, by rw [hconditions]; rfl⟩

/-- Filters that can be written make up a condition. On a row that suits them it has a truth value,
and it is true if and only if the row passes them in memory. -/
theorem evaluate_condition {filters : List Filter} {row : Record}
    (hsql : ∀ f ∈ filters, ∃ condition, f.sql = .ok condition)
    (hrow : ∀ f ∈ filters, f.Suits row) :
    ∃ sql truth, conditionSql filters = .ok sql ∧ evaluate (columnsOf row) sql = some truth ∧
      (truth = .holds ↔ MemoryBatches.keepsRow filters row = true) := by
  obtain ⟨sql, h⟩ := exists_conditionSql hsql
  obtain ⟨truth, htruth, hiff⟩ := truth?_allOf hrow
  refine ⟨sql, truth, h, ?_, hiff⟩
  rw [evaluate, tokens?_condition h]
  simp only [Option.bind_eq_bind, Option.bind_some, condition?_tokens h, htruth]

/-- A filter of every kind, with a null among the options. -/
def sampleFilters : List Filter :=
  [⟨"route", .oneOf [.null, .text "O'Hare"]⟩, ⟨"stop", .differs (.ofInt (-3))⟩,
    ⟨"time", .above (.ofInt 10)⟩, Filter.present "vehicle"]

def sampleRow : Record :=
  [("route", .text "O'Hare"), ("stop", .ofInt 7), ("time", .ofInt 11), ("vehicle", .list [])]

theorem evaluate_condition_of_passing_row : ∃ sql, conditionSql sampleFilters = .ok sql ∧
    evaluate (columnsOf sampleRow) sql = some .holds := by
  have hsql : ∀ f ∈ sampleFilters, ∃ condition, f.sql = .ok condition := by
    simp only [sampleFilters, List.forall_mem_cons]
    exact ⟨⟨_, rfl⟩, ⟨_, rfl⟩, ⟨_, rfl⟩, ⟨_, rfl⟩, by simp⟩
  have hroute : Filter.Suits ⟨"route", .oneOf [.null, .text "O'Hare"]⟩ sampleRow :=
    List.forall_mem_cons.mpr ⟨.inr (.inl rfl),
      List.forall_mem_singleton.mpr (.inr (.inr (.texts _ _)))⟩
  have hstop : Filter.Suits ⟨"stop", .differs (.ofInt (-3))⟩ sampleRow :=
    List.forall_mem_singleton.mpr (.inr (.inr (.integers rfl rfl)))
  have htime : Filter.Suits ⟨"time", .above (.ofInt 10)⟩ sampleRow :=
    List.forall_mem_singleton.mpr (.inr (.inr (.integers rfl rfl)))
  have hvehicle : (Filter.present "vehicle").Suits sampleRow :=
    List.forall_mem_singleton.mpr (.inr (.inl rfl))
  have hrow : ∀ f ∈ sampleFilters, f.Suits sampleRow := by
    simp only [sampleFilters, List.forall_mem_cons]
    exact ⟨hroute, hstop, htime, hvehicle, by simp⟩
  have hkeeps : MemoryBatches.keepsRow sampleFilters sampleRow = true := by decide +kernel
  obtain ⟨sql, truth, h, htruth, hiff⟩ := evaluate_condition hsql hrow
  exact ⟨sql, h, hiff.mpr hkeeps ▸ htruth⟩

end Sql

end StopArrivals
