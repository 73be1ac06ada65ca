import StopArrivals.Batch.Engine
import StopArrivals.Proofs.EachMember

/-!
# Loading a batch

A batch is loaded whole or not at all. What can fail on the way is a list of steps in the order in
which they are taken (`loadSteps`); the load succeeds exactly if none of them fails, and otherwise
reports the first that does (`load_all_or_nothing`). Rows are asked for and decoded in turn, so the
run over them is the induction of the module (`errorOf?_fetch`, `fetch_eq_ok_iff`). The settings
are no steps: two connections that differ in them alone, whatever else fails on both, are used alike
(`AgreeApartFromSettings`).
-/

namespace StopArrivals

/-! ## Steps -/

inductive LoadStep where
  | render (f : Filter)
  | opening
  | prepare
  | query
  | next (row : Nat)
  | decode (row : Option String)

/-- Why a step fails, if it does, in a load of so many files. -/
def LoadStep.failure? (c : Connection) (files : Nat) : LoadStep → Option Cause
  | render f => errorOf? f.sql
  | opening => (c.failureAt? .opening).map .plain
  | prepare => (c.failureAt? .prepare).map fun message =>
    .within ("scan " ++ naturalText files ++ " parquet file(s)") (.plain message)
  | query => (c.failureAt? .query).map .plain
  | next k => (c.failureAt? (.next k)).map .plain
  | decode row => errorOf? (Connection.decodeRow row)

/-- Each row is asked for and then decoded; the request after the last one finds no more. -/
def fetchSteps (first : Nat) (rows : List (Option String)) : List LoadStep :=
  ((rows.zipIdx first).flatMap fun (row, k) => [.next k, .decode row]) ++
    [.next (first + rows.length)]

def loadSteps (filters : List Filter) (rows : List (Option String)) : List LoadStep :=
  filters.map .render ++ [.opening, .prepare, .query] ++ fetchSteps 0 rows

theorem fetchSteps_cons (first : Nat) (row : Option String) (rows : List (Option String)) :
    fetchSteps first (row :: rows) =
      .next first :: .decode row :: fetchSteps (first + 1) rows := by
  simp [fetchSteps, List.zipIdx_cons, Nat.add_assoc, Nat.add_comm 1]

/-- The row is text that holds one JSON object, and this is the object. -/
def Decodes (row : Option String) (record : Record) : Prop :=
  ∃ text members, row = some text ∧
    Json.readObject (some Connection.rowNesting) text = .ok members ∧
    record = Json.canonicalRecord members

/-- Every filter can be written, and the engine does all that it is asked for. -/
structure NothingFails (filters : List Filter) (c : Connection) : Prop where
  filters : ∀ f ∈ filters, ∃ condition, f.sql = .ok condition
  opening : c.failureAt? .opening = none
  prepare : c.failureAt? .prepare = none
  query : c.failureAt? .query = none
  next : ∀ k ≤ c.rows.length, c.failureAt? (.next k) = none

/-- Nothing sets the two connections apart but which settings fail, and with what message. -/
structure AgreeApartFromSettings (c c' : Connection) : Prop where
  rows : c.rows = c'.rows
  failureAt? : ∀ point, (∀ statement, point ≠ .setting statement) →
    c.failureAt? point = c'.failureAt? point

/-! ## Rows -/

namespace Connection

variable {c c' : Connection} {files k : Nat} {rows : List (Option String)} {records : List Record}

theorem errorOf?_pass (c : Connection) (point : EnginePoint) :
    errorOf? (c.pass point) = (c.failureAt? point).map .plain := by
  unfold pass
  cases c.failureAt? point <;> rfl

theorem pass_eq_ok_iff {point : EnginePoint} :
    c.pass point = .ok () ↔ c.failureAt? point = none := by
  unfold pass
  cases c.failureAt? point <;> simp

theorem decodeRow_eq_ok_iff {row : Option String} {record : Record} :
    decodeRow row = .ok record ↔ Decodes row record := by
  cases row with
  | none => simp [decodeRow, Decodes]
  | some text =>
    unfold decodeRow Decodes
    dsimp only
    split
    · next members hread => simp [hread, eq_comm]
    · next refusal hread => simp [hread]

theorem errorOf?_fetch : errorOf? (c.fetch k rows) =
    (fetchSteps k rows).findSome? (LoadStep.failure? c files) := by
  have hnext (k : Nat) : LoadStep.failure? c files (.next k) = errorOf? (c.pass (.next k)) :=
    (errorOf?_pass c (.next k)).symm
  induction rows generalizing k with
  | nil =>
    show _ = [LoadStep.next k].findSome? (LoadStep.failure? c files)
    rw [findSome?_cons_or, hnext]
    exact errorOf?_bind fun _ _ => rfl
  | cons row rows ih =>
    rw [fetchSteps_cons, findSome?_cons_or, findSome?_cons_or, hnext, ← ih,
      ← Option.or_none (o := errorOf? (c.fetch (k + 1) rows))]
    exact errorOf?_bind fun _ _ => errorOf?_bind fun _ _ => errorOf?_bind fun _ _ => rfl

theorem fetch_eq_ok_iff : c.fetch k rows = .ok records ↔
    (∀ i ≤ rows.length, c.failureAt? (.next (k + i)) = none) ∧
      List.Forall₂ Decodes rows records := by
  induction rows generalizing k records with
  | nil =>
    constructor
    · intro h
      obtain ⟨⟨⟩, hpass, hnil⟩ := exists_of_bind_eq_ok h
      obtain rfl := Except.ok.inj hnil
      refine ⟨fun i hi => ?_, .nil⟩
      obtain rfl := Nat.le_zero.mp hi
      exact pass_eq_ok_iff.mp hpass
    · rintro ⟨hnext, ⟨⟩⟩
      have hpass : c.pass (.next k) = .ok () := pass_eq_ok_iff.mpr (hnext 0 (Nat.le_refl 0))
      unfold fetch
      rw [hpass]
      rfl
  | cons row rows ih =>
    constructor
    · intro h
      obtain ⟨⟨⟩, hpass, h⟩ := exists_of_bind_eq_ok h
      obtain ⟨record, hrecord, h⟩ := exists_of_bind_eq_ok h
      obtain ⟨more, hmore, h⟩ := exists_of_bind_eq_ok h
      obtain rfl := Except.ok.inj h
      obtain ⟨hnext, hrows⟩ := ih.mp hmore
      refine ⟨fun i hi => ?_, .cons (decodeRow_eq_ok_iff.mp hrecord) hrows⟩
      cases i with
      | zero => exact pass_eq_ok_iff.mp hpass
      | succ i =>
        have hlater := hnext i (Nat.le_of_succ_le_succ hi)
        rwa [Nat.add_assoc, Nat.add_comm 1] at hlater
    · rintro ⟨hnext, hrows⟩
      cases hrows with
      | @cons _ record _ more hrecord hmore =>
      have hpass : c.pass (.next k) = .ok () := pass_eq_ok_iff.mpr (hnext 0 (Nat.zero_le _))
      have hrest : c.fetch (k + 1) rows = .ok more := by
        refine ih.mpr ⟨fun i hi => ?_, hmore⟩
        rw [Nat.add_assoc, Nat.add_comm 1]
        exact hnext (i + 1) (Nat.succ_le_succ hi)
      unfold fetch
      rw [hpass, decodeRow_eq_ok_iff.mpr hrecord, hrest]
      rfl

theorem fetch_congr (h : ∀ k, c.failureAt? (.next k) = c'.failureAt? (.next k)) :
    c.fetch k rows = c'.fetch k rows := by
  induction rows generalizing k with
  | nil =>
    unfold fetch pass
    rw [h]
  | cons row rows ih =>
    unfold fetch pass
    rw [h, ih]

/-! ## Scans -/

theorem errorOf?_scan {sql : String} : errorOf? (c.scan files sql).1 =
    (.opening :: .prepare :: .query :: fetchSteps 0 c.rows).findSome?
      (LoadStep.failure? c files) := by
  simp only [findSome?_cons_or, LoadStep.failure?]
  unfold scan
  cases hopening : c.failureAt? .opening with
  | some message => rfl
  | none =>
    cases hprepare : c.failureAt? .prepare with
    | some message => rfl
    | none =>
      rw [← errorOf?_pass c .query, ← errorOf?_fetch (c := c)]
      exact errorOf?_bind fun _ _ => rfl

theorem scan_eq_ok_iff {sql : String} : (c.scan files sql).1 = .ok records ↔
    (c.failureAt? .opening = none ∧ c.failureAt? .prepare = none ∧ c.failureAt? .query = none) ∧
      c.fetch 0 c.rows = .ok records := by
  unfold scan
  cases hopening : c.failureAt? .opening with
  | some message => simp
  | none =>
    cases hprepare : c.failureAt? .prepare with
    | some message => simp
    | none =>
      rw [← pass_eq_ok_iff]
      constructor
      · intro h
        obtain ⟨⟨⟩, hquery, hfetch⟩ := exists_of_bind_eq_ok h
        exact ⟨⟨rfl, rfl, hquery⟩, hfetch⟩
      · rintro ⟨⟨-, -, hquery⟩, hfetch⟩
        show (c.pass .query >>= fun _ => c.fetch 0 c.rows) = .ok records
        rw [hquery, ← hfetch]
        rfl

theorem scan_congr {sql : String} (h : AgreeApartFromSettings c c') :
    c.scan files sql = c'.scan files sql := by
  have hfetch : c.fetch 0 c.rows = c'.fetch 0 c'.rows := by
    rw [h.rows]
    exact fetch_congr fun k => h.failureAt? (.next k) nofun
  unfold scan pass
  rw [h.failureAt? .opening nofun, h.failureAt? .prepare nofun, h.failureAt? .query nofun, hfetch]

end Connection

/-! ## Loads -/

theorem errorOf?_conditionSql {filters : List Filter} :
    errorOf? (conditionSql filters) = filters.findSome? fun f => errorOf? f.sql := by
  rw [← errorOf?_mapM]
  unfold conditionSql
  split
  · next hempty =>
    obtain rfl := List.isEmpty_iff.mp hempty
    rfl
  · rw [← Option.or_none (o := errorOf? (filters.mapM Filter.sql))]
    exact errorOf?_bind fun _ _ => rfl

theorem errorOf?_scanSql (files columns : List String) {filters : List Filter} :
    errorOf? (scanSql files columns filters) = filters.findSome? fun f => errorOf? f.sql := by
  rw [← errorOf?_conditionSql, ← Option.or_none (o := errorOf? (conditionSql filters))]
  exact errorOf?_bind fun _ _ => rfl

theorem exists_scanSql_iff (files columns : List String) {filters : List Filter} :
    (∃ sql, scanSql files columns filters = .ok sql) ↔
      ∀ f ∈ filters, ∃ condition, f.sql = .ok condition := by
  simp only [← errorOf?_eq_none_iff, errorOf?_scanSql, List.findSome?_eq_none_iff]

theorem findSome?_loadSteps {c : Connection} {files : Nat} {filters : List Filter}
    {rows : List (Option String)} :
    (loadSteps filters rows).findSome? (LoadStep.failure? c files) =
      (filters.findSome? fun f => errorOf? f.sql).or
        ((.opening :: .prepare :: .query :: fetchSteps 0 rows).findSome?
          (LoadStep.failure? c files)) := by
  rw [loadSteps, List.append_assoc, List.findSome?_append, List.findSome?_map]
  rfl

/-- What is told of a load: how much was loaded, if anything was. -/
def loadNotices (files : Nat) : Except Cause (List Record) → List Notice
  | .ok records => [.loadedBatch files records.length]
  | .error _ => []

namespace Engine

variable {root path : String} {paths columns : List String} {filters : List Filter} {e : Engine}

section

variable {cause : Cause}
  (h : scanSql ((path :: paths).map (resolvePath root)) columns filters = .error cause)

include h

/-- The engine is left alone. -/
theorem load_of_error :
    load root (path :: paths) columns filters e = (.error cause, e, []) := by
  unfold load
  rw [h]
  rfl

end

section

variable {sql : String}
  (h : scanSql ((path :: paths).map (resolvePath root)) columns filters = .ok sql)

include h

/-- One connection is used up, and it keeps the trace of the scan. -/
theorem load_of_ok : load root (path :: paths) columns filters e =
    ((e.connect.1.scan (paths.length + 1) sql).1,
      { e.connect.2 with
        scans := e.connect.2.scans ++ [(e.connect.1.scan (paths.length + 1) sql).2] },
      loadNotices (paths.length + 1) (e.connect.1.scan (paths.length + 1) sql).1) := by
  unfold load
  rw [h]
  simp only [List.isEmpty_cons, Bool.false_eq_true, if_false, Step.run_bind]
  simp only [Step.value, Step.state, Step.notices, Step.perform, List.length_cons]
  rcases e.connect.1.scan (paths.length + 1) sql with ⟨_ | rows, trace⟩ <;> rfl

end

theorem errorOf?_load : errorOf? (load root (path :: paths) columns filters e).1 =
    (loadSteps filters e.connect.1.rows).findSome?
      (LoadStep.failure? e.connect.1 (paths.length + 1)) := by
  rw [findSome?_loadSteps,
    ← errorOf?_scanSql ((path :: paths).map (resolvePath root)) columns]
  cases h : scanSql ((path :: paths).map (resolvePath root)) columns filters with
  | error cause =>
    rw [load_of_error h]
    rfl
  | ok sql =>
    rw [load_of_ok h, Connection.errorOf?_scan]
    rfl

theorem load_eq_ok_iff {records : List Record} :
    (load root (path :: paths) columns filters e).1 = .ok records ↔
      NothingFails filters e.connect.1 ∧ List.Forall₂ Decodes e.connect.1.rows records := by
  have hsql : (∃ sql, scanSql ((path :: paths).map (resolvePath root)) columns filters = .ok sql) ↔
      ∀ f ∈ filters, ∃ condition, f.sql = .ok condition := exists_scanSql_iff _ _
  cases h : scanSql ((path :: paths).map (resolvePath root)) columns filters with
  | error cause =>
    rw [load_of_error h]
    refine iff_of_false (by simp) ?_
    rintro ⟨hnothing, -⟩
    obtain ⟨sql, hok⟩ := hsql.mpr hnothing.filters
    cases h.symm.trans hok
  | ok sql =>
    rw [load_of_ok h, Connection.scan_eq_ok_iff, Connection.fetch_eq_ok_iff]
    simp only [Nat.zero_add]
    constructor
    · rintro ⟨⟨hopening, hprepare, hquery⟩, hnext, hrows⟩
      exact ⟨⟨hsql.mp ⟨sql, h⟩, hopening, hprepare, hquery, hnext⟩, hrows⟩
    · rintro ⟨hnothing, hrows⟩
      exact ⟨⟨hnothing.opening, hnothing.prepare, hnothing.query⟩, hnothing.next, hrows⟩

theorem load_congr {c c' : Connection} (hagree : AgreeApartFromSettings c c')
    (rest : List Connection) (scans : List ScanTrace) :
    let loaded := load root (path :: paths) columns filters ⟨c :: rest, scans⟩
    let loaded' := load root (path :: paths) columns filters ⟨c' :: rest, scans⟩
    loaded.1 = loaded'.1 ∧ loaded.2.1.scans = loaded'.2.1.scans ∧ loaded.2.2 = loaded'.2.2 := by
  intro loaded loaded'
  cases h : scanSql ((path :: paths).map (resolvePath root)) columns filters with
  | error cause => simp only [loaded, loaded', load_of_error h, and_self]
  | ok sql =>
    simp only [loaded, loaded', load_of_ok h, connect, Connection.scan_congr hagree, and_self]

end Engine

/-! ## All or nothing -/

/-- What the load of so many files over a connection comes to. -/
structure LoadsWhole (files : Nat) (filters : List Filter) (c : Connection)
    (outcome : Except Cause (List Record)) : Prop where
  /-- All rows in the order of the engine, if no step fails and every row holds an object. -/
  ok : ∀ records, outcome = .ok records ↔
    NothingFails filters c ∧ List.Forall₂ Decodes c.rows records
  /-- Otherwise no rows, and the failure of the first step that fails. -/
  error : ∀ cause, outcome = .error cause ↔
    (loadSteps filters c.rows).findSome? (LoadStep.failure? c files) = some cause

/-- Without paths nothing is loaded and the engine is not used. Any other load brings all rows of
the connection or the failure of the first step that fails; a filter that cannot be written leaves
the engine alone. Which settings fail changes neither the outcome nor what is prepared nor what is
told, whatever else fails on the connection. -/
theorem load_all_or_nothing (root : String) (columns : List String) (filters : List Filter)
    (e : Engine) :
    Engine.load root [] columns filters e = (.ok [], e, []) ∧
      ∀ path paths,
        LoadsWhole (paths.length + 1) filters e.connect.1
          (Engine.load root (path :: paths) columns filters e).1 ∧
        ((∃ f ∈ filters, ∃ cause, f.sql = .error cause) →
          (Engine.load root (path :: paths) columns filters e).2 = (e, [])) ∧
        ∀ c c' rest scans, AgreeApartFromSettings c c' →
          let loaded := Engine.load root (path :: paths) columns filters ⟨c :: rest, scans⟩
          let loaded' := Engine.load root (path :: paths) columns filters ⟨c' :: rest, scans⟩
          loaded.1 = loaded'.1 ∧ loaded.2.1.scans = loaded'.2.1.scans ∧
            loaded.2.2 = loaded'.2.2 := by
  refine ⟨rfl, fun path paths => ⟨⟨fun records => Engine.load_eq_ok_iff, fun cause => ?_⟩, ?_,
    fun c c' rest scans hagree => Engine.load_congr hagree rest scans⟩⟩
  · rw [← errorOf?_eq_some_iff, Engine.errorOf?_load]
  · rintro ⟨f, hf, cause, hcause⟩
    cases h : scanSql ((path :: paths).map (resolvePath root)) columns filters with
    | error cause => rw [Engine.load_of_error h]
    | ok sql =>
      obtain ⟨condition, hok⟩ := (exists_scanSql_iff _ _).mp ⟨sql, h⟩ f hf
      cases hcause.symm.trans hok

/-- An empty object, a row that is no text and a list. The connection fails at the points given. -/
def troubledConnection (failing : List EnginePoint) : Connection :=
  ⟨[some "\x7b\x7d", none, some "[]"],
    fun point => if point ∈ failing then some "connection lost" else none⟩

def troubledEngine : Engine :=
  ⟨[troubledConnection [.setting "PRAGMA threads=2", .next 2]], []⟩

/-- The row that is no text is decoded before the next one is asked for. A list as a literal fails
before everything else. A setting that fails does not hide that the query cannot be prepared. -/
theorem load_all_or_nothing_of_troubled_engine :
    let unprepared := troubledConnection [.prepare]
    let unset := troubledConnection [.setting "PRAGMA threads=2", .prepare]
    (Engine.load "/data" ["a", "b"] [] [.present "route_id"] troubledEngine).1 =
        .error (.plain "column 0 is not text") ∧
      (∃ f ∈ [Filter.mk "time" (.above (.list []))], ∃ cause, f.sql = .error cause) ∧
      (Engine.load "/data" ["a"] [] [⟨"time", .above (.list [])⟩] troubledEngine).2 =
        (troubledEngine, []) ∧
      AgreeApartFromSettings unset unprepared ∧
      (Engine.load "/data" ["a"] [] [] ⟨[unprepared], []⟩).1 =
        .error (.within "scan 1 parquet file(s)" (.plain "connection lost")) ∧
      (Engine.load "/data" ["a"] [] [] ⟨[unset], []⟩).1 =
        .error (.within "scan 1 parquet file(s)" (.plain "connection lost")) := by
  intro unprepared unset
  have hliteral : ∃ f ∈ [Filter.mk "time" (.above (.list []))], ∃ cause, f.sql = .error cause :=
    ⟨_, List.mem_singleton_self _, _, rfl⟩
  have hagree : AgreeApartFromSettings unset unprepared := by
    refine ⟨rfl, fun point hpoint => ?_⟩
    have hother : point ∈ [.setting "PRAGMA threads=2", .prepare] ↔ point ∈ [.prepare] :=
      List.mem_cons.trans (or_iff_right (hpoint _))
    simp only [unset, unprepared, troubledConnection, hother]
  obtain ⟨-, hloads⟩ := load_all_or_nothing "/data" [] [.present "route_id"] troubledEngine
  obtain ⟨-, hrefused⟩ :=
    load_all_or_nothing "/data" [] [⟨"time", .above (.list [])⟩] troubledEngine
  obtain ⟨-, hunprepared⟩ := load_all_or_nothing "/data" [] [] ⟨[unprepared], []⟩
  have hprepare : (Engine.load "/data" ["a"] [] [] ⟨[unprepared], []⟩).1 =
      .error (.within "scan 1 parquet file(s)" (.plain "connection lost")) := by
    refine ((hunprepared "a" []).1.error _).mpr ?_
    decide +kernel
  refine ⟨((hloads "a" ["b"]).1.error _).mpr ?_, hliteral, (hrefused "a" []).2.1 hliteral, hagree,
    hprepare, ((hunprepared "a" []).2.2 unset unprepared [] [] hagree).1.trans hprepare⟩
  decide +kernel

end StopArrivals
