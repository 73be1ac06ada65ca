import Mathlib.Data.List.Perm.Basic
import StopArrivals.Proofs.EachMember
import StopArrivals.Proofs.Exchanges
import StopArrivals.Proofs.Stages

/-!
# Servers that keep the event table

What the statements on the event table do to it, read off the parameters that are bound to them: a
table whose ids and hashes are unique, a transaction that shows its rows when it commits, and
statements that a server may refuse. A server that works like this may answer a query in any order
and may give new rows any ids that are free. On such a server each operation either meets a
statement that is refused, and then the table is as before, or it does its work.
-/

namespace StopArrivals

/-! ## Tables -/

structure EventRow where
  id : Int
  hash : List UInt8
  visit : StopVisit
  timestamp : Int
  moving : Bool
deriving DecidableEq

/-- A row as a query shows it. -/
def EventRow.sent (r : EventRow) : Row := ⟨r.id, "", r.hash, r.visit, r.timestamp, r.moving⟩

/-- The row of a stored event. -/
def StoredEvent.row (r : StoredEvent) : EventRow :=
  ⟨r.id, r.event.fingerprint.bytes, r.event.visit, r.event.timestamp, r.event.moving⟩

/-- The order of the rows means nothing. -/
structure RowTable where
  rows : List EventRow
  ids : (rows.map EventRow.id).Nodup
  hashes : (rows.map EventRow.hash).Nodup

structure TableState where
  committed : RowTable
  /-- What the open transaction is going to commit. -/
  pending : Option RowTable

/-! ## Statements -/

/-- The value that an insert binds to a column. -/
def boundTo (values : List Parameter) (column : String) : Option Parameter :=
  (Statement.insertColumns.zip values).lookup column

/-- The row that an insert makes of the values bound for it. -/
def boundRow? (id : Int) (values : List Parameter) : Option EventRow := do
  let .bytes hash ← boundTo values "hash" | none
  let .integer direction ← boundTo values "direction_id" | none
  let .text route ← boundTo values "route_id" | none
  let .integer startDate ← boundTo values "start_date" | none
  let .integer startTime ← boundTo values "start_time" | none
  let .text vehicle ← boundTo values "vehicle_id" | none
  let .text stop ← boundTo values "stop_id" | none
  let .integer sequence ← boundTo values "stop_sequence" | none
  let .integer timestamp ← boundTo values "timestamp_start" | none
  let .flag moving ← boundTo values "is_moving" | none
  pure ⟨id, hash.bytes, ⟨⟨route, direction, startDate, startTime, vehicle⟩, stop, sequence⟩,
    timestamp, moving⟩

/-- Parameters that are bound to rows, as many for each row as there are columns. -/
inductive BindsRows : List Parameter → List EventRow → Prop where
  | nothing : BindsRows [] []
  | next {values rest : List Parameter} {row : EventRow} {rows : List EventRow}
    (hcolumns : values.length = Statement.insertColumns.length)
    (hrow : boundRow? row.id values = some row) (h : BindsRows rest rows) :
    BindsRows (values ++ rest) (row :: rows)

/-- A row takes the time that is paired with its id. -/
inductive Retimes (pairs : List (Int × Int)) (r : EventRow) : EventRow → Prop where
  | kept (h : ∀ p ∈ pairs, p.1 ≠ r.id) : Retimes pairs r r
  | set {time : Int} (h : (r.id, time) ∈ pairs) : Retimes pairs r { r with timestamp := time }

/-- What a statement on the event table answers and what it does. -/
inductive Executes : TableState → Statement → Reply → TableState → Prop where
  | select {t : RowTable} {fingerprints hashes : List Fingerprint} {reply : Reply}
    (hbound : (Statement.selectEvents fingerprints).parameters = [.byteStrings hashes])
    (hreply : reply.rows.Perm
      ((t.rows.filter fun r => r.hash ∈ hashes.map Fingerprint.bytes).map EventRow.sent)) :
    Executes ⟨t, none⟩ (.selectEvents fingerprints) reply ⟨t, none⟩
  | update {t t' : RowTable} {updates : List TimestampUpdate} {ids times : List Int}
    {reply : Reply}
    (hbound : (Statement.updateEvents updates).parameters = [.integers ids, .integers times])
    (hrows : List.Forall₂ (Retimes (ids.zip times)) t.rows t'.rows)
    (hcount : reply.affected = (t.rows.filter fun r => r.id ∈ ids).length) :
    Executes ⟨t, none⟩ (.updateEvents updates) reply ⟨t', none⟩
  | delete {t t' : RowTable} {named ids : List Int} {reply : Reply}
    (hbound : (Statement.deleteEvents named).parameters = [.integers ids])
    (hrows : t'.rows = t.rows.filter fun r => r.id ∉ ids)
    (hcount : reply.affected = (t.rows.filter fun r => r.id ∈ ids).length) :
    Executes ⟨t, none⟩ (.deleteEvents named) reply ⟨t', none⟩
  | begin {t : RowTable} {reply : Reply} :
    Executes ⟨t, none⟩ .beginTransaction reply ⟨t, some t⟩
  | insert {t p p' : RowTable} {events : List Event} {new : List EventRow} {reply : Reply}
    (hbound : BindsRows (Statement.insertEvents events).parameters new)
    (hrows : p'.rows = p.rows ++ new) (hcount : reply.affected = new.length) :
    Executes ⟨t, some p⟩ (.insertEvents events) reply ⟨t, some p'⟩
  | commit {t p : RowTable} {reply : Reply} : Executes ⟨t, some p⟩ .commit reply ⟨p, none⟩
  | rollback {t : RowTable} {p? : Option RowTable} {reply : Reply} :
    Executes ⟨t, p?⟩ .rollback reply ⟨t, none⟩

/-- The server fails the statements that it refuses and executes any other that can be executed. A
refused statement commits nothing; about one that cannot be executed nothing is assumed. -/
structure Server.ServesTable {ω : Type} (S : Server ω) (table : ω → TableState)
    (refuses : Statement → Bool) : Prop where
  refused : ∀ {statement}, refuses statement = true → ∀ w, ∃ text w',
    S.exchange statement w = (.error text, w') ∧ (table w').committed = (table w).committed
  executed : ∀ {statement w reply t}, refuses statement = false →
    Executes (table w) statement reply t → ∃ answer w',
      S.exchange statement w = (.ok answer, w') ∧ Executes (table w) statement answer (table w')

/-! ## Rows of stored events -/

theorem bytes_injective : Function.Injective Fingerprint.bytes := fun f g h => by
  have hread := Fingerprint.ofBytes?_bytes f
  rw [h, Fingerprint.ofBytes?_bytes] at hread
  exact (Option.some.inj hread).symm

/-- The columns of an insert and the values bound to them are in the same order. -/
theorem boundRow?_rowParameters (r : StoredEvent) :
    boundRow? r.id (Statement.rowParameters r.event) = some r.row := rfl

/-- What an insert of events adds are their rows, under some ids. -/
theorem bindsRows_iff {events : List Event} {new : List EventRow} :
    BindsRows (Statement.insertEvents events).parameters new ↔
      ∃ added : List StoredEvent,
        added.map (·.event) = events ∧ added.map StoredEvent.row = new := by
  induction events generalizing new with
  | nil =>
    constructor
    · intro h
      generalize hparameters : (Statement.insertEvents []).parameters = parameters at h
      cases h with
      | nothing => exact ⟨[], rfl, rfl⟩
      | @next values _ _ _ hcolumns =>
        have hnil : values = [] := (List.append_eq_nil_iff.mp hparameters.symm).1
        rw [hnil] at hcolumns
        cases hcolumns
    · rintro ⟨added, hevents, rfl⟩
      rw [List.map_eq_nil_iff.mp hevents]
      exact .nothing
  | cons e es ih =>
    have hcons : (Statement.insertEvents (e :: es)).parameters =
        Statement.rowParameters e ++ (Statement.insertEvents es).parameters := List.flatMap_cons
    rw [hcons]
    constructor
    · intro h
      generalize hparameters :
        Statement.rowParameters e ++ (Statement.insertEvents es).parameters = parameters at h
      cases h with
      | nothing => cases hparameters
      | @next values rest row rows hcolumns hrow h =>
        obtain ⟨rfl, rfl⟩ := List.append_inj hparameters hcolumns.symm
        obtain ⟨added, rfl, rfl⟩ := ih.mp h
        refine ⟨⟨row.id, e⟩ :: added, rfl, ?_⟩
        rw [List.map_cons]
        exact congrArg (· :: _)
          (Option.some.inj ((boundRow?_rowParameters ⟨row.id, e⟩).symm.trans hrow))
    · rintro ⟨added, hevents, rfl⟩
      obtain ⟨first, added, rfl, rfl, rfl⟩ := List.map_eq_cons_iff.mp hevents
      exact .next rfl (boundRow?_rowParameters first) (ih.mpr ⟨added, rfl, rfl⟩)

/-- The rows of a reply can be read in whatever order they come. -/
theorem mapM_storedEvent {rows : List Row} {stored : List StoredEvent}
    (h : rows.Perm (stored.map fun r => r.row.sent)) :
    ∃ found, rows.mapM Server.storedEvent = .ok found ∧ found.Perm stored := by
  have hread : ∀ r : StoredEvent, Server.storedEvent r.row.sent = .ok r := fun r => by
    rw [Server.storedEvent, EventRow.sent, StoredEvent.row]
    dsimp only
    rw [Fingerprint.ofBytes?_bytes]
  have hall : List.Forall₂ (fun row r => Server.storedEvent row = .ok r)
      (stored.map fun r => r.row.sent) stored :=
    List.forall₂_map_left_iff.mpr (List.forall₂_same.mpr fun r _ => hread r)
  obtain ⟨found, hrows, hperm⟩ := List.perm_comp_forall₂ h hall
  exact ⟨found, mapM_eq_ok_iff.mpr hrows, hperm⟩

/-- An update by pairs sets what an update of one row after the other sets, if no id is named
twice. -/
theorem eq_of_retimes {updates : List TimestampUpdate} (hids : (updates.map (·.id)).Nodup)
    {r : StoredEvent} {r' : EventRow}
    (h : Retimes ((updates.map (·.id)).zip (updates.map (·.timestamp))) r.row r') :
    r' = (EventTable.retimed updates r).row := by
  rw [List.zip_map'] at h
  cases h with
  | kept hnone =>
    rw [EventTable.retimed_of_not_mem fun u hu =>
      hnone (u.id, u.timestamp) (List.mem_map_of_mem hu)]
  | set hmem =>
    obtain ⟨u, hu, hpair⟩ := List.mem_map.mp hmem
    obtain ⟨hid, rfl⟩ := Prod.mk.inj hpair
    have hretimed : EventTable.retimed updates r = { r with event.timestamp := u.timestamp } :=
      EventTable.retimed_of_mem ⟨u, hu, hid⟩ fun v hv hvid => by
        rw [List.inj_on_of_nodup_map hids hv hu (hvid.trans hid.symm)]
    rw [hretimed]
    rfl

/-- How many of the one are in the other, if both repeat nothing. -/
theorem length_filter_mem_comm {l m : List Int} (hl : l.Nodup) (hm : m.Nodup) :
    (l.filter (· ∈ m)).length = (m.filter (· ∈ l)).length := by
  refine List.Perm.length_eq ((List.perm_ext_iff_of_nodup (hl.filter _) (hm.filter _)).mpr ?_)
  intro i
  simp only [List.mem_filter, decide_eq_true_eq, and_comm]

namespace RowTable

/-- The table holds stored events. -/
def Holds (t : RowTable) (stored : List StoredEvent) : Prop :=
  t.rows.Perm (stored.map StoredEvent.row)

variable {t : RowTable} {stored : List StoredEvent}

/-- Counting or choosing rows by a test is counting or choosing the events. -/
theorem Holds.filter (h : t.Holds stored) {p : EventRow → Bool} {q : StoredEvent → Bool}
    (hpq : ∀ r, p r.row = q r) :
    (t.rows.filter p).Perm ((stored.filter q).map StoredEvent.row) := by
  refine (List.Perm.filter p h).trans (List.Perm.of_eq ?_)
  rw [List.filter_map]
  exact congrArg _ (List.filter_congr fun r _ => hpq r)

theorem Holds.nodup_ids (h : t.Holds stored) : (stored.map (·.id)).Nodup := by
  have hids := (h.map EventRow.id).nodup_iff.mp t.ids
  rwa [List.map_map] at hids

theorem Holds.nodup_fingerprints (h : t.Holds stored) :
    (stored.map (·.event.fingerprint)).Nodup := by
  have hhashes := (h.map EventRow.hash).nodup_iff.mp t.hashes
  rw [List.map_map] at hhashes
  refine List.Nodup.of_map Fingerprint.bytes ?_
  rwa [List.map_map]

theorem Holds.perm {stored' : List StoredEvent} (h : t.Holds stored) (hperm : stored.Perm stored') :
    t.Holds stored' := List.Perm.trans h (hperm.map _)

end RowTable

/-! ## Executing statements -/

namespace RowTable

def retimeRow (pairs : List (Int × Int)) (r : EventRow) : EventRow :=
  match pairs.lookup r.id with
  | some time => { r with timestamp := time }
  | none => r

theorem id_retimeRow (pairs : List (Int × Int)) : EventRow.id ∘ retimeRow pairs = EventRow.id := by
  funext r
  rw [Function.comp_apply, retimeRow]
  split <;> rfl

theorem hash_retimeRow (pairs : List (Int × Int)) :
    EventRow.hash ∘ retimeRow pairs = EventRow.hash := by
  funext r
  rw [Function.comp_apply, retimeRow]
  split <;> rfl

theorem retimes_retimeRow (pairs : List (Int × Int)) (r : EventRow) :
    Retimes pairs r (retimeRow pairs r) := by
  rw [retimeRow]
  split
  · next time h =>
    obtain ⟨before, after, rfl, -⟩ := List.lookup_eq_some_iff.mp h
    exact .set (List.mem_append_right _ (List.mem_cons_self ..))
  · next h => exact .kept fun p hp hid => by simpa [hid] using List.lookup_eq_none_iff.mp h p hp

def retime (pairs : List (Int × Int)) (t : RowTable) : RowTable where
  rows := t.rows.map (retimeRow pairs)
  ids := by
    rw [List.map_map, id_retimeRow]
    exact t.ids
  hashes := by
    rw [List.map_map, hash_retimeRow]
    exact t.hashes

def remove (ids : List Int) (t : RowTable) : RowTable where
  rows := t.rows.filter fun r => r.id ∉ ids
  ids := t.ids.sublist (List.filter_sublist.map _)
  hashes := t.hashes.sublist (List.filter_sublist.map _)

/-- An id that no row exceeds. -/
def lastId (t : RowTable) : Int := t.rows.foldr (fun r last => max r.id last) 0

theorem id_le_foldr {r : EventRow} : ∀ {rows : List EventRow}, r ∈ rows →
    r.id ≤ rows.foldr (fun r last => max r.id last) 0
  | first :: rows, hr => by
      rw [List.foldr_cons]
      rcases List.mem_cons.mp hr with rfl | hr
      · exact Int.le_max_left ..
      · exact Int.le_trans (id_le_foldr hr) (Int.le_max_right ..)

def newRows (t : RowTable) (events : List Event) : List EventRow :=
  (MemoryStore.numbered t.lastId events).map StoredEvent.row

theorem bindsRows_newRows (t : RowTable) (events : List Event) :
    BindsRows (Statement.insertEvents events).parameters (t.newRows events) :=
  bindsRows_iff.mpr ⟨_, EventTable.map_event_numbered _ events, rfl⟩

theorem hashes_newRows (t : RowTable) (events : List Event) :
    (t.newRows events).map EventRow.hash = events.map (·.fingerprint.bytes) := by
  have hevents := congrArg (List.map (·.fingerprint.bytes))
    (EventTable.map_event_numbered t.lastId events)
  rw [List.map_map] at hevents
  rw [newRows, List.map_map]
  exact hevents

/-- Add events under ids of their own, unless a hash would occur twice. -/
def insert? (t : RowTable) (events : List Event) : Option RowTable :=
  if h : ((t.rows ++ t.newRows events).map EventRow.hash).Nodup then
    some {
      rows := t.rows ++ t.newRows events
      ids := by
        rw [List.map_append, newRows, List.map_map]
        refine List.Nodup.append t.ids (EventTable.nodup_ids_numbered _ _) fun i hi hnew => ?_
        · obtain ⟨r, hr, rfl⟩ := List.mem_map.mp hi
          obtain ⟨x, hx, hxr⟩ := List.mem_map.mp hnew
          have hle : r.id ≤ t.lastId := id_le_foldr hr
          have hlt : t.lastId < r.id := hxr ▸ (MemoryStore.id_of_mem_numbered hx).1
          omega
      hashes := h }
  else none

end RowTable

/-- Execute a statement, if it can be executed. -/
def TableState.execute? (t : TableState) : Statement → Option (Reply × TableState)
  | .selectEvents fingerprints =>
    match t.pending with
    | none => some (⟨((t.committed.rows.filter fun r =>
        r.hash ∈ fingerprints.map Fingerprint.bytes).map EventRow.sent).reverse, 0⟩, t)
    | some _ => none
  | .updateEvents updates =>
    match t.pending with
    | none => some (⟨[], (t.committed.rows.filter fun r => r.id ∈ updates.map (·.id)).length⟩,
        ⟨t.committed.retime ((updates.map (·.id)).zip (updates.map (·.timestamp))), none⟩)
    | some _ => none
  | .deleteEvents ids =>
    match t.pending with
    | none => some (⟨[], (t.committed.rows.filter fun r => r.id ∈ ids).length⟩,
        ⟨t.committed.remove ids, none⟩)
    | some _ => none
  | .beginTransaction =>
    match t.pending with
    | none => some (.empty, ⟨t.committed, some t.committed⟩)
    | some _ => none
  | .insertEvents events =>
    match t.pending with
    | none => none
    | some p => (p.insert? events).map fun p' => (⟨[], events.length⟩, ⟨t.committed, some p'⟩)
  | .commit =>
    match t.pending with
    | none => none
    | some p => some (.empty, ⟨p, none⟩)
  | .rollback => some (.empty, ⟨t.committed, none⟩)
  | _ => none

theorem executes_of_execute? {t t' : TableState} {statement : Statement} {reply : Reply}
    (h : t.execute? statement = some (reply, t')) : Executes t statement reply t' := by
  obtain ⟨t, p?⟩ := t
  cases statement with
  | selectEvents fingerprints =>
    cases p? with
    | some => cases h
    | none =>
      cases h
      exact .select rfl (List.reverse_perm _)
  | updateEvents updates =>
    cases p? with
    | some => cases h
    | none =>
      cases h
      refine .update rfl (List.forall₂_map_right_iff.mpr (List.forall₂_same.mpr fun r _ => ?_)) rfl
      exact RowTable.retimes_retimeRow _ r
  | deleteEvents ids =>
    cases p? with
    | some => cases h
    | none =>
      cases h
      exact .delete rfl rfl rfl
  | beginTransaction =>
    cases p? with
    | some => cases h
    | none =>
      cases h
      exact .begin
  | insertEvents events =>
    cases p? with
    | none => cases h
    | some p =>
      obtain ⟨p', hp', heq⟩ := Option.map_eq_some_iff.mp h
      cases heq
      rw [RowTable.insert?] at hp'
      split at hp'
      · cases hp'
        refine .insert (p.bindsRows_newRows events) rfl ?_
        rw [← List.length_map (f := EventRow.hash), p.hashes_newRows, List.length_map]
      · cases hp'
  | commit =>
    cases p? with
    | none => cases h
    | some p =>
      cases h
      exact .commit
  | rollback =>
    cases h
    exact .rollback
  | create | listObjects | markObjects => cases h

theorem Executes.committed_rollback {t u : TableState} {reply : Reply}
    (h : Executes t .rollback reply u) : u.committed = t.committed := by
  cases h
  rfl

/-- What can be executed at all is executed. -/
theorem execute?_isSome {t t' : TableState} {statement : Statement} {reply : Reply}
    (h : Executes t statement reply t') : ∃ answer, t.execute? statement = some answer := by
  cases h with
  | select | update | delete | begin | commit | rollback => exact ⟨_, rfl⟩
  | @insert _ p p' events new _ hbound hrows =>
    obtain ⟨added, rfl, rfl⟩ := bindsRows_iff.mp hbound
    have hnew : ((p.rows ++ p.newRows (added.map (·.event))).map EventRow.hash).Nodup := by
      have hhashes := p'.hashes
      rw [hrows, List.map_append, List.map_map] at hhashes
      rw [List.map_append, p.hashes_newRows, List.map_map]
      exact hhashes
    obtain ⟨q, hq⟩ : ∃ q, p.insert? (added.map (·.event)) = some q := ⟨_, dif_pos hnew⟩
    exact ⟨_, congrArg (Option.map _) hq⟩

/-- Events with new fingerprints can be inserted. -/
theorem RowTable.Holds.executes_insert {t p : RowTable} {stored : List StoredEvent}
    {events : List Event} (h : p.Holds stored)
    (hnew : (stored.map (·.event.fingerprint) ++ events.map Event.fingerprint).Nodup) :
    ∃ reply u, Executes ⟨t, some p⟩ (.insertEvents events) reply u := by
  have hhashes : ((p.rows ++ p.newRows events).map EventRow.hash).Nodup := by
    have hperm := (List.Perm.map EventRow.hash h).append_right (events.map (·.fingerprint.bytes))
    rw [List.map_append, p.hashes_newRows]
    refine hperm.nodup_iff.mpr ?_
    have hbytes := hnew.map bytes_injective
    rw [List.map_append, List.map_map, List.map_map] at hbytes
    rw [List.map_map]
    exact hbytes
  obtain ⟨p', hp'⟩ : ∃ p', p.insert? events = some p' := ⟨_, dif_pos hhashes⟩
  have hexecute : (TableState.mk t (some p)).execute? (.insertEvents events) =
      some (⟨[], events.length⟩, ⟨t, some p'⟩) := congrArg (Option.map _) hp'
  exact ⟨_, _, executes_of_execute? hexecute⟩

/-- A server that keeps nothing but the table. -/
def tableServer (refuses : Statement → Bool) : Server TableState where
  exchange statement t :=
    if refuses statement then (.error "refused", t)
    else
      match t.execute? statement with
      | some (reply, t) => (.ok reply, t)
      | none => (.error "not executed", t)

theorem tableServer_serves (refuses : Statement → Bool) :
    (tableServer refuses).ServesTable id refuses where
  refused {statement} hrefused t := ⟨"refused", t, if_pos hrefused, rfl⟩
  executed {statement t reply t'} hserved h := by
    obtain ⟨⟨answer, t''⟩, hsome⟩ := execute?_isSome h
    refine ⟨answer, t'', ?_, executes_of_execute? hsome⟩
    rw [tableServer]
    dsimp only
    rw [if_neg (Bool.eq_false_iff.mp hserved), show t.execute? statement = _ from hsome]

/-! ## Operations -/

section

variable {ω α : Type} (table : ω → TableState) (refuses : Statement → Bool)

/-- How an operation that sends statements ends, on a table between two transactions. -/
inductive OperationEnds (t : RowTable) (statements : List Statement) (does : α → RowTable → Prop) :
    Except Cause α × ω → Prop where
  | refused {cause : Cause} {w : ω} (hrefused : statements.any refuses = true)
    (htable : (table w).committed = t) : OperationEnds t statements does (.error cause, w)
  | done {a : α} {w : ω} {t' : RowTable} (hserved : statements.any refuses = false)
    (htable : table w = ⟨t', none⟩) (hdoes : does a t') :
    OperationEnds t statements does (.ok a, w)

end

namespace Server.ServesTable

variable {ω α : Type} {S : Server ω} {table : ω → TableState} {refuses : Statement → Bool}

theorem refused_from (hS : S.ServesTable table refuses) {statement : Statement} {w : ω}
    {t : TableState} (hw : table w = t) (hrefuses : refuses statement = true) :
    ∃ text w', S.exchange statement w = (.error text, w') ∧
      (table w').committed = t.committed :=
  hw ▸ hS.refused hrefuses w

theorem executed_from (hS : S.ServesTable table refuses) {statement : Statement} {w : ω}
    {t : TableState} (hw : table w = t) (hrefuses : refuses statement = false)
    (hpossible : ∃ reply u, Executes t statement reply u) :
    ∃ answer w' u, S.exchange statement w = (.ok answer, w') ∧ table w' = u ∧
      Executes t statement answer u := by
  obtain ⟨reply, u, hpossible⟩ := hpossible
  obtain ⟨answer, w', hexchange, hexecutes⟩ := hS.executed hrefuses (hw ▸ hpossible)
  exact ⟨answer, w', _, hexchange, rfl, hw ▸ hexecutes⟩

/-- A statement by itself. -/
theorem ask_ends (hS : S.ServesTable table refuses) {w : ω} {t : RowTable}
    (hw : table w = ⟨t, none⟩) {undertaking : String} {statement : Statement}
    {read : Reply → Except Cause α} {does : α → RowTable → Prop}
    (hpossible : ∃ reply u, Executes ⟨t, none⟩ statement reply u)
    (hdoes : ∀ {answer u}, Executes ⟨t, none⟩ statement answer u →
      ∃ t' a, u = ⟨t', none⟩ ∧ read answer = .ok a ∧ does a t') :
    OperationEnds table refuses t [statement] does (S.ask undertaking statement read w) := by
  cases hrefuses : refuses statement with
  | true =>
    obtain ⟨text, w', hexchange, hcommitted⟩ := hS.refused_from hw hrefuses
    rw [ask_of_error hexchange]
    exact .refused (by rw [List.any_cons, hrefuses, Bool.true_or]) hcommitted
  | false =>
    obtain ⟨answer, w', u, hexchange, hu, hexecutes⟩ := hS.executed_from hw hrefuses hpossible
    obtain ⟨t', a, rfl, hread, hdoes⟩ := hdoes hexecutes
    rw [ask_of_ok hexchange, hread]
    exact .done (by rw [List.any_cons, hrefuses]; rfl) hu hdoes

section

variable (hS : S.ServesTable table refuses) {w : ω} {t : RowTable} (hw : table w = ⟨t, none⟩)
  {stored : List StoredEvent} (hstored : t.Holds stored)

include hS hw hstored

theorem selectEvents_ends (fingerprints : List Fingerprint) :
    OperationEnds table refuses t (statementFor .selectEvents fingerprints)
      (fun found t' => t' = t ∧
        found.Perm (stored.filter fun r => r.event.fingerprint ∈ fingerprints))
      (S.selectEvents fingerprints w) := by
  rw [selectEvents, statementFor]
  by_cases hnone : fingerprints.isEmpty
  · rw [if_pos hnone, if_pos hnone, List.isEmpty_iff.mp hnone]
    exact .done rfl hw ⟨rfl, List.Perm.of_eq (List.filter_false _).symm⟩
  rw [if_neg hnone, if_neg hnone]
  refine hS.ask_ends hw ⟨_, _, executes_of_execute? rfl⟩ fun {answer u} h => ?_
  cases h with
  | @select _ _ hashes _ hbound hreply =>
    obtain rfl : fingerprints = hashes := by simpa [Statement.parameters] using hbound
    have hperm := hstored.filter (p := fun r => r.hash ∈ fingerprints.map Fingerprint.bytes)
      (q := fun r => r.event.fingerprint ∈ fingerprints) fun r =>
        decide_eq_decide.mpr (List.mem_map_of_injective bytes_injective)
    have hsent := hreply.trans (hperm.map EventRow.sent)
    rw [List.map_map] at hsent
    obtain ⟨found, hread, hfound⟩ := mapM_storedEvent hsent
    exact ⟨t, found, rfl, hread, rfl, hfound⟩

/-- An update by pairs is an update of one row after the other, if no id is named twice. -/
theorem updateEvents_ends {updates : List TimestampUpdate} (hids : (updates.map (·.id)).Nodup) :
    OperationEnds table refuses t (statementFor .updateEvents updates)
      (fun count t' => count = (updates.filter fun u => u.id ∈ stored.map (·.id)).length ∧
        t'.Holds (MemoryStore.setTimestamps updates stored))
      (S.updateEvents updates w) := by
  rw [updateEvents, statementFor]
  by_cases hnone : updates.isEmpty
  · rw [if_pos hnone, if_pos hnone, List.isEmpty_iff.mp hnone]
    exact .done rfl hw ⟨rfl, hstored⟩
  rw [if_neg hnone, if_neg hnone]
  refine hS.ask_ends hw ⟨_, _, executes_of_execute? rfl⟩ fun {answer u} h => ?_
  cases h with
  | @update _ t' _ ids times _ hbound hrows hcount =>
    obtain ⟨rfl, rfl⟩ : updates.map (·.id) = ids ∧ updates.map (·.timestamp) = times := by
      simpa [Statement.parameters] using hbound
    refine ⟨t', _, rfl, rfl, ?_, ?_⟩
    · calc answer.affected
        _ = (t.rows.filter fun r => r.id ∈ updates.map (·.id)).length := hcount
        _ = (stored.filter fun r => r.id ∈ updates.map (·.id)).length := by
          rw [(hstored.filter fun r => rfl).length_eq, List.length_map]
          rfl
        _ = ((stored.map (·.id)).filter (· ∈ updates.map (·.id))).length := by
          rw [List.filter_map, List.length_map]
          rfl
        _ = ((updates.map (·.id)).filter (· ∈ stored.map (·.id))).length :=
          length_filter_mem_comm hstored.nodup_ids hids
        _ = (updates.filter fun u => u.id ∈ stored.map (·.id)).length := by
          rw [List.filter_map, List.length_map]
          rfl
    · obtain ⟨rows, hretimes, hperm⟩ := List.perm_comp_forall₂ hstored.symm hrows
      have hrow : List.Forall₂ (fun r r' => r' = (EventTable.retimed updates r).row) stored rows :=
        (List.forall₂_map_left_iff.mp hretimes).imp fun _ _ h => eq_of_retimes hids h
      have heq : rows = (stored.map (EventTable.retimed updates)).map StoredEvent.row := by
        rw [List.map_map]
        refine (List.forall₂_eq_eq_eq ▸ List.forall₂_map_left_iff.mpr (hrow.imp fun _ _ h => ?_) :
          stored.map _ = rows).symm
        exact h.symm
      rw [RowTable.Holds, EventTable.setTimestamps_eq_map, ← heq]
      exact hperm.symm

theorem deleteEvents_ends (ids : List Int) :
    OperationEnds table refuses t (statementFor .deleteEvents ids)
      (fun count t' => count = (stored.filter fun r => r.id ∈ ids).length ∧
        t'.Holds (stored.filter fun r => r.id ∉ ids))
      (S.deleteEvents ids w) := by
  rw [deleteEvents, statementFor]
  by_cases hnone : ids.isEmpty
  · rw [if_pos hnone, if_pos hnone, List.isEmpty_iff.mp hnone]
    refine .done rfl hw ⟨?_, ?_⟩
    · rw [List.filter_eq_nil_iff.mpr fun r _ => by simp, List.length_nil]
    · rwa [List.filter_eq_self.mpr fun r _ => by simp]
  rw [if_neg hnone, if_neg hnone]
  refine hS.ask_ends hw ⟨_, _, executes_of_execute? rfl⟩ fun {answer u} h => ?_
  cases h with
  | @delete _ t' _ bound _ hbound hrows hcount =>
    obtain rfl : ids = bound := by simpa [Statement.parameters] using hbound
    refine ⟨t', _, rfl, rfl, ?_, ?_⟩
    · rw [hcount, (hstored.filter fun r => rfl).length_eq, List.length_map]
      rfl
    · rw [RowTable.Holds, hrows]
      exact hstored.filter fun r => rfl

end

/-! ## Inserts -/

/-- How the chunks of an insert end, within a transaction. -/
inductive ChunksEnd (table : ω → TableState) (refuses : Statement → Bool) (t : RowTable)
    (stored : List StoredEvent) (chunks : List (List Event)) : Except Cause Nat × ω → Prop where
  | refused {cause : Cause} {w : ω}
    (hrefused : (chunks.map Statement.insertEvents).any refuses = true)
    (htable : (table w).committed = t) : ChunksEnd table refuses t stored chunks (.error cause, w)
  | done {w : ω} {p : RowTable} {added : List StoredEvent}
    (hserved : (chunks.map Statement.insertEvents).any refuses = false)
    (htable : table w = ⟨t, some p⟩) (hstored : p.Holds (stored ++ added))
    (hadded : added.map (·.event) = chunks.flatten) :
    ChunksEnd table refuses t stored chunks (.ok chunks.flatten.length, w)

theorem insertChunks_ends (hS : S.ServesTable table refuses) {t : RowTable} :
    ∀ (chunks : List (List Event)) {w : ω} {p : RowTable} {stored : List StoredEvent},
      table w = ⟨t, some p⟩ → p.Holds stored →
      (stored.map (·.event.fingerprint) ++ chunks.flatten.map Event.fingerprint).Nodup →
      ChunksEnd table refuses t stored chunks (S.insertChunks chunks w)
  | [], _, _, stored, hw, hstored, _ =>
      .done rfl hw (by rwa [List.append_nil]) (List.map_nil ..)
  | chunk :: chunks, w, p, stored, hw, hstored, hnew => by
      rw [insertChunks, change]
      dsimp only
      cases hrefuses : refuses (.insertEvents chunk) with
      | true =>
        obtain ⟨text, w', hexchange, hcommitted⟩ := hS.refused_from hw hrefuses
        rw [ask_of_error hexchange]
        exact .refused (by rw [List.map_cons, List.any_cons, hrefuses, Bool.true_or]) hcommitted
      | false =>
        rw [List.flatten_cons, List.map_append, ← List.append_assoc] at hnew
        obtain ⟨answer, w', u, hexchange, hu, hexecutes⟩ := hS.executed_from hw hrefuses
          (hstored.executes_insert hnew.of_append_left)
        rw [ask_of_ok hexchange]
        dsimp only
        cases hexecutes with
        | @insert _ _ p' _ new _ hbound hrows hcount =>
          obtain ⟨added, rfl, rfl⟩ := bindsRows_iff.mp hbound
          have hstored' : p'.Holds (stored ++ added) := by
            rw [RowTable.Holds, hrows, List.map_append]
            exact List.Perm.append_right _ hstored
          rw [List.map_map] at hnew
          have hrest := insertChunks_ends hS chunks hu hstored' (by rwa [List.map_append])
          generalize S.insertChunks chunks w' = rest at hrest ⊢
          cases hrest with
          | refused hrefused htable =>
            exact .refused (by rw [List.map_cons, List.any_cons, hrefused, Bool.or_true]) htable
          | @done w p more hserved htable hstored hmore =>
            have hlength : answer.affected + chunks.flatten.length =
                (added.map (·.event) :: chunks).flatten.length := by
              rw [hcount, List.flatten_cons, List.length_append, List.length_map, List.length_map]
            dsimp only
            rw [hlength]
            rw [List.append_assoc] at hstored
            refine .done ?_ htable hstored ?_
            · rw [List.map_cons, List.any_cons, hrefuses, hserved, Bool.false_or]
            · rw [List.map_append, hmore, List.flatten_cons]

/-- Whatever is said to a rollback, nothing is committed by it. -/
theorem committed_rollback (hS : S.ServesTable table refuses) (w : ω) :
    (table (S.exchange .rollback w).2).committed = (table w).committed := by
  cases hrefuses : refuses .rollback with
  | true =>
    obtain ⟨text, w', hexchange, hcommitted⟩ := hS.refused hrefuses w
    rw [hexchange]
    exact hcommitted
  | false =>
    obtain ⟨answer, w', u, hexchange, hu, hexecutes⟩ :=
      hS.executed_from rfl hrefuses ⟨_, _, executes_of_execute? rfl⟩
    rw [hexchange, ← hexecutes.committed_rollback, ← hu]

/-- An insert of new fingerprints adds all events or, if any statement of it is refused, none. -/
theorem insertEvents_ends (hS : S.ServesTable table refuses) {w : ω} {t : RowTable}
    (hw : table w = ⟨t, none⟩) {stored : List StoredEvent} (hstored : t.Holds stored)
    {events : List Event}
    (hnew : (stored.map (·.event.fingerprint) ++ events.map Event.fingerprint).Nodup) :
    OperationEnds table refuses t (insertStatements events)
      (fun count t' => count = events.length ∧
        ∃ added : List StoredEvent, added.map (·.event) = events ∧ t'.Holds (stored ++ added))
      (S.insertEvents events w) := by
  rw [insertEvents, insertStatements]
  by_cases hnone : events.isEmpty
  · rw [if_pos hnone, if_pos hnone, List.isEmpty_iff.mp hnone]
    exact .done rfl hw ⟨rfl, [], rfl, by rwa [List.append_nil]⟩
  rw [if_neg hnone, if_neg hnone]
  cases hbegin : refuses .beginTransaction with
  | true =>
    obtain ⟨text, w', hexchange, hcommitted⟩ := hS.refused_from hw hbegin
    rw [send_of_error hexchange]
    exact .refused (by rw [List.any_cons, hbegin, Bool.true_or]) hcommitted
  | false =>
  obtain ⟨begun, w₁, _, hexchange, hw₁, hexecutes⟩ :=
    hS.executed_from hw hbegin ⟨_, _, executes_of_execute? rfl⟩
  cases hexecutes
  rw [send_of_ok hexchange]
  have hchunks := hS.insertChunks_ends (chunks events) hw₁ hstored (by rwa [flatten_chunks])
  dsimp only
  generalize S.insertChunks (chunks events) w₁ = inserted at hchunks ⊢
  cases hchunks with
  | refused hrefused htable =>
    refine .refused ?_ ((hS.committed_rollback _).trans htable)
    rw [List.any_cons, List.any_append, hrefused, Bool.true_or, Bool.or_true]
  | @done w₂ p added hserved hw₂ hholds hadded =>
    dsimp only
    cases hcommit : refuses .commit with
    | true =>
      obtain ⟨text, w₃, hexchange, hcommitted⟩ := hS.refused_from hw₂ hcommit
      rw [send_of_error hexchange]
      refine .refused ?_ ((hS.committed_rollback _).trans hcommitted)
      rw [List.any_cons, List.any_append, List.any_cons, hcommit, Bool.true_or, Bool.or_true,
        Bool.or_true]
    | false =>
      obtain ⟨_, w₃, _, hexchange, hw₃, hexecutes⟩ :=
        hS.executed_from hw₂ hcommit ⟨_, _, executes_of_execute? rfl⟩
      cases hexecutes
      rw [send_of_ok hexchange]
      rw [flatten_chunks] at hadded ⊢
      refine .done ?_ hw₃ ⟨rfl, added, hadded, hholds⟩
      rw [List.any_cons, List.any_append, hserved, hbegin, List.any_cons, hcommit]
      rfl

end Server.ServesTable

end StopArrivals
