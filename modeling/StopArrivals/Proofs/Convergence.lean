import StopArrivals.Proofs.Progress

/-!
# What a run leaves behind

Two results about runs of any length on a world in memory, whatever fails on the way. An object that
is marked is never lost: its whole folder is marked, and all that the folder had to say is in the
event table and stays there. And as soon as all good folders are marked, the event table no longer
depends on what happened: it is the one that the rows at the start and the good folders determine.
That point is reached with the first cycle in which nothing fails (`Feed.marked_of_quiet`).
-/

namespace StopArrivals

namespace Feed

variable {F : Feed} {i : Interference} {s : MemoryStore}

/-- What an acknowledgement promises: the folder is marked as a whole, it is good, and the table
holds all its events. It is never withdrawn, and no folder is acknowledged twice. -/
theorem marked_never_lost (F : Feed) (i : Interference) (s : MemoryStore) (n : Nat) :
    (∀ o, (F.run i s n).2.Marked o →
      (∀ o' ∈ F.tagged, folderOf o'.path = folderOf o.path → (F.run i s n).2.Marked o') ∧
      ∃ events, F.events (folderOf o.path) = .ok events ∧ ∀ e ∈ events,
        ∃ r, rowsOf e.fingerprint (F.run i s n).2.world.store.rows = [r] ∧
          e.timestamp ≤ r.event.timestamp) ∧
    (∀ o m, n ≤ m → (F.run i s n).2.Marked o → (F.run i s m).2.Marked o) ∧
    (((F.run i s n).1.filter Outcome.isProcessed).map Outcome.partition).Nodup := by
  have hprogress := Progress.run F i s n
  refine ⟨fun o ho => ⟨fun o' ho' hfolder => ?_, ?_⟩, fun o m hm ho => ?_, hprogress.nodup⟩
  · rw [marked_iff] at ho ⊢
    exact ⟨ho', hfolder ▸ ho.2⟩
  · exact hprogress.arrived _ (marked_iff.mp ho).2
  · induction m, hm using Nat.le_induction with
    | base => exact ho
    | succ m _ ih =>
      rw [marked_iff] at ih ⊢
      refine ⟨ih.1, ?_⟩
      show folderOf o.path ∈ acknowledged ((F.run i s m).1 ++ _)
      rw [acknowledged_append]
      exact List.mem_append_left _ ih.2

/-- When the objects of all good folders are marked, the table is settled. A fingerprint with
events has one row, with the greatest timestamp of all the rows and events there were for it; if it
had rows, the one with the lowest id. The rows of any other fingerprint are as they were. -/
theorem table_of_all_marked {n : Nat} (hall : ∀ o ∈ F.tagged,
      (∃ events, F.events (folderOf o.path) = .ok events) → (F.run i s n).2.Marked o)
    (f : Fingerprint) :
    ((∃ e, F.Estimate e ∧ e.fingerprint = f) →
      ∃ r, rowsOf f (F.run i s n).2.world.store.rows = [r] ∧
        IsGreatest (EventTable.everSeen F.Estimate s.table f) r.event.timestamp ∧
        (∀ x ∈ s.rows, x.event.fingerprint = f → Leads s.rows x → EventTable.Redated x r) ∧
        ((∀ x ∈ s.rows, x.event.fingerprint ≠ f) →
          ∃ e, F.Estimate e ∧ e.fingerprint = f ∧
            r.event = { e with timestamp := r.event.timestamp })) ∧
    ((∀ e, F.Estimate e → e.fingerprint ≠ f) →
      rowsOf f (F.run i s n).2.world.store.rows = rowsOf f s.rows) := by
  have hprogress := Progress.run F i s n
  refine ⟨fun hf => hprogress.lineage.exists_greatest (fun e he => ?_) hf,
    hprogress.lineage.untouched f⟩
  obtain ⟨folder, events, hevents, he⟩ := he
  obtain ⟨o, ho, hfolder⟩ := exists_tagged hevents he
  have hmarked := hall o ho ⟨events, hfolder ▸ hevents⟩
  obtain ⟨there, hthere, hholds⟩ := hprogress.arrived _ (marked_iff.mp hmarked).2
  rw [hfolder, hevents] at hthere
  exact hholds e (Except.ok.inj hthere ▸ he)

/-! ## A run whose first listing fails -/

def firstListingFails : Interference where
  act
    | 1, 0, m => { m with ledger := { m.ledger with failNextList := true } }
    | _, _, m => ⟨{ m.ledger with failNextList := false, failNextMark := false }, m.batches,
        { m.store with failNext := none }, false, none⟩
  rows_act _ _ _ := by split <;> rfl
  batches_act _ _ _ := by split <;> rfl
  table_act _ _ _ := by split <;> rfl

theorem quietIn_firstListingFails : firstListingFails.QuietIn 2 :=
  fun _ _ => ⟨rfl, rfl, rfl, rfl, rfl⟩

def sampleVisit : StopVisit := ⟨⟨"73", 0, 20250101, 600, "90"⟩, "5", 3⟩

/-- A message of one vehicle with one prediction. -/
def sampleRow : Record :=
  [("timestamp", .number (.integer 1735700000)), ("direction_id", .number (.integer 0)),
    ("route_id", .text "73"), ("start_date", .text "20250101"), ("start_time", .text "00:10:00"),
    ("vehicle_id", .text "90"),
    ("stop_time_update", .list [.object [
      ("arrival", .object [("time", .number (.integer 1735700060))]), ("stop_id", .text "5"),
      ("stop_sequence", .number (.integer 3))]])]

/-- Two folders, one of which cannot be read. -/
def sampleFeed : Feed :=
  ⟨["tu/a/1", "tu/b/2"], ⟨[("tu/a/1", [sampleRow])], ["tu/b/2"]⟩, "tu", 120⟩

set_option maxRecDepth 10000 in
theorem events_sampleFeed :
    sampleFeed.events "tu/a" = .ok [.predicted sampleVisit 1735700060] := by
  have hload : sampleFeed.batches.load tripUpdateColumns tripUpdateFilters
      (sampleFeed.partition "tu/a").paths = .ok [sampleRow] := rfl
  have hextract : (extract sampleFeed.horizon [sampleRow]).1 =
      .ok ⟨[⟨.predicted sampleVisit 1735700060, 1735700000⟩], ⟨1, 1, 1, 0, 0, 0⟩⟩ := rfl
  rw [events, hload, prepared, hextract]
  show Except.ok (latestEvents _) = _
  rw [latestEvents, candidateRuns, List.mergeSort_singleton]
  rfl

/-- The table holds the visit of the message twice at first. In the end one of the two rows is left,
the older one. -/
theorem table_after_failed_listing :
    (∀ o ∈ sampleFeed.tagged, (∃ events, sampleFeed.events (folderOf o.path) = .ok events) →
      (sampleFeed.run firstListingFails
        (.ofEvents [.predicted sampleVisit 10, .predicted sampleVisit 20]) 2).2.Marked o) ∧
    ∃ r, rowsOf sampleVisit.fingerprint (sampleFeed.run firstListingFails
        (.ofEvents [.predicted sampleVisit 10, .predicted sampleVisit 20]) 2).2.world.store.rows =
        [r] ∧
      r.id = 1 ∧ 1735700060 ≤ r.event.timestamp := by
  have hmarked : ∀ o ∈ sampleFeed.tagged,
      (∃ events, sampleFeed.events (folderOf o.path) = .ok events) →
      (sampleFeed.run firstListingFails
        (.ofEvents [.predicted sampleVisit 10, .predicted sampleVisit 20]) 2).2.Marked o :=
    fun o ho hgood => marked_of_quiet quietIn_firstListingFails ho hgood
  have hestimate : sampleFeed.Estimate (.predicted sampleVisit 1735700060) :=
    ⟨"tu/a", _, events_sampleFeed, List.mem_singleton_self _⟩
  obtain ⟨r, hrows, hgreatest, hleading, -⟩ :=
    (table_of_all_marked hmarked sampleVisit.fingerprint).1 ⟨_, hestimate, rfl⟩
  have hlead : Leads (MemoryStore.ofEvents [.predicted sampleVisit 10,
      .predicted sampleVisit 20]).rows ⟨1, .predicted sampleVisit 10⟩ := by
    intro x hx _
    exact (MemoryStore.id_of_mem_numbered hx).1
  have hredated := hleading _ (List.mem_cons_self ..) rfl hlead
  exact ⟨hmarked, r, hrows, hredated.id_eq, hgreatest.2 (.inr ⟨_, hestimate, rfl, rfl⟩)⟩

end Feed

end StopArrivals
