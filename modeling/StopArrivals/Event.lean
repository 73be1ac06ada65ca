import StopArrivals.StopVisit

/-!
# Stop events

An event is a stop visit with the time at which it begins. A candidate is an event read from a
message, with the time of the message; a stored event is a row of the event table, with the id
that the table gave it.
-/

namespace StopArrivals

/-- A stored event may carry a fingerprint that is not that of its visit, so the fingerprint is a
field of its own. -/
structure Event where
  fingerprint : Fingerprint
  visit : StopVisit
  /-- When the visit begins, in seconds since 1970. -/
  timestamp : Int
  /-- Set only for observed vehicles between two stops, never for a prediction. -/
  moving : Bool
deriving DecidableEq

/-- The predicted event of a visit. -/
def Event.predicted (visit : StopVisit) (timestamp : Int) : Event :=
  ⟨visit.fingerprint, visit, timestamp, false⟩

structure Candidate where
  event : Event
  /-- The time of the message that the event was read from. -/
  messageTime : Int
deriving DecidableEq

structure StoredEvent where
  id : Int
  event : Event
deriving DecidableEq

/-- A new timestamp for the stored event with the id. -/
structure TimestampUpdate where
  id : Int
  timestamp : Int
deriving DecidableEq

end StopArrivals
