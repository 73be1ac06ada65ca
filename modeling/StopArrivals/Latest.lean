import StopArrivals.Event

/-!
# The latest candidate of each visit

Of the candidates with one fingerprint the one from the latest message is kept, of several from
that message the last one given. The events kept come out in the order of their fingerprints.
-/

namespace StopArrivals

/-- The order by fingerprint and then by the time of the message. -/
def Candidate.before (a b : Candidate) : Bool :=
  a.event.fingerprint < b.event.fingerprint ||
    (a.event.fingerprint == b.event.fingerprint && a.messageTime ≤ b.messageTime)

/-- Candidates in order, cut into runs of one fingerprint. -/
def candidateRuns (candidates : List Candidate) : List (List Candidate) :=
  (candidates.mergeSort Candidate.before).splitBy fun a b =>
    a.event.fingerprint == b.event.fingerprint

def latestEvents (candidates : List Candidate) : List Event :=
  (candidateRuns candidates).filterMap fun run => run.getLast?.map Candidate.event

end StopArrivals
