import StopArrivals.Database.Statement
import StopArrivals.Store

/-!
# Database servers

A server answers statements one at a time. Besides the interface this module has a server that
plays back a script and remembers what it was sent.
-/

namespace StopArrivals

/-- A row as the server sends it. Columns that a statement does not ask for are at their zero. -/
structure Row where
  id : Int
  path : String
  hash : List UInt8
  visit : StopVisit
  timestamp : Int
  moving : Bool
deriving DecidableEq

/-- Rows for a query, a number of rows affected for anything else. -/
structure Reply where
  rows : List Row
  /-- Counted without a bound; 64 bits are enough for all that can be inserted. -/
  affected : Nat
deriving DecidableEq

def Reply.empty : Reply := ⟨[], 0⟩

structure Server (ω : Type) where
  /-- The reply to a statement, or the text of the server's error. -/
  exchange : Statement → ω → Except String Reply × ω

/-- A server that is a component of a larger state. -/
def Server.within {ω σ : Type} (S : Server σ) (p : Part ω σ) : Server ω where
  exchange statement w :=
    ((S.exchange statement (p.get w)).1, p.put (S.exchange statement (p.get w)).2 w)

/-! ## Scripted servers -/

/-- Replies to statements in the order in which they come. Transaction commands take none; the
next begin and the next commit can each be made to fail. -/
structure Script where
  replies : List (Except String Reply)
  failBegin : Option String
  failCommit : Option String
  /-- The statements received, oldest first. -/
  sent : List Statement

namespace Script

/-- The next reply; when none is left, an empty one. -/
def nextReply (s : Script) : Except String Reply × Script :=
  match s.replies with
  | [] => (.ok .empty, s)
  | reply :: rest => (reply, { s with replies := rest })

def answer (statement : Statement) (s : Script) : Except String Reply × Script :=
  match statement with
  | .beginTransaction =>
    match s.failBegin with
    | some text => (.error text, { s with failBegin := none })
    | none => (.ok .empty, s)
  | .commit =>
    match s.failCommit with
    | some text => (.error text, { s with failCommit := none })
    | none => (.ok .empty, s)
  | .rollback => (.ok .empty, s)
  | _ => s.nextReply

def exchange (statement : Statement) (s : Script) : Except String Reply × Script :=
  answer statement { s with sent := s.sent ++ [statement] }

def server : Server Script := ⟨exchange⟩

end Script

end StopArrivals
