import StopArrivals.Text.Decimal
import StopArrivals.Text.Utf8

/-!
# What is wrong with a JSON text

A reader that refuses a text says why, and how many bytes of the text it had not read by then.
The two together give the message, which names the place by line and column.
-/

namespace StopArrivals.Json

inductive Flaw where
  | endsInList
  | endsInObject
  | endsInString
  | endsInValue
  | colonMissing
  | listNotContinued
  | objectNotContinued
  | unknownWord
  | noValue
  | unknownEscape
  | badNumber
  | numberTooLarge
  | controlCharacter
  | keyNotText
  | loneSurrogate
  | trailingComma
  | trailingText
  | unfinishedPair
  | tooDeep
  | wrongKind (found expected : String)
deriving DecidableEq

def Flaw.message : Flaw → String
  | endsInList => "EOF while parsing a list"
  | endsInObject => "EOF while parsing an object"
  | endsInString => "EOF while parsing a string"
  | endsInValue => "EOF while parsing a value"
  | colonMissing => "expected `:`"
  | listNotContinued => "expected `,` or `]`"
  | objectNotContinued => "expected `,` or `\x7d`"
  | unknownWord => "expected ident"
  | noValue => "expected value"
  | unknownEscape => "invalid escape"
  | badNumber => "invalid number"
  | numberTooLarge => "number out of range"
  | controlCharacter => "control character (\\u0000-\\u001F) found while parsing a string"
  | keyNotText => "key must be a string"
  | loneSurrogate => "lone leading surrogate in hex escape"
  | trailingComma => "trailing comma"
  | trailingText => "trailing characters"
  | unfinishedPair => "unexpected end of hex escape"
  | tooDeep => "recursion limit exceeded"
  | wrongKind found expected => "invalid type: " ++ found ++ ", expected " ++ expected

/-- A flaw, and the bytes of the text that were still unread when it was found. The text is the one
given to the reader, or another that is wrapped in it. -/
structure Refusal where
  flaw : Flaw
  unread : Nat
  wrapped : Option String
deriving DecidableEq

/-- What was wrong with the given text, and where. -/
def Refusal.message (r : Refusal) (text : String) : String :=
  let bytes := utf8 (r.wrapped.getD text)
  let place := TextPlace.after (bytes.take (bytes.length - r.unread))
  r.flaw.message ++ " at line " ++ naturalText place.line ++ " column " ++
    naturalText place.column

/-- A refusal of the given text, seen from a text that wraps it. -/
def Refusal.within (text : List Char) (r : Refusal) : Refusal :=
  { r with wrapped := some (r.wrapped.getD (String.ofList text)) }

/-- Refuse the text in front of some characters, the first few bytes of which count as read. -/
def refuse {α : Type} (flaw : Flaw) (seen : Nat) (cs : List Char) : Except Refusal α :=
  .error ⟨flaw, utf8Length cs - seen, none⟩

/-- Refuse what comes next: the end of the text, or a byte that should be another. -/
def refuseNext {α : Type} (atEnd flaw : Flaw) (cs : List Char) : Except Refusal α :=
  refuse (if cs.isEmpty then atEnd else flaw) 1 cs

end StopArrivals.Json
