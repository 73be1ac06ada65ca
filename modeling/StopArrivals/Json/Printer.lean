import StopArrivals.Json.Value
import StopArrivals.Text.Hexadecimal

/-!
# Compact JSON text

No spaces. In strings only the quote, the backslash and the control characters below the space
are escaped, five of them by a letter and the others by four lowercase hexadecimal digits.
-/

namespace StopArrivals

namespace Json

def escapedChar (c : Char) : List Char :=
  if c = '"' then ['\\', '"']
  else if c = '\\' then ['\\', '\\']
  else if c = '\n' then ['\\', 'n']
  else if c = '\t' then ['\\', 't']
  else if c = '\r' then ['\\', 'r']
  else if c = '\x08' then ['\\', 'b']
  else if c = '\x0c' then ['\\', 'f']
  else if c.toNat < 0x20 then '\\' :: 'u' :: hexChars 4 c.toNat
  else [c]

def quoted (s : String) : String :=
  String.ofList ('"' :: s.toList.flatMap escapedChar ++ ['"'])

mutual

def print : Json → String
  | null => "null"
  | bool b => if b then "true" else "false"
  | number n => n.text
  | text s => quoted s
  | list items => "[" ++ ",".intercalate (printItems items) ++ "]"
  | object members => "\x7b" ++ ",".intercalate (printMembers members) ++ "\x7d"

def printItems : List Json → List String
  | [] => []
  | v :: rest => v.print :: printItems rest

def printMembers : Record → List String
  | [] => []
  | (k, v) :: rest => (quoted k ++ ":" ++ v.print) :: printMembers rest

end

end Json

end StopArrivals
