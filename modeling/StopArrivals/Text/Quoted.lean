import StopArrivals.Text.Unprintable

/-!
# Text quoted for a message

Double quotes around the text; the quote, the backslash and the common control characters escaped
by a backslash, and every other character without a printed form of its own written as its number
in braces.
-/

namespace StopArrivals

def messageChar (c : Char) : List Char :=
  if c = '"' then ['\\', '"']
  else if c = '\\' then ['\\', '\\']
  else if c = '\n' then ['\\', 'n']
  else if c = '\t' then ['\\', 't']
  else if c = '\r' then ['\\', 'r']
  else if c = '\x00' then ['\\', '0']
  else if isUnprintable c then ['\\', 'u', '\x7b'] ++ Nat.toDigits 16 c.toNat ++ ['\x7d']
  else [c]

def messageQuoted (s : String) : String :=
  String.ofList ('"' :: s.toList.flatMap messageChar ++ ['"'])

end StopArrivals
