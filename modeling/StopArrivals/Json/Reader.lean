import StopArrivals.Json.Flaw
import StopArrivals.Json.Numeral
import StopArrivals.Text.Hexadecimal
import StopArrivals.Text.Quoted

/-!
# Reading JSON text

A reader takes characters and answers a value with the characters after it, or says why there is
none. Members of objects come out as they stand, repeated keys included; `Json.canonical` orders
them.
-/

namespace StopArrivals.Json

def isSpace (c : Char) : Bool := c = ' ' || c = '\n' || c = '\t' || c = '\r'

def skipSpace (cs : List Char) : List Char := cs.dropWhile isSpace

/-! ## Strings -/

/-- Four hexadecimal digits. -/
def hexUnit? (a b c d : Char) : Option Nat := do
  let a ← hexDigit? a
  let b ← hexDigit? b
  let c ← hexDigit? c
  let d ← hexDigit? d
  pure (((a * 16 + b) * 16 + c) * 16 + d)

/-- Refuse what stands where four hexadecimal digits should: any four bytes are taken for them,
and fewer for the end of the text. -/
def refuseUnit {α : Type} (cs : List Char) : Except Refusal α :=
  refuse (if utf8Length cs < 4 then .endsInString else .unknownEscape) 4 cs

def isHighSurrogate (n : Nat) : Bool := 0xD800 ≤ n && n < 0xDC00

def isLowSurrogate (n : Nat) : Bool := 0xDC00 ≤ n && n < 0xE000

def joinSurrogates (high low : Nat) : Nat := 0x10000 + (high - 0xD800) * 0x400 + (low - 0xDC00)

/-- The character that a letter after a backslash stands for. -/
def letterEscape? : Char → Option Char
  | '"' => some '"'
  | '\\' => some '\\'
  | '/' => some '/'
  | 'b' => some '\x08'
  | 'f' => some '\x0c'
  | 'n' => some '\n'
  | 'r' => some '\r'
  | 't' => some '\t'
  | _ => none

/-- Why a high surrogate is not followed by an escaped code unit. -/
def refusePair {α : Type} : List Char → Except Refusal α
  | '\\' :: 'u' :: cs => refuseUnit cs
  | '\\' :: cs => refuseNext .endsInString .unfinishedPair cs
  | cs => refuseNext .endsInString .unfinishedPair cs

/-- The rest of a string after its opening quote. A surrogate needs its partner, and control
characters must be escaped. -/
def readString : List Char → Except Refusal (List Char × List Char)
  | [] => refuse .endsInString 0 []
  | '"' :: cs => .ok ([], cs)
  | '\\' :: 'u' :: a :: b :: c :: d :: cs =>
    match hexUnit? a b c d with
    | none => refuseUnit (a :: b :: c :: d :: cs)
    | some n =>
      if isHighSurrogate n then
        match cs with
        | '\\' :: 'u' :: e :: f :: g :: h :: rest =>
          match hexUnit? e f g h with
          | none => refuseUnit (e :: f :: g :: h :: rest)
          | some m =>
            if isLowSurrogate m then
              (readString rest).map fun (s, r) => (Char.ofNat (joinSurrogates n m) :: s, r)
            else refuse .loneSurrogate 0 rest
        | cs => refusePair cs
      else if isLowSurrogate n then refuse .loneSurrogate 0 cs
      else (readString cs).map fun (s, r) => (Char.ofNat n :: s, r)
  | '\\' :: 'u' :: cs => refuseUnit cs
  | '\\' :: c :: cs =>
    match letterEscape? c with
    | none => refuse .unknownEscape 1 (c :: cs)
    | some e => (readString cs).map fun (s, r) => (e :: s, r)
  | c :: cs =>
    if c.toNat < 0x20 then refuse .controlCharacter 1 (c :: cs)
    else (readString cs).map fun (s, r) => (c :: s, r)

/-! ## Numbers -/

/-- The digits at the front, of which there must be at least one. -/
def readDigits (cs : List Char) : Except Refusal (List Char × List Char) :=
  let ds := cs.takeWhile Char.isDigit
  if ds = [] then refuseNext .endsInValue .badNumber cs else .ok (ds, cs.dropWhile Char.isDigit)

/-- The integer part: a zero stands alone. -/
def readWhole : List Char → Except Refusal (List Char × List Char)
  | '0' :: c :: cs => if c.isDigit then refuse .badNumber 1 (c :: cs) else .ok (['0'], c :: cs)
  | cs => readDigits cs

/-- A point with digits after it, or nothing. -/
def readFraction : List Char → Except Refusal (Option (List Char) × List Char)
  | '.' :: cs => (readDigits cs).map fun (ds, rest) => (some ds, rest)
  | cs => .ok (none, cs)

/-- An exponent with its sign, or nothing. -/
def readExponent (cs : List Char) : Except Refusal (Option Exponent × List Char) :=
  match cs with
  | [] => .ok (none, [])
  | e :: rest =>
    if e = 'e' ∨ e = 'E' then
      let (negative, rest) : Bool × List Char := match rest with
        | '-' :: r => (true, r)
        | '+' :: r => (false, r)
        | r => (false, r)
      (readDigits rest).map fun (ds, r) => (some ⟨negative, ds⟩, r)
    else .ok (none, cs)

/-- The parts of a number. -/
def readNumeral (cs : List Char) : Except Refusal (Numeral × List Char) := do
  let (negative, cs) : Bool × List Char := match cs with
    | '-' :: r => (true, r)
    | r => (false, r)
  let (whole, cs) ← readWhole cs
  let (fraction, cs) ← readFraction cs
  let (exponent, cs) ← readExponent cs
  pure (⟨negative, whole, fraction, exponent⟩, cs)

/-- A number. One that is too large is refused where that shows: behind the number, or where its
exponent reaches `2 ^ 31`. -/
def readNumber (cs : List Char) : Except Refusal (Number × List Char) := do
  let (n, cs) ← readNumeral cs
  match n.toNumber? with
  | some v => .ok (v, cs)
  | none => refuse .numberTooLarge 0 (n.exponent.elim [] Exponent.excess ++ cs)

/-! ## Values -/

/-- The rest of a word. -/
def readWord : List Char → List Char → Except Refusal (List Char)
  | [], cs => .ok cs
  | _ :: _, [] => refuse .endsInValue 0 []
  | w :: ws, c :: cs => if w = c then readWord ws cs else refuse .unknownWord 1 (c :: cs)

/-- A value that is neither a list nor an object, without white space before it. -/
def readScalar : List Char → Except Refusal (Json × List Char)
  | [] => refuse .endsInValue 0 []
  | '"' :: rest => (readString rest).map fun (s, r) => (text (String.ofList s), r)
  | 'n' :: rest => (readWord ['u', 'l', 'l'] rest).map fun r => (null, r)
  | 't' :: rest => (readWord ['r', 'u', 'e'] rest).map fun r => (bool true, r)
  | 'f' :: rest => (readWord ['a', 'l', 's', 'e'] rest).map fun r => (bool false, r)
  | c :: rest =>
    if c = '-' ∨ c.isDigit then (readNumber (c :: rest)).map fun (n, r) => (number n, r)
    else refuse .noValue 1 (c :: rest)

/-- What is found in place of another kind of value. -/
def found : Json → String
  | null => "null"
  | bool b => "boolean `" ++ (if b then "true" else "false") ++ "`"
  | number (.integer v) => "integer `" ++ integerText v ++ "`"
  | number (.float x) => "floating point `" ++ Shortest.text x ++ "`"
  | text s => "string " ++ messageQuoted s
  | list _ => "sequence"
  | object _ => "map"

/-- Refuse a value of the wrong kind. Of a list or an object only the bracket is looked at. -/
def refuseKind {α : Type} (expected : String) (cs : List Char) : Except Refusal α :=
  match cs with
  | '[' :: _ => refuse (.wrongKind (list []).found expected) 0 cs
  | '\x7b' :: _ => refuse (.wrongKind (object []).found expected) 0 cs
  | cs => do
    let (v, rest) ← readScalar cs
    refuse (.wrongKind v.found expected) 0 rest

/-- Nothing but white space may follow. -/
def endText {α : Type} (v : α) (cs : List Char) : Except Refusal α :=
  let rest := skipSpace cs
  if rest.isEmpty then .ok v else refuse .trailingText 1 rest

/-! ## Wrapped values

An object inside another value whose first member has a certain name is not an object: it stands
for the value of the JSON text in that member, and has no other members. -/

/-- The name of the member that wraps a text, by the codes of its characters. -/
def wrapperName : String :=
  String.ofList (
    [0x24, 0x73, 0x65, 0x72, 0x64, 0x65, 0x5F, 0x6A, 0x73, 0x6F, 0x6E, 0x3A, 0x3A, 0x70, 0x72, 0x69,
      0x76, 0x61, 0x74, 0x65, 0x3A, 0x3A, 0x52, 0x61, 0x77, 0x56, 0x61, 0x6C, 0x75, 0x65].map
      Char.ofNat)

/-- What follows the name of the first member after an opening brace, if it wraps a text. -/
def afterWrapperName? (cs : List Char) : Option (List Char) :=
  match skipSpace cs with
  | '"' :: cs =>
    match readString cs with
    | .ok (key, rest) => if String.ofList key = wrapperName then some rest else none
    | .error _ => none
  | _ => none

/-- The text that follows the name of its member. -/
def readWrappedText (cs : List Char) : Except Refusal (List Char × List Char) :=
  match skipSpace cs with
  | ':' :: cs =>
    match skipSpace cs with
    | '"' :: rest => readString rest
    | cs => refuseKind "raw value" cs
  | cs => refuseNext .endsInObject .colonMissing cs

/-- The brace after the only member of an object. -/
def readClosingBrace (cs : List Char) : Except Refusal (List Char) :=
  match skipSpace cs with
  | '\x7d' :: rest => .ok rest
  | ',' :: rest => refuse .trailingComma 1 (',' :: rest)
  | cs => refuseNext .endsInObject .trailingText cs

/-! ## Lists and objects

Only so many lists and objects may be open at once in a text, where there is a limit. -/

mutual

/-- A value at the front, after white space. Of the two counters the first bounds the steps and
the second the nesting. -/
def readValue (limit : Option Nat) : Nat → Nat → List Char → Except Refusal (Json × List Char)
  | 0, _, cs => refuse .noValue 0 cs
  | fuel + 1, depth, cs =>
    match skipSpace cs with
    | '[' :: rest =>
      match depth with
      | 0 => refuse .tooDeep 1 ('[' :: rest)
      | depth + 1 =>
        match skipSpace rest with
        | ']' :: r => .ok (list [], r)
        | r =>
          if r.isEmpty then refuse .endsInList 0 []
          else (readItems limit fuel depth r).map fun (vs, r) => (list vs, r)
    | '\x7b' :: rest =>
      match depth with
      | 0 => refuse .tooDeep 1 ('\x7b' :: rest)
      | depth + 1 =>
        match afterWrapperName? rest with
        | some cs => readWrapped limit fuel cs
        | none => (readBraced limit fuel depth rest).map fun (ms, r) => (object ms, r)
    | cs => readScalar cs

/-- The items of a list, of which there is at least one, up to its closing bracket. -/
def readItems (limit : Option Nat) :
    Nat → Nat → List Char → Except Refusal (List Json × List Char)
  | 0, _, cs => refuse .noValue 0 cs
  | fuel + 1, depth, cs =>
    match skipSpace cs with
    | ']' :: rest => refuse .trailingComma 1 (']' :: rest)
    | cs => do
      let (v, cs) ← readValue limit fuel depth cs
      match skipSpace cs with
      | ',' :: rest => (readItems limit fuel depth rest).map fun (vs, r) => (v :: vs, r)
      | ']' :: rest => .ok ([v], rest)
      | cs => refuseNext .endsInList .listNotContinued cs

/-- The rest of an object after the name of the member that wraps its value. The text is read by
itself, with nothing open around it. -/
def readWrapped (limit : Option Nat) : Nat → List Char → Except Refusal (Json × List Char)
  | 0, cs => refuse .noValue 0 cs
  | fuel + 1, cs => do
    let (inner, rest) ← readWrappedText cs
    let (v, left) ← (readValue limit fuel (limit.getD inner.length) inner).mapError
      (Refusal.within inner)
    let v ← (endText v left).mapError (Refusal.within inner)
    (readClosingBrace rest).map fun r => (v, r)

/-- The members of an object after its opening brace. -/
def readBraced (limit : Option Nat) : Nat → Nat → List Char → Except Refusal (Record × List Char)
  | 0, _, cs => refuse .noValue 0 cs
  | fuel + 1, depth, cs =>
    match skipSpace cs with
    | '\x7d' :: r => .ok ([], r)
    | r => if r.isEmpty then refuse .endsInObject 0 [] else readMembers limit fuel depth r

/-- The members of an object, of which there is at least one, up to its closing brace. -/
def readMembers (limit : Option Nat) : Nat → Nat → List Char → Except Refusal (Record × List Char)
  | 0, _, cs => refuse .noValue 0 cs
  | fuel + 1, depth, cs =>
    match skipSpace cs with
    | '"' :: rest => do
      let (key, cs) ← readString rest
      match skipSpace cs with
      | ':' :: cs => do
        let (v, cs) ← readValue limit fuel depth cs
        match skipSpace cs with
        | ',' :: rest =>
          (readMembers limit fuel depth rest).map fun (ms, r) => ((String.ofList key, v) :: ms, r)
        | '\x7d' :: rest => .ok ([(String.ofList key, v)], rest)
        | cs => refuseNext .endsInObject .objectNotContinued cs
      | cs => refuseNext .endsInObject .colonMissing cs
    | '\x7d' :: rest => refuse .trailingComma 1 ('\x7d' :: rest)
    | cs => refuseNext .endsInValue .keyNotText cs

end

/-! ## Whole texts -/

/-- Steps that are enough for a text: every step but the last consumes a character or stands in
front of one that does. -/
def enoughSteps (cs : List Char) : Nat := 2 * cs.length + 2

/-- A whole text that holds one value and white space around it. -/
def read (limit : Option Nat) (s : String) : Except Refusal Json := do
  let cs := s.toList
  let (v, rest) ← readValue limit (enoughSteps cs) (limit.getD cs.length) cs
  endText v rest

/-- A whole text that holds one object, whose first member wraps nothing. The object counts as
open. -/
def readObject (limit : Option Nat) (s : String) : Except Refusal Record :=
  match skipSpace s.toList with
  | '\x7b' :: rest => do
    let (members, rest) ← readBraced limit (enoughSteps rest) (limit.getD rest.length - 1) rest
    endText members rest
  | cs => refuseKind "a map" cs

end StopArrivals.Json
