import StopArrivals.Settings.Environment
import StopArrivals.Text.Blank
import StopArrivals.Text.LetterOrNumeral

/-!
# Environment files

Files of lines `NAME=value` that fill in what the environment does not set. A value may hold
quoted parts, which may run over several lines, escapes, a comment after a blank, and names of
variables after a dollar sign. A line that cannot be read ends the file; the lines before it
count.
-/

namespace StopArrivals.EnvFile

/-! ## Lines -/

/-- Where the scan for the end of a line stands. -/
inductive LineState where
  | complete
  | blank
  | escape
  | single
  | singleEscape
  | double
  | doubleEscape
  | comment
deriving DecidableEq

def LineState.next (s : LineState) (c : Char) : LineState :=
  match s with
  | .complete =>
    if isBlank c ∧ c ≠ '\n' ∧ c ≠ '\r' then .blank
    else if c = '\\' then .escape
    else if c = '"' then .double
    else if c = '\'' then .single
    else .complete
  | .blank =>
    if c = '#' then .comment
    else if c = '\\' then .escape
    else if c = '"' then .double
    else if c = '\'' then .single
    else .complete
  | .escape => .complete
  | .single => if c = '\\' then .singleEscape else if c = '\'' then .complete else .single
  | .singleEscape => .single
  | .double => if c = '\\' then .doubleEscape else if c = '"' then .complete else .double
  | .doubleEscape => .double
  | .comment => .comment

/-- Scan a line: the characters before a comment, and the state at the end. -/
def scanLine : LineState → List Char → List Char × LineState
  | s, [] => ([], s)
  | s, c :: cs =>
    match s.next c with
    | .comment => ([], .comment)
    | t =>
      let (kept, last) := scanLine t cs
      (c :: kept, last)

/-- Cut a text after each line feed. -/
def physicalLines : List Char → List (List Char)
  | [] => []
  | c :: cs =>
    if c = '\n' then [c] :: physicalLines cs
    else match physicalLines cs with
      | [] => [[c]]
      | line :: rest => (c :: line) :: rest

/-- A line without the line break at its end. -/
def chomp (line : List Char) : List Char :=
  match line.reverse with
  | '\n' :: '\r' :: rest => rest.reverse
  | '\n' :: rest => rest.reverse
  | _ => line

/-- Join physical lines until quotes are closed. A line that stays open to the end of the file is
unreadable, which is the absence of a line. -/
def logicalLines (pending : List Char) (s : LineState) : List (List Char) →
    List (Option (List Char))
  | [] => if s = .complete then [] else [none]
  | line :: rest =>
    let whole := pending ++ line
    if (trimStartChars whole).head? = some '#' then some [] :: logicalLines [] .complete rest
    else
      let (kept, last) := scanLine s line
      match last with
      | .complete => some (chomp whole) :: logicalLines [] .complete rest
      | .comment => some (pending ++ kept) :: logicalLines [] .complete rest
      | _ => logicalLines whole last rest

/-! ## Values -/

/-- Where the reading of a value stands: plain text, after a backslash, within single quotes, in
the name of a variable with or without braces, or behind the blank that ends the value. -/
inductive ValueState where
  | text
  | escape
  | single
  | name (braced : Bool) (chars : List Char)
  | ended
deriving DecidableEq

/-- Read on within a value, `double` telling whether double quotes are open. -/
def readValue (lookup : List Char → List Char) :
    ValueState → Bool → List Char → Option (List Char)
  | s, double, [] =>
    if double then none
    else match s with
      | .single | .name true _ => none
      | .name false chars => some (lookup chars)
      | _ => some []
  | .ended, double, c :: cs =>
    if c = ' ' ∨ c = '\t' then readValue lookup .ended double cs
    else if c = '#' then some []
    else none
  | .escape, double, c :: cs =>
    if c ∈ ['\\', '\'', '"', '$', ' '] then
      (readValue lookup .text double cs).map (c :: ·)
    else if c = 'n' then (readValue lookup .text double cs).map ('\n' :: ·)
    else none
  | .single, double, c :: cs =>
    if c = '\'' then readValue lookup .text double cs
    else (readValue lookup .single double cs).map (c :: ·)
  | .name braced chars, double, c :: cs =>
    if isLetterOrNumeral c then readValue lookup (.name braced (chars ++ [c])) double cs
    else if braced then
      if c = '\x7d' then (readValue lookup .text double cs).map (lookup chars ++ ·)
      else readValue lookup (.name true (chars ++ [c])) double cs
    else if c = '\x7b' ∧ chars = [] then readValue lookup (.name true []) double cs
    else if c = '$' then (readValue lookup (.name false []) double cs).map (lookup chars ++ ·)
    else (readValue lookup .text double cs).map fun r => lookup chars ++ c :: r
  | .text, double, c :: cs =>
    if c = '$' then readValue lookup (.name false []) double cs
    else if double then
      if c = '"' then readValue lookup .text false cs
      else if c = '\\' then readValue lookup .escape true cs
      else (readValue lookup .text true cs).map (c :: ·)
    else if c = '\'' then readValue lookup .single false cs
    else if c = '"' then readValue lookup .text true cs
    else if c = '\\' then readValue lookup .escape false cs
    else if c = ' ' ∨ c = '\t' then readValue lookup .ended false cs
    else (readValue lookup .text false cs).map (c :: ·)

/-! ## Assignments -/

def isNameStart (c : Char) : Bool := c.isAlpha || c = '_'

def isNameChar (c : Char) : Bool := c.isAlphanum || c = '_' || c = '.'

/-- A name at the front, and what follows it and white space. -/
def readName : List Char → Option (List Char × List Char)
  | [] => none
  | c :: cs =>
    if isNameStart c then
      some ((c :: cs).takeWhile isNameChar, trimStartChars ((c :: cs).dropWhile isNameChar))
    else none

def skipEquals : List Char → Option (List Char)
  | '=' :: cs => some (trimStartChars cs)
  | _ => none

/-- What a line assigns; an empty line and a comment assign nothing. A leading `export` may stand
before the name. -/
def readLine (lookup : List Char → List Char) (line : List Char) :
    Option (Option (List Char × List Char)) :=
  let line := trimStartChars (trimEndChars line)
  if line = [] ∨ line.head? = some '#' then some none
  else do
    let (name, rest) ← readName line
    let (name, rest) ← match skipEquals rest with
      | some rest => some (name, rest)
      | none =>
        if name = "export".toList then do
          let (name, rest) ← readName rest
          let rest ← skipEquals rest
          pure (name, rest)
        else none
    if rest = [] ∨ rest.head? = some '#' then some (some (name, []))
    else do
      let value ← readValue lookup .text false rest
      pure (some (name, value))

/-- Set what the lines assign and the environment does not. Names are looked up among the
assignments of the environment first and then among the values read before. -/
def applyLines (env : Environment) (seen : List (String × String)) :
    List (Option (List Char)) → Environment
  | [] => env
  | none :: _ => env
  | some line :: rest =>
    let lookup (chars : List Char) : List Char :=
      match env.behind? chars with
      | some value => value
      | none => (((seen.find? fun v => v.1 = String.ofList chars).map Prod.snd).getD "").toList
    match readLine lookup line with
    | none => env
    | some none => applyLines env seen rest
    | some (some (name, value)) =>
      let name := String.ofList name
      let value := String.ofList value
      applyLines (env.setDefault name value) ((name, value) :: seen) rest

/-- Fill in an environment from the text of a file. A byte order mark at its front is skipped. -/
def load (text : String) (env : Environment) : Environment :=
  let cs := match text.toList with
    | '\ufeff' :: cs => cs
    | cs => cs
  applyLines env [] (logicalLines [] .complete (physicalLines cs))

end StopArrivals.EnvFile
