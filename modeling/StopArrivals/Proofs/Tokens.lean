import Mathlib.Data.List.Forall2
import StopArrivals.Filter

/-!
# The tokens of a query

A query is read character by character. In single quotes stands a text and in double quotes a name,
and within them a quote that is written twice stands for one. Outside quotes there are words,
numbers and single marks; comments are not expected there. What is read last can still go on, so
pieces of a query are read one by one where a piece leaves nothing open or the next one begins with
a character that belongs to no token before it.
-/

namespace StopArrivals.Sql

inductive Token where
  | word (letters : String)
  | number (digits : String)
  | name (text : String)
  | text (text : String)
  | mark (c : Char)
deriving DecidableEq

inductive Quote where
  | single
  | double
deriving DecidableEq

namespace Quote

def char : Quote → Char
  | single => '\''
  | double => '"'

def token : Quote → String → Token
  | single => .text
  | double => .name

end Quote

/-- Where the reader is, with the characters of the token that it is in. -/
inductive Reading where
  | between
  | word (letters : List Char)
  | number (digits : List Char)
  | quoted (q : Quote) (cs : List Char)
  /-- After a quote that ends the token, unless another one follows. -/
  | closing (q : Quote) (cs : List Char)
  | dash
  | slash
  | comment
deriving DecidableEq

/-- A character at which no token is open. -/
def begin (c : Char) : List Token × Reading :=
  if c.isWhitespace then ([], .between)
  else if c = Quote.single.char then ([], .quoted .single [])
  else if c = Quote.double.char then ([], .quoted .double [])
  else if c.isDigit then ([], .number [c])
  else if c.isAlpha || c = '_' then ([], .word [c])
  else if c = '-' then ([], .dash)
  else if c = '/' then ([], .slash)
  else ([.mark c], .between)

/-- Does a number go on? A sign may follow the mark of an exponent. -/
def inNumber (digits : List Char) (c : Char) : Bool :=
  c.isDigit || c = '.' || c = 'e' || ((c = '+' || c = '-') && digits.getLast? = some 'e')

namespace Reading

/-- The token that is open can be the last one: what it comes to. -/
def ended : Reading → Option (List Token)
  | between => some []
  | word letters => some [.word (String.ofList letters)]
  | number digits => some [.number (String.ofList digits)]
  | closing q cs => some [q.token (String.ofList cs)]
  | dash => some [.mark '-']
  | slash => some [.mark '/']
  | quoted _ _ | comment => none

/-- End the open token and begin another. -/
def anew (r : Reading) (c : Char) : List Token × Reading :=
  (r.ended.getD [] ++ (begin c).1, (begin c).2)

def next : Reading → Char → List Token × Reading
  | between, c => begin c
  | word letters, c =>
    if c.isAlphanum || c = '_' then ([], word (letters ++ [c])) else (word letters).anew c
  | number digits, c =>
    if inNumber digits c then ([], number (digits ++ [c])) else (number digits).anew c
  | quoted q cs, c => ([], if c = q.char then closing q cs else quoted q (cs ++ [c]))
  | closing q cs, c => if c = q.char then ([], quoted q (cs ++ [c])) else (closing q cs).anew c
  | dash, c => if c = '-' then ([], comment) else dash.anew c
  | slash, c => if c = '*' then ([], comment) else slash.anew c
  | comment, _ => ([], comment)

/-- Read characters: the tokens that are finished, and where the reader is then. -/
def read (r : Reading) : List Char → List Token × Reading
  | [] => ([], r)
  | c :: cs => ((r.next c).1 ++ (read (r.next c).2 cs).1, (read (r.next c).2 cs).2)

end Reading

/-- The tokens of a text; none if it ends within quotes or has a comment. -/
def tokens? (text : List Char) : Option (List Token) :=
  (Reading.read .between text).2.ended.map ((Reading.read .between text).1 ++ ·)

/-! ## Reading piece by piece -/

theorem next_between (c : Char) : Reading.between.next c = begin c := rfl

theorem next_number {digits : List Char} {c : Char} (h : inNumber digits c = true) :
    (Reading.number digits).next c = ([], .number (digits ++ [c])) := if_pos h

theorem next_dash {c : Char} (h : c ≠ '-') :
    Reading.dash.next c = (.mark '-' :: (begin c).1, (begin c).2) := if_neg h

theorem read_append (r : Reading) (a b : List Char) :
    r.read (a ++ b) = ((r.read a).1 ++ ((r.read a).2.read b).1, ((r.read a).2.read b).2) := by
  induction a generalizing r with
  | nil => rfl
  | cons c a ih => simp only [List.cons_append, Reading.read, ih, List.append_assoc]

/-- The text leaves no token open. -/
def Whole (text : List Char) (ts : List Token) : Prop := Reading.read .between text = (ts, .between)

instance (text : List Char) (ts : List Token) : Decidable (Whole text ts) :=
  inferInstanceAs (Decidable (_ = _))

theorem tokens?_eq_some_iff {text : List Char} {ts : List Token} :
    tokens? text = some ts ↔ ∃ done r rest, Reading.read .between text = (done, r) ∧
      r.ended = some rest ∧ ts = done ++ rest := by
  rw [tokens?]
  constructor
  · intro h
    obtain ⟨rest, hrest, rfl⟩ := Option.map_eq_some_iff.mp h
    exact ⟨_, _, rest, rfl, hrest, rfl⟩
  · rintro ⟨done, r, rest, hread, hrest, rfl⟩
    rw [hread, hrest]
    rfl

theorem Whole.tokens? {a : List Char} {ts : List Token} (h : Whole a ts) :
    tokens? a = some ts :=
  tokens?_eq_some_iff.mpr ⟨ts, .between, [], h, rfl, (List.append_nil ts).symm⟩

theorem Whole.append {a b : List Char} {ts us : List Token} (ha : Whole a ts) (hb : Whole b us) :
    Whole (a ++ b) (ts ++ us) := by
  rw [Whole, read_append, ha]
  dsimp only
  rw [hb]

theorem Whole.tokens?_append {a b : List Char} {ts us : List Token} (ha : Whole a ts)
    (hb : Sql.tokens? b = some us) : Sql.tokens? (a ++ b) = some (ts ++ us) := by
  obtain ⟨done, r, rest, hread, hrest, rfl⟩ := tokens?_eq_some_iff.mp hb
  refine tokens?_eq_some_iff.mpr ⟨ts ++ done, r, rest, ?_, hrest, (List.append_assoc ..).symm⟩
  rw [read_append, ha]
  dsimp only
  rw [hread]

/-- A character that ends any token outside quotes. -/
def isBreak (c : Char) : Bool := c ∈ [' ', '\n', ',', ')', ']']

theorem next_of_isBreak {r : Reading} {c : Char} {rest : List Token} (hr : r.ended = some rest)
    (hc : isBreak c = true) : r.next c = (rest ++ (begin c).1, (begin c).2) := by
  have hcases : c = ' ' ∨ c = '\n' ∨ c = ',' ∨ c = ')' ∨ c = ']' := by simpa [isBreak] using hc
  have hanew : r.anew c = (rest ++ (begin c).1, (begin c).2) := by rw [Reading.anew, hr]; rfl
  rw [← hanew]
  cases r with
  | between => exact (hanew.trans (by cases hr; rfl)).symm
  | quoted | comment => cases hr
  | word | number | dash | slash =>
    rcases hcases with rfl | rfl | rfl | rfl | rfl <;> rfl
  | closing q =>
    cases q <;> rcases hcases with rfl | rfl | rfl | rfl | rfl <;> rfl

/-- A text that ends the token before it. -/
def breaks (text : List Char) : Bool := text.head?.any isBreak

theorem read_of_breaks {a b : List Char} {ts : List Token} (ha : tokens? a = some ts)
    (hb : breaks b = true) : Reading.read .between (a ++ b) =
      (ts ++ (Reading.read .between b).1, (Reading.read .between b).2) := by
  obtain ⟨done, r, rest, hread, hrest, rfl⟩ := tokens?_eq_some_iff.mp ha
  cases b with
  | nil => cases hb
  | cons c b =>
    rw [read_append, hread]
    simp only [Reading.read, next_of_isBreak hrest hb, next_between, List.append_assoc]

theorem whole_append {a b : List Char} {ts us : List Token} (ha : tokens? a = some ts)
    (hbreaks : breaks b = true) (hb : Whole b us) : Whole (a ++ b) (ts ++ us) := by
  rw [Whole, read_of_breaks ha hbreaks, hb]

theorem tokens?_append {a b : List Char} {ts us : List Token} (ha : tokens? a = some ts)
    (hbreaks : breaks b = true) (hb : tokens? b = some us) :
    tokens? (a ++ b) = some (ts ++ us) := by
  obtain ⟨done, r, rest, hread, hrest, rfl⟩ := tokens?_eq_some_iff.mp hb
  refine tokens?_eq_some_iff.mpr ⟨ts ++ done, r, rest, ?_, hrest, (List.append_assoc ..).symm⟩
  rw [read_of_breaks ha hbreaks, hread]

/-! ## Lists -/

/-- Pieces with a comma and a blank between them. -/
theorem tokens?_separated {texts : List (List Char)} {tss : List (List Token)}
    (h : List.Forall₂ (fun text ts => tokens? text = some ts) texts tss) :
    tokens? ([',', ' '].intercalate texts) = some ([.mark ','].intercalate tss) := by
  induction h with
  | nil => rfl
  | cons hfirst hrest ih =>
    cases hrest with
    | nil => rwa [List.intercalate_singleton, List.intercalate_singleton]
    | cons hnext hrest =>
      have hcomma : Whole [',', ' '] [.mark ','] := rfl
      rw [List.intercalate_cons_cons, List.intercalate_cons_cons, List.append_assoc,
        List.append_assoc]
      exact tokens?_append hfirst rfl (hcomma.tokens?_append ih)

/-- Pieces that leave no token open, with a text between them that leaves none open. -/
theorem whole_intercalate {sep : List Char} {us : List Token} (hsep : Whole sep us)
    {texts : List (List Char)} {tss : List (List Token)} (h : List.Forall₂ Whole texts tss) :
    Whole (sep.intercalate texts) (us.intercalate tss) := by
  induction h with
  | nil => rfl
  | cons hfirst hrest ih =>
    cases hrest with
    | nil => rwa [List.intercalate_singleton, List.intercalate_singleton]
    | cons hnext hrest =>
      rw [List.intercalate_cons_cons, List.intercalate_cons_cons]
      exact (hfirst.append hsep).append ih

/-! ## Quotes -/

/-- Whatever a text holds, doubling its quotes keeps the reader within quotes. -/
theorem read_doubled (q : Quote) : ∀ (s cs : List Char),
    Reading.read (.quoted q cs) (s.flatMap fun c => if c = q.char then [q.char, q.char] else [c]) =
      ([], .quoted q (cs ++ s))
  | [], cs => by rw [List.append_nil]; rfl
  | c :: s, cs => by
      have ih := read_doubled q s (cs ++ [c])
      rw [List.append_assoc, List.singleton_append] at ih
      rw [List.flatMap_cons, read_append]
      by_cases hc : c = q.char
      · subst hc
        simp only [if_pos, Reading.read, Reading.next, List.append_nil, ih]
      · simp only [if_neg hc, Reading.read, Reading.next, List.append_nil, ih]

theorem tokens?_quoted (q : Quote) (s : String) :
    tokens? (q.char :: (doubled q.char s).toList ++ [q.char]) = some [q.token s] := by
  have hbegin : begin q.char = ([], .quoted q []) := by cases q <;> rfl
  refine tokens?_eq_some_iff.mpr ⟨[], .closing q s.toList, [q.token s], ?_, ?_, rfl⟩
  · rw [doubled, String.toList_ofList, List.cons_append, Reading.read, Reading.next, hbegin,
      read_append, read_doubled q s.toList []]
    simp only [Reading.read, Reading.next, if_pos, List.nil_append]
  · rw [Reading.ended, String.ofList_toList]

theorem tokens?_sqlName (name : String) : tokens? (sqlName name).toList = some [.name name] := by
  have h := tokens?_quoted .double name
  rw [sqlName, String.toList_append, String.toList_append]
  exact h

theorem tokens?_sqlText (s : String) : tokens? (sqlText s).toList = some [.text s] := by
  have h := tokens?_quoted .single s
  rw [sqlText, String.toList_append, String.toList_append]
  exact h

/-! ## Numbers -/

theorem begin_of_isDigit {c : Char} (h : c.isDigit = true) : begin c = ([], .number [c]) := by
  have hne : ∀ d : Char, d.isDigit = false → c ≠ d := fun d hd heq => by
    rw [← heq, h] at hd
    cases hd
  have hblank : c.isWhitespace = false := by
    simp only [Char.isWhitespace, Bool.or_eq_false_iff, decide_eq_false_iff_not]
    exact ⟨⟨⟨hne _ rfl, hne _ rfl⟩, hne _ rfl⟩, hne _ rfl⟩
  rw [begin, hblank, if_neg Bool.false_ne_true, if_neg (hne _ rfl), if_neg (hne _ rfl), if_pos h]

/-- Characters that are read as one number. -/
structure IsNumeral (cs : List Char) : Prop where
  first : ∃ d rest, cs = d :: rest ∧ d.isDigit = true
  read : Reading.read .between cs = ([], .number cs)

namespace IsNumeral

theorem read_plain : ∀ (cs digits : List Char), (∀ c ∈ cs, c.isDigit = true ∨ c = '.') →
    Reading.read (.number digits) cs = ([], .number (digits ++ cs))
  | [], digits, _ => by rw [List.append_nil]; rfl
  | c :: cs, digits, h => by
      have hc : inNumber digits c = true := by
        rcases h c (List.mem_cons_self ..) with hc | rfl
        · simp [inNumber, hc]
        · simp [inNumber]
      have ih := read_plain cs (digits ++ [c]) fun d hd => h d (List.mem_cons_of_mem _ hd)
      rw [List.append_assoc, List.singleton_append] at ih
      rw [Reading.read, next_number hc, ih]
      rfl

theorem append_plain {a b : List Char} (h : IsNumeral a)
    (hb : ∀ c ∈ b, c.isDigit = true ∨ c = '.') : IsNumeral (a ++ b) where
  first := by
    obtain ⟨d, rest, rfl, hd⟩ := h.first
    exact ⟨d, rest ++ b, rfl, hd⟩
  read := by rw [read_append, h.read, read_plain b a hb]; rfl

theorem append_digits {a b : List Char} (h : IsNumeral a) (hb : ∀ c ∈ b, c.isDigit = true) :
    IsNumeral (a ++ b) :=
  h.append_plain fun c hc => .inl (hb c hc)

theorem append_fraction {a b : List Char} (h : IsNumeral a) (hb : ∀ c ∈ b, c.isDigit = true) :
    IsNumeral (a ++ '.' :: b) :=
  h.append_plain (List.forall_mem_cons.mpr ⟨.inr rfl, fun c hc => .inl (hb c hc)⟩)

theorem append_exponent {a b : List Char} {sign : Char} (h : IsNumeral a)
    (hsign : sign = '+' ∨ sign = '-') (hb : ∀ c ∈ b, c.isDigit = true) :
    IsNumeral (a ++ ['e', sign] ++ b) := by
  refine append_digits ⟨?_, ?_⟩ hb
  · obtain ⟨d, rest, rfl, hd⟩ := h.first
    exact ⟨d, rest ++ ['e', sign], rfl, hd⟩
  · have hmark : inNumber a 'e' = true := by simp [inNumber]
    have hin : inNumber (a ++ ['e']) sign = true := by
      rcases hsign with rfl | rfl <;> simp [inNumber]
    rw [read_append, h.read]
    simp only [Reading.read, next_number hmark, next_number hin, List.append_assoc,
      List.singleton_append, List.append_nil]

theorem of_digits {cs : List Char} (hne : cs ≠ []) (hall : ∀ c ∈ cs, c.isDigit = true) :
    IsNumeral cs := by
  obtain ⟨d, rest, rfl⟩ := List.exists_cons_of_ne_nil hne
  obtain ⟨hd, hrest⟩ := List.forall_mem_cons.mp hall
  refine append_digits (a := [d]) ⟨⟨d, [], rfl, hd⟩, ?_⟩ hrest
  simp only [Reading.read, next_between, begin_of_isDigit hd, List.append_nil]

theorem of_toDigits (n : Nat) : IsNumeral (Nat.toDigits 10 n) :=
  of_digits Nat.toDigits_ne_nil fun _ hc => Nat.isDigit_of_mem_toDigits (by decide) (by decide) hc

theorem tokens? {cs : List Char} (h : IsNumeral cs) :
    tokens? cs = some [.number (String.ofList cs)] :=
  tokens?_eq_some_iff.mpr ⟨[], _, _, h.read, rfl, rfl⟩

theorem tokens?_negative {cs : List Char} (h : IsNumeral cs) :
    Sql.tokens? ('-' :: cs) = some [.mark '-', .number (String.ofList cs)] := by
  obtain ⟨d, rest, rfl, hd⟩ := h.first
  have hne : d ≠ '-' := fun heq => by rw [heq] at hd; cases hd
  have hread := h.read
  have hdash : begin '-' = ([], .dash) := rfl
  rw [Reading.read, next_between] at hread
  obtain ⟨hnothing, hnumber⟩ := Prod.mk.inj hread
  refine tokens?_eq_some_iff.mpr ⟨[.mark '-'], .number (d :: rest), _, ?_, rfl, rfl⟩
  simp only [Reading.read, next_between, hdash, next_dash hne, List.nil_append, List.cons_append,
    hnothing, hnumber]

end IsNumeral

end StopArrivals.Sql
