/-!
# White space

The characters that Unicode calls white space, and trimming by them. Trimming is a function on
lists of characters; the functions on strings only wrap it.
-/

namespace StopArrivals

/-- Unicode white space: tab to carriage return, space, next line, no-break space, and the spaces
and separators of the higher blocks. -/
def isBlank (c : Char) : Bool :=
  let n := c.toNat
  (9 ≤ n && n ≤ 13) || n == 0x20 || n == 0x85 || n == 0xA0 || n == 0x1680 ||
    (0x2000 ≤ n && n ≤ 0x200A) || n == 0x2028 || n == 0x2029 || n == 0x202F || n == 0x205F ||
    n == 0x3000

def trimStartChars (cs : List Char) : List Char := cs.dropWhile isBlank

def trimEndChars (cs : List Char) : List Char := (cs.reverse.dropWhile isBlank).reverse

def trimChars (cs : List Char) : List Char := trimEndChars (trimStartChars cs)

/-- The text without the white space around it. -/
def trimmed (s : String) : String := String.ofList (trimChars s.toList)

/-- Is there nothing but white space? -/
def isBlankText (s : String) : Bool := s.toList.all isBlank

/-- The trimmed text, unless nothing is left of it. -/
def nonBlank? (s : String) : Option String :=
  if isBlankText s then none else some (trimmed s)

/-! ## What trimming leaves -/

theorem isBlank_of_isWhitespace {c : Char} (h : c.isWhitespace = true) : isBlank c = true := by
  simp only [Char.isWhitespace, Bool.or_eq_true, decide_eq_true_eq] at h
  rcases h with ((rfl | rfl) | rfl) | rfl <;> decide

theorem trimStartChars_eq_nil {cs : List Char} :
    trimStartChars cs = [] ↔ cs.all isBlank = true := by
  induction cs with
  | nil => simp [trimStartChars]
  | cons c cs ih =>
    cases h : isBlank c with
    | true =>
      rw [List.all_cons, h, Bool.true_and, ← ih, trimStartChars, List.dropWhile_cons_of_pos h]
      rfl
    | false =>
      rw [List.all_cons, h, Bool.false_and, trimStartChars,
        List.dropWhile_cons_of_neg (by rw [h]; decide)]
      simp

theorem trimChars_eq_nil {cs : List Char} : trimChars cs = [] ↔ cs.all isBlank = true := by
  rw [trimChars, trimEndChars, List.reverse_eq_nil_iff, ← trimStartChars,
    trimStartChars_eq_nil, List.all_reverse]
  constructor
  · intro h
    refine trimStartChars_eq_nil.mp ?_
    cases hs : trimStartChars cs with
    | nil => rfl
    | cons c rest =>
      have hc : isBlank c = false := by
        have := List.head?_dropWhile_not isBlank cs
        rw [← trimStartChars, hs] at this
        simpa using this
      simp [hs, hc] at h
  · intro h
    rw [trimStartChars_eq_nil.mpr h]
    rfl

theorem not_blank_of_mem {cs : List Char} {c : Char} (hc : c ∈ cs) (h : isBlank c = false) :
    cs.all isBlank = false :=
  List.all_eq_false.mpr ⟨c, hc, by rw [h]; exact Bool.false_ne_true⟩

theorem nonBlank?_of_blank {s : String} (h : isBlankText s = true) : nonBlank? s = none :=
  if_pos h

/-! ## What trimming leaves off -/

/-- A text is a core that neither begins nor ends with white space, and white space around it. -/
structure TrimsTo (cs core : List Char) : Prop where
  around : ∃ before after, before.all isBlank = true ∧ after.all isBlank = true ∧
    cs = before ++ (core ++ after)
  first : ∀ c ∈ core.head?, isBlank c = false
  last : ∀ c ∈ core.getLast?, isBlank c = false

theorem not_blank_head_trimStartChars {cs : List Char} {c : Char}
    (h : c ∈ (trimStartChars cs).head?) : isBlank c = false := by
  have hstop := List.head?_dropWhile_not isBlank cs
  rw [← trimStartChars, Option.mem_def.mp h] at hstop
  exact hstop

theorem trimStartChars_append {before cs : List Char} (hbefore : before.all isBlank = true)
    (hfirst : ∀ c ∈ cs.head?, isBlank c = false) : trimStartChars (before ++ cs) = cs := by
  rw [trimStartChars, List.dropWhile_append_of_pos (List.all_eq_true.mp hbefore)]
  cases cs with
  | nil => rfl
  | cons c cs => exact List.dropWhile_cons_of_neg (by simp [hfirst c rfl])

theorem trimsTo_trimChars (cs : List Char) : TrimsTo cs (trimChars cs) := by
  have hstart : cs = cs.takeWhile isBlank ++ trimStartChars cs :=
    List.takeWhile_append_dropWhile.symm
  have hend : trimStartChars cs =
      trimChars cs ++ ((trimStartChars cs).reverse.takeWhile isBlank).reverse := by
    rw [trimChars, trimEndChars, ← List.reverse_append, List.takeWhile_append_dropWhile,
      List.reverse_reverse]
  refine ⟨⟨_, _, List.all_takeWhile, ?_, hstart.trans (congrArg _ hend)⟩, ?_, ?_⟩
  · rw [List.all_reverse, List.all_takeWhile]
  · intro c hc
    have hhead : c ∈ (trimStartChars cs).head? := by
      rw [hend, List.head?_append, Option.mem_def.mp hc]
      rfl
    exact not_blank_head_trimStartChars hhead
  · intro c hc
    rw [trimChars, trimEndChars, List.getLast?_reverse] at hc
    exact not_blank_head_trimStartChars hc

theorem TrimsTo.trimChars_eq {cs core : List Char} (h : TrimsTo cs core) : trimChars cs = core := by
  obtain ⟨⟨before, after, hbefore, hafter, rfl⟩, hfirst, hlast⟩ := h
  cases core with
  | nil => simp [trimChars_eq_nil, hbefore, hafter]
  | cons c rest =>
    have hstart : trimStartChars (before ++ (c :: rest ++ after)) = c :: rest ++ after :=
      trimStartChars_append hbefore hfirst
    have hend : trimStartChars (after.reverse ++ (c :: rest).reverse) = (c :: rest).reverse :=
      trimStartChars_append (by rw [List.all_reverse, hafter])
        (fun d hd => hlast d (by rwa [List.head?_reverse] at hd))
    rw [trimChars, hstart, trimEndChars, List.reverse_append, ← trimStartChars, hend,
      List.reverse_reverse]

/-- A text has one core only, and trimming leaves it. -/
theorem trimChars_eq_iff {cs core : List Char} : trimChars cs = core ↔ TrimsTo cs core :=
  ⟨fun h => h ▸ trimsTo_trimChars cs, TrimsTo.trimChars_eq⟩

theorem trimsTo_of_not_blank {cs : List Char} (h : ∀ c ∈ cs, isBlank c = false) :
    TrimsTo cs cs where
  around := ⟨[], [], rfl, rfl, (List.append_nil cs).symm⟩
  first := fun c hc => h c (List.mem_of_mem_head? hc)
  last := fun c hc => h c (List.mem_of_getLast? hc)

end StopArrivals
