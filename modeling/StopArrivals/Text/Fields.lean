/-!
# Fields between separators

Cutting a text at every occurrence of a separator gives one field more than there are separators,
and joining the fields with the separator gives the text back.
-/

namespace StopArrivals

/-- The fields of a text; an empty text has one empty field. -/
def fieldsOf (sep : Char) : List Char → List (List Char)
  | [] => [[]]
  | c :: cs =>
    if c = sep then [] :: fieldsOf sep cs
    else match fieldsOf sep cs with
      | [] => [[c]]
      | field :: rest => (c :: field) :: rest

def joinFields (sep : Char) (fields : List (List Char)) : List Char := [sep].intercalate fields

theorem fieldsOf_ne_nil (sep : Char) (cs : List Char) : fieldsOf sep cs ≠ [] := by
  cases cs with
  | nil => simp [fieldsOf]
  | cons c cs =>
    simp only [fieldsOf]
    split
    · simp
    · split <;> simp

theorem joinFields_cons (sep : Char) (field : List Char) {rest : List (List Char)}
    (h : rest ≠ []) : joinFields sep (field :: rest) = field ++ sep :: joinFields sep rest := by
  cases rest with
  | nil => exact absurd rfl h
  | cons f fs => simp [joinFields, List.intercalate, List.intersperse]

theorem joinFields_fieldsOf (sep : Char) (cs : List Char) :
    joinFields sep (fieldsOf sep cs) = cs := by
  induction cs with
  | nil => rfl
  | cons c cs ih =>
    simp only [fieldsOf]
    split
    · next h => rw [joinFields_cons sep [] (fieldsOf_ne_nil sep cs), ih, h]; rfl
    · split
      · next h => exact absurd h (fieldsOf_ne_nil sep cs)
      · next field rest h =>
        rw [h] at ih
        cases rest with
        | nil => simpa [joinFields, List.intercalate] using ih
        | cons f fs =>
          rw [joinFields_cons sep _ (by simp)] at ih ⊢
          simpa using ih

theorem not_mem_of_mem_fieldsOf {sep : Char} {cs field : List Char}
    (h : field ∈ fieldsOf sep cs) : sep ∉ field := by
  induction cs generalizing field with
  | nil => simp_all [fieldsOf]
  | cons c cs ih =>
    simp only [fieldsOf] at h
    split at h
    · rcases List.mem_cons.mp h with rfl | h
      · simp
      · exact ih h
    · next hc =>
      split at h
      · next hnil => exact absurd hnil (fieldsOf_ne_nil sep cs)
      · next f fs hf =>
        rcases List.mem_cons.mp h with rfl | h
        · simp only [List.mem_cons, not_or]
          exact ⟨Ne.symm hc, ih (by rw [hf]; exact List.mem_cons_self)⟩
        · exact ih (by rw [hf]; exact List.mem_cons_of_mem _ h)

theorem fieldsOf_of_not_mem {sep : Char} {cs : List Char} (h : sep ∉ cs) :
    fieldsOf sep cs = [cs] := by
  induction cs with
  | nil => rfl
  | cons c cs ih =>
    rw [List.mem_cons, not_or] at h
    simp [fieldsOf, Ne.symm h.1, ih h.2]

theorem fieldsOf_append (sep : Char) (cs ds : List Char) :
    fieldsOf sep (cs ++ sep :: ds) = fieldsOf sep cs ++ fieldsOf sep ds := by
  induction cs with
  | nil => simp [fieldsOf]
  | cons c cs ih =>
    simp only [List.cons_append, fieldsOf, ih]
    split
    · rfl
    · split
      · next h => exact absurd (List.append_eq_nil_iff.mp h).1 (fieldsOf_ne_nil sep cs)
      · next h =>
        split
        · next hnil => exact absurd hnil (fieldsOf_ne_nil sep cs)
        · next hcons =>
          rw [hcons, List.cons_append, List.cons.injEq] at h
          rw [← h.1, ← h.2, List.cons_append]

/-- Fields that do not hold the separator are found again in what they are joined to. -/
theorem fieldsOf_joinFields {sep : Char} {fields : List (List Char)} (hne : fields ≠ [])
    (hclean : ∀ field ∈ fields, sep ∉ field) : fieldsOf sep (joinFields sep fields) = fields := by
  induction fields with
  | nil => exact absurd rfl hne
  | cons field rest ih =>
    have hfield := fieldsOf_of_not_mem (hclean field List.mem_cons_self)
    cases rest with
    | nil => simpa [joinFields, List.intercalate] using hfield
    | cons next rest =>
      rw [joinFields_cons sep field (List.cons_ne_nil _ _), fieldsOf_append, hfield,
        ih (List.cons_ne_nil _ _) fun f hf => hclean f (List.mem_cons_of_mem _ hf),
        List.singleton_append]

/-- The fields of a text are the only ones without the separator that it is joined from. -/
theorem fieldsOf_eq_iff {sep : Char} {cs : List Char} {fields : List (List Char)} :
    fieldsOf sep cs = fields ↔
      fields ≠ [] ∧ (∀ field ∈ fields, sep ∉ field) ∧ cs = joinFields sep fields := by
  constructor
  · rintro rfl
    exact ⟨fieldsOf_ne_nil sep cs, fun _ => not_mem_of_mem_fieldsOf,
      (joinFields_fieldsOf sep cs).symm⟩
  · rintro ⟨hne, hclean, rfl⟩
    exact fieldsOf_joinFields hne hclean

theorem joinFields_append (sep : Char) {fs gs : List (List Char)} (hfs : fs ≠ []) (hgs : gs ≠ []) :
    joinFields sep (fs ++ gs) = joinFields sep fs ++ sep :: joinFields sep gs := by
  induction fs with
  | nil => exact absurd rfl hfs
  | cons f fs ih =>
    cases fs with
    | nil =>
      have hone : joinFields sep [f] = f := by simp [joinFields, List.intercalate]
      rw [List.singleton_append, joinFields_cons sep f hgs, hone]
    | cons f' fs =>
      rw [List.cons_append, joinFields_cons sep f (by simp), ih (List.cons_ne_nil _ _),
        joinFields_cons sep f (List.cons_ne_nil _ _), List.append_assoc, List.cons_append]

/-- Fewer fields join to a beginning. -/
theorem joinFields_beginning (sep : Char) {fs gs : List (List Char)} (h : fs <+: gs) :
    joinFields sep fs <+: joinFields sep gs := by
  obtain ⟨rest, rfl⟩ := h
  rcases Decidable.em (fs = []) with rfl | hfs
  · exact List.nil_prefix
  rcases Decidable.em (rest = []) with rfl | hrest
  · simp
  · rw [joinFields_append sep hfs hrest]
    exact List.prefix_append _ _

end StopArrivals
