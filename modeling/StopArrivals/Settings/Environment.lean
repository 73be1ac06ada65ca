import StopArrivals.Text.Search

/-!
# Environments

Named texts; a name that is set hides what is set later under the same name. A variable may also
be looked up in the assignments as they are written down, `name=value`; for names without an
equals sign that comes to the same (`behind?_toList`).
-/

namespace StopArrivals

structure Environment where
  bindings : List (String × String)
deriving DecidableEq

namespace Environment

def get? (env : Environment) (name : String) : Option String :=
  (env.bindings.find? fun v => v.1 = name).map Prod.snd

/-- Set a variable that is not set yet. -/
def setDefault (env : Environment) (name value : String) : Environment :=
  match env.get? name with
  | some _ => env
  | none => ⟨env.bindings ++ [(name, value)]⟩

/-! ## Assignments -/

/-- A variable as it is written down. -/
def assignment (v : String × String) : List Char := v.1.toList ++ '=' :: v.2.toList

/-- What stands behind some characters and an equals sign in the first assignment that begins with
them. Characters that hold an equals sign themselves may reach into a value. -/
def behind? (env : Environment) (chars : List Char) : Option (List Char) :=
  env.bindings.findSome? fun v => dropBeginning? (chars ++ ['=']) (assignment v)

/-- Without an equals sign before it, the place of the first one is the same on both sides. -/
theorem append_equals_inj {as bs cs ds : List Char} (ha : '=' ∉ as) (hb : '=' ∉ bs)
    (h : as ++ '=' :: cs = bs ++ '=' :: ds) : as = bs ∧ cs = ds := by
  induction as generalizing bs with
  | nil =>
    cases bs with
    | nil => exact ⟨rfl, (List.cons.inj h).2⟩
    | cons b bs => exact absurd ((List.cons.inj h).1 ▸ List.mem_cons_self) hb
  | cons a as ih =>
    cases bs with
    | nil => exact absurd ((List.cons.inj h).1 ▸ List.mem_cons_self) ha
    | cons b bs =>
      obtain ⟨hab, htail⟩ := List.cons.inj h
      obtain ⟨hs, hv⟩ := ih (fun hm => ha (List.mem_cons_of_mem _ hm))
        (fun hm => hb (List.mem_cons_of_mem _ hm)) htail
      exact ⟨hab ▸ hs ▸ rfl, hv⟩

theorem dropBeginning?_assignment {name : String} {v : String × String}
    (hname : '=' ∉ name.toList) (hv : '=' ∉ v.1.toList) :
    dropBeginning? (name.toList ++ ['=']) (assignment v) =
      if v.1 = name then some v.2.toList else none := by
  by_cases h : v.1 = name
  · rw [if_pos h, dropBeginning?_eq_some_iff, assignment, h, List.append_assoc]
    rfl
  · rw [if_neg h, Option.eq_none_iff_forall_ne_some]
    intro rest hrest
    rw [dropBeginning?_eq_some_iff, assignment, List.append_assoc] at hrest
    exact h (String.toList_inj.mp (append_equals_inj hv hname hrest).1)

/-- Names without an equals sign are looked up as in `get?`. -/
theorem behind?_toList {env : Environment} {name : String} (hname : '=' ∉ name.toList)
    (henv : ∀ v ∈ env.bindings, '=' ∉ v.1.toList) :
    env.behind? name.toList = (env.get? name).map String.toList := by
  obtain ⟨bindings⟩ := env
  unfold behind? get?
  dsimp only at henv ⊢
  induction bindings with
  | nil => rfl
  | cons v rest ih =>
    have hrest := ih fun w hw => henv w (List.mem_cons_of_mem _ hw)
    rw [List.findSome?_cons, dropBeginning?_assignment hname (henv v List.mem_cons_self),
      List.find?_cons]
    by_cases h : v.1 = name
    · simp [h]
    · simpa [h] using hrest

end Environment

end StopArrivals
