import Mathlib.Data.List.DropRight
import Mathlib.Data.List.Sort
import StopArrivals.Proofs.ByteOrder
import StopArrivals.Proofs.Grouping

/-!
# The folder of a path and the partition of each object

A path is a start, which may be the root or the current folder, and then names. Its folder is the
shortest beginning of it that has all its components but the last one (`isParent_iff`): a beginning
has fewer names than the path or ends inside of one (`fieldsOf_beginning`), and what the folder ends
with is a whole name. With that a listing is cut into partitions exactly: every object is in one,
as often as it was listed, and the order of the listing decides about nothing but the order inside
of each partition.
-/

namespace StopArrivals

/-! ## Components -/

inductive PathComponent
  | root
  /-- The dot that a path begins with; elsewhere a dot names nothing. -/
  | current
  | named (name : List Char)
deriving DecidableEq

def PathComponent.name? : PathComponent → Option (List Char)
  | .named name => some name
  | _ => none

def namesOf (path : List Char) : List (List Char) :=
  (fieldsOf '/' path).filter fun field => !isTrivialComponent field

def startOf (path : List Char) : List PathComponent :=
  if path.head? = some '/' then [.root]
  else if (fieldsOf '/' path).head? = some ['.'] then [.current]
  else []

def componentsOf (path : List Char) : List PathComponent :=
  startOf path ++ (namesOf path).map .named

/-- The shortest beginning of a path that has all its components but the last one. -/
structure IsParent (path folder : List Char) : Prop where
  beginning : folder <+: path
  components : componentsOf folder = (componentsOf path).dropLast
  shortest : ∀ q, q <+: path → componentsOf q = (componentsOf path).dropLast → folder <+: q

theorem IsParent.unique {path folder folder' : List Char} (h : IsParent path folder)
    (h' : IsParent path folder') : folder = folder' := by
  have hle := h.shortest folder' h'.beginning h'.components
  have hge := h'.shortest folder h.beginning h.components
  exact hle.eq_of_length_le hge.length_le

/-! ## Beginnings -/

/-- The fields of a beginning are fields of the text, but the last one of them may go on there. -/
theorem fieldsOf_beginning (sep : Char) {q cs : List Char} (h : q <+: cs) :
    ∃ before last more after, fieldsOf sep q = before ++ [last] ∧
      fieldsOf sep cs = before ++ (last ++ more) :: after := by
  induction q generalizing cs with
  | nil =>
    obtain ⟨field, rest, hfields⟩ := List.exists_cons_of_ne_nil (fieldsOf_ne_nil sep cs)
    exact ⟨[], [], field, rest, rfl, hfields⟩
  | cons c q ih =>
    obtain ⟨rest, hrest⟩ := h
    subst hrest
    obtain ⟨before, last, more, after, hq, hcs⟩ := ih (List.prefix_append q rest)
    rw [List.cons_append]
    by_cases hc : c = sep
    · refine ⟨[] :: before, last, more, after, ?_, ?_⟩
      · simp [fieldsOf, hc, hq]
      · simp [fieldsOf, hc, hcs]
    · cases before with
      | nil =>
        refine ⟨[], c :: last, more, after, ?_, ?_⟩
        · simp [fieldsOf, hc, hq]
        · simp [fieldsOf, hc, hcs]
      | cons field before =>
        refine ⟨(c :: field) :: before, last, more, after, ?_, ?_⟩
        · simp [fieldsOf, hc, hq]
        · simp [fieldsOf, hc, hcs]

theorem isTrivialComponent_of_append {field more : List Char}
    (h : isTrivialComponent (field ++ more) = true) : isTrivialComponent field = true := by
  simp only [isTrivialComponent, Bool.or_eq_true, decide_eq_true_eq, List.append_eq_nil_iff,
    List.append_eq_singleton_iff] at h ⊢
  tauto

/-- If a text ends with a whole name, a proper beginning of it has other names. -/
theorem eq_of_namesOf_eq {q cs : List Char} {fields : List (List Char)} {name : List Char}
    (hcs : fieldsOf '/' cs = fields ++ [name]) (hname : isTrivialComponent name = false)
    (h : q <+: cs) (hnames : namesOf q = namesOf cs) : q = cs := by
  obtain ⟨before, last, more, after, hq, hsplit⟩ := fieldsOf_beginning '/' h
  have hends : before ++ (last ++ more) :: after = fields ++ [name] := hsplit ▸ hcs
  rw [namesOf, namesOf, hq, hsplit, List.filter_append, List.filter_append,
    List.append_cancel_left_eq] at hnames
  rcases List.eq_nil_or_concat' after with rfl | ⟨after, other, rfl⟩
  · obtain ⟨rfl, hlast⟩ := List.append_inj' hends rfl
    obtain rfl := List.head_eq_of_cons_eq hlast
    have hmore : more = [] := by
      by_cases htrivial : isTrivialComponent last = true
      · simp [htrivial, hname] at hnames
      · simpa [htrivial, hname] using hnames
    rw [← joinFields_fieldsOf '/' q, hq, ← joinFields_fieldsOf '/' cs, hsplit, hmore,
      List.append_nil]
  · -- The name at the end is one more than the beginning has.
    rw [← List.cons_append, ← List.append_assoc] at hends
    obtain ⟨-, hlast⟩ := List.append_inj' hends rfl
    obtain rfl := List.head_eq_of_cons_eq hlast
    rw [← List.cons_append, List.filter_append ((last ++ more) :: after)] at hnames
    by_cases htrivial : isTrivialComponent last = true
    · simp [htrivial, hname] at hnames
    · have hlonger : isTrivialComponent (last ++ more) ≠ true :=
        fun h => htrivial (isTrivialComponent_of_append h)
      simp [htrivial, hlonger, hname] at hnames

/-! ## The shortest beginning -/

/-- The fields above the last name, and no trivial ones behind them. -/
def parentFields (fields : List (List Char)) : List (List Char) :=
  (fields.rdropWhile isTrivialComponent).dropLast.rdropWhile isTrivialComponent

theorem parentFields_beginning (fields : List (List Char)) : parentFields fields <+: fields :=
  (List.rdropWhile_prefix _ _).trans ((List.dropLast_prefix _).trans (List.rdropWhile_prefix _ _))

theorem filter_rdropWhile (fields : List (List Char)) :
    (fields.rdropWhile isTrivialComponent).filter (fun field => !isTrivialComponent field) =
      fields.filter fun field => !isTrivialComponent field := by
  conv_rhs => rw [← List.rdropWhile_append_rtakeWhile (p := isTrivialComponent) (l := fields)]
  have htail : (fields.rtakeWhile isTrivialComponent).filter
      (fun field => !isTrivialComponent field) = [] := by
    refine List.filter_eq_nil_iff.mpr fun field hfield => ?_
    simp [List.mem_rtakeWhile_imp hfield]
  rw [List.filter_append, htail, List.append_nil]

theorem exists_rdropWhile {fields : List (List Char)}
    (h : fields.rdropWhile isTrivialComponent ≠ []) : ∃ before name,
      fields.rdropWhile isTrivialComponent = before ++ [name] ∧ isTrivialComponent name = false := by
  refine ⟨_, _, (List.dropLast_append_getLast h).symm, ?_⟩
  simpa using List.rdropWhile_last_not isTrivialComponent fields h

theorem filter_parentFields (fields : List (List Char)) :
    (parentFields fields).filter (fun field => !isTrivialComponent field) =
      (fields.filter fun field => !isTrivialComponent field).dropLast := by
  rw [parentFields, filter_rdropWhile, ← filter_rdropWhile fields]
  by_cases h : fields.rdropWhile isTrivialComponent = []
  · simp [h]
  · obtain ⟨before, name, hfields, hname⟩ := exists_rdropWhile h
    simp [hfields, hname]

theorem fieldsOf_parent {cs : List Char} (h : parentFields (fieldsOf '/' cs) ≠ []) :
    fieldsOf '/' (joinFields '/' (parentFields (fieldsOf '/' cs))) =
      parentFields (fieldsOf '/' cs) :=
  fieldsOf_joinFields h fun _ hfield =>
    not_mem_of_mem_fieldsOf ((parentFields_beginning _).subset hfield)

theorem namesOf_parent (cs : List Char) :
    namesOf (joinFields '/' (parentFields (fieldsOf '/' cs))) = (namesOf cs).dropLast := by
  rw [namesOf, namesOf, ← filter_parentFields]
  by_cases h : parentFields (fieldsOf '/' cs) = []
  · rw [h]
    rfl
  · rw [fieldsOf_parent h]

theorem parent_beginning (cs : List Char) :
    joinFields '/' (parentFields (fieldsOf '/' cs)) <+: cs := by
  have h := joinFields_beginning '/' (parentFields_beginning (fieldsOf '/' cs))
  rwa [joinFields_fieldsOf] at h

theorem parent_shortest {q cs : List Char} (h : q <+: cs)
    (hnames : namesOf q = (namesOf cs).dropLast) :
    joinFields '/' (parentFields (fieldsOf '/' cs)) <+: q := by
  by_cases hnil : parentFields (fieldsOf '/' cs) = []
  · rw [hnil]
    exact List.nil_prefix
  rcases List.prefix_or_prefix_of_prefix h (parent_beginning cs) with hq | hq
  · obtain ⟨before, name, hfields, hname⟩ := exists_rdropWhile hnil
    have heq := eq_of_namesOf_eq ((fieldsOf_parent hnil).trans hfields) hname hq
      (hnames.trans (namesOf_parent cs).symm)
    exact heq ▸ List.prefix_rfl
  · exact hq

/-! ## The start of a path -/

/-- A text that a path may begin with, the component that stands for it, and what may follow. -/
inductive Starts : List Char → List PathComponent → List Char → Prop
  | root (rest : List Char) : Starts ['/'] [.root] rest
  | current : Starts ['.'] [.current] []
  | below_current (rest : List Char) : Starts ['.'] [.current] ('/' :: rest)
  | none {rest : List Char} (habsolute : rest.head? ≠ some '/')
      (hcurrent : (fieldsOf '/' rest).head? ≠ some ['.']) : Starts [] [] rest

theorem exists_starts (path : List Char) :
    ∃ start rest, path = pathHead path ++ rest ∧ Starts (pathHead path) start rest := by
  simp only [pathHead]
  split
  · next rest => exact ⟨_, rest, rfl, .root rest⟩
  · exact ⟨_, [], rfl, .current⟩
  · next rest => exact ⟨_, '/' :: rest, rfl, .below_current rest⟩
  · next habsolute halone hbelow =>
    refine ⟨_, path, rfl, .none (fun h => ?_) fun h => ?_⟩
    · obtain ⟨rest, rfl⟩ := List.head?_eq_some_iff.mp h
      exact habsolute rest rfl
    · obtain ⟨fields, hfields⟩ := List.head?_eq_some_iff.mp h
      have hpath := joinFields_fieldsOf '/' path
      rw [hfields] at hpath
      cases fields with
      | nil => exact halone hpath.symm
      | cons field fields =>
        rw [joinFields_cons '/' _ (List.cons_ne_nil _ _)] at hpath
        exact hbelow _ hpath.symm

section

variable {head : List Char} {start : List PathComponent} {rest : List Char}

theorem Starts.dropLast_eq (h : Starts head start rest) : start.dropLast = [] := by
  cases h <;> rfl

theorem Starts.names_eq (h : Starts head start rest) :
    start.filterMap PathComponent.name? = [] := by
  cases h <;> rfl

theorem Starts.componentsOf_eq (h : Starts head start rest) :
    componentsOf (head ++ rest) = start ++ (namesOf rest).map .named := by
  cases h with
  | root rest => simp [componentsOf, startOf, namesOf, fieldsOf, isTrivialComponent]
  | current => rfl
  | below_current rest => simp [componentsOf, startOf, namesOf, fieldsOf, isTrivialComponent]
  | none habsolute hcurrent => simp [componentsOf, startOf, habsolute, hcurrent]

theorem Starts.parent (h : Starts head start rest) :
    Starts head start (joinFields '/' (parentFields (fieldsOf '/' rest))) := by
  have hbeginning := parent_beginning rest
  cases h with
  | root => exact .root _
  | current => exact .current
  | below_current rest =>
    rcases List.prefix_cons_iff.mp hbeginning with hnil | ⟨above, habove, -⟩
    · rw [hnil]
      exact .current
    · rw [habove]
      exact .below_current above
  | none habsolute hcurrent =>
    by_cases hnil : parentFields (fieldsOf '/' rest) = []
    · rw [hnil]
      exact .none (by decide) (by decide)
    · refine .none (fun h => habsolute ?_) fun h => hcurrent ?_
      · obtain ⟨above, habove⟩ := List.head?_eq_some_iff.mp h
        rw [habove] at hbeginning
        obtain ⟨more, rfl⟩ := hbeginning
        rfl
      · rw [fieldsOf_parent hnil] at h
        obtain ⟨fields, hfields⟩ := List.head?_eq_some_iff.mp h
        obtain ⟨more, hmore⟩ := hfields ▸ parentFields_beginning (fieldsOf '/' rest)
        rw [← hmore]
        rfl

theorem Starts.eq_of_components {head' rest' : List Char} {start' : List PathComponent}
    {names names' : List (List Char)} (h : Starts head start rest) (h' : Starts head' start' rest')
    (heq : start ++ names.map .named = start' ++ names'.map .named) :
    head = head' ∧ names = names' := by
  have hnames := congrArg (List.filterMap PathComponent.name?) heq
  have hname (names : List (List Char)) :
      (names.map PathComponent.named).filterMap PathComponent.name? = names := by
    rw [List.filterMap_map]
    exact List.filterMap_some
  rw [List.filterMap_append, List.filterMap_append, h.names_eq, h'.names_eq, hname, hname] at hnames
  obtain rfl : names = names' := hnames
  have hstart := List.append_cancel_right heq
  refine ⟨?_, rfl⟩
  cases h <;> cases h' <;> first | rfl | cases hstart

end

/-! ## The folder -/

theorem folderChars_eq (path : List Char) {rest : List Char} (h : path = pathHead path ++ rest) :
    folderChars path = if namesOf rest = [] then [] else
      pathHead path ++ joinFields '/' (parentFields (fieldsOf '/' rest)) := by
  have hrest : path.drop (pathHead path).length = rest := by
    have hdrop := congrArg (List.drop (pathHead path).length) h
    rwa [List.drop_left] at hdrop
  have hnames := filter_rdropWhile (fieldsOf '/' rest)
  simp only [folderChars, hrest]
  by_cases hkept : (fieldsOf '/' rest).rdropWhile isTrivialComponent = []
  · rw [hkept] at hnames
    have hnone : namesOf rest = [] := hnames.symm
    rw [if_pos hnone, List.reverse_eq_nil_iff.mp hkept]
  · obtain ⟨before, name, hfields, hname⟩ := exists_rdropWhile hkept
    rw [hfields] at hnames
    have hsome : namesOf rest ≠ [] := by
      rw [namesOf, ← hnames]
      simp [hname]
    have hback := congrArg List.reverse hfields
    rw [List.rdropWhile, List.reverse_reverse, List.reverse_append, List.reverse_singleton,
      List.singleton_append] at hback
    rw [if_neg hsome, hback, parentFields, hfields, List.dropLast_concat, List.rdropWhile]

theorem isParent_folderChars (path : List Char) : IsParent path (folderChars path) := by
  obtain ⟨start, rest, hpath, hstarts⟩ := exists_starts path
  have hcomponents := hstarts.componentsOf_eq
  rw [← hpath] at hcomponents
  rw [folderChars_eq path hpath]
  split
  · next hnone =>
    refine ⟨List.nil_prefix, ?_, fun _ _ _ => List.nil_prefix⟩
    rw [hcomponents, hnone, List.map_nil, List.append_nil, hstarts.dropLast_eq]
    rfl
  · next hsome =>
    have hlast : (componentsOf path).dropLast = start ++ (namesOf rest).dropLast.map .named := by
      rw [hcomponents, List.dropLast_append_of_ne_nil (by simpa using hsome), List.map_dropLast]
    refine ⟨?_, ?_, fun q hq hcomponentsq => ?_⟩
    · conv_rhs => rw [hpath]
      exact (List.prefix_append_right_inj _).mpr (parent_beginning rest)
    · rw [hstarts.parent.componentsOf_eq, namesOf_parent, hlast]
    · obtain ⟨startq, restq, hpathq, hstartsq⟩ := exists_starts q
      have heq := hstartsq.componentsOf_eq
      rw [← hpathq, hcomponentsq, hlast] at heq
      obtain ⟨hhead, hnames⟩ := hstarts.eq_of_components hstartsq heq
      rw [hpathq, hpath, hhead, List.prefix_append_right_inj] at hq
      rw [hpathq, hhead, List.prefix_append_right_inj]
      exact parent_shortest hq hnames.symm

theorem isParent_iff {path folder : String} :
    IsParent path.toList folder.toList ↔ folderOf path = folder := by
  have h := isParent_folderChars path.toList
  constructor
  · intro hfolder
    rw [folderOf, h.unique hfolder, String.ofList_toList]
  · rintro rfl
    rwa [folderOf, String.toList_ofList]

example : ["a", "/", "/a", "a//b", "./a", "a/./b/", "s3://x"].map folderOf =
    ["", "", "/", "a", ".", "a", "s3:"] := by decide

/-! ## The partition of each object -/

def SourceObject.entry (o : SourceObject) : Int × String := (o.id, o.path)

/-- Ids and paths, taken pairwise. -/
def Partition.entries (p : Partition) : List (Int × String) := p.ids.zip p.paths

theorem Partition.entries_eq (p : Partition) : p.entries = p.objects.map SourceObject.entry :=
  List.zip_map'

theorem addObject_perm (o : SourceObject) (ps : List Partition) :
    ((addObject o ps).flatMap Partition.objects).Perm (o :: ps.flatMap Partition.objects) := by
  induction ps with
  | nil => exact .refl _
  | cons p ps ih =>
    rw [addObject]
    split_ifs
    · simp only [List.flatMap_cons, List.append_assoc, List.singleton_append]
      exact List.perm_middle
    · exact .refl _
    · simp only [List.flatMap_cons]
      exact (ih.append_left _).trans List.perm_middle

theorem foldl_addObject_perm (objects : List SourceObject) (ps : List Partition) :
    ((objects.foldl (fun ps o => addObject o ps) ps).flatMap Partition.objects).Perm
      (ps.flatMap Partition.objects ++ objects) := by
  induction objects generalizing ps with
  | nil => rw [List.append_nil]; exact .refl _
  | cons o objects ih =>
    rw [List.foldl_cons]
    refine (ih _).trans (((addObject_perm o ps).append_right objects).trans ?_)
    exact List.perm_middle.symm

theorem groupPartitions_perm (objects : List SourceObject) :
    ((groupPartitions objects).flatMap Partition.objects).Perm objects :=
  foldl_addObject_perm objects []

theorem mem_keys_groupPartitions {objects : List SourceObject} {folder : String} :
    folder ∈ (groupPartitions objects).map Partition.key ↔
      folder ∈ objects.map fun o => folderOf o.path := by
  constructor
  · intro h
    obtain ⟨p, hp, rfl⟩ := List.mem_map.mp h
    obtain ⟨hsome, hfull⟩ := mem_groupPartitions.mp hp
    obtain ⟨o, ho⟩ := List.exists_mem_of_ne_nil _ hsome
    rw [hfull, mem_inFolder] at ho
    exact List.mem_map.mpr ⟨o, ho⟩
  · intro h
    obtain ⟨o, ho, rfl⟩ := List.mem_map.mp h
    exact List.mem_map.mpr ⟨_, exists_partition ho, rfl⟩

theorem groupPartitions_eq_map (objects : List SourceObject) :
    groupPartitions objects =
      ((groupPartitions objects).map Partition.key).map fun k => ⟨k, inFolder k objects⟩ := by
  rw [List.map_map, List.map_congr_left (g := id), List.map_id]
  intro p hp
  have hfull := (mem_groupPartitions.mp hp).2
  simp [← hfull]

/-- Which folders there are does not depend on the order of the objects. -/
theorem keys_groupPartitions_of_perm {objects others : List SourceObject}
    (h : objects.Perm others) : (groupPartitions objects).map Partition.key =
      (groupPartitions others).map Partition.key := by
  have hascend (os : List SourceObject) :
      ((groupPartitions os).map Partition.key).Pairwise fun f g : String => f < g :=
    List.pairwise_map.mpr (keysAscend_groupPartitions os)
  refine (hascend objects).eq_of_mem_iff (hascend others) fun folder => ?_
  rw [mem_keys_groupPartitions, mem_keys_groupPartitions]
  exact (h.map _).mem_iff

/-- What partitions of some objects into their folders are. -/
structure ExactPartition (objects : List SourceObject) (ps : List Partition) : Prop where
  /-- The folders are in strictly ascending order of their bytes. -/
  ascending : ps.Pairwise fun p q => utf8 p.key < utf8 q.key
  nonempty : ∀ p ∈ ps, p.ids ≠ []
  /-- Ids and paths are of one length and go together, and are those of the folder in order. -/
  aligned : ∀ p ∈ ps, p.ids.length = p.paths.length
  entries : ∀ p ∈ ps, p.entries =
    (objects.filter fun o => folderOf o.path = p.key).map SourceObject.entry
  /-- Nothing is lost or doubled, not even of what was listed several times. -/
  complete : (ps.flatMap Partition.entries).Perm (objects.map SourceObject.entry)
  one : ∀ o ∈ objects, ∃! p, p ∈ ps ∧ o.entry ∈ p.entries

theorem exactPartition_groupPartitions (objects : List SourceObject) :
    ExactPartition objects (groupPartitions objects) where
  ascending := (keysAscend_groupPartitions objects).imp fun h => utf8_lt_iff.mpr h
  nonempty p hp := by
    rw [Partition.ids, Ne, List.map_eq_nil_iff]
    exact (mem_groupPartitions.mp hp).1
  aligned p _ := by rw [Partition.ids, Partition.paths, List.length_map, List.length_map]
  entries p hp := by
    rw [Partition.entries_eq, (mem_groupPartitions.mp hp).2]
    rfl
  complete := by
    have hentries : (groupPartitions objects).flatMap Partition.entries =
        ((groupPartitions objects).flatMap Partition.objects).map SourceObject.entry := by
      rw [List.map_flatMap]
      exact List.flatMap_congr fun p _ => p.entries_eq
    rw [hentries]
    exact (groupPartitions_perm objects).map _
  one o ho := by
    have hmem {p : Partition} : o.entry ∈ p.entries ↔ o ∈ p.objects := by
      rw [Partition.entries_eq, List.mem_map]
      constructor
      · rintro ⟨o', ho', heq⟩
        obtain ⟨hid, hpath⟩ := Prod.mk.injEq .. |>.mp heq
        cases o; cases o'
        simp_all
      · exact fun h => ⟨o, h, rfl⟩
    refine ⟨_, ⟨exists_partition ho, hmem.mpr (mem_inFolder.mpr ⟨ho, rfl⟩)⟩, ?_⟩
    rintro p ⟨hp, hop⟩
    obtain ⟨-, hfull⟩ := mem_groupPartitions.mp hp
    rw [hmem, hfull, mem_inFolder] at hop
    obtain ⟨-, hkey⟩ := hop
    rw [hkey, ← hfull]

/-- Partitions of the same folders with the same entries, perhaps in another order. -/
def SameUpToOrder (p q : Partition) : Prop := p.key = q.key ∧ p.entries.Perm q.entries

theorem groupPartitions_of_perm {objects others : List SourceObject} (h : objects.Perm others) :
    List.Forall₂ SameUpToOrder (groupPartitions objects) (groupPartitions others) := by
  rw [groupPartitions_eq_map objects, groupPartitions_eq_map others,
    keys_groupPartitions_of_perm h, List.forall₂_map_left_iff, List.forall₂_map_right_iff]
  refine List.forall₂_same.mpr fun folder _ => ⟨rfl, ?_⟩
  rw [Partition.entries_eq, Partition.entries_eq]
  exact (h.filter _).map _

/-- Grouping is an exact ordered partition, and what it is by is the parent of each path. -/
theorem grouping_is_exact (objects : List SourceObject) :
    (∀ path folder : String, folderOf path = folder ↔ IsParent path.toList folder.toList) ∧
      ExactPartition objects (groupPartitions objects) ∧
      ∀ others, objects.Perm others →
        List.Forall₂ SameUpToOrder (groupPartitions objects) (groupPartitions others) :=
  ⟨fun _ _ => isParent_iff.symm, exactPartition_groupPartitions objects,
    fun _ h => groupPartitions_of_perm h⟩

theorem grouping_is_exact_backwards :
    let objects : List SourceObject := [⟨1, "b//x"⟩, ⟨2, "a/y"⟩, ⟨3, "b/./z"⟩, ⟨1, "b//x"⟩]
    objects.Perm objects.reverse ∧ List.Forall₂ SameUpToOrder (groupPartitions objects)
      (groupPartitions objects.reverse) :=
  ⟨(List.reverse_perm _).symm, (grouping_is_exact _).2.2 _ (List.reverse_perm _).symm⟩

end StopArrivals
