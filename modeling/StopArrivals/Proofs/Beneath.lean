import StopArrivals.Proofs.Folders
import StopArrivals.Proofs.Loading
import StopArrivals.Proofs.ScanTokens

/-!
# Which files a load reads

The files of a load are meant to lie beneath its root. A file does so if its path has the components
of the root in front of its own, and the text of the query says which files it names. What remains
of a path without the bucket scheme extends the root unless it is absolute; an absolute one takes
the place of the root (`loads_file_of_each_path`), and with it the load leaves the root.
-/

namespace StopArrivals

/-! ## Extending a folder -/

/-- The path has all components of the folder in front of its own. -/
def Beneath (folder path : List Char) : Prop := componentsOf folder <+: componentsOf path

theorem namesOf_append_slash (folder rest : List Char) :
    namesOf (folder ++ '/' :: rest) = namesOf folder ++ namesOf rest := by
  rw [namesOf, fieldsOf_append, List.filter_append]
  rfl

theorem startOf_append_slash {folder : List Char} (h : folder ≠ []) (rest : List Char) :
    startOf (folder ++ '/' :: rest) = startOf folder := by
  have hhead : (folder ++ '/' :: rest).head? = folder.head? := List.head?_append_of_ne_nil _ h
  have hfield : (fieldsOf '/' (folder ++ '/' :: rest)).head? = (fieldsOf '/' folder).head? := by
    rw [fieldsOf_append, List.head?_append_of_ne_nil _ (fieldsOf_ne_nil '/' folder)]
  rw [startOf, startOf, hhead, hfield]

theorem componentsOf_append_slash {folder : List Char} (h : folder ≠ []) (rest : List Char) :
    componentsOf (folder ++ '/' :: rest) =
      componentsOf folder ++ (namesOf rest).map .named := by
  rw [componentsOf, startOf_append_slash h, namesOf_append_slash, List.map_append,
    ← List.append_assoc]
  rfl

theorem componentsOf_append_of_slash {folder : List Char} (h : folder.getLast? = some '/')
    (rest : List Char) :
    componentsOf (folder ++ rest) = componentsOf folder ++ (namesOf rest).map .named := by
  obtain ⟨above, rfl⟩ := List.getLast?_eq_some_iff.mp h
  rw [List.append_assoc, List.singleton_append]
  by_cases habove : above = []
  · subst habove
    simp [componentsOf, startOf, namesOf, fieldsOf, isTrivialComponent]
  · have hnone : namesOf [] = [] := rfl
    rw [componentsOf_append_slash habove, componentsOf_append_slash habove, hnone, List.map_nil,
      List.append_nil]

/-- An absolute path takes the place of the folder, and any path that of no folder. -/
theorem extendPath_alone {folder rest : List Char} (h : rest.head? = some '/' ∨ folder = []) :
    extendPath folder rest = rest := by
  unfold extendPath
  split
  · rfl
  · next hrelative =>
    rcases h with habsolute | rfl
    · obtain ⟨cs, rfl⟩ := List.head?_eq_some_iff.mp habsolute
      exact absurd rfl (hrelative cs)
    · rfl

theorem componentsOf_extendPath {folder rest : List Char} (hfolder : folder ≠ [])
    (hrest : rest.head? ≠ some '/') :
    componentsOf (extendPath folder rest) =
      componentsOf folder ++ (namesOf rest).map .named := by
  unfold extendPath
  split
  · next cs => exact absurd rfl hrest
  · split
    · next hnone => exact absurd (List.getLast?_eq_none_iff.mp hnone) hfolder
    · next hslash => exact componentsOf_append_of_slash hslash rest
    · exact componentsOf_append_slash hfolder rest

theorem beneath_extendPath_iff {folder rest : List Char} :
    Beneath folder (extendPath folder rest) ↔ rest.head? ≠ some '/' ∨ Beneath folder rest := by
  by_cases habsolute : rest.head? = some '/'
  · rw [extendPath_alone (.inl habsolute), or_iff_right (not_not_intro habsolute)]
  · refine iff_of_true ?_ (.inl habsolute)
    by_cases hfolder : folder = []
    · subst hfolder
      exact List.nil_prefix
    · rw [Beneath, componentsOf_extendPath hfolder habsolute]
      exact List.prefix_append _ _

/-! ## The file of a path -/

/-- What remains of a path when a bucket scheme at its front is taken off, but only one. -/
inductive Remains : List Char → List Char → Prop
  | bucket (rest : List Char) : Remains (bucketScheme ++ rest) rest
  | plain {path : List Char} (h : ¬ bucketScheme <+: path) : Remains path path

/-- The file of a root and of what remains of a path. -/
structure FileOf (root rest file : List Char) : Prop where
  alone : rest.head? = some '/' ∨ root = [] → file = rest
  extended : rest.head? ≠ some '/' → root ≠ [] →
    componentsOf file = componentsOf root ++ (namesOf rest).map .named
  beneath_iff : Beneath root file ↔ rest.head? ≠ some '/' ∨ Beneath root rest

theorem resolvePath_fileOf (root path : String) :
    ∃ rest, Remains path.toList rest ∧ FileOf root.toList rest (resolvePath root path).toList := by
  have hfile (rest : List Char) : FileOf root.toList rest (extendPath root.toList rest) :=
    ⟨extendPath_alone, fun hrest hroot => componentsOf_extendPath hroot hrest,
      beneath_extendPath_iff⟩
  simp only [resolvePath, String.toList_ofList]
  refine ⟨_, ?_, hfile _⟩
  cases h : dropBeginning? bucketScheme path.toList with
  | some rest =>
    rw [dropBeginning?_eq_some_iff.mp h, Option.getD_some]
    exact .bucket rest
  | none =>
    refine .plain fun ⟨rest, hrest⟩ => ?_
    rw [dropBeginning?_eq_some_iff.mpr hrest.symm] at h
    cases h

/-! ## The files in a query -/

namespace Sql

/-- The files that tokens name: the texts in the list after the function that reads them. -/
def Token.files (ts : List Token) : List String :=
  ((ts.dropWhile (· ≠ .word "read_parquet")).takeWhile (· ≠ .mark ']')).filterMap Token.text?

/-- The files named in the text of a query. -/
def namedFiles (sql : String) : List String := Token.files ((tokens? sql.toList).getD [])

theorem mem_separated {t : Token} {items : List (List Token)} (h : t ∈ separated items) :
    t = .mark ',' ∨ ∃ ts ∈ items, t ∈ ts := by
  induction items with
  | nil => cases h
  | cons ts items ih =>
    cases items with
    | nil =>
      rw [separated, List.intercalate_singleton] at h
      exact .inr ⟨ts, List.mem_singleton_self ts, h⟩
    | cons us items =>
      rw [separated, List.intercalate_cons_cons, List.append_assoc, List.mem_append,
        List.mem_append, List.mem_singleton] at h
      rcases h with h | h | h
      · exact .inr ⟨ts, List.mem_cons_self, h⟩
      · exact .inl h
      · obtain hmark | ⟨vs, hvs, ht⟩ := ih h
        · exact .inl hmark
        · exact .inr ⟨vs, List.mem_cons_of_mem _ hvs, ht⟩

/-- A column stands as a name, never as a word. -/
theorem ne_word_of_mem_columnTokens {columns : List String} {t : Token}
    (h : t ∈ columnTokens columns) (letters : String) : t ≠ .word letters := by
  rintro rfl
  unfold columnTokens at h
  split at h
  · cases List.mem_singleton.mp h
  · rcases mem_separated h with h | ⟨ts, hts, h⟩
    · cases h
    · obtain ⟨column, -, rfl⟩ := List.mem_map.mp hts
      cases List.mem_singleton.mp h

theorem files_of_split {before list : List Token} (after : List Token)
    (hbefore : ∀ t ∈ before, t ≠ .word "read_parquet") (hlist : ∀ t ∈ list, t ≠ .mark ']') :
    Token.files (before ++ .word "read_parquet" :: (list ++ .mark ']' :: after)) =
      list.filterMap Token.text? := by
  have hdrop : (before ++ .word "read_parquet" :: (list ++ .mark ']' :: after)).dropWhile
      (· ≠ .word "read_parquet") = .word "read_parquet" :: (list ++ .mark ']' :: after) := by
    rw [List.dropWhile_append_of_pos fun t ht => decide_eq_true (hbefore t ht)]
    rfl
  have htake : (list ++ .mark ']' :: after).takeWhile (· ≠ .mark ']') = list := by
    rw [List.takeWhile_append_of_pos fun t ht => decide_eq_true (hlist t ht),
      List.takeWhile_cons_of_neg (by simp), List.append_nil]
  rw [Token.files, hdrop, List.takeWhile_cons_of_pos (by decide), htake]
  rfl

theorem files_scanTokens (files columns : List String) (filters : List Filter) :
    Token.files (scanTokens files columns filters) = files := by
  have hbefore : ∀ t ∈ [.word "SELECT", .word "to_json", .mark '(', .word "batch", .mark ')',
      .mark ':', .mark ':', .word "VARCHAR", .word "FROM", .mark '(', .word "SELECT"] ++
      columnTokens columns ++ [.word "FROM"], t ≠ Token.word "read_parquet" := by
    simp only [List.forall_mem_append]
    exact ⟨⟨by decide, fun t ht => ne_word_of_mem_columnTokens ht _⟩, by decide⟩
  have hlist : ∀ t ∈ [.mark '(', .mark '['] ++ separated (files.map fun file => [.text file]),
      t ≠ Token.mark ']' := by
    rw [List.forall_mem_append]
    refine ⟨by decide, ?_⟩
    rintro t ht rfl
    rcases mem_separated ht with h | ⟨ts, hts, h⟩
    · cases h
    · obtain ⟨file, -, rfl⟩ := List.mem_map.mp hts
      cases List.mem_singleton.mp h
  have hsplit (after : List Token) := files_of_split after hbefore hlist
  simp only [scanTokens, List.append_assoc, List.cons_append, List.nil_append] at hsplit ⊢
  exact (hsplit _).trans (texts_files files)

theorem namedFiles_of_scanSql {files columns : List String} {filters : List Filter} {sql : String}
    (h : scanSql files columns filters = .ok sql) : namedFiles sql = files := by
  rw [namedFiles, tokens?_scan h, Option.getD_some, files_scanTokens]

end Sql

/-! ## Loads -/

/-- The queries that one load prepares. -/
def preparedBy (root : String) (paths columns : List String) (filters : List Filter)
    (e : Engine) : List String :=
  ((Engine.load root paths columns filters e).2.1.scans.drop e.scans.length).flatMap
    ScanTrace.prepared

theorem Connection.eq_of_mem_prepared {c : Connection} {files : Nat} {sql prepared : String}
    (h : prepared ∈ (c.scan files sql).2.prepared) : prepared = sql := by
  unfold scan at h
  split at h
  · cases h
  · exact List.mem_singleton.mp h

theorem Engine.scans_connect (e : Engine) : e.connect.2.scans = e.scans := by
  unfold connect
  split <;> rfl

theorem scanSql_of_prepared {root sql : String} {paths columns : List String}
    {filters : List Filter} {e : Engine} (h : sql ∈ preparedBy root paths columns filters e) :
    scanSql (paths.map (resolvePath root)) columns filters = .ok sql := by
  unfold preparedBy at h
  cases paths with
  | nil =>
    have hscans : (Engine.load root [] columns filters e).2.1.scans = e.scans := rfl
    rw [hscans, List.drop_length] at h
    cases h
  | cons path paths =>
    cases hsql : scanSql ((path :: paths).map (resolvePath root)) columns filters with
    | error cause =>
      rw [Engine.load_of_error hsql, List.drop_length] at h
      cases h
    | ok text =>
      rw [Engine.load_of_ok hsql] at h
      dsimp only at h
      rw [Engine.scans_connect, List.drop_left, List.flatMap_singleton] at h
      rw [Connection.eq_of_mem_prepared h]

/-- A query that a load prepares names one file for each path, in their order: what remains of the
path beneath the root, if it is relative. The file of an absolute one is not beneath the root,
unless it names the root again. -/
theorem loads_file_of_each_path {root sql : String} {paths columns : List String}
    {filters : List Filter} {e : Engine} (h : sql ∈ preparedBy root paths columns filters e) :
    List.Forall₂ (fun path file => ∃ rest, Remains path.toList rest ∧
      FileOf root.toList rest file.toList) paths (Sql.namedFiles sql) := by
  rw [Sql.namedFiles_of_scanSql (scanSql_of_prepared h), List.forall₂_map_right_iff]
  exact List.forall₂_same.mpr fun path _ => resolvePath_fileOf root path

/-- An engine that returns no rows. -/
def idleEngine : Engine := ⟨[], []⟩

/-- Only one scheme is taken off, and an absolute path may name the root itself. -/
theorem loads_file_of_each_path_of_two_schemes :
    ∃ sql ∈ preparedBy "/data" ["s3://s3://a", "/data/b"] [] [] idleEngine,
      List.Forall₂ (fun path file => ∃ rest, Remains path.toList rest ∧
        FileOf "/data".toList rest file.toList) ["s3://s3://a", "/data/b"] (Sql.namedFiles sql) ∧
      Sql.namedFiles sql = ["/data/s3://a", "/data/b"] := by
  obtain ⟨sql, hprepared⟩ : ∃ sql,
      preparedBy "/data" ["s3://s3://a", "/data/b"] [] [] idleEngine = [sql] := ⟨_, rfl⟩
  have hsql : sql ∈ preparedBy "/data" ["s3://s3://a", "/data/b"] [] [] idleEngine :=
    hprepared ▸ List.mem_singleton_self sql
  refine ⟨sql, hsql, loads_file_of_each_path hsql, ?_⟩
  rw [Sql.namedFiles_of_scanSql (scanSql_of_prepared hsql)]
  decide +kernel

/-- With a slash too many after the scheme the load reads outside of its root. -/
theorem slash_leaves_root :
    ∃ sql, preparedBy "/data" ["s3:///lake/hour=11/a.parquet"] [] [] idleEngine = [sql] ∧
      Sql.namedFiles sql = ["/lake/hour=11/a.parquet"] ∧
      ¬ Beneath "/data".toList "/lake/hour=11/a.parquet".toList := by
  obtain ⟨sql, hprepared⟩ : ∃ sql,
      preparedBy "/data" ["s3:///lake/hour=11/a.parquet"] [] [] idleEngine = [sql] := ⟨_, rfl⟩
  have hsql : sql ∈ preparedBy "/data" ["s3:///lake/hour=11/a.parquet"] [] [] idleEngine :=
    hprepared ▸ List.mem_singleton_self sql
  refine ⟨sql, hprepared, ?_, ?_⟩
  · rw [Sql.namedFiles_of_scanSql (scanSql_of_prepared hsql)]
    decide +kernel
  · unfold Beneath
    decide

end StopArrivals
