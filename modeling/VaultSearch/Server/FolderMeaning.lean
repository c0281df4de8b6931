/-
For which folders each filter means the folder or below.

A folder that is escaped as its clause needs is taken as it is; where a clause escapes too
little or too much, or compares in another case, folders with such characters go wrong.
-/

import VaultSearch.Server.FolderFilters

set_option autoImplicit false

namespace VaultSearch

/-! ### Rows -/

/-- A chunk of a note in a folder. -/
def chunkIn (folder : Text) : ChunkWithVector :=
  { notePath := [], noteTitle := [], folder, headers := [], tags := [], modifiedAt := []
    text := [], id := [], createdAt := [], updatedAt := [], description := [], status := []
    noteType := [], category := [], project := [], source := [], vector := [] }

/-- An unresolved wikilink of the note at a path. -/
def linkFrom (path : Text) : LinkRecord :=
  { fromNotePath := path, fromNoteTitle := [], linkType := .wikilink, linkTarget := []
    linkTargetNormalized := [], toNotePath := [], isResolved := false, aliasText := []
    heading := [], blockRef := [], context := [], modifiedAt := [] }

/-- A catalog row in a folder. -/
def rowIn (folder extension : Text) : CatalogRow :=
  { path := [], folder, extension, title := [], mtimeNs := 0, size := 0 }

/-! ### `search_by_folder` -/

theorem eq_strip_of_below {given : Text} (filled : given ≠ [])
    (below : Below given (Text.strip given)) : Text.strip given = given := by
  rcases below with root | same | ⟨rest, longer⟩
  · exact absurd root filled
  · exact same
  · have short := Text.strip_length_le given
    rw [← longer, List.length_append, List.length_append, List.length_singleton] at short
    omega

/-- The search by folder means its folder or below, if that has no whitespace around it. -/
theorem searchByFolder_correct_iff (given : Text) :
    searchByFolder.Correct given ↔ Text.isBlank given = true ∨ Text.strip given = given := by
  have reading := folderClause_reading (Text.strip given)
  have means_iff := @FolderFilter.meansBelow_iff _ searchByFolder given _ _ rfl reading.1 _
    List.mem_cons_self reading.2
  have holds_iff : ∀ row : ChunkWithVector,
      (folderPredicate (Text.strip given) (wildEscaped (Text.strip given) ++ "/%".toList)).holds
        Sql.exactLike row.columns = true ↔
      row.folder = Text.strip given ∨ Text.strip given ++ ['/'] <+: row.folder := by
    intro row
    rw [folderPredicate_holds _ _ _ (rfl : row.columns "folder".toList = some (.text row.folder)),
      exactLike_wildEscaped]
  constructor
  · intro correct
    cases blank : Text.isBlank given with
    | true => exact Or.inl rfl
    | false =>
        apply Or.inr
        have filled : given ≠ [] := by
          intro empty
          rw [empty] at blank
          cases blank
        have accepted : searchByFolder.accepts given = true := by
          change (!Text.isBlank given) = true
          rw [blank]
          rfl
        have same := means_iff.mp (correct accepted)
        have own := (holds_iff (chunkIn (Text.strip given))).mpr (Or.inl rfl)
        exact eq_strip_of_below filled ((same (chunkIn (Text.strip given))).mp own).2
  · intro condition accepted
    change (!Text.isBlank given) = true at accepted
    rcases condition with blank | stripped
    · rw [blank] at accepted
      cases accepted
    · have filled : given ≠ [] := by
        intro empty
        rw [empty] at accepted
        cases accepted
      apply means_iff.mpr
      intro row
      refine (holds_iff row).trans ?_
      rw [stripped]
      constructor
      · exact fun below => ⟨rfl, Or.inr below⟩
      · rintro ⟨_, root | below⟩
        · exact absurd root filled
        · exact below

/-! ### `graph_data` -/

theorem label_external (linkType : LinkType) :
    linkType.label = "external".toList ↔ linkType = .external := by
  cases linkType with
  | wikilink => decide
  | markdown => decide
  | embed => decide
  | external => decide

theorem differs_external (row : LinkRecord) :
    (Sql.Predicate.differs "link_type".toList (.text "external".toList)).holds Sql.exactLike
      row.columns = true ↔ row.linkType ≠ .external := by
  rw [Sql.Predicate.holds]
  change decide (Sql.Literal.text row.linkType.label ≠ .text "external".toList) = true ↔ _
  rw [decide_eq_true_iff, Ne, Sql.Literal.text.injEq, label_external]

theorem like_from (row : LinkRecord) (pattern : Text) :
    (Sql.Predicate.like "from_note_path".toList pattern '\\').holds Sql.exactLike
      row.columns = Sql.exactLike '\\' pattern row.fromNotePath := rfl

/-- The graph means its folder or below, if that has no special character. -/
theorem graphData_correct_iff (given : Text) :
    graphData.Correct given ↔ given = [] ∨ ∀ char ∈ given, Sql.isSpecial char = false := by
  by_cases filled : given = []
  · apply iff_of_true _ (Or.inl filled)
    intro _accepted
    rw [filled]
    have means_iff := @FolderFilter.meansBelow_iff _ graphData [] _ _ rfl
      (rfl : _ = some (Sql.Predicate.differs "link_type".toList (.text "external".toList))) _
      List.mem_cons_self (rfl : _ = some ["link_type != ".toList, []])
    apply means_iff.mpr
    intro row
    refine (differs_external row).trans ?_
    change _ ↔ decide (row.linkType ≠ .external) = true ∧ Below [] _
    rw [decide_eq_true_iff]
    exact (and_iff_left (Or.inl rfl)).symm
  · have reading := graphClause_reading filled
    have means_iff := @FolderFilter.meansBelow_iff _ graphData given _ _ rfl reading.1 _
      (List.mem_cons_of_mem _ List.mem_cons_self) reading.2
    have correct_iff : graphData.Correct given ↔ ∀ row : LinkRecord,
        (row.linkType ≠ .external ∧
            Sql.exactLike '\\' (given ++ "/%".toList) row.fromNotePath = true ↔
          row.linkType ≠ .external ∧ given ++ ['/'] <+: row.fromNotePath) := by
      refine Iff.trans ⟨fun correct => correct rfl, fun means _accepted => means⟩
        (means_iff.trans (forall_congr' (fun row => ?_)))
      rw [Sql.Predicate.holds_both]
      change ((Sql.Predicate.differs _ _).holds Sql.exactLike row.columns = true ∧ _ ↔
        decide (row.linkType ≠ .external) = true ∧ Below given (parentText row.fromNotePath)) ↔ _
      rw [differs_external, below_parentText filled, decide_eq_true_iff]
      rfl
    rw [correct_iff, or_iff_right filled]
    constructor
    · intro same
      apply Sql.plain_of_below
      intro text holds
      exact Or.inr ((same (linkFrom text)).mp ⟨LinkType.noConfusion, holds⟩).2
    · intro plain row
      rw [Sql.exactLike_plain plain]

/-! ### `find_broken_links` -/

theorem count_solid (text : Text) : (Text.solid text).count '\'' = text.count '\'' :=
  List.count_filter rfl

theorem count_strip (text : Text) : (Text.strip text).count '\'' = text.count '\'' := by
  rw [← count_solid, Text.solid_strip, count_solid]

theorem eq_of_prefixes {left right : Text} (first : left <+: right) (second : right <+: left) :
    left = right :=
  first.eq_of_length (Nat.le_antisymm first.length_le second.length_le)

/-- The broken links mean their folder or below, if that has no quote and no whitespace
around it. -/
theorem findBrokenLinks_correct_iff (given : Text) :
    findBrokenLinks.Correct given ↔ findBrokenLinks.accepts given = false ∨ given = [] ∨
      (Text.strip given = given ∧ '\'' ∉ given) := by
  by_cases accepted : findBrokenLinks.accepts given = true
  swap
  · have refused : findBrokenLinks.accepts given = false := by
      rw [Bool.not_eq_true] at accepted
      exact accepted
    exact iff_of_true (fun impossible => absurd impossible accepted) (Or.inl refused)
  have correct_iff : findBrokenLinks.Correct given ↔ findBrokenLinks.MeansBelow given :=
    ⟨fun correct => correct accepted, fun means _accepted => means⟩
  have notRefused : ¬ findBrokenLinks.accepts given = false := by
    rw [accepted]
    decide
  rw [correct_iff, or_iff_right notRefused]
  have others_iff : ∀ row : LinkRecord, findBrokenLinks.others row = true ↔
      row.isResolved = false ∧ row.linkType ≠ .external := by
    intro row
    change (!row.isResolved && decide (row.linkType ≠ .external)) = true ↔ _
    rw [Bool.and_eq_true, Bool.not_eq_true', decide_eq_true_iff]
  have broken_iff : ∀ row : LinkRecord, (Sql.Predicate.equals "is_resolved".toList
      (.bool false)).holds Sql.exactLike row.columns = true ↔ row.isResolved = false := by
    intro row
    rw [Sql.Predicate.holds]
    change decide (some (Sql.Literal.bool row.isResolved) = some (.bool false)) = true ↔ _
    rw [decide_eq_true_iff, Option.some.injEq, Sql.Literal.bool.injEq]
  by_cases blank : Text.strip given = []
  · have isClause : findBrokenLinks.clause given = some (brokenClause []) := by
      change some (brokenClause (Text.strip given)) = _
      rw [blank]
    have means_iff := @FolderFilter.meansBelow_iff _ findBrokenLinks given _ _ isClause
      (rfl : _ = some (Sql.Predicate.both (.equals "is_resolved".toList (.bool false))
        (.differs "link_type".toList (.text "external".toList)))) _
      List.mem_cons_self
      (rfl : _ = some ["is_resolved = false AND link_type != ".toList, []])
    rw [means_iff, blank]
    constructor
    · intro same
      have everywhere := (same (linkFrom ['x'])).mp rfl
      apply Or.inl
      rcases everywhere.2 with root | equal | ⟨rest, below⟩
      · exact root
      · exact equal.symm
      · exact absurd below (by
          change given ++ ['/'] ++ rest ≠ []
          simp)
    · rintro (root | ⟨stripped, _free⟩)
      · intro row
        rw [others_iff, Sql.Predicate.holds_both]
        change ((Sql.Predicate.equals _ _).holds Sql.exactLike row.columns = true ∧
          (Sql.Predicate.differs _ _).holds Sql.exactLike row.columns = true ↔ _)
        rw [broken_iff, differs_external]
        exact (and_iff_left (Or.inl root)).symm
      · intro row
        rw [others_iff, Sql.Predicate.holds_both]
        change ((Sql.Predicate.equals _ _).holds Sql.exactLike row.columns = true ∧
          (Sql.Predicate.differs _ _).holds Sql.exactLike row.columns = true ↔ _)
        rw [broken_iff, differs_external]
        exact (and_iff_left (Or.inl stripped.symm)).symm
  · have filled : given ≠ [] := by
      intro empty
      apply blank
      rw [empty]
      rfl
    have reading := brokenClause_reading blank
    have means_iff := @FolderFilter.meansBelow_iff _ findBrokenLinks given _ _ rfl reading.1 _
      (List.mem_cons_of_mem _ List.mem_cons_self) reading.2
    have meaning : findBrokenLinks.MeansBelow given ↔ ∀ row : LinkRecord,
        (row.isResolved = false ∧ row.linkType ≠ .external ∧
            Sql.escape (Text.strip given) ++ ['/'] <+: row.fromNotePath ↔
          (row.isResolved = false ∧ row.linkType ≠ .external) ∧
            given ++ ['/'] <+: row.fromNotePath) := by
      refine means_iff.trans (forall_congr' (fun row => ?_))
      rw [Sql.Predicate.holds_both, Sql.Predicate.holds_both]
      change ((Sql.Predicate.equals _ _).holds Sql.exactLike row.columns = true ∧
        (Sql.Predicate.differs _ _).holds Sql.exactLike row.columns = true ∧
        (Sql.Predicate.like _ _ _).holds Sql.exactLike row.columns = true ↔
        _ ∧ Below given (parentText row.fromNotePath)) ↔ _
      rw [broken_iff, differs_external, like_from, exactLike_escapeLikePattern, others_iff,
        below_parentText filled]
    rw [meaning, or_iff_right filled]
    constructor
    · intro same
      have first := ((same (linkFrom (Sql.escape (Text.strip given) ++ ['/']))).mp
        ⟨rfl, LinkType.noConfusion, List.prefix_rfl⟩).2
      have second := ((same (linkFrom (given ++ ['/']))).mpr
        ⟨⟨rfl, LinkType.noConfusion⟩, List.prefix_rfl⟩).2.2
      have equal : Sql.escape (Text.strip given) = given :=
        List.append_cancel_right (eq_of_prefixes second first)
      -- the quotes of the folder are counted twice in the pattern
      have counts := congrArg (List.count '\'') equal
      rw [Sql.count_escape, count_strip] at counts
      have free : '\'' ∉ given := List.count_eq_zero.mp (by omega)
      have freeStrip : '\'' ∉ Text.strip given := by
        rw [← List.count_eq_zero, count_strip, List.count_eq_zero]
        exact free
      rw [Sql.escape_of_free freeStrip] at equal
      exact ⟨equal, free⟩
    · rintro ⟨stripped, free⟩ row
      rw [stripped, Sql.escape_of_free free, and_assoc]

/-! ### `tag_stats` -/

theorem tagClause_reading {folder : Text} (free : '\'' ∉ folder) :
    Sql.predicateOf (tagClause folder) [] =
        some (folderPredicate folder (folder ++ "/%".toList)) ∧
      Sql.codeOf (tagClause folder) = some ["folder = ".toList, " OR folder LIKE ".toList, []] := by
  have shape : tagClause folder = Sql.assemble [("folder = ".toList, folder),
      (" OR folder LIKE ".toList, folder ++ "/%".toList)] [] := by
    have slash : Sql.escape "/%".toList = "/%".toList := rfl
    unfold tagClause
    simp only [Sql.assemble, Sql.escape_append, slash, Sql.escape_of_free free]
    simp
  have codes : ∀ pair ∈ [(" OR folder LIKE ".toList, folder ++ "/%".toList)],
      pair.1 ≠ [] := by simp
  have codesFree : ∀ pair ∈ [(" OR folder LIKE ".toList, folder ++ "/%".toList)],
      '\'' ∉ pair.1 := by simp
  constructor
  · unfold Sql.predicateOf
    rw [shape, Sql.partsOf_assemble (by decide) codes codesFree (by decide)]
    rfl
  · rw [shape, Sql.codeOf_assemble (by decide) codes codesFree (by decide)]
    rfl

/-- However the folder is spelled, a clause with the right code is read as the two comparisons
with some data, the first of which stands escaped behind the first quote. -/
theorem tagClause_data {folder : Text}
    (isCode : Sql.codeOf (tagClause folder) =
      some ["folder = ".toList, " OR folder LIKE ".toList, []]) :
    ∃ first second rest,
      Sql.predicateOf (tagClause folder) [] = some (folderPredicate first second) ∧
      folder ++ "' OR folder LIKE '".toList ++ folder ++ "/%'".toList =
        Sql.escape first ++ '\'' :: rest := by
  obtain ⟨parts, isParts, codes⟩ := Option.map_eq_some_iff.mp isCode
  obtain ⟨pairs, last, assembled⟩ := (Sql.parts_alternate _).1 isParts
  rw [assembled, Sql.codeTexts_assembledParts] at codes
  have shape : ∃ first second, pairs = [("folder = ".toList, first),
      (" OR folder LIKE ".toList, second)] ∧ last = [] := by
    rcases pairs with _ | ⟨⟨one, first⟩, _ | ⟨⟨two, second⟩, _ | ⟨three, more⟩⟩⟩
    · cases codes
    · cases codes
    · simp only [List.map_cons, List.map_nil, List.cons_append, List.nil_append, List.cons.injEq,
        and_true] at codes
      exact ⟨first, second, by rw [codes.1, codes.2.1], codes.2.2⟩
    · have lengths := congrArg List.length codes
      simp at lengths
  obtain ⟨first, second, isPairs, isLast⟩ := shape
  rw [assembled, isPairs, isLast] at isParts
  have reads : Sql.predicateOf (tagClause folder) [] = some (folderPredicate first second) := by
    unfold Sql.predicateOf
    rw [isParts]
    rfl
  have split : tagClause folder = "folder = ".toList ++ '\'' ::
      (folder ++ "' OR folder LIKE '".toList ++ folder ++ "/%'".toList) := by
    unfold tagClause
    simp
  have scanned := isParts
  unfold Sql.partsOf at scanned
  rw [split, Sql.parts_code (by decide), Sql.parts_code_cons, if_pos rfl] at scanned
  obtain ⟨later, isLater, same⟩ := Option.map_eq_some_iff.mp scanned
  obtain ⟨value, rest, others, stands, isData, _ends⟩ := Sql.parts_quoted_inv isLater
  rw [isData] at same
  have sameData := (List.cons.inj (List.cons.inj same).2).1
  have isFirst : value = first := Sql.Part.data.inj sameData
  rw [isFirst] at stands
  exact ⟨first, second, rest, reads, stands⟩

theorem solid_escape (text : Text) : Text.solid (Sql.escape text) = Sql.escape (Text.solid text) := by
  induction text with
  | nil => rfl
  | cons head tail ih =>
      rw [Sql.escape_cons, Text.solid_append, ih]
      by_cases quote : head = '\''
      · rw [quote]
        rfl
      · by_cases space : Text.isSpace head = true
        · have here : Text.solid [head] = [] := by simp [Text.solid, space]
          have whole : Text.solid (head :: tail) = Text.solid tail := by simp [Text.solid, space]
          rw [if_neg quote, here, whole]
          rfl
        · have here : Text.solid [head] = [head] := by simp [Text.solid, space]
          have whole : Text.solid (head :: tail) = head :: Text.solid tail := by
            simp [Text.solid, space]
          rw [if_neg quote, here, whole, Sql.escape_cons, if_neg quote]

/-- A stripped folder that stands unescaped is read back as the given folder only if it is the
given one and has no quote. -/
theorem free_of_read {given rest : Text}
    (stands : Text.strip given ++ "' OR folder LIKE '".toList ++ Text.strip given ++
      "/%'".toList = Sql.escape given ++ '\'' :: rest) :
    Text.strip given = given ∧ '\'' ∉ given := by
  have longer : (Text.strip given).length ≤ (Sql.escape given).length := by
    rw [Sql.length_escape]
    exact (Text.strip_length_le given).trans (Nat.le_add_right _ _)
  rw [List.append_assoc, List.append_assoc] at stands
  obtain ⟨extra, isEscape, isRest⟩ : ∃ extra, Sql.escape given = Text.strip given ++ extra ∧
      "' OR folder LIKE '".toList ++ (Text.strip given ++ "/%'".toList) =
        extra ++ '\'' :: rest := by
    rcases List.append_eq_append_iff.mp stands with ⟨more, first, second⟩ | ⟨more, first, second⟩
    · exact ⟨more, first, second⟩
    · have none : more = [] := by
        have lengths := congrArg List.length first
        rw [List.length_append] at lengths
        exact List.eq_nil_of_length_eq_zero (by omega)
      rw [none, List.append_nil] at first
      rw [none, List.nil_append] at second
      exact ⟨[], by rw [List.append_nil]; exact first.symm, second.symm⟩
  -- what is more than the folder has as many solid characters as the folder has quotes
  have solidExtra : (Text.solid extra).length = given.count '\'' := by
    have solids := congrArg (fun text => (Text.solid text).length) isEscape
    simp only [solid_escape, Text.solid_append, Text.solid_strip, Sql.length_escape, count_solid,
      List.length_append] at solids
    omega
  have quotesExtra : (Text.solid extra).count '\'' = given.count '\'' := by
    have counts := congrArg (List.count '\'') isEscape
    rw [Sql.count_escape, List.count_append, count_strip] at counts
    rw [count_solid]
    omega
  have allQuotes : ∀ char ∈ extra, Text.isSpace char = false → char = '\'' := by
    intro char member solid
    have inSolid : char ∈ Text.solid extra := by
      unfold Text.solid
      rw [List.mem_filter, solid]
      exact ⟨member, rfl⟩
    exact (List.count_eq_length.mp (quotesExtra.trans solidExtra.symm) char inSolid).symm
  cases extra with
  | nil =>
      have none : given.count '\'' = 0 := solidExtra.symm
      have free : '\'' ∉ given := List.count_eq_zero.mp none
      rw [Sql.escape_of_free free, List.append_nil] at isEscape
      exact ⟨isEscape.symm, free⟩
  | cons first more =>
      exfalso
      cases more with
      | nil => simp at isRest
      | cons second others =>
          cases others with
          | nil => simp at isRest
          | cons third later =>
              have isThird : 'O' = third := by
                have tail := (List.cons.inj (List.cons.inj (List.cons.inj isRest).2).2).1
                exact tail
              have quote := allQuotes third
                (List.mem_cons_of_mem _ (List.mem_cons_of_mem _ List.mem_cons_self))
                (by rw [← isThird]; decide)
              rw [← isThird] at quote
              exact absurd quote (by decide)

/-- The tag statistics mean their folder or below, if that has neither quotes nor special
characters and no whitespace around it. -/
theorem tagStats_correct_iff (given : Text) :
    tagStats.Correct given ↔ given = [] ∨ (Text.strip given = given ∧ '\'' ∉ given ∧
      ∀ char ∈ given, Sql.isSpecial char = false) := by
  have correct_iff : tagStats.Correct given ↔ tagStats.MeansBelow given :=
    ⟨fun correct => correct rfl, fun means _accepted => means⟩
  rw [correct_iff]
  by_cases blank : Text.strip given = []
  · have noClause : tagStats.clause given = none := by
      change (if (Text.strip given).isEmpty then none else _) = none
      rw [blank]
      rfl
    have takes : ∀ row, tagStats.Takes given row := by
      intro row clause isClause
      rw [noClause] at isClause
      cases isClause
    constructor
    · intro means
      have everywhere := (means.takes_iff (chunkIn ['x'])).mp (takes _)
      apply Or.inl
      rcases everywhere.2 with root | same | below
      · exact root
      · have stripped : Text.strip given = given := by
          rw [← same]
          rfl
        rw [← stripped]
        exact blank
      · have short := below.length_le
        rw [List.length_append, List.length_singleton] at short
        exact List.eq_nil_of_length_eq_zero (Nat.le_zero.mp (Nat.le_of_succ_le_succ short))
    · intro condition
      have root : given = [] := by
        rcases condition with root | ⟨stripped, _plain⟩
        · exact root
        · rw [← stripped]
          exact blank
      constructor
      · intro clause isClause
        rw [noClause] at isClause
        cases isClause
      · exact fun row => iff_of_true (takes row) ⟨rfl, Or.inl root⟩
  · have filled : given ≠ [] := by
      intro empty
      apply blank
      rw [empty]
      rfl
    have isClause : tagStats.clause given = some (tagClause (Text.strip given)) :=
      if_neg (fun empty => blank (List.isEmpty_iff.mp empty))
    have below_iff : ∀ text, Below given text ↔ text = given ∨ given ++ ['/'] <+: text :=
      fun text => or_iff_right filled
    rw [or_iff_right filled]
    constructor
    · intro means
      obtain ⟨_reads, code, known, isCode⟩ := means.wellFormed _ isClause
      rw [List.mem_singleton.mp known] at isCode
      obtain ⟨first, second, rest, reads, stands⟩ := tagClause_data isCode
      have taken : ∀ text, text = first ∨ Sql.exactLike '\\' second text = true ↔
          text = given ∨ given ++ ['/'] <+: text := by
        intro text
        have asked := folderPredicate_holds first second Sql.exactLike
          (rfl : (chunkIn text).columns "folder".toList = some (.text text))
        have takes := FolderFilter.takes_iff_holds isClause reads (chunkIn text)
        have meant := (means.takes_iff (chunkIn text)).trans (and_iff_right rfl)
        exact (asked.symm.trans takes.symm).trans (meant.trans (below_iff text))
      rw [Sql.eq_of_below taken] at stands
      obtain ⟨stripped, free⟩ := free_of_read stands
      refine ⟨stripped, free, ?_⟩
      rw [stripped, (tagClause_reading free).1] at reads
      have sameSecond : given ++ "/%".toList = second :=
        (Sql.Predicate.like.inj (Sql.Predicate.either.inj (Option.some.inj reads)).2).2.1
      rw [← sameSecond] at taken
      exact Sql.plain_of_below (fun text holds => (taken text).mp (Or.inr holds))
    · rintro ⟨stripped, free, plain⟩
      rw [stripped] at isClause
      have reading := tagClause_reading free
      have means_iff := @FolderFilter.meansBelow_iff _ tagStats given _ _ isClause reading.1 _
        List.mem_cons_self reading.2
      apply means_iff.mpr
      intro row
      have asked := folderPredicate_holds given (given ++ "/%".toList) Sql.exactLike
        (rfl : row.columns "folder".toList = some (.text row.folder))
      rw [Sql.exactLike_plain plain, ← below_iff] at asked
      exact asked.trans (and_iff_right rfl).symm

/-! ### `NotesCatalog.list_notes` -/

theorem catalogFolder_reading (folder pattern : Text) :
    Sql.predicateOf "(folder = ? OR folder LIKE ? ESCAPE '\\')".toList [folder, pattern] =
      some (folderPredicate folder pattern) := rfl

theorem catalogBoth_reading (folder pattern extension : Text) :
    Sql.predicateOf "(folder = ? OR folder LIKE ? ESCAPE '\\') AND extension = ?".toList
        [folder, pattern, extension] =
      some (.both (folderPredicate folder pattern)
        (.equals "extension".toList (.text extension))) := rfl

theorem equals_extension (row : CatalogRow) (extension : Text) :
    (Sql.Predicate.equals "extension".toList (.text extension)).holds Sql.like row.columns = true ↔
      row.extension = extension := by
  rw [Sql.Predicate.holds]
  change decide (some (Sql.Literal.text row.extension) = some (.text extension)) = true ↔ _
  rw [decide_eq_true_iff, Option.some.injEq, Sql.Literal.text.injEq]

theorem folderCondition_iff (folder rowFolder : Text) :
    folderCondition folder rowFolder = true ↔
      rowFolder = folder ∨
        Sql.like '\\' (escapeLikePattern folder ++ "/%".toList) rowFolder = true := by
  unfold folderCondition
  rw [Bool.or_eq_true, decide_eq_true_iff]

/-- The text of the query and its parameters say what the listing of the catalog selects. -/
theorem catalog_meansBelow_iff (env : Env) (extension : Option Text) (folder : Text) :
    (catalogFilter env extension).MeansBelow folder ↔ ∀ row : CatalogRow,
      (rowSelected env (some folder) extension row = true ↔
        (catalogFilter env extension).others row = true ∧ Below folder row.folder) := by
  have others_iff : ∀ row : CatalogRow, (catalogFilter env extension).others row = true ↔
      (given extension).all (fun wanted => row.extension = dottedExtension env wanted) = true :=
    fun row => Iff.rfl
  cases folder with
  | nil =>
      cases wanted : given extension with
      | none =>
          have noClause : (catalogFilter env extension).clause [] = none := by
            unfold catalogFilter catalogConditions
            rw [wanted]
            rfl
          have everything : ∀ row : CatalogRow,
              rowSelected env (some []) extension row = true := by
            intro row
            unfold rowSelected
            rw [wanted]
            rfl
          constructor
          · intro _means row
            rw [others_iff, wanted]
            exact iff_of_true (everything row) ⟨rfl, Or.inl rfl⟩
          · intro _same
            constructor
            · intro clause isClause
              rw [noClause] at isClause
              cases isClause
            · intro row
              rw [others_iff, wanted]
              apply iff_of_true _ ⟨rfl, Or.inl rfl⟩
              intro clause isClause
              rw [noClause] at isClause
              cases isClause
      | some asked =>
          have isClause : (catalogFilter env extension).clause [] =
              some "extension = ?".toList := by
            unfold catalogFilter catalogConditions
            rw [wanted]
            rfl
          have reads : (catalogFilter env extension).predicate [] "extension = ?".toList =
              some (.equals "extension".toList (.text (dottedExtension env asked))) := by
            unfold FolderFilter.predicate catalogFilter catalogParameters
            rw [wanted]
            rfl
          refine (FolderFilter.meansBelow_iff isClause reads
            (List.mem_cons_of_mem _ (List.mem_cons_of_mem _ List.mem_cons_self)) rfl).trans
            (forall_congr' (fun row => ?_))
          refine iff_congr ((equals_extension row _).trans ?_) Iff.rfl
          unfold rowSelected
          rw [wanted]
          simp [given]
  | cons head tail =>
      have filled : given (some (head :: tail)) = some (head :: tail) := rfl
      cases wanted : given extension with
      | none =>
          have isClause : (catalogFilter env extension).clause (head :: tail) =
              some "(folder = ? OR folder LIKE ? ESCAPE '\\')".toList := by
            unfold catalogFilter catalogConditions
            rw [wanted]
            rfl
          have reads : (catalogFilter env extension).predicate (head :: tail)
              "(folder = ? OR folder LIKE ? ESCAPE '\\')".toList =
                some (folderPredicate (head :: tail)
                  (escapeLikePattern (head :: tail) ++ "/%".toList)) := by
            unfold FolderFilter.predicate catalogFilter catalogParameters
            rw [wanted]
            exact catalogFolder_reading _ _
          refine (FolderFilter.meansBelow_iff isClause reads List.mem_cons_self rfl).trans
            (forall_congr' (fun row => ?_))
          refine iff_congr ((folderPredicate_holds _ _ _
            (rfl : row.columns "folder".toList = some (.text row.folder))).trans ?_) Iff.rfl
          unfold rowSelected
          rw [wanted, filled, Option.all_some, Option.all_none, Bool.and_true, folderCondition_iff]
          rfl
      | some asked =>
          have isClause : (catalogFilter env extension).clause (head :: tail) =
              some "(folder = ? OR folder LIKE ? ESCAPE '\\') AND extension = ?".toList := by
            unfold catalogFilter catalogConditions
            rw [wanted]
            rfl
          have reads : (catalogFilter env extension).predicate (head :: tail)
              "(folder = ? OR folder LIKE ? ESCAPE '\\') AND extension = ?".toList =
                some (.both (folderPredicate (head :: tail)
                  (escapeLikePattern (head :: tail) ++ "/%".toList))
                  (.equals "extension".toList (.text (dottedExtension env asked)))) := by
            unfold FolderFilter.predicate catalogFilter catalogParameters
            rw [wanted]
            exact catalogBoth_reading _ _ _
          refine (FolderFilter.meansBelow_iff isClause reads
            (List.mem_cons_of_mem _ List.mem_cons_self) rfl).trans
            (forall_congr' (fun row => ?_))
          refine iff_congr ?_ Iff.rfl
          refine (Sql.Predicate.holds_both _ _ _ _).trans ?_
          refine (and_congr (folderPredicate_holds _ _ _
            (rfl : row.columns "folder".toList = some (.text row.folder)))
            (equals_extension row _)).trans ?_
          unfold rowSelected
          rw [wanted, filled, Option.all_some, Option.all_some, Bool.and_eq_true,
            folderCondition_iff, decide_eq_true_iff]
          rfl

/-- The listing means its folder or below, if that has neither quotes nor letters. -/
theorem catalogFilter_correct_iff (env : Env) (extension : Option Text) (folder : Text) :
    (catalogFilter env extension).Correct folder ↔
      folder = [] ∨ ∀ char ∈ folder, char ≠ '\'' ∧ char.isAlpha = false := by
  have correct_iff : (catalogFilter env extension).Correct folder ↔
      (catalogFilter env extension).MeansBelow folder :=
    ⟨fun correct => correct rfl, fun means _accepted => means⟩
  rw [correct_iff, catalog_meansBelow_iff]
  by_cases empty : folder = []
  · apply iff_of_true _ (Or.inl empty)
    intro row
    rw [empty]
    unfold rowSelected
    exact ⟨fun selected => ⟨selected, Or.inl rfl⟩, fun both => both.1⟩
  · have isGiven : given (some folder) = some folder := by
      cases folder with
      | nil => exact absurd rfl empty
      | cons head tail => rfl
    have selected_iff : ∀ row : CatalogRow, (rowSelected env (some folder) extension row = true ↔
        (row.folder = folder ∨ ∃ front back, row.folder = front ++ '/' :: back ∧
          Sql.sameFolded front (likeFolder folder)) ∧
        (catalogFilter env extension).others row = true) := by
      intro row
      unfold rowSelected
      rw [isGiven, Option.all_some, Bool.and_eq_true, folderCondition_iff, like_folder_iff]
      rfl
    have meaning : (∀ row : CatalogRow, (rowSelected env (some folder) extension row = true ↔
        (catalogFilter env extension).others row = true ∧ Below folder row.folder)) ↔
        ∀ text, ((text = folder ∨ ∃ front back, text = front ++ '/' :: back ∧
          Sql.sameFolded front (likeFolder folder)) ↔
            text = folder ∨ folder ++ ['/'] <+: text) := by
      have below_iff : ∀ text, Below folder text ↔ text = folder ∨ folder ++ ['/'] <+: text :=
        fun text => or_iff_right empty
      constructor
      · intro same text
        let wanted := ((given extension).map (dottedExtension env)).getD []
        have others : (catalogFilter env extension).others (rowIn text wanted) = true := by
          change (given extension).all (fun asked => wanted = dottedExtension env asked) = true
          cases isAsked : given extension with
          | none => rfl
          | some asked =>
              have isWanted : wanted = dottedExtension env asked := by
                change ((given extension).map (dottedExtension env)).getD [] = _
                rw [isAsked]
                rfl
              exact decide_eq_true isWanted
        have atRow := same (rowIn text wanted)
        rw [selected_iff, and_iff_left others, and_iff_right others, below_iff] at atRow
        exact atRow
      · intro same row
        rw [selected_iff, below_iff, ← same row.folder]
        exact and_comm
    rw [meaning, or_iff_right empty]
    constructor
    · intro same
      have free : '\'' ∉ folder := by
        rcases (same (folder ++ ['/'])).mpr (Or.inr List.prefix_rfl) with equal | taken
        · have lengths := congrArg List.length equal
          rw [List.length_append, List.length_singleton] at lengths
          omega
        · obtain ⟨front, back, split, folded⟩ := taken
          have lengths := congrArg List.length split
          have foldedLengths := congrArg List.length folded
          rw [List.length_map, List.length_map] at foldedLengths
          have escaped := Sql.length_escape folder
          change (likeFolder folder).length = _ at escaped
          simp only [List.length_append, List.length_cons, List.length_nil] at lengths
          exact List.count_eq_zero.mp (by omega)
      have unescaped : likeFolder folder = folder := Sql.escape_of_free free
      rw [unescaped] at same
      intro char member
      refine ⟨fun quote => free (quote ▸ member), ?_⟩
      by_contra letter
      rw [Bool.not_eq_false] at letter
      obtain ⟨other, apart, sameLower⟩ := Text.exists_other_case letter
      obtain ⟨before, after, split⟩ := List.append_of_mem member
      -- the folder with one letter in its other case
      have folded : Sql.sameFolded (before ++ other :: after) folder := by
        unfold Sql.sameFolded
        rw [split, List.map_append, List.map_append, List.map_cons, List.map_cons, sameLower]
      have taken := (same (before ++ other :: after ++ ['/'])).mp
        (Or.inr ⟨before ++ other :: after, [], rfl, folded⟩)
      have sameLength : (before ++ other :: after ++ ['/']).length = (folder ++ ['/']).length := by
        rw [split]
        simp
      rcases taken with equal | below
      · rw [equal, List.length_append, List.length_singleton] at sameLength
        omega
      · have equal := List.append_cancel_right (below.eq_of_length sameLength.symm)
        rw [split] at equal
        exact apart (List.cons.inj (List.append_cancel_left equal)).1.symm
    · intro plain text
      have free : '\'' ∉ folder := fun member => (plain _ member).1 rfl
      have unescaped : likeFolder folder = folder := Sql.escape_of_free free
      have folded_iff : ∀ front : Text, Sql.sameFolded front folder ↔ front = folder :=
        fun front => Sql.sameFolded_iff (fun char member => (plain char member).2)
      rw [unescaped]
      apply or_congr_right
      constructor
      · rintro ⟨front, back, split, folded⟩
        rw [(folded_iff front).mp folded] at split
        exact ⟨back, by rw [split]; simp⟩
      · rintro ⟨back, split⟩
        exact ⟨folder, back, by rw [← split]; simp, (folded_iff folder).mpr rfl⟩

/-! ### All filters -/

/-- Each filter is correct for exactly the folders that its clause spells as it should. -/
theorem folderFilters_correct_iff (env : Env) (extension : Option Text) (folder : Text) :
    (searchByFolder.Correct folder ↔
      Text.isBlank folder = true ∨ Text.strip folder = folder) ∧
    ((catalogFilter env extension).Correct folder ↔
      folder = [] ∨ ∀ char ∈ folder, char ≠ '\'' ∧ char.isAlpha = false) ∧
    (findBrokenLinks.Correct folder ↔ findBrokenLinks.accepts folder = false ∨ folder = [] ∨
      (Text.strip folder = folder ∧ '\'' ∉ folder)) ∧
    (graphData.Correct folder ↔ folder = [] ∨ ∀ char ∈ folder, Sql.isSpecial char = false) ∧
    (tagStats.Correct folder ↔ folder = [] ∨ (Text.strip folder = folder ∧ '\'' ∉ folder ∧
      ∀ char ∈ folder, Sql.isSpecial char = false)) :=
  ⟨searchByFolder_correct_iff folder, catalogFilter_correct_iff env extension folder,
    findBrokenLinks_correct_iff folder, graphData_correct_iff folder,
    tagStats_correct_iff folder⟩

/-- A quote, an underscore and a letter are enough to lead four of the filters astray. -/
theorem folderFilters_astray :
    ¬ (catalogFilter Env.plain none).Correct "projects".toList ∧
    ¬ findBrokenLinks.Correct "it's".toList ∧ ¬ graphData.Correct "my_notes".toList ∧
    ¬ tagStats.Correct "it's".toList := by
  refine ⟨?_, ?_, ?_, ?_⟩
  · rw [catalogFilter_correct_iff]
    rintro (empty | plain)
    · cases empty
    · exact absurd (plain 'p' (by simp)).2 (by decide)
  · rw [findBrokenLinks_correct_iff]
    rintro (refused | empty | ⟨_stripped, free⟩)
    · revert refused
      decide
    · cases empty
    · exact free (by simp)
  · rw [graphData_correct_iff]
    rintro (empty | plain)
    · cases empty
    · exact absurd (plain '_' (by simp)) (by decide)
  · rw [tagStats_correct_iff]
    rintro (empty | ⟨_stripped, free, _plain⟩)
    · cases empty
    · exact free (by simp)

end VaultSearch
