/-
`search_advanced` of `core/searcher.py` and its tool of `server/search_tools.py`: a search by
vector under a conjunction of filters.

Whatever the filters contain, the text of the conjunction is read as these filters alone, so
every result is a chunk that meets all of them and has none of the excluded terms.
-/

import VaultSearch.Core.DateFilter
import VaultSearch.Server.BridgeNotes
import VaultSearch.Server.Searches

set_option autoImplicit false

namespace VaultSearch

/-- The filters of `search_advanced`; what is `None` or empty asks for nothing. -/
structure AdvancedFilters where
  tags : List Text := []
  folder : Option Text := none
  extension : Option Text := none
  dateRange : Option DateRange := none
  status : Option Text := none
  noteType : Option Text := none
  category : Option Text := none
  project : Option Text := none

/-- Case tables, digits, and what `now - timedelta(days=days)` prints, without quotes. -/
structure SearchClock where
  env : Env
  tables : DigitTables
  /-- what `re.IGNORECASE` does not tell apart -/
  fold : Char → Char
  cutoff : Nat → Text
  cutoff_plain : ∀ days, '\'' ∉ cutoff days

section Code

variable (clock : SearchClock)

/-- `"tags LIKE '%{escaped_tag}%'"` -/
def likeInside (column value : Text) : Text :=
  column ++ " LIKE '%".toList ++ escapeLikePattern value ++ "%'".toList

def likeEnding (column value : Text) : Text :=
  column ++ " LIKE '%".toList ++ escapeLikePattern value ++ "'".toList

def equalTo (column value : Text) : Text :=
  column ++ " = '".toList ++ escapeSqlString value ++ "'".toList

/-- `value.lower().strip()` -/
def plainValue (value : Text) : Text :=
  Text.strip (clock.env.lower value)

/-- The list `conditions`. -/
def advancedConditions (filters : AdvancedFilters) : List Text :=
  (if filters.tags.isEmpty then []
    else ["(".toList ++ Text.join " OR ".toList (filters.tags.map (likeInside "tags".toList)) ++
      ")".toList]) ++
  ((given filters.folder).map folderClause).toList ++
  ((given filters.extension).map (fun extension =>
    likeEnding "note_path".toList (dottedExtension clock.env extension))).toList ++
  (filters.dateRange.bind (buildDateFilter clock.tables clock.cutoff)).toList ++
  ((given filters.status).map (fun status =>
    equalTo "status".toList (plainValue clock status))).toList ++
  ((given filters.noteType).map (fun noteType =>
    equalTo "note_type".toList (plainValue clock noteType))).toList ++
  ((given filters.category).map (fun category =>
    likeInside "category".toList (plainValue clock category))).toList ++
  ((given filters.project).map (fun project =>
    equalTo "project".toList (Text.strip project))).toList

/-- `" AND ".join(conditions) if conditions else None` -/
def whereClause (filters : AdvancedFilters) : Option Text :=
  let conditions := advancedConditions clock filters
  if conditions.isEmpty then none else some (Text.join " AND ".toList conditions)

/-- `term in text` -/
def occursIn (term : Text) : Text → Bool
  | [] => term.isEmpty
  | head :: tail => Text.startsWith (head :: tail) term || occursIn term tail

variable {vector number : Type} [LinearOrder number] (backend : SearchBackend vector number)
  (settings : SearchSettings)

/-- `_filter_excluded` -/
def filterExcluded (results : List (FoundRow number)) (exclude : List Text) :
    List (FoundRow number) :=
  if exclude.isEmpty then results
  else
    let excludeLower := exclude.map clock.env.lower
    results.filter (fun result =>
      let textLower := clock.env.lower (result.text.getD [])
      !excludeLower.any (fun term => occursIn term textLower))

/-- `apply_highlight` with the default markers -/
def applyHighlight (results : List (FoundRow number)) (query : Text) : List (FoundRow number) :=
  results.map (fun result =>
    { result with
      text := some (highlightText clock.env clock.fold (result.text.getD []) query "**".toList
        "**".toList) })

/-- `search_candidates` -/
def advancedCandidates (topK : Nat) (exclude : List Text) : Nat :=
  let candidates := computeCandidates settings.toCandidateSettings topK
  if exclude.isEmpty then candidates else min (candidates * 2) settings.searchCandidatesMax

/-- `VaultSearcher.search_advanced` -/
def searchAdvanced (query : Text) (topK : Nat) (filters : AdvancedFilters) (exclude : List Text)
    (highlight : Bool) : Except SearchFault (List (SearchResult number)) := do
  let queryVec ← backend.embedQuery query
  let raw ← vectorSearch backend queryVec (advancedCandidates settings topK exclude)
    (whereClause clock filters)
  if raw.isEmpty then .ok []
  else
    let raw := filterExcluded clock raw exclude
    if raw.isEmpty then .ok []
    else
      let reranked ← rerankRows backend query raw topK
      .ok (formatSearchResults backend
        (if highlight then applyHighlight clock reranked query else reranked))

/-! ### The tool -/

/-- The parameters of the tool. -/
structure AdvancedCall where
  query : Text
  topK : Int := 10
  tags : List Text := []
  folder : Option Text := none
  extension : Option Text := none
  dateRange : Option Text := none
  dateFrom : Option Text := none
  dateTo : Option Text := none
  status : Option Text := none
  noteType : Option Text := none
  category : Option Text := none
  project : Option Text := none
  exclude : List Text := []
  highlight : Bool := false

/-- `[t.strip() for t in values if t and t.strip()]` -/
def normalizedTexts (values : List Text) : List Text :=
  (values.filter (fun value => !Text.isBlank value)).map Text.strip

/-- `value.strip() if value and value.strip() else None` -/
def normalizedText (value : Option Text) : Option Text :=
  (value.filter (fun value => !Text.isBlank value)).map Text.strip

def effectiveDateRange (call : AdvancedCall) : Option DateRange :=
  match given call.dateRange with
  | some name => some (.named (clock.env.lower (Text.strip name)))
  | none =>
      if (given call.dateFrom).isSome || (given call.dateTo).isSome then
        some (.mapping ((given call.dateFrom).map Text.strip) ((given call.dateTo).map Text.strip))
      else none

def maxExcludeTerms : Nat := 20

def normalizedFilters (call : AdvancedCall) : AdvancedFilters :=
  { tags := normalizedTexts call.tags
    folder := normalizedText call.folder
    extension := (normalizedText call.extension).map (dottedExtension clock.env)
    dateRange := effectiveDateRange clock call
    status := (normalizedText call.status).map clock.env.lower
    noteType := (normalizedText call.noteType).map clock.env.lower
    category := (normalizedText call.category).map clock.env.lower
    project := normalizedText call.project }

def normalizedExclude (call : AdvancedCall) : List Text :=
  (normalizedTexts call.exclude).take maxExcludeTerms

def invalidExtension (extension : Text) : Text :=
  "Error: invalid extension '".toList ++ extension ++ "'. Valid values: ".toList ++
    Text.join ", ".toList (Graph.sortTexts clock.env.config.extensions)

/-- The extension that the tool refuses, if any. -/
def refusedExtension (call : AdvancedCall) : Option Text :=
  (normalizedFilters clock call).extension.filter
    (fun extension => !clock.env.config.extensions.contains extension)

/-- `search_advanced` -/
def searchAdvancedTool (call : AdvancedCall) : SearchAnswer number :=
  if Text.isBlank call.query then .refused emptyQuery
  else
    match refusedExtension clock call with
    | some extension => .refused (invalidExtension clock extension)
    | none =>
        match searchAdvanced clock backend settings
            (truncateQuery settings (Text.strip call.query)) (clampTopK settings call.topK)
            (normalizedFilters clock call) (normalizedExclude call) call.highlight with
        | .ok found => .results found
        | .error _ => internalFailure

end Code

/-! ### What the filters ask for -/

/-- A modification time lies in a range. -/
def InDates (clock : SearchClock) (modifiedAt : Text) : DateRange → Prop
  | .named name => ∀ days, windowDays name = some days → ¬ modifiedAt < clock.cutoff days
  | .mapping start stop =>
      (∀ date, start.bind (validateIsoDate clock.tables) = some date → ¬ modifiedAt < date) ∧
        (∀ date, stop.bind (validateIsoDate clock.tables) = some date → ¬ date < modifiedAt)

/-- A chunk meets every filter. -/
structure Meets (clock : SearchClock) (filters : AdvancedFilters) (chunk : ChunkWithVector) :
    Prop where
  tags : filters.tags ≠ [] → ∃ tag ∈ filters.tags, tag <:+: chunk.tags
  folder : ∀ folder, filters.folder = some folder → Below folder chunk.folder
  extension : ∀ extension, given filters.extension = some extension →
    dottedExtension clock.env extension <:+ chunk.notePath
  dates : ∀ range, filters.dateRange = some range → InDates clock chunk.modifiedAt range
  status : ∀ status, given filters.status = some status → chunk.status = plainValue clock status
  noteType : ∀ noteType, given filters.noteType = some noteType →
    chunk.noteType = plainValue clock noteType
  category : ∀ category, given filters.category = some category →
    plainValue clock category <:+: chunk.category
  project : ∀ project, given filters.project = some project →
    chunk.project = Text.strip project

/-- No excluded term stands in the text of a chunk, whatever the case. -/
def FreeOf (clock : SearchClock) (exclude : List Text) (chunk : ChunkWithVector) : Prop :=
  ∀ term ∈ exclude, ¬ clock.env.lower term <:+: clock.env.lower chunk.text

/-! ### The clauses of a filter -/

def insideCondition (column value : Text) : Sql.Condition :=
  { column, operator := .like, value := '%' :: (wildEscaped value ++ ['%']) }

def endingCondition (column value : Text) : Sql.Condition :=
  { column, operator := .like, value := '%' :: wildEscaped value }

def equalCondition (column value : Text) : Sql.Condition :=
  { column, operator := .equal, value }

theorem text_inside (column value : Text) :
    likeInside column value = (insideCondition column value).text := by
  have escaped : Sql.escape ('%' :: (wildEscaped value ++ ['%'])) =
      '%' :: (escapeLikePattern value ++ ['%']) := by
    rw [Sql.escape_cons, Sql.escape_append, ← escapeLikePattern_wildEscaped]
    rfl
  unfold likeInside Sql.Condition.text Sql.Condition.code insideCondition
  rw [escaped]
  simp [Sql.Operator.name_like]

theorem text_ending (column value : Text) :
    likeEnding column value = (endingCondition column value).text := by
  have escaped : Sql.escape ('%' :: wildEscaped value) = '%' :: escapeLikePattern value := by
    rw [Sql.escape_cons, ← escapeLikePattern_wildEscaped]
    rfl
  unfold likeEnding Sql.Condition.text Sql.Condition.code endingCondition
  rw [escaped]
  simp [Sql.Operator.name_like]

theorem text_equal (column value : Text) :
    equalTo column value = (equalCondition column value).text := by
  unfold equalTo Sql.Condition.text Sql.Condition.code equalCondition
  rw [escapeSqlString_eq]
  simp [Sql.Operator.name_equal]

/-- At or below a folder. -/
def belowClause (folder : Text) : Sql.Clause :=
  .oneOf (equalCondition "folder".toList folder)
    [{ column := "folder".toList, operator := .like, value := wildEscaped folder ++ "/%".toList }]

theorem text_below (folder : Text) : folderClause folder = (belowClause folder).text := by
  have escaped : Sql.escape (wildEscaped folder ++ ['/', '%']) =
      escapeLikePattern folder ++ ['/', '%'] := by
    rw [Sql.escape_append, ← escapeLikePattern_wildEscaped]
    rfl
  unfold folderClause belowClause Sql.Clause.text
  rw [escapeSqlString_eq]
  simp [Text.join, Sql.Condition.text, Sql.Condition.code, equalCondition,
    Sql.Operator.name_equal, Sql.Operator.name_like, escaped]

/-- The dates of a range that the filter compares with. -/
def dateConditions (clock : SearchClock) : DateRange → List Sql.Condition
  | .named name => ((windowDays name).map (fun days =>
      { column := "modified_at".toList, operator := .atLeast, value := clock.cutoff days })).toList
  | .mapping start stop =>
      ((start.bind (validateIsoDate clock.tables)).map (fun date =>
        { column := "modified_at".toList, operator := .atLeast, value := date })).toList ++
      ((stop.bind (validateIsoDate clock.tables)).map (fun date =>
        { column := "modified_at".toList, operator := .atMost, value := date })).toList

/-- A group of clauses, if there are any. -/
def groupOf (clauses : List Sql.Clause) : List (List Sql.Clause) :=
  if clauses.isEmpty then [] else [clauses]

def tagsClauses : List Text → List Sql.Clause
  | [] => []
  | tag :: more => [.oneOf (insideCondition "tags".toList tag)
      (more.map (insideCondition "tags".toList))]

/-- The clauses of each filter. -/
def filterClauses (clock : SearchClock) (filters : AdvancedFilters) : List (List Sql.Clause) :=
  [tagsClauses filters.tags,
    ((given filters.folder).map belowClause).toList,
    ((given filters.extension).map (fun extension => .one (endingCondition "note_path".toList
      (dottedExtension clock.env extension)))).toList,
    (filters.dateRange.toList.flatMap (dateConditions clock)).map .one,
    ((given filters.status).map (fun status => .one (equalCondition "status".toList
      (plainValue clock status)))).toList,
    ((given filters.noteType).map (fun noteType => .one (equalCondition "note_type".toList
      (plainValue clock noteType)))).toList,
    ((given filters.category).map (fun category => .one (insideCondition "category".toList
      (plainValue clock category)))).toList,
    ((given filters.project).map (fun project => .one (equalCondition "project".toList
      (Text.strip project)))).toList]

def clausesText (clauses : List Sql.Clause) : Text :=
  Text.join " AND ".toList (clauses.map Sql.Clause.text)

theorem clausesText_one (clause : Sql.Clause) : clausesText [clause] = clause.text := by
  simp [clausesText, Text.join]

/-- One clause for a value that is there. -/
theorem groupOf_map {value : Type} (clause : value → Sql.Clause) (text : value → Text)
    (same : ∀ item, text item = (clause item).text) (item : Option value) :
    (item.map text).toList = (groupOf (item.map clause).toList).map clausesText := by
  cases item with
  | none => rfl
  | some item => exact congrArg (fun text => [text]) ((same item).trans (clausesText_one _).symm)

theorem groupOf_condition {value : Type} (condition : value → Sql.Condition)
    {text : value → Text} (same : ∀ item, text item = (condition item).text)
    (item : Option value) : (item.map text).toList =
      (groupOf (item.map (fun item => .one (condition item))).toList).map clausesText :=
  groupOf_map (fun item => .one (condition item)) text same item

theorem text_tags (tags : List Text) :
    (if tags.isEmpty then []
      else ["(".toList ++ Text.join " OR ".toList (tags.map (likeInside "tags".toList)) ++
        ")".toList]) = (groupOf (tagsClauses tags)).map clausesText := by
  cases tags with
  | nil => rfl
  | cons tag more =>
      have texts : (tag :: more).map (likeInside "tags".toList) =
          (insideCondition "tags".toList tag :: more.map (insideCondition "tags".toList)).map
            Sql.Condition.text := by
        rw [← List.map_cons, List.map_map]
        exact List.map_congr_left (fun value _member => text_inside _ value)
      have whole := clausesText_one (.oneOf (insideCondition "tags".toList tag)
        (more.map (insideCondition "tags".toList)))
      rw [texts]
      exact congrArg (fun text => [text]) whole.symm

theorem text_dateCondition (operator : Sql.Operator) (date : Text) :
    dateCondition operator.name date =
      (Sql.Clause.one { column := "modified_at".toList, operator, value := date }).text := by
  unfold dateCondition Sql.Clause.text Sql.Condition.text Sql.Condition.code
  rw [escapeSqlString_eq]
  simp

theorem text_dates (clock : SearchClock) (range : Option DateRange) :
    (range.bind (buildDateFilter clock.tables clock.cutoff)).toList =
      (groupOf ((range.toList.flatMap (dateConditions clock)).map .one)).map clausesText := by
  cases range with
  | none => rfl
  | some range =>
      have alone : (some range).toList.flatMap (dateConditions clock) = dateConditions clock range :=
        List.append_nil _
      rw [alone, Option.bind_some]
      cases range with
      | named name =>
          cases window : windowDays name with
          | none => simp [buildDateFilter, dateConditions, window, groupOf]
          | some days =>
              have plain := Sql.escape_of_free (clock.cutoff_plain days)
              simp [buildDateFilter, dateConditions, window, groupOf, clausesText, Text.join,
                Sql.Clause.text, Sql.Condition.text, Sql.Condition.code,
                Sql.Operator.name_atLeast, plain]
      | mapping start stop =>
          have lower := text_dateCondition .atLeast
          have upper := text_dateCondition .atMost
          simp only [Sql.Operator.name_atLeast, Sql.Operator.name_atMost] at lower upper
          cases first : start.bind (validateIsoDate clock.tables) with
          | none =>
              cases last : stop.bind (validateIsoDate clock.tables) with
              | none => simp [buildDateFilter, dateConditions, first, last, groupOf]
              | some lastDate =>
                  simp only [buildDateFilter, dateConditions, first, last, groupOf]
                  exact congrArg (fun text => [text]) (upper lastDate)
          | some firstDate =>
              cases last : stop.bind (validateIsoDate clock.tables) with
              | none =>
                  simp only [buildDateFilter, dateConditions, first, last, groupOf]
                  exact congrArg (fun text => [text]) (lower firstDate)
              | some lastDate =>
                  simp only [buildDateFilter, dateConditions, first, last, groupOf]
                  exact congrArg₂ (fun start stop => [Text.join " AND ".toList [start, stop]])
                    (lower firstDate) (upper lastDate)

/-- The conditions are the texts of the clauses. -/
theorem advancedConditions_eq (clock : SearchClock) (filters : AdvancedFilters) :
    advancedConditions clock filters =
      ((filterClauses clock filters).flatMap groupOf).map clausesText := by
  unfold advancedConditions filterClauses
  rw [text_tags, text_dates, groupOf_map belowClause _ text_below,
    groupOf_condition _ (fun extension => text_ending "note_path".toList
      (dottedExtension clock.env extension)),
    groupOf_condition _ (fun status => text_equal "status".toList (plainValue clock status)),
    groupOf_condition _ (fun noteType => text_equal "note_type".toList (plainValue clock noteType)),
    groupOf_condition _ (fun category => text_inside "category".toList (plainValue clock category)),
    groupOf_condition _ (fun project => text_equal "project".toList (Text.strip project))]
  simp only [List.flatMap_cons, List.flatMap_nil, List.map_append, List.append_nil,
    List.append_assoc]

theorem join_append {separator : Text} {front back : List Text} (frontFilled : front ≠ [])
    (backFilled : back ≠ []) : Text.join separator (front ++ back) =
      Text.join separator front ++ separator ++ Text.join separator back := by
  induction front with
  | nil => exact absurd rfl frontFilled
  | cons part rest ih =>
      cases rest with
      | nil => exact Text.join_cons backFilled
      | cons second others =>
          have later := ih (List.cons_ne_nil _ _)
          have front : Text.join separator (part :: second :: others) =
              part ++ separator ++ Text.join separator (second :: others) :=
            Text.join_cons (List.cons_ne_nil _ _)
          have whole : Text.join separator (part :: (second :: others ++ back)) =
              part ++ separator ++ Text.join separator (second :: others ++ back) :=
            Text.join_cons (List.cons_ne_nil _ _)
          rw [List.cons_append, whole, later, front]
          simp only [List.append_assoc]

theorem join_groups (groups : List (List Sql.Clause)) (filled : ∀ clauses ∈ groups, clauses ≠ []) :
    Text.join " AND ".toList (groups.map clausesText) = clausesText groups.flatten := by
  induction groups with
  | nil => rfl
  | cons clauses rest ih =>
      have here := filled clauses List.mem_cons_self
      have later := ih (fun other member => filled other (List.mem_cons_of_mem _ member))
      cases rest with
      | nil => simp [clausesText, Text.join]
      | cons second others =>
          have behind : (second :: others).flatten ≠ [] := by
            have present := filled second (List.mem_cons_of_mem _ List.mem_cons_self)
            simp [present]
          have texts : ∀ {list : List Sql.Clause}, list ≠ [] → list.map Sql.Clause.text ≠ [] :=
            fun present empty => present (List.map_eq_nil_iff.mp empty)
          have joined := @join_append " AND ".toList _ _ (texts here) (texts behind)
          rw [← List.map_append, ← List.flatten_cons] at joined
          rw [List.map_cons, Text.join_cons (by simp), later]
          exact joined.symm

theorem groups_filled (lists : List (List Sql.Clause)) :
    ∀ clauses ∈ lists.flatMap groupOf, clauses ≠ [] := by
  intro clauses member
  obtain ⟨list, _inside, grouped⟩ := List.mem_flatMap.mp member
  unfold groupOf at grouped
  split at grouped
  case isTrue => cases grouped
  case isFalse filled =>
    rw [List.mem_singleton.mp grouped]
    exact fun empty => filled (List.isEmpty_iff.mpr empty)

theorem flatten_groups (lists : List (List Sql.Clause)) :
    (lists.flatMap groupOf).flatten = lists.flatten := by
  induction lists with
  | nil => rfl
  | cons clauses rest ih =>
      rw [List.flatMap_cons, List.flatten_append, ih, List.flatten_cons]
      unfold groupOf
      split
      case isTrue empty => rw [List.isEmpty_iff.mp empty, List.flatten_nil]
      case isFalse => rw [List.flatten_singleton]

/-- The filters as one list of clauses. -/
def allClauses (clock : SearchClock) (filters : AdvancedFilters) : List Sql.Clause :=
  (filterClauses clock filters).flatten

theorem whereClause_eq (clock : SearchClock) (filters : AdvancedFilters) :
    whereClause clock filters =
      if (allClauses clock filters).isEmpty then none
      else some (clausesText (allClauses clock filters)) := by
  have grouped := flatten_groups (filterClauses clock filters)
  have filled := groups_filled (filterClauses clock filters)
  have sameEmpty : (advancedConditions clock filters).isEmpty =
      (allClauses clock filters).isEmpty := by
    unfold allClauses
    rw [advancedConditions_eq, List.isEmpty_map, ← grouped]
    cases groups : (filterClauses clock filters).flatMap groupOf with
    | nil => rfl
    | cons clauses rest =>
        have present := filled clauses (by rw [groups]; exact List.mem_cons_self)
        simp [present]
  unfold whereClause
  dsimp only
  rw [sameEmpty, advancedConditions_eq, join_groups _ filled, grouped]
  rfl

/-! ### The meaning of the clauses -/

section Meaning

variable (clock : SearchClock) (chunk : ChunkWithVector)

/-- Whether a chunk meets clauses, in the engine of the table. -/
def meetsAll (clauses : List Sql.Clause) : Bool :=
  clauses.all (Sql.Clause.holds Sql.exactLike chunk.columns)

theorem exactLike_inside (value text : Text) :
    Sql.exactLike '\\' ('%' :: (wildEscaped value ++ ['%'])) text = true ↔ value <:+: text := by
  have read : Sql.readLike '\\' ['%'] = some [.many] := rfl
  unfold Sql.exactLike
  rw [Sql.readLike_many (by decide), readLike_wildEscaped, read]
  exact Sql.exactMatches_inside value text

theorem exactLike_ending (value text : Text) :
    Sql.exactLike '\\' ('%' :: wildEscaped value) text = true ↔ value <:+ text := by
  have read := readLike_wildEscaped value []
  rw [List.append_nil] at read
  unfold Sql.exactLike
  rw [Sql.readLike_many (by decide), read]
  change Sql.exactMatches (.many :: (value.map .exact ++ [])) text = true ↔ _
  rw [List.append_nil]
  exact Sql.exactMatches_ends value text

variable {chunk} {column text : Text}

theorem holds_inside (isColumn : chunk.columns column = some (.text text)) (value : Text) :
    (insideCondition column value).holds Sql.exactLike chunk.columns = true ↔ value <:+: text := by
  unfold Sql.Condition.holds insideCondition
  rw [isColumn]
  exact exactLike_inside value text

theorem holds_ending (isColumn : chunk.columns column = some (.text text)) (value : Text) :
    (endingCondition column value).holds Sql.exactLike chunk.columns = true ↔ value <:+ text := by
  unfold Sql.Condition.holds endingCondition
  rw [isColumn]
  exact exactLike_ending value text

theorem holds_equal (isColumn : chunk.columns column = some (.text text)) (value : Text) :
    (equalCondition column value).holds Sql.exactLike chunk.columns = true ↔ text = value := by
  unfold Sql.Condition.holds equalCondition
  rw [isColumn]
  exact decide_eq_true_iff

theorem holds_one (condition : Sql.Condition) :
    (Sql.Clause.one condition).holds Sql.exactLike chunk.columns =
      condition.holds Sql.exactLike chunk.columns :=
  Bool.or_false _

variable (chunk)

theorem holds_below (folder : Text) (filled : folder ≠ []) :
    (belowClause folder).holds Sql.exactLike chunk.columns = true ↔ Below folder chunk.folder := by
  have isColumn : chunk.columns "folder".toList = some (.text chunk.folder) := rfl
  have below := exactLike_wildEscaped folder chunk.folder
  unfold belowClause Sql.Clause.holds Sql.Clause.conditions Below
  rw [List.any_cons, List.any_cons, List.any_nil, Bool.or_false, Bool.or_eq_true,
    holds_equal isColumn]
  unfold Sql.Condition.holds
  dsimp only
  rw [isColumn]
  dsimp only [Sql.Operator.holds]
  rw [below, or_iff_right filled]

theorem meets_tags (tags : List Text) :
    meetsAll chunk (tagsClauses tags) = true ↔
      (tags ≠ [] → ∃ tag ∈ tags, tag <:+: chunk.tags) := by
  have isColumn : chunk.columns "tags".toList = some (.text chunk.tags) := rfl
  cases tags with
  | nil => simp [meetsAll, tagsClauses]
  | cons tag more =>
      have clauses : tagsClauses (tag :: more) = [.oneOf (insideCondition "tags".toList tag)
          (more.map (insideCondition "tags".toList))] := rfl
      have conditions : (Sql.Clause.oneOf (insideCondition "tags".toList tag)
          (more.map (insideCondition "tags".toList))).conditions =
            (tag :: more).map (insideCondition "tags".toList) := rfl
      unfold meetsAll Sql.Clause.holds
      rw [clauses, List.all_cons, List.all_nil, Bool.and_true, conditions, List.any_map,
        List.any_eq_true]
      simp only [Function.comp, holds_inside isColumn]
      constructor
      · exact fun found _filled => found
      · exact fun found => found (List.cons_ne_nil _ _)

/-- A filter with one clause for a value that is there. -/
theorem meets_value {value : Type} (clause : value → Sql.Clause) (item : Option value) :
    meetsAll chunk (item.map clause).toList = true ↔
      ∀ present, item = some present →
        (clause present).holds Sql.exactLike chunk.columns = true := by
  cases item with
  | none => simp [meetsAll]
  | some present => simp [meetsAll]

theorem holds_atLeast (date : Text) :
    (Sql.Clause.one { column := "modified_at".toList, operator := .atLeast, value := date }).holds
      Sql.exactLike chunk.columns = true ↔ ¬ chunk.modifiedAt < date := by
  rw [holds_one]
  change (!decide (chunk.modifiedAt < date)) = true ↔ _
  rw [Bool.not_eq_true', decide_eq_false_iff_not]

theorem holds_atMost (date : Text) :
    (Sql.Clause.one { column := "modified_at".toList, operator := .atMost, value := date }).holds
      Sql.exactLike chunk.columns = true ↔ ¬ date < chunk.modifiedAt := by
  rw [holds_one]
  change (!decide (date < chunk.modifiedAt)) = true ↔ _
  rw [Bool.not_eq_true', decide_eq_false_iff_not]

theorem meetsAll_append (front back : List Sql.Clause) :
    meetsAll chunk (front ++ back) = true ↔
      meetsAll chunk front = true ∧ meetsAll chunk back = true := by
  unfold meetsAll
  rw [List.all_append, Bool.and_eq_true]

theorem meets_dates (range : Option DateRange) :
    meetsAll chunk ((range.toList.flatMap (dateConditions clock)).map .one) = true ↔
      ∀ present, range = some present → InDates clock chunk.modifiedAt present := by
  have moved : ∀ (operator : Text → Sql.Condition) (item : Option Text),
      (item.map operator).toList.map Sql.Clause.one =
        (item.map (fun date => .one (operator date))).toList := by
    intro operator item
    cases item <;> rfl
  have window : ∀ present, meetsAll chunk ((dateConditions clock present).map .one) = true ↔
      InDates clock chunk.modifiedAt present := by
    intro present
    cases present with
    | named name =>
        unfold dateConditions InDates
        dsimp only
        cases windowDays name with
        | none => simp [meetsAll]
        | some days =>
            change meetsAll chunk [_] = true ↔ _
            unfold meetsAll
            rw [List.all_cons, List.all_nil, Bool.and_true, holds_atLeast]
            simp
    | mapping start stop =>
        unfold dateConditions InDates
        dsimp only
        rw [List.map_append, meetsAll_append, moved, moved, meets_value, meets_value]
        simp only [holds_atLeast, holds_atMost]
  cases range with
  | none => simp [meetsAll]
  | some present =>
      have alone : (some present).toList.flatMap (dateConditions clock) =
          dateConditions clock present := List.append_nil _
      rw [alone, window]
      constructor
      · intro inside other same
        rw [← Option.some.inj same]
        exact inside
      · exact fun all => all present rfl

/-- The clauses ask for what the filters ask for. -/
theorem meetsAll_iff (filters : AdvancedFilters) :
    meetsAll chunk (allClauses clock filters) = true ↔ Meets clock filters chunk := by
  have notePath : chunk.columns "note_path".toList = some (.text chunk.notePath) := rfl
  have status : chunk.columns "status".toList = some (.text chunk.status) := rfl
  have noteType : chunk.columns "note_type".toList = some (.text chunk.noteType) := rfl
  have category : chunk.columns "category".toList = some (.text chunk.category) := rfl
  have project : chunk.columns "project".toList = some (.text chunk.project) := rfl
  have below : (∀ folder, given filters.folder = some folder →
      (belowClause folder).holds Sql.exactLike chunk.columns = true) ↔
        ∀ folder, filters.folder = some folder → Below folder chunk.folder := by
    constructor
    · intro asked folder isFolder
      by_cases empty : folder = []
      · exact Or.inl empty
      · apply (holds_below chunk folder empty).mp
        apply asked
        rw [isFolder]
        simp [given, empty]
    · intro asked folder isGiven
      obtain ⟨isFolder, filled⟩ := Option.filter_eq_some_iff.mp isGiven
      have present : folder ≠ [] := by simpa using filled
      exact (holds_below chunk folder present).mpr (asked folder isFolder)
  unfold allClauses filterClauses
  simp only [List.flatten_cons, List.flatten_nil, List.append_nil, meetsAll_append, meets_tags,
    meets_value, meets_dates, holds_one, holds_ending notePath, holds_equal status,
    holds_equal noteType, holds_inside category, holds_equal project, below]
  constructor
  · intro asked
    obtain ⟨tags, folder, extension, dates, status, noteType, category, project⟩ := asked
    exact { tags, folder, extension, dates, status, noteType, category, project }
  · intro meets
    exact ⟨meets.tags, meets.folder, meets.extension, meets.dates, meets.status, meets.noteType,
      meets.category, meets.project⟩

end Meaning

instance (clock : SearchClock) (filters : AdvancedFilters) (chunk : ChunkWithVector) :
    Decidable (Meets clock filters chunk) :=
  decidable_of_iff _ (meetsAll_iff clock chunk filters)

/-! ### The rows that are asked for -/

theorem occursIn_iff (term text : Text) : occursIn term text = true ↔ term <:+: text := by
  induction text with
  | nil =>
      unfold occursIn
      rw [List.isEmpty_iff, List.infix_nil]
  | cons head tail ih =>
      unfold occursIn
      rw [Bool.or_eq_true, ih, List.infix_cons_iff]
      exact or_congr_left List.isPrefixOf_iff_prefix

/-- The columns that the filters ask for. -/
def advancedColumns : List Text :=
  ["tags", "folder", "note_path", "modified_at", "status", "note_type", "category",
    "project"].map String.toList

theorem isWord_column : ∀ column ∈ advancedColumns, Sql.IsWord column := by
  have plain : advancedColumns.all (fun column => !column.isEmpty &&
      column.all (fun char => char ≠ ' ' && char ≠ '\'' && !Sql.isParenthesis char)) = true := by
    decide
  intro column member
  have checks := List.all_eq_true.mp plain column member
  rw [Bool.and_eq_true, List.all_eq_true] at checks
  have each : ∀ char ∈ column, char ≠ ' ' ∧ char ≠ '\'' ∧ Sql.isParenthesis char = false := by
    intro char inside
    simpa [and_assoc] using checks.2 char inside
  constructor
  · simpa using checks.1
  · exact fun inside => (each _ inside).1 rfl
  · exact fun inside => (each _ inside).2.1 rfl
  · exact fun char inside => (each char inside).2.2

theorem dateConditions_column (clock : SearchClock) (range : DateRange) :
    ∀ condition ∈ dateConditions clock range, condition.column = "modified_at".toList := by
  intro condition member
  cases range with
  | named name =>
      obtain ⟨days, _window, same⟩ := Option.map_eq_some_iff.mp (Option.mem_toList.mp member)
      rw [← same]
  | mapping start stop =>
      rcases List.mem_append.mp member with first | last
      · obtain ⟨date, _valid, same⟩ := Option.map_eq_some_iff.mp (Option.mem_toList.mp first)
        rw [← same]
      · obtain ⟨date, _valid, same⟩ := Option.map_eq_some_iff.mp (Option.mem_toList.mp last)
        rw [← same]

theorem tagsClauses_column (tags : List Text) :
    ∀ clause ∈ tagsClauses tags, ∀ condition ∈ clause.conditions,
      condition.column = "tags".toList := by
  intro clause member condition inside
  cases tags with
  | nil => cases member
  | cons tag more =>
      rw [List.mem_singleton.mp member] at inside
      change condition ∈ (tag :: more).map (insideCondition "tags".toList) at inside
      obtain ⟨value, _among, same⟩ := List.mem_map.mp inside
      rw [← same]
      rfl

theorem allClauses_column (clock : SearchClock) (filters : AdvancedFilters) :
    ∀ clause ∈ allClauses clock filters, ∀ condition ∈ clause.conditions,
      condition.column ∈ advancedColumns := by
  have alone : ∀ {name : String} {value : Type} {build : value → Sql.Condition}
      {item : Option value}, name.toList ∈ advancedColumns →
      (∀ present, (build present).column = name.toList) →
      ∀ clause ∈ (item.map (fun present => Sql.Clause.one (build present))).toList,
        ∀ condition ∈ clause.conditions, condition.column ∈ advancedColumns := by
    intro name value build item known columns clause member condition inside
    obtain ⟨present, _isItem, same⟩ := Option.map_eq_some_iff.mp (Option.mem_toList.mp member)
    rw [← same] at inside
    rw [List.mem_singleton.mp inside, columns]
    exact known
  intro clause member condition inside
  unfold allClauses filterClauses at member
  simp only [List.flatten_cons, List.flatten_nil, List.append_nil, List.mem_append] at member
  rcases member with tags | folder | extension | dates | status | noteType | category | project
  · rw [tagsClauses_column _ clause tags condition inside]
    decide
  · obtain ⟨present, _isFolder, same⟩ := Option.map_eq_some_iff.mp (Option.mem_toList.mp folder)
    have known : "folder".toList ∈ advancedColumns := by decide
    rw [← same] at inside
    rcases List.mem_cons.mp inside with first | second
    · rw [first]
      exact known
    · rw [List.mem_singleton.mp second]
      exact known
  · exact @alone "note_path" _ _ _ (by decide) (fun _ => rfl) clause extension condition inside
  · obtain ⟨present, isPresent, same⟩ := List.mem_map.mp dates
    obtain ⟨range, _isRange, listed⟩ := List.mem_flatMap.mp isPresent
    rw [← same] at inside
    rw [List.mem_singleton.mp inside, dateConditions_column clock range present listed]
    decide
  · exact @alone "status" _ _ _ (by decide) (fun _ => rfl) clause status condition inside
  · exact @alone "note_type" _ _ _ (by decide) (fun _ => rfl) clause noteType condition inside
  · exact @alone "category" _ _ _ (by decide) (fun _ => rfl) clause category condition inside
  · exact @alone "project" _ _ _ (by decide) (fun _ => rfl) clause project condition inside

/-- The condition takes the chunks that meet the filters, whatever these contain. -/
theorem matching_whereClause (clock : SearchClock) (filters : AdvancedFilters)
    (chunks : List ChunkWithVector) :
    matching chunks (given (whereClause clock filters)) =
      chunks.filter (fun chunk => Meets clock filters chunk) := by
  have decided : chunks.filter (fun chunk => Meets clock filters chunk) =
      chunks.filter (fun chunk => meetsAll chunk (allClauses clock filters)) := by
    apply List.filter_congr
    intro chunk _member
    rw [Bool.eq_iff_iff, decide_eq_true_iff, meetsAll_iff]
  rw [decided, whereClause_eq]
  cases clauses : allClauses clock filters with
  | nil => exact (List.filter_true _).symm
  | cons clause more =>
      have areWords : ∀ other ∈ clause :: more, ∀ condition ∈ other.conditions,
          Sql.IsWord condition.column := by
        intro other member condition inside
        rw [← clauses] at member
        exact isWord_column _ (allClauses_column clock filters other member condition inside)
      have reads := Sql.formulaOf_join areWords
      have filled : clausesText (clause :: more) ≠ [] := by
        intro empty
        unfold clausesText at empty
        rw [empty] at reads
        cases reads
      have present : given (some (clausesText (clause :: more))) =
          some (clausesText (clause :: more)) := by
        simp [given, filled]
      rw [List.isEmpty_cons, if_neg Bool.false_ne_true, present]
      unfold matching clausesText
      dsimp only
      rw [reads]
      dsimp only
      apply List.filter_congr
      intro chunk _member
      rw [Bool.eq_iff_iff, Sql.holds_conjunction]
      unfold meetsAll
      rw [List.all_eq_true]

/-! ### The answers of the tool -/

/-- Whether none of the terms stands in the text. -/
def isFreeOf (clock : SearchClock) (exclude : List Text) (chunk : ChunkWithVector) : Bool :=
  !(exclude.map clock.env.lower).any (fun term => occursIn term (clock.env.lower chunk.text))

theorem isFreeOf_iff (clock : SearchClock) (exclude : List Text) (chunk : ChunkWithVector) :
    isFreeOf clock exclude chunk = true ↔ FreeOf clock exclude chunk := by
  unfold isFreeOf FreeOf
  rw [Bool.not_eq_true', List.any_map, List.any_eq_false]
  simp only [Function.comp, occursIn_iff]

instance (clock : SearchClock) (exclude : List Text) (chunk : ChunkWithVector) :
    Decidable (FreeOf clock exclude chunk) :=
  decidable_of_iff _ (isFreeOf_iff clock exclude chunk)

/-- The chunks that meet the filters of a call. -/
def filteredChunks (clock : SearchClock) (call : AdvancedCall) (chunks : List ChunkWithVector) :
    List ChunkWithVector :=
  chunks.filter (fun chunk => Meets clock (normalizedFilters clock call) chunk)

/-- Those of them that have no excluded term. -/
def wantedChunks (clock : SearchClock) (call : AdvancedCall) (chunks : List ChunkWithVector) :
    List ChunkWithVector :=
  (filteredChunks clock call chunks).filter (fun chunk =>
    FreeOf clock (normalizedExclude call) chunk)

/-- A search of the table by vector that looks at all of its rows. -/
def SearchBackend.Exhaustive {vector number : Type} (backend : SearchBackend vector number) :
    Prop :=
  ∀ chunks query clause limit found, backend.nearest chunks query clause limit = .ok found →
    found.length = min limit (matching chunks clause).length

theorem filterExcluded_found {number : Type} (clock : SearchClock)
    (found : List (ChunkWithVector × number)) (exclude : List Text) :
    filterExcluded clock (found.map (fun row => foundRow (some row.2) row.1)) exclude =
      (found.filter (fun row => FreeOf clock exclude row.1)).map
        (fun row => foundRow (some row.2) row.1) := by
  have decided : (fun row : ChunkWithVector × number => decide (FreeOf clock exclude row.1)) =
      fun row => isFreeOf clock exclude row.1 := by
    funext row
    rw [Bool.eq_iff_iff, decide_eq_true_iff, isFreeOf_iff]
  rw [decided]
  unfold filterExcluded
  split
  case isTrue none =>
    have all : found.filter (fun row => isFreeOf clock exclude row.1) = found := by
      rw [List.filter_eq_self]
      intro row _member
      rw [List.isEmpty_iff.mp none]
      rfl
    rw [all]
  case isFalse =>
    rw [List.filter_map]
    rfl

/-- How the text of a result is shown. -/
def shownText (clock : SearchClock) (query : Text) (highlight : Bool) (text : Text) : Text :=
  if highlight then highlightText clock.env clock.fold text query "**".toList "**".toList
  else text

/-- The form of reranked rows, highlighted or not. -/
theorem formatSearchResults_kept {vector number : Type} (clock : SearchClock)
    (backend : SearchBackend vector number) (query : Text) (highlight : Bool)
    (distance : ChunkWithVector × number → Option number)
    (kept : List ((ChunkWithVector × number) × number)) :
    let reranked := kept.map (fun entry =>
      withScore (foundRow (distance entry.1) entry.1.1, entry.2))
    formatSearchResults backend
        (if highlight then applyHighlight clock reranked query else reranked) =
      (kept.map (fun entry => (entry.1.1, entry.2))).map
        (publicResult (shownText clock query highlight)) := by
  cases highlight with
  | false =>
      change formatSearchResults backend (kept.map _) = _
      unfold formatSearchResults
      rw [List.map_map, List.map_map]
      rfl
  | true =>
      change formatSearchResults backend (applyHighlight clock (kept.map _) query) = _
      unfold formatSearchResults applyHighlight
      rw [List.map_map, List.map_map, List.map_map]
      rfl

section Answers

variable {vector number : Type} [LinearOrder number] (clock : SearchClock)
  {backend : SearchBackend vector number} {settings : SearchSettings}

/-- What a successful search keeps. -/
theorem searchAdvanced_kept {query : Text} {topK : Nat} {filters : AdvancedFilters}
    {exclude : List Text} {highlight : Bool} {results : List (SearchResult number)}
    (returned : searchAdvanced clock backend settings query topK filters exclude highlight =
      .ok results) :
    ∃ chunks queryVec found kept, backend.table = some chunks ∧
      backend.nearest chunks queryVec (given (whereClause clock filters))
        (advancedCandidates settings topK exclude) = .ok found ∧
      results = kept.map (publicResult (shownText clock query highlight)) ∧
      Kept backend query topK
        ((found.map Prod.fst).filter (fun chunk => FreeOf clock exclude chunk)) kept := by
  unfold searchAdvanced at returned
  obtain ⟨queryVec, _embedded, retrieving⟩ := ok_of_bind returned
  obtain ⟨raw, isRaw, later⟩ := ok_of_bind retrieving
  obtain ⟨chunks, found, isTable, answer, shape⟩ := vectorSearch_cases isRaw
  have chosen : (found.map Prod.fst).filter (fun chunk => FreeOf clock exclude chunk) =
      (found.filter (fun row => FreeOf clock exclude row.1)).map Prod.fst :=
    List.filter_map
  have excluded := filterExcluded_found clock found exclude
  rw [← shape] at excluded
  split at later
  case isTrue none =>
    have noneFound : found = [] := by
      rw [shape, List.isEmpty_map] at none
      exact List.isEmpty_iff.mp none
    refine ⟨chunks, queryVec, found, [], isTable, answer, (Except.ok.inj later).symm, ?_⟩
    rw [noneFound]
    exact kept_nil query topK
  case isFalse =>
    dsimp only at later
    split at later
    case isTrue none =>
      have noneLeft : found.filter (fun row => FreeOf clock exclude row.1) = [] := by
        rw [excluded, List.isEmpty_map] at none
        exact List.isEmpty_iff.mp none
      refine ⟨chunks, queryVec, found, [], isTable, answer, (Except.ok.inj later).symm, ?_⟩
      rw [chosen, noneLeft]
      exact kept_nil query topK
    case isFalse =>
      obtain ⟨reranked, isReranked, formatted⟩ := ok_of_bind later
      rw [excluded] at isReranked
      obtain ⟨kept, rows, isKept⟩ := rerankRows_kept isReranked
      refine ⟨chunks, queryVec, found, kept.map (fun entry => (entry.1.1, entry.2)), isTable, answer,
        ?_, ?_⟩
      · rw [← Except.ok.inj formatted, rows]
        exact formatSearchResults_kept clock backend query highlight (fun row => some row.2) kept
      · rw [chosen]
        exact isKept

/-- Every result of the tool is a chunk of the table that meets all the filters and has none of
the excluded terms; the best of those retrieved are returned, and where the table is searched
through, none is left out but for the limit of the candidates. -/
theorem searchAdvancedTool_results {call : AdvancedCall} {results : List (SearchResult number)}
    (answered : searchAdvancedTool clock backend settings call = .results results) :
    ∃ chunks retrieved kept, backend.table = some chunks ∧
      retrieved.Subperm (wantedChunks clock call chunks) ∧
      Kept backend (truncateQuery settings (Text.strip call.query))
        (clampTopK settings call.topK) retrieved kept ∧
      results = kept.map (publicResult (shownText clock
        (truncateQuery settings (Text.strip call.query)) call.highlight)) ∧
      (backend.Exhaustive →
        ((filteredChunks clock call chunks).length ≤
            advancedCandidates settings (clampTopK settings call.topK) (normalizedExclude call) →
          retrieved.Perm (wantedChunks clock call chunks)) ∧
        (normalizedExclude call = [] → retrieved.length =
          min (advancedCandidates settings (clampTopK settings call.topK) (normalizedExclude call))
            (wantedChunks clock call chunks).length)) := by
  unfold searchAdvancedTool at answered
  split at answered
  case isTrue => cases answered
  case isFalse =>
    split at answered
    case h_1 => cases answered
    case h_2 =>
      split at answered
      case h_2 => cases answered
      case h_1 found returned =>
        obtain ⟨chunks, queryVec, rows, kept, isTable, answer, shape, isKept⟩ :=
          searchAdvanced_kept clock returned
        obtain ⟨inside, _few⟩ := backend.nearest_within _ _ _ _ _ answer
        have matched := matching_whereClause clock (normalizedFilters clock call) chunks
        rw [matched] at inside
        refine ⟨chunks, _, kept, isTable, inside.filter _, isKept, ?_, ?_⟩
        · cases answered
          exact shape
        · intro exhaustive
          have size := exhaustive _ _ _ _ _ answer
          rw [matched, ← List.length_map Prod.fst] at size
          constructor
          · intro fits
            have whole : (rows.map Prod.fst).Perm (filteredChunks clock call chunks) := by
              apply inside.perm_of_length_le
              unfold filteredChunks at fits
              omega
            exact whole.filter _
          · intro excludesNone
            have free : ∀ list : List ChunkWithVector,
                list.filter (fun chunk => FreeOf clock (normalizedExclude call) chunk) = list := by
              intro list
              rw [List.filter_eq_self]
              intro chunk _member
              rw [excludesNone]
              exact decide_eq_true (fun term impossible => absurd impossible List.not_mem_nil)
            unfold wantedChunks
            rw [free, free]
            exact size

end Answers

/-- A fixed time and the case table of ASCII, for examples. -/
def plainClock : SearchClock :=
  { env := Env.plain
    tables := asciiDigits
    fold := Char.toLower
    cutoff := fun _days => "2026-01-01T00:00:00".toList
    cutoff_plain := fun _days => by decide }

def quotedCall : AdvancedCall :=
  { query := "q".toList
    tags := ["it's".toList, "50%".toList]
    status := some " Done".toList
    exclude := ["Draft".toList] }

def quotedChunks : List ChunkWithVector :=
  [{ chunkIn "a".toList with tags := "it's".toList, status := "done".toList },
    { chunkIn "b".toList with tags := "50 years".toList, status := "done".toList }]

theorem searchAdvancedTool_results_quoted :
    ∃ results, searchAdvancedTool plainClock (wordlessBackend quotedChunks) plainLimits quotedCall =
      .results results ∧ ∃ chunks retrieved kept,
        (wordlessBackend quotedChunks).table = some chunks ∧
        retrieved.Subperm (wantedChunks plainClock quotedCall chunks) ∧
        Kept (wordlessBackend quotedChunks) "q".toList 10 retrieved kept ∧
        results = kept.map (publicResult id) := by
  have answered : ∃ results, searchAdvancedTool plainClock (wordlessBackend quotedChunks)
      plainLimits quotedCall = .results results := ⟨_, rfl⟩
  obtain ⟨results, isResults⟩ := answered
  obtain ⟨chunks, retrieved, kept, isTable, inside, isKept, shape, _complete⟩ :=
    searchAdvancedTool_results plainClock isResults
  exact ⟨results, isResults, chunks, retrieved, kept, isTable, inside, isKept, shape⟩

end VaultSearch
