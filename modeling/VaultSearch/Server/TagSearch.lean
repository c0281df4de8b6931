/-
`search_by_tags`: notes by their tags.

A parsed note is stored with its tags joined to one text.  The tool asks the table for the texts
that a requested tag equals, begins, ends or stands in the middle of, takes the texts apart
again, keeps one entry for each note and lists the newest first.
-/

import Mathlib.Data.Char
import Mathlib.Data.List.Lex
import VaultSearch.Server.BridgeNotes
import VaultSearch.Server.FolderFilters
import VaultSearch.Server.Orphans
import VaultSearch.Store.Ranking

set_option autoImplicit false

namespace VaultSearch

structure TaggedNote where
  path : Text
  title : Text
  folder : Text
  /-- the tags in lower case, sorted -/
  tags : List Text
  modifiedAt : Text
  deriving DecidableEq

/-- What is left of the requested tags, stripped and in lower case. -/
def requestedTags (env : Env) (tags : List Text) : List Text :=
  (tags.map (fun tag => env.lower (Text.strip tag))).filter (fun tag => !tag.isEmpty)

/-- The condition for one tag: its quotes are doubled and nothing else is escaped. -/
def tagCondition (tag : Text) : Text :=
  let escapedTag := Sql.escape tag
  "(tags = '".toList ++ escapedTag ++ "' OR tags LIKE '".toList ++ escapedTag ++
    ", %' OR tags LIKE '%, ".toList ++ escapedTag ++ "' OR tags LIKE '%, ".toList ++ escapedTag ++
    ", %')".toList

def tagsClause (tags : List Text) : Text :=
  Text.join " OR ".toList (tags.map tagCondition)

/-- `{t.strip().lower() for t in tags_str.split(",") if t.strip()}` -/
def splitTags (env : Env) (stored : Text) : List Text :=
  ((((Text.split ",".toList stored).map Text.strip).filter (fun tag => !tag.isEmpty)).map
    env.lower).dedup

def taggedNote (env : Env) (row : ChunkWithVector) : TaggedNote :=
  { path := row.notePath
    title := row.noteTitle
    folder := row.folder
    tags := Graph.sortTexts (splitTags env row.tags)
    modifiedAt := row.modifiedAt }

/-- With `match_all` a row needs every requested tag. -/
def passesAll (env : Env) (cleanTags : List Text) (matchAll : Bool) (stored : Text) : Bool :=
  !matchAll || cleanTags.all (fun tag => (splitTags env stored).contains tag)

/-- The loop over the rows: the first row that passes makes the entry of its note. -/
def collectTagged (env : Env) (cleanTags : List Text) (matchAll : Bool) :
    List TaggedNote → List ChunkWithVector → List TaggedNote
  | notesMap, [] => notesMap
  | notesMap, row :: rows =>
      if (notesMap.map (·.path)).contains row.notePath then
        collectTagged env cleanTags matchAll notesMap rows
      else if passesAll env cleanTags matchAll row.tags then
        collectTagged env cleanTags matchAll (notesMap ++ [taggedNote env row]) rows
      else collectTagged env cleanTags matchAll notesMap rows

/-- `sorted(..., key=lambda x: x["modified_at"] or "", reverse=True)` keeps the order of ties. -/
def newestNotes (notes : List TaggedNote) : List TaggedNote :=
  Ranking.sortBy (fun note => OrderDual.toDual note.modifiedAt) notes

def tagLimit (limit : Int) : Nat :=
  (max 1 (min limit 200)).toNat

def searchByTags (env : Env) (table : List ChunkWithVector) (tags : List Text) (matchAll : Bool)
    (limit : Int) : Except ToolError (List TaggedNote) :=
  if tags.isEmpty then .error (.message "Error: tag list cannot be empty.".toList)
  else
    let cleanTags := requestedTags env tags
    if cleanTags.isEmpty then .error (.message "Error: no valid tag was provided.".toList)
    else
      let cleanTags := cleanTags.take 20
      if table.isEmpty then .ok []
      else
        match Sql.predicateOf (tagsClause cleanTags) [] with
        | none => .error .internal
        | some predicate =>
            let rows := table.filter (fun row => predicate.holds Sql.exactLike row.columns)
            .ok ((newestNotes (collectTagged env cleanTags matchAll [] rows)).take
              (tagLimit limit))

/-! ### What the clause asks -/

/-- The stored text is the tag, or matches a pattern with the tag at its beginning, at its end or
in its middle. -/
def takesTags (tag stored : Text) : Bool :=
  stored == tag || (Sql.exactLike '\\' (tag ++ ", %".toList) stored ||
    (Sql.exactLike '\\' ("%, ".toList ++ tag) stored ||
      Sql.exactLike '\\' ("%, ".toList ++ tag ++ ", %".toList) stored))

def tagPredicate (tag : Text) : Sql.Predicate :=
  .either (.equals "tags".toList (.text tag))
    (.either (.like "tags".toList (tag ++ ", %".toList) '\\')
      (.either (.like "tags".toList ("%, ".toList ++ tag) '\\')
        (.like "tags".toList ("%, ".toList ++ tag ++ ", %".toList) '\\')))

def tagsPredicate (tag : Text) : List Text → Sql.Predicate
  | [] => tagPredicate tag
  | second :: others => .either (tagPredicate tag) (tagsPredicate second others)

theorem tagPredicate_holds (tag : Text) (row : ChunkWithVector) :
    (tagPredicate tag).holds Sql.exactLike row.columns = takesTags tag row.tags := by
  have read : row.columns "tags".toList = some (.text row.tags) := rfl
  unfold tagPredicate takesTags
  simp only [Sql.Predicate.holds, read]
  simp [beq_eq_decide]

theorem tagsPredicate_holds (tag : Text) (others : List Text) (row : ChunkWithVector) :
    (tagsPredicate tag others).holds Sql.exactLike row.columns =
      (tag :: others).any (fun tag => takesTags tag row.tags) := by
  induction others generalizing tag with
  | nil =>
      rw [tagsPredicate, tagPredicate_holds]
      simp
  | cons second others ih =>
      rw [tagsPredicate, Sql.Predicate.holds, tagPredicate_holds, ih]
      rfl

/-- The code before each value and the value, from the code that opens the condition. -/
def tagPieces (opening tag : Text) : List (Text × Text) :=
  [(opening, tag), (" OR tags LIKE ".toList, tag ++ ", %".toList),
    (" OR tags LIKE ".toList, "%, ".toList ++ tag),
    (" OR tags LIKE ".toList, "%, ".toList ++ tag ++ ", %".toList)]

def laterPieces (others : List Text) : List (Text × Text) :=
  others.flatMap (tagPieces ") OR (tags = ".toList)

theorem tagsClause_assemble (tag : Text) (others : List Text) :
    tagsClause (tag :: others) =
      Sql.assemble (tagPieces "(tags = ".toList tag ++ laterPieces others) ")".toList := by
  have comma : Sql.escape ", %".toList = ", %".toList := rfl
  have percent : Sql.escape "%, ".toList = "%, ".toList := rfl
  induction others generalizing tag with
  | nil =>
      unfold tagsClause tagCondition tagPieces laterPieces
      simp only [List.map_cons, List.map_nil, Text.join, Sql.assemble, Sql.escape_append, comma,
        percent, List.flatMap_nil, List.append_nil]
      simp
  | cons second others ih =>
      have later := ih second
      have pieces : laterPieces (second :: others) =
          tagPieces ") OR (tags = ".toList second ++ laterPieces others := rfl
      unfold tagsClause at later ⊢
      rw [List.map_cons, Text.join_cons (by simp), later, pieces]
      unfold tagCondition tagPieces
      simp only [List.cons_append, List.nil_append, Sql.assemble, Sql.escape_append, comma,
        percent]
      simp

/-- The lexemes of one condition and of what follows. -/
def tagLexemes (tag : Text) (rest : List Sql.Lexeme) : List Sql.Lexeme :=
  .opening :: .word "tags".toList :: .equal :: .literal tag :: .word "OR".toList ::
    .word "tags".toList :: .word "LIKE".toList :: .literal (tag ++ ", %".toList) ::
    .word "OR".toList :: .word "tags".toList :: .word "LIKE".toList ::
    .literal ("%, ".toList ++ tag) :: .word "OR".toList :: .word "tags".toList ::
    .word "LIKE".toList :: .literal ("%, ".toList ++ tag ++ ", %".toList) :: .closing :: rest

def tagsLexemes (tag : Text) : List Text → List Sql.Lexeme
  | [] => tagLexemes tag []
  | second :: others => tagLexemes tag (.word "OR".toList :: tagsLexemes second others)

theorem lexemes_tagPieces (opening tag : Text) (pieces : List (Text × Text)) (last : Text)
    {front : List Sql.Lexeme} (opens : Sql.lexFrom [] opening = some front)
    {rest : List Sql.Lexeme} (read : Sql.lexemesOf (Sql.assembledParts pieces last) = some rest) :
    Sql.lexemesOf (Sql.assembledParts (tagPieces opening tag ++ pieces) last) =
      some (front ++ .literal tag :: .word "OR".toList :: .word "tags".toList ::
        .word "LIKE".toList :: .literal (tag ++ ", %".toList) :: .word "OR".toList ::
        .word "tags".toList :: .word "LIKE".toList :: .literal ("%, ".toList ++ tag) ::
        .word "OR".toList :: .word "tags".toList :: .word "LIKE".toList ::
        .literal ("%, ".toList ++ tag ++ ", %".toList) :: rest) := by
  have likes : Sql.lexFrom [] " OR tags LIKE ".toList =
      some [.word "OR".toList, .word "tags".toList, .word "LIKE".toList] := by decide
  unfold tagPieces
  simp only [List.cons_append, List.nil_append, Sql.assembledParts, Sql.lexemesOf,
    Sql.Part.lexemes, opens, likes, read, Option.bind_some, Option.map_some]

theorem lexemes_laterPieces (others : List Text) :
    Sql.lexemesOf (Sql.assembledParts (laterPieces others) ")".toList) =
      some (.closing :: match others with
        | [] => []
        | second :: others => .word "OR".toList :: tagsLexemes second others) := by
  induction others with
  | nil => decide
  | cons second others ih =>
      have opens : Sql.lexFrom [] ") OR (tags = ".toList =
          some [.closing, .word "OR".toList, .opening, .word "tags".toList, .equal] := by decide
      have pieces : laterPieces (second :: others) =
          tagPieces ") OR (tags = ".toList second ++ laterPieces others := rfl
      rw [pieces, lexemes_tagPieces _ _ _ _ opens ih]
      cases others with
      | nil => rfl
      | cons third others => rfl

theorem lexemes_tagsClause (tag : Text) (others : List Text) :
    Sql.lexemesOf (Sql.assembledParts (tagPieces "(tags = ".toList tag ++ laterPieces others)
      ")".toList) = some (tagsLexemes tag others) := by
  have opens : Sql.lexFrom [] "(tags = ".toList =
      some [.opening, .word "tags".toList, .equal] := by decide
  rw [lexemes_tagPieces _ _ _ _ opens (lexemes_laterPieces others)]
  cases others with
  | nil => rfl
  | cons second others => rfl

theorem bind_tagLexemes (tag : Text) {rest : List Sql.Lexeme}
    (bound : Sql.bindParameters rest [] = some rest) :
    Sql.bindParameters (tagLexemes tag rest) [] = some (tagLexemes tag rest) := by
  unfold tagLexemes
  simp only [Sql.bindParameters, bound, Option.map_some]

theorem bind_tagsLexemes (tag : Text) (others : List Text) :
    Sql.bindParameters (tagsLexemes tag others) [] = some (tagsLexemes tag others) := by
  induction others generalizing tag with
  | nil => exact bind_tagLexemes tag rfl
  | cons second others ih =>
      apply bind_tagLexemes
      simp only [Sql.bindParameters, ih second, Option.map_some]

theorem read_tagLexemes (depth : Nat) (tag : Text) (rest : List Sql.Lexeme) :
    Sql.readPrimary (Sql.readPredicate (depth + 1)) (tagLexemes tag rest) =
      some (tagPredicate tag, rest) := by
  rfl

/-- A condition in parentheses is a chain of one predicate. -/
theorem chain_tagLexemes (depth fuel : Nat) (tag : Text) (rest : List Sql.Lexeme)
    (ends : rest.head? ≠ some (.word "AND".toList)) :
    Sql.readChain "AND".toList .both (Sql.readPrimary (Sql.readPredicate (depth + 1))) fuel
      (tagLexemes tag rest) = some (tagPredicate tag, rest) := by
  cases fuel with
  | zero => exact read_tagLexemes depth tag rest
  | succ fuel =>
      rw [Sql.readChain, read_tagLexemes]
      cases rest with
      | nil => rfl
      | cons head later =>
          cases head with
          | word name =>
              have other : name ≠ "AND".toList := by
                intro same
                rw [same] at ends
                exact ends rfl
              exact if_neg other
          | _ => rfl

theorem chain_tagsLexemes (depth fuel : Nat) (tag : Text) (others : List Text) :
    ∀ enough, others.length ≤ enough →
      Sql.readChain "OR".toList .either (Sql.readChain "AND".toList .both
        (Sql.readPrimary (Sql.readPredicate (depth + 1))) fuel) enough (tagsLexemes tag others) =
          some (tagsPredicate tag others, []) := by
  induction others generalizing tag with
  | nil =>
      intro enough _long
      have one := chain_tagLexemes depth fuel tag [] (by simp)
      cases enough with
      | zero => exact one
      | succ enough =>
          rw [tagsLexemes, Sql.readChain, one]
          rfl
  | cons second others ih =>
      intro enough long
      cases enough with
      | zero => cases long
      | succ enough =>
          have one := chain_tagLexemes depth fuel tag
            (.word "OR".toList :: tagsLexemes second others) (by simp)
          have later := ih second enough (Nat.le_of_succ_le_succ long)
          rw [tagsLexemes, Sql.readChain, one]
          dsimp only
          rw [if_pos rfl, later]
          rfl

theorem length_tagsLexemes (tag : Text) (others : List Text) :
    others.length < (tagsLexemes tag others).length := by
  induction others generalizing tag with
  | nil => exact Nat.succ_pos _
  | cons second others ih =>
      have later := ih second
      rw [tagsLexemes]
      unfold tagLexemes
      simp only [List.length_cons]
      omega

theorem readWhole_tagsLexemes (tag : Text) (others : List Text) :
    Sql.readWhole (tagsLexemes tag others) = some (tagsPredicate tag others) := by
  have long := length_tagsLexemes tag others
  unfold Sql.readWhole
  cases size : (tagsLexemes tag others).length with
  | zero =>
      rw [size] at long
      cases long
  | succ depth =>
      rw [size] at long
      rw [Sql.readPredicate, size, chain_tagsLexemes _ _ _ _ _ (Nat.le_of_lt long)]

theorem code_tail (opening : Text) {tag : Text} {pair : Text × Text}
    (member : pair ∈ (tagPieces opening tag).tail) : pair.1 = " OR tags LIKE ".toList := by
  unfold tagPieces at member
  rw [List.tail_cons, List.mem_cons, List.mem_cons, List.mem_singleton] at member
  rcases member with same | same | same
  · rw [same]
  · rw [same]
  · rw [same]

theorem code_laterPieces {others : List Text} {pair : Text × Text}
    (member : pair ∈ laterPieces others) :
    pair.1 = " OR tags LIKE ".toList ∨ pair.1 = ") OR (tags = ".toList := by
  obtain ⟨tag, _other, inside⟩ := List.mem_flatMap.mp member
  cases inside with
  | head => exact Or.inr rfl
  | tail _ later => exact Or.inl (code_tail [] later)

/-- The clause is read as what it means, whatever the tags contain. -/
theorem predicateOf_tagsClause (tag : Text) (others : List Text) :
    Sql.predicateOf (tagsClause (tag :: others)) [] = some (tagsPredicate tag others) := by
  have pieces : ∀ pair ∈ (tagPieces "(tags = ".toList tag).tail ++ laterPieces others,
      pair.1 ≠ [] ∧ '\'' ∉ pair.1 := by
    intro pair member
    have code : pair.1 = " OR tags LIKE ".toList ∨ pair.1 = ") OR (tags = ".toList := by
      cases List.mem_append.mp member with
      | inl own => exact Or.inl (code_tail _ own)
      | inr later => exact code_laterPieces later
    cases code with
    | inl same =>
        rw [same]
        decide
    | inr same =>
        rw [same]
        decide
  have parts : Sql.partsOf (Sql.assemble (tagPieces "(tags = ".toList tag ++ laterPieces others)
      ")".toList) = some (Sql.assembledParts (tagPieces "(tags = ".toList tag ++
        laterPieces others) ")".toList) :=
    Sql.partsOf_assemble (by decide) (fun pair member => (pieces pair member).1)
      (fun pair member => (pieces pair member).2) (by decide)
  unfold Sql.predicateOf
  rw [tagsClause_assemble, parts, Option.bind_some, lexemes_tagsClause, Option.bind_some,
    bind_tagsLexemes, Option.bind_some, readWhole_tagsLexemes]

/-! ### One entry for each note -/

/-- A row of the table from which an entry may be made. -/
def takesRow (env : Env) (cleanTags : List Text) (matchAll : Bool) (stored : Text) : Bool :=
  cleanTags.any (fun tag => takesTags tag stored) && passesAll env cleanTags matchAll stored

/-- The entries after some rows: one for each note with a row that is taken, in the order of the
first rows. -/
structure Collected (env : Env) (takes : ChunkWithVector → Bool) (rows : List ChunkWithVector)
    (notes : List TaggedNote) : Prop where
  made : ∀ note ∈ notes, ∃ row ∈ rows, takes row = true ∧ note = taggedNote env row
  complete : ∀ row ∈ rows, takes row = true → row.notePath ∈ notes.map (·.path)
  ordered : notes.Pairwise (fun left right =>
    (rows.map (·.notePath)).idxOf left.path < (rows.map (·.notePath)).idxOf right.path)

namespace Collected

variable {env : Env} {takes : ChunkWithVector → Bool} {rows : List ChunkWithVector}
  {notes : List TaggedNote}

theorem known (collected : Collected env takes rows notes) :
    ∀ note ∈ notes, note.path ∈ rows.map (·.notePath) := by
  intro note member
  obtain ⟨row, present, _taken, same⟩ := collected.made note member
  rw [same]
  exact List.mem_map_of_mem present

/-- Further rows leave the order of the entries as it is. -/
theorem ordered_append (collected : Collected env takes rows notes) (row : ChunkWithVector) :
    notes.Pairwise (fun left right =>
      ((rows ++ [row]).map (·.notePath)).idxOf left.path <
        ((rows ++ [row]).map (·.notePath)).idxOf right.path) := by
  apply collected.ordered.imp_of_mem
  intro left right isLeft isRight before
  rw [List.map_append, List.idxOf_append_of_mem (collected.known left isLeft),
    List.idxOf_append_of_mem (collected.known right isRight)]
  exact before

theorem made_append (collected : Collected env takes rows notes) (row : ChunkWithVector) :
    ∀ note ∈ notes, ∃ other ∈ rows ++ [row], takes other = true ∧ note = taggedNote env other := by
  intro note member
  obtain ⟨other, present, taken, same⟩ := collected.made note member
  exact ⟨other, List.mem_append_left _ present, taken, same⟩

/-- A row that is not taken, or of a note that has its entry, changes nothing. -/
theorem skip (collected : Collected env takes rows notes) {row : ChunkWithVector}
    (covered : takes row = true → row.notePath ∈ notes.map (·.path)) :
    Collected env takes (rows ++ [row]) notes := by
  constructor
  · exact collected.made_append row
  · intro other member taken
    cases List.mem_append.mp member with
    | inl earlier => exact collected.complete other earlier taken
    | inr last =>
        rw [List.mem_singleton.mp last] at taken ⊢
        exact covered taken
  · exact collected.ordered_append row

/-- The first row of a note that is taken makes its entry. -/
theorem add (collected : Collected env takes rows notes) {row : ChunkWithVector}
    (taken : takes row = true) (alike : ∀ other ∈ rows, other.notePath = row.notePath →
      takes other = takes row) (fresh : row.notePath ∉ notes.map (·.path)) :
    Collected env takes (rows ++ [row]) (notes ++ [taggedNote env row]) := by
  have unseen : row.notePath ∉ rows.map (·.notePath) := by
    intro member
    obtain ⟨other, present, same⟩ := List.mem_map.mp member
    have alsoTaken := (alike other present same).trans taken
    have covered := collected.complete other present alsoTaken
    rw [same] at covered
    exact fresh covered
  constructor
  · intro note member
    cases List.mem_append.mp member with
    | inl earlier => exact collected.made_append row note earlier
    | inr last =>
        exact ⟨row, List.mem_append_right _ List.mem_cons_self, taken, List.mem_singleton.mp last⟩
  · intro other member isTaken
    rw [List.map_append]
    cases List.mem_append.mp member with
    | inl earlier => exact List.mem_append_left _ (collected.complete other earlier isTaken)
    | inr last =>
        rw [List.mem_singleton.mp last]
        exact List.mem_append_right _ List.mem_cons_self
  · rw [List.pairwise_append]
    refine ⟨collected.ordered_append row, List.pairwise_singleton _ _, ?_⟩
    intro left isLeft right isRight
    have inside := List.idxOf_lt_length_of_mem (collected.known left isLeft)
    have path : (taggedNote env row).path = row.notePath := rfl
    rw [List.mem_singleton.mp isRight, path, List.map_append,
      List.idxOf_append_of_mem (collected.known left isLeft), List.idxOf_append_of_notMem unseen]
    omega

end Collected

/-- The loop over the rows that the engine gives keeps one entry for each note. -/
theorem collectTagged_collected (env : Env) (cleanTags : List Text) (matchAll : Bool)
    (later : List ChunkWithVector) :
    ∀ rows notes, Collected env (fun row => takesRow env cleanTags matchAll row.tags) rows notes →
      (∀ first ∈ rows ++ later, ∀ second ∈ rows ++ later, first.notePath = second.notePath →
        first.tags = second.tags) →
      Collected env (fun row => takesRow env cleanTags matchAll row.tags) (rows ++ later)
        (collectTagged env cleanTags matchAll notes
          (later.filter (fun row => cleanTags.any (fun tag => takesTags tag row.tags)))) := by
  induction later with
  | nil =>
      intro rows notes collected _alike
      rw [List.append_nil]
      exact collected
  | cons row later ih =>
      intro rows notes collected alike
      have split : rows ++ row :: later = (rows ++ [row]) ++ later := by simp
      rw [split] at alike ⊢
      have skipped : (takesRow env cleanTags matchAll row.tags = true →
          row.notePath ∈ notes.map (·.path)) →
          Collected env (fun row => takesRow env cleanTags matchAll row.tags)
            (rows ++ [row] ++ later) (collectTagged env cleanTags matchAll notes
              (later.filter (fun row => cleanTags.any (fun tag => takesTags tag row.tags)))) :=
        fun covered => ih _ _ (collected.skip covered) alike
      cases given : cleanTags.any (fun tag => takesTags tag row.tags) with
      | false =>
          rw [List.filter_cons, given, if_neg Bool.false_ne_true]
          apply skipped
          intro taken
          unfold takesRow at taken
          rw [given] at taken
          cases taken
      | true =>
          rw [List.filter_cons, given, if_pos rfl, collectTagged]
          by_cases known : (notes.map (·.path)).contains row.notePath = true
          · rw [if_pos known]
            exact skipped (fun _taken => List.contains_iff_mem.mp known)
          · rw [if_neg known]
            by_cases passes : passesAll env cleanTags matchAll row.tags = true
            · rw [if_pos passes]
              have taken : takesRow env cleanTags matchAll row.tags = true := by
                unfold takesRow
                rw [given, passes]
                rfl
              apply ih _ _ _ alike
              apply collected.add taken
              · intro other member same
                have sameTags := alike other (by simp [member]) row (by simp) same
                rw [sameTags]
              · exact fun member => known (List.contains_iff_mem.mpr member)
            · rw [if_neg passes]
              apply skipped
              intro taken
              unfold takesRow at taken
              rw [given, Bool.true_and] at taken
              exact absurd taken passes

end VaultSearch
