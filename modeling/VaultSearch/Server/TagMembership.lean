/-
When `search_by_tags` returns exactly the notes that have the requested tags.

A note is stored with one text for its tags, in the spelling of the note.  The tool compares
requested tags in lower case with that text, so a tag with a capital letter is not found, and a
requested tag is a pattern there.  Where the text and the tags of every note agree about the
request, the tool is right; where they do not, it is right only if the cut hides the note.
-/

import Mathlib.Data.List.Dedup
import VaultSearch.Core.EmbedRequests
import VaultSearch.Core.Rebuild
import VaultSearch.Server.TagSearch

set_option autoImplicit false

namespace VaultSearch

/-! ### The notes of an index -/

abbrev Note := Text × File

def noteResults (env : Env) (vault : Vault) : List (Text × ParseResult) :=
  vault.files.map (fun note => (note.1, truncateChunks env (parseFileResult env note.1 note.2)))

/-- The chunk table holds the rows of the parsed notes of a vault, in any order. -/
def BuiltFrom (env : Env) (vault : Vault) (table : List ChunkWithVector) : Prop :=
  (table.map ChunkWithVector.toChunkRecord).Perm (builtChunks (noteResults env vault))

def isIndexed (env : Env) (note : Note) : Bool :=
  (parseFileResult env note.1 note.2).status = .success

/-- When a note was modified, as it is stored. -/
def modifiedStamp (env : Env) (note : Note) : Text :=
  env.isoformat note.2.mtime

/-- The tags of a note as they are stored. -/
def storedTags (env : Env) (note : Note) : Text :=
  Text.join ", ".toList (fileTags env note.1 note.2)

/-- A row carries the path, the time and the tags of an indexed note. -/
structure RowOf (env : Env) (note : Note) (row : ChunkRecord) : Prop where
  path : row.notePath = note.1
  folder : row.folder = PurePath.folder note.1
  stamp : row.modifiedAt = modifiedStamp env note
  tags : row.tags = storedTags env note

theorem collectsOnly_rowOf (env : Env) {note : Note} (normal : IsNormalPath note.1) :
    CollectsOnly env (extractFileMetadata env note.1 note.2)
      (Text.join ", ".toList (fileTags env note.1 note.2)) (RowOf env note) := by
  intro text headers title fields chunk member
  obtain ⟨part, _present, made⟩ := List.mem_filterMap.mp member
  split at made
  case isTrue => cases made
  case isFalse =>
    rw [← Option.some.inj made]
    constructor
    · exact normal
    · rfl
    · rfl
    · rfl

theorem mem_builtChunks (env : Env) (vault : Vault) (row : ChunkRecord) :
    row ∈ builtChunks (noteResults env vault) ↔ ∃ note ∈ vault.files, isIndexed env note = true ∧
      row ∈ (truncateChunks env (parseFileResult env note.1 note.2)).chunks := by
  unfold builtChunks indexedResults noteResults isIndexed
  rw [List.mem_flatMap]
  constructor
  · intro found
    obtain ⟨entry, listed, inside⟩ := found
    obtain ⟨present, success⟩ := List.mem_filter.mp listed
    obtain ⟨note, member, same⟩ := List.mem_map.mp present
    rw [← same] at success inside
    exact ⟨note, member, success, inside⟩
  · intro found
    obtain ⟨note, member, success, inside⟩ := found
    exact ⟨_, List.mem_filter.mpr ⟨List.mem_map_of_mem member, success⟩, inside⟩

section Built

variable {env : Env} {vault : Vault} {table : List ChunkWithVector}
  (built : BuiltFrom env vault table)

include built

theorem BuiltFrom.row_note {row : ChunkWithVector} (member : row ∈ table) :
    ∃ note ∈ vault.files, isIndexed env note = true ∧ RowOf env note row.toChunkRecord := by
  have listed := built.subset (List.mem_map_of_mem (f := ChunkWithVector.toChunkRecord) member)
  obtain ⟨note, present, indexed, inside⟩ := (mem_builtChunks env vault _).mp listed
  have normal := vault.normal note.1 (List.mem_map_of_mem (f := Prod.fst) present)
  exact ⟨note, present, indexed,
    parseFileResult_forall (collectsOnly_rowOf env normal) _ (List.mem_of_mem_take inside)⟩

theorem BuiltFrom.note_row {note : Note} (member : note ∈ vault.files)
    (indexed : isIndexed env note = true) : ∃ row ∈ table, RowOf env note row.toChunkRecord := by
  have filled : (truncateChunks env (parseFileResult env note.1 note.2)).chunks ≠ [] := by
    have some := (parseFileResult_counted env note.1 note.2).mp (of_decide_eq_true indexed)
    have positive := env.config.maxChunksPositive
    unfold truncateChunks
    intro empty
    rcases List.take_eq_nil_iff.mp empty with zero | none
    · omega
    · exact some none
  obtain ⟨chunk, inside⟩ := List.exists_mem_of_ne_nil _ filled
  have listed := built.symm.subset ((mem_builtChunks env vault chunk).mpr
    ⟨note, member, indexed, inside⟩)
  obtain ⟨row, present, same⟩ := List.mem_map.mp listed
  have normal := vault.normal note.1 (List.mem_map_of_mem (f := Prod.fst) member)
  refine ⟨row, present, ?_⟩
  rw [same]
  exact parseFileResult_forall (collectsOnly_rowOf env normal) _ (List.mem_of_mem_take inside)

end Built

theorem Vault.eq_of_path (vault : Vault) {left right : Note} (isLeft : left ∈ vault.files)
    (isRight : right ∈ vault.files) (same : left.1 = right.1) : left = right :=
  List.inj_on_of_nodup_map vault.distinct isLeft isRight same

theorem Vault.eq_of_paths (vault : Vault) {left right : List Note}
    (inLeft : ∀ note ∈ left, note ∈ vault.files) (inRight : ∀ note ∈ right, note ∈ vault.files)
    (same : left.map Prod.fst = right.map Prod.fst) : left = right := by
  induction left generalizing right with
  | nil => exact (List.map_eq_nil_iff.mp same.symm).symm
  | cons head tail ih =>
      cases right with
      | nil => cases same
      | cons twin others =>
          obtain ⟨sameHead, sameTail⟩ := List.cons.inj same
          have heads := vault.eq_of_path (inLeft head List.mem_cons_self)
            (inRight twin List.mem_cons_self) sameHead
          have tails := ih (fun note member => inLeft note (List.mem_cons_of_mem _ member))
            (fun note member => inRight note (List.mem_cons_of_mem _ member)) sameTail
          rw [heads, tails]

theorem BuiltFrom.alike {env : Env} {vault : Vault} {table : List ChunkWithVector}
    (built : BuiltFrom env vault table) {first second : ChunkWithVector} (isFirst : first ∈ table)
    (isSecond : second ∈ table) (same : first.notePath = second.notePath) :
    first.tags = second.tags := by
  obtain ⟨left, isLeft, _indexed, ofLeft⟩ := built.row_note isFirst
  obtain ⟨right, isRight, _alsoIndexed, ofRight⟩ := built.row_note isSecond
  have notes := vault.eq_of_path isLeft isRight (by rw [← ofLeft.path, ← ofRight.path, same])
  rw [ofLeft.tags, ofRight.tags, notes]

/-! ### What is asked of the tool -/

/-- The own tags of a note, compared without regard to case, are among the requested ones. -/
def hasTags (env : Env) (requested : List Text) (matchAll : Bool) (note : Note) : Bool :=
  let folded := (fileTags env note.1 note.2).map env.lower
  if matchAll then requested.all folded.contains else requested.any folded.contains

/-- The newest of the indexed notes with the requested tags, or a refusal where nothing is
requested. -/
def ListsExactly (env : Env) (vault : Vault) (tags : List Text) (matchAll : Bool) (limit : Int) :
    Except ToolError (List TaggedNote) → Prop
  | .error _ => requestedTags env tags = []
  | .ok notes => requestedTags env tags ≠ [] ∧
      ∃ cut, Ranking.CutOf (fun note => OrderDual.toDual (modifiedStamp env note))
        (vault.files.filter (fun note =>
          isIndexed env note && hasTags env (requestedTags env tags) matchAll note))
        (tagLimit limit) cut ∧ notes.map (·.path) = cut.map Prod.fst

/-- An indexed note whose stored text the tool takes for the requested tags. -/
def isTaken (env : Env) (requested : List Text) (matchAll : Bool) (note : Note) : Bool :=
  isIndexed env note && takesRow env requested matchAll (storedTags env note)

/-- A note is listed before another one: it is newer, or as new with an earlier first row. -/
def isAhead (env : Env) (table : List ChunkWithVector) (other note : Note) : Bool :=
  modifiedStamp env note < modifiedStamp env other ||
    (modifiedStamp env other = modifiedStamp env note &&
      (table.map (·.notePath)).idxOf other.1 < (table.map (·.notePath)).idxOf note.1)

/-- The stored text of each note agrees with its tags about the request, unless the cut hides
the note behind others that are taken. -/
structure TextsAgree (env : Env) (vault : Vault) (table : List ChunkWithVector)
    (requested : List Text) (matchAll : Bool) (limit : Nat) : Prop where
  noneAstray : ∀ note ∈ vault.files, isTaken env requested matchAll note = true →
    hasTags env requested matchAll note = true ∨
      limit ≤ vault.files.countP (fun other =>
        isTaken env requested matchAll other && isAhead env table other note)
  noneMissed : ∀ note ∈ vault.files, isIndexed env note = true →
    hasTags env requested matchAll note = true → isTaken env requested matchAll note = true ∨
      limit ≤ vault.files.countP (fun other => isTaken env requested matchAll other &&
        decide (modifiedStamp env note ≤ modifiedStamp env other))

/-! ### The entries and their notes -/

/-- The note of an entry. -/
def noteOf (vault : Vault) (entry : TaggedNote) : Note :=
  (entry.path, (vault.read entry.path).getD { text := [], mtime := 0 })

theorem Vault.read_of_mem (vault : Vault) {note : Note} (member : note ∈ vault.files) :
    vault.read note.1 = some note.2 := by
  have normal := vault.normal note.1 (List.mem_map_of_mem (f := Prod.fst) member)
  unfold Vault.read
  rw [normal]
  cases found : vault.files.lookup note.1 with
  | none =>
      have absent := List.lookup_eq_none_iff.mp found note member
      simp at absent
  | some file =>
      obtain ⟨front, back, split, _absent⟩ := List.lookup_eq_some_iff.mp found
      have inside : (note.1, file) ∈ vault.files := by
        rw [split]
        exact List.mem_append_right _ List.mem_cons_self
      rw [← vault.eq_of_path inside member rfl]

theorem noteOf_taggedNote (env : Env) (vault : Vault) {note : Note} (member : note ∈ vault.files)
    {row : ChunkWithVector} (ofNote : RowOf env note row.toChunkRecord) :
    noteOf vault (taggedNote env row) = note := by
  have path : (taggedNote env row).path = note.1 := ofNote.path
  unfold noteOf
  rw [path, vault.read_of_mem member]
  rfl

section Listing

variable (env : Env) (vault : Vault) (table : List ChunkWithVector) (requested : List Text)
  (matchAll : Bool)

/-- The entries of the notes that are taken. -/
def taggedEntries : List TaggedNote :=
  collectTagged env requested matchAll []
    (table.filter (fun row => requested.any (fun tag => takesTags tag row.tags)))

/-- Their notes, newest first. -/
def listedNotes : List Note :=
  (newestNotes (taggedEntries env table requested matchAll)).map (noteOf vault)

variable {env vault table} (built : BuiltFrom env vault table)

include built

theorem taggedEntries_collected :
    Collected env (fun row => takesRow env requested matchAll row.tags) table
      (taggedEntries env table requested matchAll) := by
  have start : Collected env (fun row => takesRow env requested matchAll row.tags) [] [] := by
    constructor
    · intro note member
      cases member
    · intro row member
      cases member
    · exact List.Pairwise.nil
  exact collectTagged_collected env requested matchAll table [] [] start
    (fun first isFirst second isSecond same => built.alike isFirst isSecond same)

theorem entry_note {entry : TaggedNote}
    (member : entry ∈ taggedEntries env table requested matchAll) :
    noteOf vault entry ∈ vault.files ∧ isTaken env requested matchAll (noteOf vault entry) = true ∧
      modifiedStamp env (noteOf vault entry) = entry.modifiedAt := by
  obtain ⟨row, present, taken, same⟩ :=
    (taggedEntries_collected requested matchAll built).made entry member
  obtain ⟨note, inVault, indexed, ofNote⟩ := built.row_note present
  rw [same, noteOf_taggedNote env vault inVault ofNote]
  refine ⟨inVault, ?_, ofNote.stamp.symm⟩
  unfold isTaken
  rw [indexed, ← ofNote.tags]
  exact taken

theorem mem_listedNotes (note : Note) : note ∈ listedNotes env vault table requested matchAll ↔
    note ∈ vault.files ∧ isTaken env requested matchAll note = true := by
  unfold listedNotes newestNotes
  rw [List.mem_map]
  constructor
  · intro found
    obtain ⟨entry, listed, same⟩ := found
    have facts := entry_note requested matchAll built
      ((Ranking.sortBy_perm _ _).mem_iff.mp listed)
    rw [← same]
    exact ⟨facts.1, facts.2.1⟩
  · intro found
    obtain ⟨member, taken⟩ := found
    have parts := taken
    unfold isTaken at parts
    rw [Bool.and_eq_true] at parts
    obtain ⟨row, present, ofNote⟩ := built.note_row member parts.1
    have rowTaken : takesRow env requested matchAll row.tags = true := by
      rw [ofNote.tags]
      exact parts.2
    have covered := (taggedEntries_collected requested matchAll built).complete row present rowTaken
    obtain ⟨entry, listed, same⟩ := List.mem_map.mp covered
    refine ⟨entry, (Ranking.sortBy_perm _ _).mem_iff.mpr listed, ?_⟩
    have facts := entry_note requested matchAll built listed
    apply vault.eq_of_path facts.1 member
    change entry.path = note.1
    rw [same]
    exact ofNote.path

theorem listedNotes_strict :
    (listedNotes env vault table requested matchAll).Pairwise (fun left right =>
      toLex (OrderDual.toDual (modifiedStamp env left), (table.map (·.notePath)).idxOf left.1) <
        toLex (OrderDual.toDual (modifiedStamp env right),
          (table.map (·.notePath)).idxOf right.1)) := by
  unfold listedNotes newestNotes
  rw [List.pairwise_map]
  have ordered := (taggedEntries_collected requested matchAll built).ordered
  have strict := Ranking.sortBy_strict (fun note : TaggedNote => OrderDual.toDual note.modifiedAt)
    (fun note => (table.map (·.notePath)).idxOf note.path) ordered
  apply strict.imp_of_mem
  intro left right isLeft isRight before
  have ofLeft := entry_note requested matchAll built ((Ranking.sortBy_perm _ _).mem_iff.mp isLeft)
  have ofRight := entry_note requested matchAll built ((Ranking.sortBy_perm _ _).mem_iff.mp isRight)
  rw [ofLeft.2.2, ofRight.2.2]
  exact before

theorem listedNotes_perm : (listedNotes env vault table requested matchAll).Perm
    (vault.files.filter (isTaken env requested matchAll)) := by
  rw [List.perm_ext_iff_of_nodup]
  · intro note
    rw [mem_listedNotes requested matchAll built, List.mem_filter]
  · exact Ranking.nodup_of_strict (listedNotes_strict requested matchAll built)
  · exact (vault.distinct.of_map _).filter _

theorem countP_listedNotes (test : Note → Bool) :
    (listedNotes env vault table requested matchAll).countP test =
      vault.files.countP (fun other => isTaken env requested matchAll other && test other) := by
  rw [(listedNotes_perm requested matchAll built).countP_eq, List.countP_filter]
  apply List.countP_congr
  intro note _member
  rw [Bool.and_comm]

end Listing

/-! ### When the tool is right -/

theorem decide_isAhead (env : Env) (table : List ChunkWithVector) (other note : Note) :
    decide (toLex (OrderDual.toDual (modifiedStamp env other),
        (table.map (·.notePath)).idxOf other.1) <
      toLex (OrderDual.toDual (modifiedStamp env note), (table.map (·.notePath)).idxOf note.1)) =
      isAhead env table other note := by
  unfold isAhead
  rw [Bool.eq_iff_iff, decide_eq_true_eq, Prod.Lex.toLex_lt_toLex, OrderDual.toDual_lt_toDual,
    OrderDual.toDual_inj, Bool.or_eq_true, Bool.and_eq_true, decide_eq_true_eq, decide_eq_true_eq,
    decide_eq_true_eq]

theorem searchByTags_ok (env : Env) (table : List ChunkWithVector) {tags : List Text}
    (few : tags.length ≤ 20) (matchAll : Bool) (limit : Int)
    (filled : requestedTags env tags ≠ []) :
    searchByTags env table tags matchAll limit =
      .ok ((newestNotes (taggedEntries env table (requestedTags env tags) matchAll)).take
        (tagLimit limit)) := by
  have someTags : ¬ tags.isEmpty = true := by
    intro empty
    rw [List.isEmpty_iff] at empty
    rw [empty] at filled
    exact filled rfl
  have someClean : ¬ (requestedTags env tags).isEmpty = true :=
    fun empty => filled (List.isEmpty_iff.mp empty)
  have short : (requestedTags env tags).length ≤ 20 := by
    apply le_trans (List.length_filter_le _ _)
    rw [List.length_map]
    exact few
  unfold searchByTags
  rw [if_neg someTags]
  dsimp only
  rw [if_neg someClean, List.take_of_length_le short]
  cases table with
  | nil =>
      rw [List.isEmpty_nil, if_pos rfl]
      unfold taggedEntries newestNotes Ranking.sortBy
      simp [collectTagged]
  | cons row rows =>
      rw [List.isEmpty_cons, if_neg Bool.false_ne_true]
      cases shape : requestedTags env tags with
      | nil => exact absurd shape filled
      | cons tag others =>
          rw [predicateOf_tagsClause]
          unfold taggedEntries
          simp only [tagsPredicate_holds]

theorem listsExactly_iff {env : Env} {vault : Vault} {table : List ChunkWithVector}
    (built : BuiltFrom env vault table) {tags : List Text} (few : tags.length ≤ 20)
    (matchAll : Bool) (limit : Int) (filled : requestedTags env tags ≠ []) :
    ListsExactly env vault tags matchAll limit (searchByTags env table tags matchAll limit) ↔
      Ranking.CutOf (fun note => OrderDual.toDual (modifiedStamp env note))
        (vault.files.filter (fun note =>
          isIndexed env note && hasTags env (requestedTags env tags) matchAll note))
        (tagLimit limit)
        ((listedNotes env vault table (requestedTags env tags) matchAll).take (tagLimit limit)) := by
  have paths : ((newestNotes (taggedEntries env table (requestedTags env tags) matchAll)).take
      (tagLimit limit)).map (·.path) = ((listedNotes env vault table (requestedTags env tags)
        matchAll).take (tagLimit limit)).map Prod.fst := by
    unfold listedNotes
    rw [List.map_take, List.map_take, List.map_map]
    rfl
  rw [searchByTags_ok env table few matchAll limit filled, ListsExactly, paths]
  constructor
  · intro lists
    obtain ⟨_filled, cut, isCut, same⟩ := lists
    have equal : (listedNotes env vault table (requestedTags env tags) matchAll).take
        (tagLimit limit) = cut := by
      apply vault.eq_of_paths _ _ same
      · intro note inside
        exact ((mem_listedNotes _ matchAll built note).mp (List.mem_of_mem_take inside)).1
      · intro note inside
        obtain ⟨arranged, isWanted, _ordered, isCut⟩ := isCut
        rw [← isCut] at inside
        exact (List.mem_filter.mp (isWanted.subset (List.mem_of_mem_take inside))).1
    rw [equal]
    exact isCut
  · intro isCut
    exact ⟨filled, _, isCut, rfl⟩

theorem listsExactly_iff_agree {env : Env} {vault : Vault} {table : List ChunkWithVector}
    (built : BuiltFrom env vault table) {tags : List Text} (few : tags.length ≤ 20)
    (matchAll : Bool) (limit : Int) (filled : requestedTags env tags ≠ []) :
    ListsExactly env vault tags matchAll limit (searchByTags env table tags matchAll limit) ↔
      TextsAgree env vault table (requestedTags env tags) matchAll (tagLimit limit) := by
  have wantedNodup : (vault.files.filter (fun note =>
      isIndexed env note && hasTags env (requestedTags env tags) matchAll note)).Nodup :=
    (vault.distinct.of_map _).filter _
  rw [listsExactly_iff built few matchAll limit filled,
    Ranking.cutOf_take_iff (listedNotes_strict _ matchAll built) wantedNodup]
  simp only [countP_listedNotes _ matchAll built, mem_listedNotes _ matchAll built,
    List.mem_filter, Bool.and_eq_true]
  constructor
  · intro agree
    constructor
    · intro note member taken
      have astray := agree.1 note ⟨member, taken⟩
      simp only [decide_isAhead] at astray
      exact astray.imp_left (fun wanted => wanted.2.2)
    · intro note member indexed wanted
      exact (agree.2 note ⟨member, indexed, wanted⟩).imp_left (fun listed => listed.2)
  · intro agrees
    constructor
    · intro note listed
      simp only [decide_isAhead]
      apply (agrees.noneAstray note listed.1 listed.2).imp_left
      intro wanted
      have indexed := listed.2
      unfold isTaken at indexed
      rw [Bool.and_eq_true] at indexed
      exact ⟨listed.1, indexed.1, wanted⟩
    · intro note wanted
      apply (agrees.noneMissed note wanted.1 wanted.2.1 wanted.2.2).imp_left
      exact fun taken => ⟨wanted.1, taken⟩

/-! ### Plain tags -/

/-- No comma and no character with a meaning of its own in a pattern. -/
def PlainTag (tag : Text) : Prop :=
  ',' ∉ tag ∧ tag.any Sql.isSpecial = false

instance (tag : Text) : Decidable (PlainTag tag) :=
  inferInstanceAs (Decidable (_ ∧ _))

/-- The tags of a note are stripped and not empty. -/
structure TagList (tags : List Text) : Prop where
  stripped : ∀ tag ∈ tags, Text.strip tag = tag
  filled : ∀ tag ∈ tags, tag ≠ []

theorem tagList_strip (parts : List Text) :
    TagList ((parts.map Text.strip).filter (fun tag => !tag.isEmpty)) := by
  constructor
  · intro tag member
    obtain ⟨part, _present, same⟩ := List.mem_map.mp (List.mem_filter.mp member).1
    rw [← same, Text.strip_strip]
  · intro tag member empty
    have kept := (List.mem_filter.mp member).2
    rw [empty] at kept
    cases kept

theorem tagList_nil : TagList [] := by
  constructor
  · intro tag member
    cases member
  · intro tag member
    cases member

theorem extractTags_tagList {env : Env} {metadata : Mapping} {tags : List Text}
    (read : extractTags env metadata = .ok tags) : TagList tags := by
  unfold extractTags at read
  split at read
  · rw [← Except.ok.inj read]
    exact tagList_strip _
  case h_2 items _found =>
    cases shown : printAll env items with
    | error error =>
        rw [shown] at read
        cases read
    | ok parts =>
        rw [shown] at read
        rw [← Except.ok.inj read]
        exact tagList_strip parts
  · rw [← Except.ok.inj read]
    exact tagList_nil

theorem tagsRead_tagList (env : Env) (content : Text) :
    TagList ((tagsRead env content).toOption.getD []) := by
  cases read : tagsRead env content with
  | error error => exact tagList_nil
  | ok tags =>
      unfold tagsRead at read
      cases divided : parseFrontmatter env content with
      | error error =>
          rw [divided] at read
          cases read
      | ok parts =>
          rw [divided] at read
          change extractTags env parts.1 = .ok tags at read
          exact extractTags_tagList read

theorem fileTags_tagList (env : Env) (path : Text) (file : File) :
    TagList (fileTags env path file) := by
  unfold fileTags
  cases formatOf env path with
  | none => exact tagList_nil
  | some format =>
      change TagList (format.tags env file)
      cases format with
      | markdown =>
          rw [Format.tags]
          exact tagsRead_tagList env file.readText
      | mdx =>
          rw [Format.tags]
          exact tagsRead_tagList env (cleanMdx file.readText)
      | canvas => exact tagList_nil
      | pdf => exact tagList_nil

theorem takesTags_iff {tag : Text} (plain : ∀ char ∈ tag, Sql.isSpecial char = false)
    (stored : Text) : takesTags tag stored = true ↔ stored = tag ∨ tag ++ ", ".toList <+: stored ∨
      ", ".toList ++ tag <:+ stored ∨ ", ".toList ++ tag ++ ", ".toList <:+: stored := by
  have many : ∀ rest, Sql.readLike '\\' ("%, ".toList ++ tag ++ rest) =
      (Sql.readLike '\\' rest).map
        (fun read => .many :: ((", ".toList ++ tag).map .exact ++ read)) := by
    intro rest
    have behind : ∀ char ∈ ", ".toList ++ tag, Sql.isSpecial char = false := by
      intro char member
      cases List.mem_append.mp member with
      | inl comma =>
          have known : char = ',' ∨ char = ' ' := by simpa using comma
          cases known with
          | inl same =>
              rw [same]
              rfl
          | inr same =>
              rw [same]
              rfl
      | inr inTag => exact plain char inTag
    have shape : "%, ".toList ++ tag ++ rest = '%' :: (", ".toList ++ tag ++ rest) := rfl
    rw [shape, Sql.readLike_many (by decide), Sql.readLike_literal behind, Option.map_map]
    rfl
  have begins : Sql.readLike '\\' (tag ++ ", %".toList) =
      some ((tag ++ ", ".toList).map .exact ++ [.many]) := by
    rw [Sql.readLike_literal plain]
    simp [Sql.readLike]
  have ends : Sql.readLike '\\' ("%, ".toList ++ tag) =
      some (.many :: (", ".toList ++ tag).map .exact) := by
    have whole := many []
    rw [List.append_nil] at whole
    rw [whole]
    simp [Sql.readLike]
  have inside : Sql.readLike '\\' ("%, ".toList ++ tag ++ ", %".toList) =
      some (.many :: ((", ".toList ++ tag ++ ", ".toList).map .exact ++ [.many])) := by
    rw [many]
    simp [Sql.readLike]
  unfold takesTags Sql.exactLike
  rw [begins, ends, inside]
  simp only [Bool.or_eq_true, beq_iff_eq, Sql.exactMatches_begins, Sql.exactMatches_ends,
    Sql.exactMatches_inside]

/-- Among tags without commas a plain tag is taken exactly if it is one of them. -/
theorem takesTags_join_iff {tag : Text} (plain : PlainTag tag) (filled : tag ≠ [])
    {own : List Text} (free : ∀ other ∈ own, ',' ∉ other) :
    takesTags tag (Text.join ", ".toList own) = true ↔ tag ∈ own := by
  have literal : ∀ char ∈ tag, Sql.isSpecial char = false := by
    intro char member
    exact Bool.eq_false_iff.mpr (List.any_eq_false.mp plain.2 char member)
  rw [takesTags_iff literal]
  constructor
  · intro taken
    cases own with
    | nil =>
        exfalso
        rcases taken with same | begins | ends | inside
        · exact filled same.symm
        · have short := begins.length_le
          simp [Text.join] at short
        · have short := ends.length_le
          simp [Text.join] at short
        · have short := inside.length_le
          simp [Text.join] at short
    | cons first others =>
        have between : (first :: others).flatMap (", ".toList ++ ·) ++ ", ".toList =
            ", ".toList ++ (Text.join ", ".toList (first :: others) ++ ", ".toList) := by
          have middle := @Text.join_middle ", ".toList [] first others
          rw [List.nil_append] at middle
          rw [middle]
          simp
        apply @Text.mem_of_infix_between ',' [' '] tag (by decide) plain.1 _ free
        change ", ".toList ++ (tag ++ ", ".toList) <:+:
          (first :: others).flatMap (", ".toList ++ ·) ++ ", ".toList
        rw [between]
        rcases taken with same | ⟨back, same⟩ | ⟨front, same⟩ | ⟨front, back, same⟩
        · rw [same]
        · exact ⟨[], back ++ ", ".toList, by rw [← same]; simp⟩
        · exact ⟨", ".toList ++ front, [], by rw [← same]; simp⟩
        · exact ⟨", ".toList ++ front, back ++ ", ".toList, by rw [← same]; simp⟩
  · intro member
    obtain ⟨front, back, split⟩ := List.append_of_mem member
    rw [split, Text.join_middle]
    rcases List.eq_nil_or_concat front with noFront | ⟨earlier, last, isFront⟩
    · rw [noFront]
      cases back with
      | nil => exact Or.inl (by simp)
      | cons next later =>
          exact Or.inr (Or.inl ⟨next ++ later.flatMap (", ".toList ++ ·), by simp⟩)
    · rw [isFront]
      cases back with
      | nil =>
          exact Or.inr (Or.inr (Or.inl ⟨earlier.flatMap (· ++ ", ".toList) ++ last, by simp⟩))
      | cons next later =>
          exact Or.inr (Or.inr (Or.inr ⟨earlier.flatMap (· ++ ", ".toList) ++ last,
            next ++ later.flatMap (", ".toList ++ ·), by simp⟩))

/-- Tags without commas are split as they were joined. -/
theorem mem_splitTags_join (env : Env) {own : List Text} (tagList : TagList own)
    (free : ∀ tag ∈ own, ',' ∉ tag) (tag : Text) :
    tag ∈ splitTags env (Text.join ", ".toList own) ↔ tag ∈ own.map env.lower := by
  unfold splitTags
  rw [List.mem_dedup]
  cases own with
  | nil => rfl
  | cons first others =>
      have parts : Text.split ",".toList (Text.join ", ".toList (first :: others)) =
          first :: others.map ([' '] ++ ·) :=
        Text.split_join first others free (by decide)
      have spaced : ∀ part ∈ first :: others, Text.strip ([' '] ++ part) = part := by
        intro part member
        rw [Text.strip_append_of_blank (by decide)]
        exact tagList.stripped part member
      have stripped : (first :: others.map ([' '] ++ ·)).map Text.strip = first :: others := by
        have later : others.map (Text.strip ∘ ([' '] ++ ·)) = others.map id :=
          List.map_congr_left (fun part member => spaced part (List.mem_cons_of_mem _ member))
        rw [List.map_cons, List.map_map, tagList.stripped first List.mem_cons_self, later,
          List.map_id]
      have kept : (first :: others).filter (fun tag => !tag.isEmpty) = first :: others := by
        rw [List.filter_eq_self]
        intro part member
        have some := tagList.filled part member
        cases part with
        | nil => exact absurd rfl some
        | cons head tail => rfl
      rw [parts, stripped, kept]

/-- The stored text and the tags of a note agree about plain requests if the tags are in lower
case and have no commas. -/
theorem takesRow_eq_hasTags {env : Env} {requested : List Text} (some : requested ≠ [])
    (plain : ∀ tag ∈ requested, tag ≠ [] ∧ PlainTag tag) {note : Note}
    (lower : ∀ tag ∈ fileTags env note.1 note.2, env.lower tag = tag ∧ ',' ∉ tag)
    (matchAll : Bool) :
    takesRow env requested matchAll (storedTags env note) =
      hasTags env requested matchAll note := by
  have tagList := fileTags_tagList env note.1 note.2
  have free : ∀ tag ∈ fileTags env note.1 note.2, ',' ∉ tag := fun tag member => (lower tag member).2
  have folded : (fileTags env note.1 note.2).map env.lower = fileTags env note.1 note.2 := by
    rw [List.map_congr_left (fun tag member => (lower tag member).1), List.map_id']
  have taken : ∀ tag ∈ requested, takesTags tag (storedTags env note) =
      (fileTags env note.1 note.2).contains tag := by
    intro tag member
    rw [Bool.eq_iff_iff, List.contains_iff_mem]
    exact takesTags_join_iff (plain tag member).2 (plain tag member).1 free
  have split : ∀ tag, (splitTags env (storedTags env note)).contains tag =
      (fileTags env note.1 note.2).contains tag := by
    intro tag
    rw [Bool.eq_iff_iff, List.contains_iff_mem, List.contains_iff_mem]
    unfold storedTags
    rw [mem_splitTags_join env tagList free tag, folded]
  unfold takesRow hasTags passesAll
  dsimp only
  rw [folded]
  simp only [split]
  have anyTaken : requested.any (fun tag => takesTags tag (storedTags env note)) =
      requested.any (fileTags env note.1 note.2).contains := by
    apply Bool.eq_iff_iff.mpr
    simp only [List.any_eq_true]
    constructor
    · intro found
      obtain ⟨tag, member, holds⟩ := found
      exact ⟨tag, member, (taken tag member) ▸ holds⟩
    · intro found
      obtain ⟨tag, member, holds⟩ := found
      exact ⟨tag, member, (taken tag member).trans holds⟩
  rw [anyTaken]
  cases matchAll with
  | false => simp
  | true =>
      cases requested with
      | nil => exact absurd rfl some
      | cons tag others =>
          rw [Bool.not_true, Bool.false_or, if_pos rfl, List.any_cons, List.all_cons]
          cases (fileTags env note.1 note.2).contains tag with
          | false => simp
          | true => rfl

theorem requestedTags_filled {env : Env} {tags : List Text} {tag : Text}
    (member : tag ∈ requestedTags env tags) : tag ≠ [] := by
  intro empty
  have kept := (List.mem_filter.mp member).2
  rw [empty] at kept
  cases kept

/-- With tags in lower case and without commas, the tool is right about every plain request. -/
theorem textsAgree_of_plain {env : Env} {vault : Vault} (table : List ChunkWithVector)
    {tags : List Text} (filled : requestedTags env tags ≠ [])
    (plain : ∀ tag ∈ requestedTags env tags, PlainTag tag)
    (lower : ∀ note ∈ vault.files, ∀ tag ∈ fileTags env note.1 note.2,
      env.lower tag = tag ∧ ',' ∉ tag) (matchAll : Bool) (limit : Nat) :
    TextsAgree env vault table (requestedTags env tags) matchAll limit := by
  have same : ∀ note ∈ vault.files, takesRow env (requestedTags env tags) matchAll
      (storedTags env note) = hasTags env (requestedTags env tags) matchAll note := by
    intro note member
    exact takesRow_eq_hasTags filled
      (fun tag inside => ⟨requestedTags_filled inside, plain tag inside⟩) (lower note member) matchAll
  constructor
  · intro note member taken
    unfold isTaken at taken
    rw [Bool.and_eq_true, same note member] at taken
    exact Or.inl taken.2
  · intro note member indexed wanted
    left
    unfold isTaken
    rw [indexed, same note member, wanted]
    rfl

/-! ### The tool -/

/-- A table that holds the rows of a vault in the order of its files, each with a vector. -/
def tableOf (env : Env) (vault : Vault) (vector : Vector32) : List ChunkWithVector :=
  (builtChunks (noteResults env vault)).map (fun chunk => { toChunkRecord := chunk, vector })

theorem builtFrom_tableOf (env : Env) (vault : Vault) (vector : Vector32) :
    BuiltFrom env vault (tableOf env vault vector) := by
  have same : (tableOf env vault vector).map ChunkWithVector.toChunkRecord =
      builtChunks (noteResults env vault) := by
    unfold tableOf
    rw [List.map_map]
    exact List.map_id _
  unfold BuiltFrom
  rw [same]

/-- One line of YAML, as the parser reads it. -/
def taggedEnv : Env :=
  { Env.plain with
    safeLoad := fun text =>
      if text = "\ntags: [project]\n".toList then
        .ok (.map [(.text "tags".toList, .list [.str "project".toList])])
      else .error .yamlError }

def taggedVault : Vault :=
  { files := [("n.md".toList, { text := "---\ntags: [project]\n---\nBody".toList, mtime := 0 })]
    distinct := by decide
    normal := by
      intro path member
      rw [List.map_singleton, List.mem_singleton] at member
      rw [member]
      decide }

theorem fileTags_tagged : ∀ note ∈ taggedVault.files,
    fileTags taggedEnv note.1 note.2 = ["project".toList] := by
  intro note member
  have isNote : note = ("n.md".toList,
      { text := "---\ntags: [project]\n---\nBody".toList, mtime := 0 }) :=
    List.mem_singleton.mp member
  rw [isNote]
  decide

end VaultSearch
