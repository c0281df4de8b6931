/-
`tag_stats`: how many notes have each tag.

The tool takes the stored text of each row apart, collects the tags of a note in a set, and
counts the sets.  The stored text of a note is its tags with commas between them, so what is
counted are the parts of the tags between commas.  Each is counted once for each note at or below
the folder, whatever the order in which a set is enumerated.
-/

import VaultSearch.Server.FolderMeaning
import VaultSearch.Server.TagMembership
import VaultSearch.Store.OrderedDict

set_option autoImplicit false

namespace VaultSearch

/-- `[tag.strip() for tag in tags_str.split(",")]` without the empty ones. -/
def tagParts (stored : Text) : List Text :=
  ((Text.split ",".toList stored).map Text.strip).filter (fun tag => !tag.isEmpty)

/-- The order in which a `set` is enumerated. -/
structure SetOrder where
  enumerate : List Text → List Text
  perm : ∀ items, (enumerate items).Perm items

/-- `tags.add(tag)` -/
def addTag (tags : List Text) (tag : Text) : List Text :=
  if tags.contains tag then tags else tags ++ [tag]

/-- The loop body: the tags of a row go to the set of its note. -/
def addNoteTags (noteTags : List (Text × List Text)) (row : ChunkWithVector) :
    List (Text × List Text) :=
  OrderedDict.set noteTags row.notePath
    ((tagParts row.tags).foldl addTag ((noteTags.lookup row.notePath).getD []))

structure TagStatsResult where
  totalTags : Nat
  totalNotesWithTags : Nat
  tags : List (Text × Nat)
  deriving DecidableEq

/-- `tag_counter.most_common(limit)` -/
def mostCommon (counter : List (Text × Nat)) (limit : Nat) : List (Text × Nat) :=
  (Ranking.sortBy (fun entry => OrderDual.toDual entry.2) counter).take limit

def countTags (order : SetOrder) (rows : List ChunkWithVector) (limit : Nat) : TagStatsResult :=
  let noteTags := rows.foldl addNoteTags []
  let tagged := (noteTags.map Prod.snd).filter (fun tags => !tags.isEmpty)
  let tagCounter := OrderedDict.tally (tagged.flatMap order.enumerate)
  { totalTags := tagCounter.length
    totalNotesWithTags := tagged.length
    tags := mostCommon tagCounter limit }

def tagStatsLimit (limit : Int) : Nat :=
  (max 1 (min limit 500)).toNat

/-- `tag_stats`; an absent folder is an empty one. -/
def tagStatsTool (order : SetOrder) (table : List ChunkWithVector) (limit : Int) (folder : Text) :
    Except ToolError TagStatsResult :=
  if table.isEmpty then .ok { totalTags := 0, totalNotesWithTags := 0, tags := [] }
  else
    match tagStats.clause folder with
    | none => .ok (countTags order table (tagStatsLimit limit))
    | some clause =>
        match tagStats.predicate folder clause with
        | none => .error .internal
        | some predicate =>
            .ok (countTags order
              (table.filter (fun row => predicate.holds tagStats.likes (tagStats.columns row)))
              (tagStatsLimit limit))

/-! ### The parts of joined tags -/

theorem tagParts_spaced (text : Text) : tagParts ([' '] ++ text) = tagParts text := by
  obtain ⟨first, others, scan⟩ := @Text.splitFrom_current ",".toList (by decide) text
  have spaced : Text.split ",".toList ([' '] ++ text) = ([' '] ++ first) :: others :=
    scan [' ']
  have plain : Text.split ",".toList text = first :: others := scan []
  unfold tagParts
  rw [spaced, plain, List.map_cons, List.map_cons, Text.strip_append_of_blank (by decide)]

theorem tagParts_append (front back : Text) :
    tagParts (front ++ ",".toList ++ back) = tagParts front ++ tagParts back := by
  have split : Text.split ",".toList (front ++ ",".toList ++ back) =
      Text.split ",".toList front ++ Text.split ",".toList back := by
    rw [List.append_assoc]
    exact Text.split_append front back
  unfold tagParts
  rw [split, List.map_append, List.filter_append]

/-- The parts of the stored text are the parts of the tags. -/
theorem tagParts_join (own : List Text) :
    tagParts (Text.join ", ".toList own) = own.flatMap tagParts := by
  induction own with
  | nil => rfl
  | cons first others ih =>
      cases others with
      | nil =>
          rw [List.flatMap_singleton]
          rfl
      | cons second later =>
          have shape : Text.join ", ".toList (first :: second :: later) =
              first ++ ",".toList ++ ([' '] ++ Text.join ", ".toList (second :: later)) := by
            rw [Text.join_cons (List.cons_ne_nil _ _)]
            simp
          rw [shape, tagParts_append, tagParts_spaced, ih]
          rfl

/-! ### The sets of the notes -/

theorem mem_foldl_addTag (parts : List Text) :
    ∀ (tags : List Text) (tag : Text), tag ∈ parts.foldl addTag tags ↔ tag ∈ tags ∨ tag ∈ parts := by
  induction parts with
  | nil =>
      intro tags tag
      simp
  | cons head tail ih =>
      intro tags tag
      have added : tag ∈ addTag tags head ↔ tag ∈ tags ∨ tag = head := by
        unfold addTag
        by_cases known : tags.contains head = true
        · rw [if_pos known]
          constructor
          · exact Or.inl
          · intro either
            cases either with
            | inl inside => exact inside
            | inr same =>
                rw [same]
                exact List.contains_iff_mem.mp known
        · rw [if_neg known, List.mem_append, List.mem_singleton]
      rw [List.foldl_cons, ih, added, List.mem_cons, or_assoc]

theorem nodup_foldl_addTag (parts : List Text) :
    ∀ tags : List Text, tags.Nodup → (parts.foldl addTag tags).Nodup := by
  induction parts with
  | nil => exact fun tags distinct => distinct
  | cons head tail ih =>
      intro tags distinct
      apply ih
      unfold addTag
      by_cases known : tags.contains head = true
      · rw [if_pos known]
        exact distinct
      · rw [if_neg known]
        apply List.Nodup.append distinct (List.nodup_singleton _)
        intro tag inside same
        rw [List.mem_singleton.mp same] at inside
        exact known (List.contains_iff_mem.mpr inside)

/-- The sets after some rows: one for each note, with the parts of its rows. -/
structure TagSets (rows : List ChunkWithVector) (noteTags : List (Text × List Text)) : Prop where
  distinct : (noteTags.map Prod.fst).Nodup
  found : ∀ path tags, noteTags.lookup path = some tags → tags.Nodup ∧
    ∀ tag, tag ∈ tags ↔ ∃ row ∈ rows, row.notePath = path ∧ tag ∈ tagParts row.tags
  listed : ∀ path, path ∈ noteTags.map Prod.fst ↔ path ∈ rows.map (·.notePath)

theorem tagSets_nil : TagSets [] [] := by
  constructor
  · exact List.nodup_nil
  · intro path tags found
    cases found
  · intro path
    rfl

/-- What a set holds before a row, absent or not. -/
theorem TagSets.known {rows : List ChunkWithVector} {noteTags : List (Text × List Text)}
    (sets : TagSets rows noteTags) (path : Text) :
    ((noteTags.lookup path).getD []).Nodup ∧ ∀ tag, tag ∈ (noteTags.lookup path).getD [] ↔
      ∃ row ∈ rows, row.notePath = path ∧ tag ∈ tagParts row.tags := by
  cases found : noteTags.lookup path with
  | some tags => exact sets.found path tags found
  | none =>
      constructor
      · exact List.nodup_nil
      · intro tag
        apply iff_of_false List.not_mem_nil
        intro some
        obtain ⟨row, member, same, _inside⟩ := some
        have listed := (sets.listed path).mpr (by
          rw [← same]
          exact List.mem_map_of_mem member)
        obtain ⟨entry, present, isPath⟩ := List.mem_map.mp listed
        exact OrderedDict.lookup_eq_none.mp found entry present isPath

theorem tagSets_step {rows : List ChunkWithVector} {noteTags : List (Text × List Text)}
    (sets : TagSets rows noteTags) (row : ChunkWithVector) :
    TagSets (rows ++ [row]) (addNoteTags noteTags row) := by
  obtain ⟨distinct, members⟩ := sets.known row.notePath
  have split : ∀ path tag, (∃ other ∈ rows ++ [row], other.notePath = path ∧
      tag ∈ tagParts other.tags) ↔
      (∃ other ∈ rows, other.notePath = path ∧ tag ∈ tagParts other.tags) ∨
        row.notePath = path ∧ tag ∈ tagParts row.tags := by
    intro path tag
    simp only [List.mem_append, List.mem_singleton, or_and_right, exists_or, exists_eq_left]
  unfold addNoteTags
  constructor
  · exact OrderedDict.distinct_set sets.distinct _ _
  · intro path tags found
    rw [OrderedDict.lookup_set] at found
    by_cases same : path = row.notePath
    · rw [if_pos same] at found
      rw [← Option.some.inj found]
      refine ⟨nodup_foldl_addTag _ _ distinct, ?_⟩
      intro tag
      rw [mem_foldl_addTag, members tag, split, same]
      simp
    · rw [if_neg same] at found
      refine ⟨(sets.found path tags found).1, ?_⟩
      intro tag
      rw [(sets.found path tags found).2 tag, split, or_iff_left]
      exact fun both => same both.1.symm
  · intro path
    rw [OrderedDict.keys_set, List.map_append, List.mem_append, List.map_singleton,
      List.mem_singleton, ← sets.listed path]
    split
    case isTrue known =>
      obtain ⟨entry, present, isRow⟩ := List.any_eq_true.mp known
      constructor
      · exact Or.inl
      · intro either
        cases either with
        | inl inside => exact inside
        | inr same =>
            rw [same, ← eq_of_beq isRow]
            exact List.mem_map_of_mem present
    case isFalse => rw [List.mem_append, List.mem_singleton]

theorem tagSets_foldl (rows : List ChunkWithVector) : TagSets rows (rows.foldl addNoteTags []) := by
  induction rows using List.reverseRecOn with
  | nil => exact tagSets_nil
  | append_singleton front row ih =>
      rw [List.foldl_append]
      exact tagSets_step ih row

/-! ### Counting the notes -/

/-- The parts of the own tags of a note. -/
def ownParts (env : Env) (note : Note) : List Text :=
  (fileTags env note.1 note.2).flatMap tagParts

/-- The rows are those of some of the notes. -/
structure RowsOf (env : Env) (vault : Vault) (inScope : Note → Bool)
    (rows : List ChunkWithVector) : Prop where
  row_note : ∀ row ∈ rows, ∃ note ∈ vault.files, inScope note = true ∧
    RowOf env note row.toChunkRecord
  note_row : ∀ note ∈ vault.files, inScope note = true →
    ∃ row ∈ rows, RowOf env note row.toChunkRecord

section Counting

variable {env : Env} {vault : Vault} {inScope : Note → Bool} {rows : List ChunkWithVector}

/-- The set of a note holds the parts of its tags. -/
theorem RowsOf.mem_set (scope : RowsOf env vault inScope rows)
    {noteTags : List (Text × List Text)} (sets : TagSets rows noteTags) {note : Note}
    (member : note ∈ vault.files) (inside : inScope note = true) (tag : Text) :
    tag ∈ (noteTags.lookup note.1).getD [] ↔ tag ∈ ownParts env note := by
  rw [(sets.known note.1).2 tag]
  unfold ownParts
  constructor
  · intro some
    obtain ⟨row, present, same, part⟩ := some
    obtain ⟨other, isOther, _inScope, ofOther⟩ := scope.row_note row present
    have equal := vault.eq_of_path isOther member (by rw [← ofOther.path, same])
    rw [ofOther.tags, equal] at part
    unfold storedTags at part
    rw [tagParts_join] at part
    exact part
  · intro part
    obtain ⟨row, present, ofNote⟩ := scope.note_row note member inside
    refine ⟨row, present, ofNote.path, ?_⟩
    rw [ofNote.tags]
    unfold storedTags
    rw [tagParts_join]
    exact part

theorem RowsOf.keys_perm (scope : RowsOf env vault inScope rows)
    {noteTags : List (Text × List Text)} (sets : TagSets rows noteTags) :
    (noteTags.map Prod.fst).Perm ((vault.files.filter inScope).map Prod.fst) := by
  rw [List.perm_ext_iff_of_nodup sets.distinct
    (vault.distinct.sublist (List.filter_sublist.map _))]
  intro path
  rw [sets.listed path, List.mem_map, List.mem_map]
  constructor
  · intro some
    obtain ⟨row, present, same⟩ := some
    obtain ⟨note, member, inside, ofNote⟩ := scope.row_note row present
    exact ⟨note, List.mem_filter.mpr ⟨member, inside⟩, by rw [← same, ← ofNote.path]⟩
  · intro some
    obtain ⟨note, member, same⟩ := some
    obtain ⟨present, inside⟩ := List.mem_filter.mp member
    obtain ⟨row, isRow, ofNote⟩ := scope.note_row note present inside
    exact ⟨row, isRow, by rw [← same, ← ofNote.path]⟩

/-- Counting sets is counting notes. -/
theorem RowsOf.countP_sets (scope : RowsOf env vault inScope rows)
    {noteTags : List (Text × List Text)} (sets : TagSets rows noteTags)
    (test : List Text → Bool) (noteTest : Note → Bool)
    (agree : ∀ note ∈ vault.files, inScope note = true →
      test ((noteTags.lookup note.1).getD []) = noteTest note) :
    (noteTags.map Prod.snd).countP test =
      vault.files.countP (fun note => inScope note && noteTest note) := by
  calc
    (noteTags.map Prod.snd).countP test =
        (noteTags.map Prod.fst).countP (fun path => test ((noteTags.lookup path).getD [])) := by
      rw [List.countP_map, List.countP_map]
      apply List.countP_congr
      intro entry member
      rw [Function.comp_apply, Function.comp_apply,
        OrderedDict.lookup_of_mem sets.distinct member]
      rfl
    _ = ((vault.files.filter inScope).map Prod.fst).countP
        (fun path => test ((noteTags.lookup path).getD [])) :=
      (scope.keys_perm sets).countP_eq _
    _ = vault.files.countP (fun note => inScope note && noteTest note) := by
      rw [List.countP_map, List.countP_filter]
      apply List.countP_congr
      intro note member
      rw [Function.comp_apply, Bool.and_comm, Bool.and_eq_true, Bool.and_eq_true]
      constructor
      · exact fun both => ⟨both.1, (agree note member both.1) ▸ both.2⟩
      · exact fun both => ⟨both.1, (agree note member both.1).trans both.2⟩

end Counting

/-- A tag occurs in the enumerated sets as often as there are sets with it. -/
theorem count_enumerated (order : SetOrder) (tag : Text) (sets : List (List Text))
    (distinct : ∀ tags ∈ sets, tags.Nodup) :
    (sets.flatMap order.enumerate).count tag = sets.countP (fun tags => tags.contains tag) := by
  induction sets with
  | nil => rfl
  | cons head tail ih =>
      have later := ih (fun tags member => distinct tags (List.mem_cons_of_mem _ member))
      have here : (order.enumerate head).count tag = if head.contains tag then 1 else 0 := by
        rw [(order.perm head).count_eq, (distinct head List.mem_cons_self).count]
        simp
      rw [List.flatMap_cons, List.count_append, here, later, List.countP_cons, Nat.add_comm]

/-! ### What the tool says -/

/-- The tags of the notes, each of them once. -/
def scopeTags (env : Env) (vault : Vault) (inScope : Note → Bool) : List Text :=
  ((vault.files.filter inScope).flatMap (ownParts env)).dedup

/-- How many of the notes have a tag. -/
def notesWith (env : Env) (vault : Vault) (inScope : Note → Bool) (tag : Text) : Nat :=
  vault.files.countP (fun note => inScope note && (ownParts env note).contains tag)

/-- The first few of the tags by the number of their notes, with the totals. -/
structure CountsNotes (env : Env) (vault : Vault) (inScope : Note → Bool) (limit : Nat)
    (result : TagStatsResult) : Prop where
  notes : result.totalNotesWithTags =
    vault.files.countP (fun note => inScope note && !(ownParts env note).isEmpty)
  total : result.totalTags = (scopeTags env vault inScope).length
  listed : Ranking.CutOf (fun entry => OrderDual.toDual entry.2)
    ((scopeTags env vault inScope).map (fun tag => (tag, notesWith env vault inScope tag)))
    limit result.tags

theorem mem_scopeTags (env : Env) (vault : Vault) (inScope : Note → Bool) (tag : Text) :
    tag ∈ scopeTags env vault inScope ↔ 0 < notesWith env vault inScope tag := by
  unfold scopeTags notesWith
  rw [List.mem_dedup, List.mem_flatMap, List.countP_pos_iff]
  constructor
  · intro some
    obtain ⟨note, member, part⟩ := some
    obtain ⟨present, inside⟩ := List.mem_filter.mp member
    refine ⟨note, present, ?_⟩
    rw [inside, Bool.true_and, List.contains_iff_mem]
    exact part
  · intro some
    obtain ⟨note, present, both⟩ := some
    rw [Bool.and_eq_true, List.contains_iff_mem] at both
    exact ⟨note, List.mem_filter.mpr ⟨present, both.1⟩, both.2⟩

/-- Sets with a tag are not empty. -/
theorem countP_filled (tag : Text) (sets : List (List Text)) :
    (sets.filter (fun tags => !tags.isEmpty)).countP (fun tags => tags.contains tag) =
      sets.countP (fun tags => tags.contains tag) := by
  rw [List.countP_filter]
  apply List.countP_congr
  intro tags _member
  cases tags with
  | nil => simp
  | cons head tail => simp

section Counted

variable {env : Env} {vault : Vault} {inScope : Note → Bool} {rows : List ChunkWithVector}
  (scope : RowsOf env vault inScope rows)

include scope

/-- A tag is enumerated once for each note that has it. -/
theorem RowsOf.count_tag (order : SetOrder) (tag : Text) :
    ((((rows.foldl addNoteTags []).map Prod.snd).filter (fun tags => !tags.isEmpty)).flatMap
        order.enumerate).count tag = notesWith env vault inScope tag := by
  have sets := tagSets_foldl rows
  have distinct : ∀ tags ∈ ((rows.foldl addNoteTags []).map Prod.snd).filter
      (fun tags => !tags.isEmpty), tags.Nodup := by
    intro tags member
    obtain ⟨entry, present, same⟩ := List.mem_map.mp (List.mem_filter.mp member).1
    rw [← same]
    exact (sets.found entry.1 entry.2 (OrderedDict.lookup_of_mem sets.distinct present)).1
  rw [count_enumerated order tag _ distinct, countP_filled]
  apply scope.countP_sets sets
  intro note member inside
  rw [Bool.eq_iff_iff, List.contains_iff_mem, List.contains_iff_mem]
  exact scope.mem_set sets member inside tag

theorem RowsOf.counter_perm (order : SetOrder) :
    (OrderedDict.tally ((((rows.foldl addNoteTags []).map Prod.snd).filter
        (fun tags => !tags.isEmpty)).flatMap order.enumerate)).Perm
      ((scopeTags env vault inScope).map (fun tag => (tag, notesWith env vault inScope tag))) := by
  have counted := scope.count_tag order
  generalize ((((rows.foldl addNoteTags []).map Prod.snd).filter
    (fun tags => !tags.isEmpty)).flatMap order.enumerate) = enumerated at counted
  have listed : ∀ tag, tag ∈ (OrderedDict.tally enumerated).map Prod.fst ↔
      tag ∈ scopeTags env vault inScope := by
    intro tag
    rw [OrderedDict.mem_keys_tally, mem_scopeTags, ← counted tag, List.count_pos_iff]
  rw [List.perm_ext_iff_of_nodup]
  · intro entry
    rw [List.mem_map]
    constructor
    · intro member
      refine ⟨entry.1, (listed entry.1).mp (List.mem_map_of_mem member), ?_⟩
      rw [← counted, ← OrderedDict.tally_entry member]
    · intro some
      obtain ⟨tag, isTag, same⟩ := some
      obtain ⟨found, member, sameTag⟩ := List.mem_map.mp ((listed tag).mpr isTag)
      have whole : found = entry := by
        rw [← same, ← counted, ← sameTag, ← OrderedDict.tally_entry member]
      rw [← whole]
      exact member
  · exact (OrderedDict.distinct_tally enumerated).of_map _
  · apply List.Nodup.map
    · intro left right same
      exact (Prod.mk.inj same).1
    · exact List.nodup_dedup _

theorem countTags_countsNotes (order : SetOrder) (limit : Nat) :
    CountsNotes env vault inScope limit (countTags order rows limit) := by
  have counter := scope.counter_perm order
  unfold countTags mostCommon
  constructor
  · dsimp only
    rw [← List.countP_eq_length_filter]
    apply scope.countP_sets (tagSets_foldl rows)
    intro note member inside
    have same := scope.mem_set (tagSets_foldl rows) member inside
    rw [Bool.eq_iff_iff, Bool.not_eq_true', Bool.not_eq_true', List.isEmpty_eq_false_iff,
      List.isEmpty_eq_false_iff, ne_eq, ne_eq, List.eq_nil_iff_forall_not_mem,
      List.eq_nil_iff_forall_not_mem]
    simp only [same]
  · dsimp only
    rw [counter.length_eq, List.length_map]
  · exact ⟨_, (Ranking.sortBy_perm _ _).trans counter, Ranking.sortBy_ordered _ _, rfl⟩

end Counted

/-! ### The folder -/

instance (given folder : Text) : Decidable (Below given folder) :=
  inferInstanceAs (Decidable (given = [] ∨ folder = given ∨ given ++ ['/'] <+: folder))

/-- The indexed notes at or below a folder. -/
def indexedBelow (env : Env) (folder : Text) (note : Note) : Bool :=
  isIndexed env note && decide (Below folder (PurePath.folder note.1))

theorem rowsOf_filter {env : Env} {vault : Vault} {table : List ChunkWithVector}
    (built : BuiltFrom env vault table) {folder : Text} {test : ChunkWithVector → Bool}
    (means : ∀ row ∈ table, test row = true ↔ Below folder row.folder) :
    RowsOf env vault (indexedBelow env folder) (table.filter test) := by
  unfold indexedBelow
  constructor
  · intro row member
    obtain ⟨present, passes⟩ := List.mem_filter.mp member
    obtain ⟨note, inVault, indexed, ofNote⟩ := built.row_note present
    refine ⟨note, inVault, ?_, ofNote⟩
    rw [indexed, Bool.true_and, decide_eq_true_iff, ← ofNote.folder]
    exact (means row present).mp passes
  · intro note inVault inside
    rw [Bool.and_eq_true, decide_eq_true_iff] at inside
    obtain ⟨row, present, ofNote⟩ := built.note_row inVault inside.1
    refine ⟨row, List.mem_filter.mpr ⟨present, (means row present).mpr ?_⟩, ofNote⟩
    rw [ofNote.folder]
    exact inside.2

theorem countTags_nil (order : SetOrder) (limit : Nat) :
    countTags order [] limit = { totalTags := 0, totalNotesWithTags := 0, tags := [] } := by
  have none : mostCommon [] limit = [] := by
    simp [mostCommon, Ranking.sortBy]
  simp [countTags, OrderedDict.tally, none]

/-- For a folder that its clause is right about, the tool counts the rows that it takes. -/
theorem tagStatsTool_filter (order : SetOrder) (table : List ChunkWithVector) (limit : Int)
    {folder : Text} (means : tagStats.MeansBelow folder) :
    ∃ test : ChunkWithVector → Bool, (∀ row, test row = true ↔ Below folder row.folder) ∧
      tagStatsTool order table limit folder =
        .ok (countTags order (table.filter test) (tagStatsLimit limit)) := by
  have meant : ∀ row, tagStats.Takes folder row ↔ Below folder row.folder :=
    fun row => (means.takes_iff row).trans (and_iff_right rfl)
  have found : ∃ test : ChunkWithVector → Bool, (∀ row, test row = true ↔ Below folder row.folder) ∧
      (table.isEmpty = false → tagStatsTool order table limit folder =
        .ok (countTags order (table.filter test) (tagStatsLimit limit))) := by
    unfold tagStatsTool
    cases isClause : tagStats.clause folder with
    | none =>
        refine ⟨fun _row => true, ?_, ?_⟩
        · intro row
          apply iff_of_true rfl
          rw [← meant]
          intro clause isSome
          rw [isClause] at isSome
          cases isSome
        · intro filled
          rw [filled, List.filter_true]
          rfl
    | some clause =>
        have reads := (means.wellFormed clause isClause).1
        obtain ⟨predicate, reads⟩ := Option.isSome_iff_exists.mp reads
        refine ⟨fun row => predicate.holds tagStats.likes (tagStats.columns row), ?_, ?_⟩
        · intro row
          rw [← meant, FolderFilter.takes_iff_holds isClause reads]
        · intro filled
          rw [filled]
          dsimp only
          rw [reads]
          rfl
  obtain ⟨test, isTest, same⟩ := found
  refine ⟨test, isTest, ?_⟩
  cases table with
  | nil =>
      rw [List.filter_nil, countTags_nil]
      rfl
  | cons head tail => exact same rfl

/-- For every index of parsed notes, every order in which sets are enumerated, every limit, and
every folder without quotes, special characters and surrounding whitespace, the tool counts each
tag once for each indexed note at or below the folder. -/
theorem tagStatsTool_counts (env : Env) (vault : Vault) (table : List ChunkWithVector)
    (built : BuiltFrom env vault table) (order : SetOrder) (limit : Int) (folder : Text)
    (plain : folder = [] ∨ (Text.strip folder = folder ∧ '\'' ∉ folder ∧
      ∀ char ∈ folder, Sql.isSpecial char = false)) :
    ∃ result, tagStatsTool order table limit folder = .ok result ∧
      CountsNotes env vault (indexedBelow env folder) (tagStatsLimit limit) result := by
  obtain ⟨test, isTest, same⟩ := tagStatsTool_filter order table limit
    ((tagStats_correct_iff folder).mpr plain rfl)
  exact ⟨_, same, countTags_countsNotes (rowsOf_filter built (fun row _member => isTest row)) order _⟩

/-- The folders of a note at the root and of notes in a folder. -/
theorem tagStatsTool_counts_tagged :
    (∃ result, tagStatsTool { enumerate := id, perm := List.Perm.refl }
        (tableOf taggedEnv taggedVault []) 50 [] = .ok result ∧
      CountsNotes taggedEnv taggedVault (indexedBelow taggedEnv []) 50 result) ∧
    ∃ result, tagStatsTool { enumerate := id, perm := List.Perm.refl }
        (tableOf taggedEnv taggedVault []) 50 "work".toList = .ok result ∧
      CountsNotes taggedEnv taggedVault (indexedBelow taggedEnv "work".toList) 50 result := by
  constructor
  · exact tagStatsTool_counts taggedEnv taggedVault _ (builtFrom_tableOf _ _ _) _ 50 [] (Or.inl rfl)
  · apply tagStatsTool_counts taggedEnv taggedVault _ (builtFrom_tableOf _ _ _) _ 50 "work".toList
    have plain : "work".toList.any Sql.isSpecial = false := by decide
    right
    refine ⟨by decide, by decide, ?_⟩
    intro char member
    exact Bool.eq_false_iff.mpr (List.any_eq_false.mp plain char member)

end VaultSearch
