/-
`get_backlinks` and `find_orphan_notes` of `server/search_tools.py`: the rows that lead to
one note, and the notes that no row leads to.

The first asks the link table for the stripped path and its two names and passes over the
note's own rows; the second collects the targets of the whole table and leaves out the
empty ones.
-/

import VaultSearch.Core.Tables
import VaultSearch.Crud.CatalogList
import VaultSearch.Utils.Links

set_option autoImplicit false

namespace VaultSearch

/-- What a tool returns in place of its result. -/
inductive ToolError where
  | message (text : Text)
  /-- `public_error` -/
  | internal
  deriving DecidableEq

/-! ### Backlinks -/

structure BacklinkResult where
  path : Text
  title : Text
  linkType : LinkType
  linkTarget : Text
  context : Option Text

def backlinkFilter (path targetNormalized targetStem : Text) : Text :=
  "to_note_path = '".toList ++ escapeSqlString path ++ "' OR link_target_normalized = '".toList ++
    escapeSqlString targetNormalized ++ "' OR link_target_normalized = '".toList ++
    escapeSqlString targetStem ++ "'".toList

/-- The loop over the rows; `seen` holds the notes already listed. -/
def collectBacklinks (path : Text) (includeContext : Bool) :
    List Text → List LinkRecord → List BacklinkResult
  | _, [] => []
  | seen, row :: rows =>
      if seen.contains row.fromNotePath || row.fromNotePath = path then
        collectBacklinks path includeContext seen rows
      else
        { path := row.fromNotePath
          title := row.fromNoteTitle
          linkType := row.linkType
          linkTarget := row.linkTarget
          context := if includeContext && !row.context.isEmpty then some row.context else none } ::
          collectBacklinks path includeContext (row.fromNotePath :: seen) rows

def backlinkLimit : Nat := 1000

def getBacklinks (env : Env) (links : List LinkRecord) (path : Text) (includeContext : Bool) :
    Except ToolError (List BacklinkResult) :=
  let path := Text.strip path
  if path.isEmpty then .error (.message "Error: path cannot be empty.".toList)
  else
    match Sql.parse (backlinkFilter path (normalizeLinkTarget env path)
        (normalizeLinkTarget env (PurePath.stem path))) with
    | none => .error .internal
    | some filter =>
        let rows := (links.filter (fun row => filter.holds row.columns)).take backlinkLimit
        .ok (collectBacklinks path includeContext [] rows)

/-! ### Orphans -/

structure OrphanNote where
  path : Text
  title : Text
  folder : Text
  modifiedAt : Text
  deriving DecidableEq

structure OrphanReport where
  totalNotes : Nat
  totalOrphans : Nat
  returnedNotes : Nat
  hasMore : Bool
  notes : List OrphanNote
  deriving DecidableEq

/-- `linked_paths` and `linked_normalized`. -/
structure LinkedTargets where
  paths : List Text
  normalized : List Text

def linkedTargets (links : List LinkRecord) : LinkedTargets :=
  { paths := (links.map LinkRecord.toNotePath).filter (fun path => !path.isEmpty)
    normalized := (links.map LinkRecord.linkTargetNormalized).filter (fun name => !name.isEmpty) }

def LinkedTargets.isLinked (env : Env) (targets : LinkedTargets) (notePath : Text) : Bool :=
  targets.paths.contains notePath ||
    targets.normalized.contains (normalizeLinkTarget env notePath) ||
    targets.normalized.contains (normalizeLinkTarget env (PurePath.stem notePath))

/-- What a `deque(maxlen=limit)` keeps of the items appended to it. -/
def keepLast {item : Type} (limit : Nat) (items : List item) : List item :=
  items.drop (items.length - limit)

/-- The variables of the paging loop. -/
structure OrphanScan where
  oldestOrphans : List OrphanNote := []
  orphanCount : Nat := 0
  total : Nat := 0
  offset : Nat := 0

def NoteListItem.orphan (note : NoteListItem) : OrphanNote :=
  { path := note.path, title := note.title, folder := note.folder, modifiedAt := note.modifiedAt }

def OrphanScan.note (env : Env) (targets : LinkedTargets) (limit : Nat) (scan : OrphanScan)
    (note : NoteListItem) : OrphanScan :=
  if targets.isLinked env note.path then scan
  else
    { scan with
      orphanCount := scan.orphanCount + 1
      oldestOrphans := keepLast limit (scan.oldestOrphans ++ [note.orphan]) }

def orphanPageSize : Nat := 5000

/-- `while offset == 0 or offset < total:`; every page but an empty one moves the offset. -/
def OrphanScan.loop (env : Env) (catalog : NotesCatalog) (folder : Option Text)
    (targets : LinkedTargets) (limit : Nat) : Nat → OrphanScan → OrphanScan
  | 0, scan => scan
  | fuel + 1, scan =>
      if scan.offset = 0 ∨ scan.offset < scan.total then
        let page := catalog.listNotes env folder (some ".md".toList) orphanPageSize scan.offset
        if page.1.isEmpty then { scan with total := page.2 }
        else
          let counted := page.1.foldl (OrphanScan.note env targets limit) { scan with total := page.2 }
          loop env catalog folder targets limit fuel
            { counted with offset := counted.offset + page.1.length }
      else scan

/-- The percentage, a float, is left out. -/
def OrphanScan.report (scan : OrphanScan) : OrphanReport :=
  { totalNotes := scan.total
    totalOrphans := scan.orphanCount
    returnedNotes := scan.oldestOrphans.length
    hasMore := scan.oldestOrphans.length < scan.orphanCount
    notes := scan.oldestOrphans.reverse }

def findOrphanNotes (env : Env) (catalog : NotesCatalog) (links : List LinkRecord)
    (folder : Option Text) (limit : Int) : Except ToolError OrphanReport :=
  let limit := (max 1 (min limit 500)).toNat
  let normalizedFolder := given ((given folder).map Text.strip)
  if normalizedFolder.any (fun wanted => !validateRelativePath wanted) then .error .internal
  else if !catalog.isInitialized then
    .error (.message "Error: catalog is unavailable. Run reindex_vault first.".toList)
  else
    .ok (OrphanScan.loop env catalog normalizedFolder (linkedTargets links) limit
      (catalog.table.rows.length + 1) {}).report

/-! ### The backlinks of a path -/

/-- The two names a note is known by, both normalized: its path and its stem. -/
def noteNames (env : Env) (path : Text) : List Text :=
  [normalizeLinkTarget env path, normalizeLinkTarget env (PurePath.stem path)]

/-- The rows that the filter takes. -/
def LinkRecord.LeadsTo (env : Env) (row : LinkRecord) (path : Text) : Prop :=
  row.toNotePath = path ∨ row.linkTargetNormalized ∈ noteNames env path

theorem parse_backlinkFilter (path targetNormalized targetStem : Text) :
    Sql.parse (backlinkFilter path targetNormalized targetStem) =
      some ([("to_note_path".toList, path), ("link_target_normalized".toList, targetNormalized),
        ("link_target_normalized".toList, targetStem)].map
          (fun pair => [Sql.Comparison.equals pair.1 pair.2])) := by
  have shape : backlinkFilter path targetNormalized targetStem =
      Sql.alternatives [("to_note_path".toList, path),
        ("link_target_normalized".toList, targetNormalized),
        ("link_target_normalized".toList, targetStem)] := by
    unfold backlinkFilter
    rw [escapeSqlString_eq, escapeSqlString_eq, escapeSqlString_eq]
    simp [Sql.alternatives, Sql.equality, Text.join]
  rw [shape]
  apply Sql.parse_alternatives _ (List.cons_ne_nil _ _)
  intro pair member
  rcases List.mem_cons.mp member with rfl | later
  · exact (by decide : Sql.IsName "to_note_path".toList)
  · have named : pair.1 = "link_target_normalized".toList := by
      rcases List.mem_pair.mp later with rfl | rfl
      · rfl
      · rfl
    rw [named]
    decide

theorem backlinkFilter_holds (env : Env) (path : Text) (row : LinkRecord) :
    Sql.Filter.holds row.columns
        ([("to_note_path".toList, path),
          ("link_target_normalized".toList, normalizeLinkTarget env path),
          ("link_target_normalized".toList, normalizeLinkTarget env (PurePath.stem path))].map
            (fun pair => [Sql.Comparison.equals pair.1 pair.2])) = true ↔
      row.LeadsTo env path := by
  have toColumn : row.columns "to_note_path".toList = some (.text row.toNotePath) := rfl
  have nameColumn : row.columns "link_target_normalized".toList =
      some (.text row.linkTargetNormalized) := rfl
  rw [Sql.holds_alternatives]
  unfold LinkRecord.LeadsTo noteNames
  simp only [List.mem_cons, List.not_mem_nil, or_false, or_and_right, exists_or, exists_eq_left,
    toColumn, nameColumn, Option.some.injEq, Sql.Literal.text.injEq]

theorem collectBacklinks_eq_nil (path : Text) (includeContext : Bool) (rows : List LinkRecord) :
    ∀ seen, collectBacklinks path includeContext seen rows = [] ↔
      ∀ row ∈ rows, row.fromNotePath ∈ seen ∨ row.fromNotePath = path := by
  induction rows with
  | nil =>
      intro seen
      constructor
      · intro _empty row member
        cases member
      · intro _covered
        rfl
  | cons row rows ih =>
      intro seen
      rw [List.forall_mem_cons]
      unfold collectBacklinks
      by_cases skipped : (seen.contains row.fromNotePath || row.fromNotePath = path) = true
      · rw [if_pos skipped, ih]
        have covered : row.fromNotePath ∈ seen ∨ row.fromNotePath = path := by
          simpa using skipped
        exact ⟨fun later => ⟨covered, later⟩, And.right⟩
      · rw [if_neg skipped]
        constructor
        · intro impossible
          cases impossible
        · intro covered
          exact absurd (by simpa using covered.1) skipped

/-- Within the limit of the query a path has no backlinks exactly when every row that leads
to it is its own. -/
theorem getBacklinks_empty_iff (env : Env) (links : List LinkRecord) (path : Text)
    (includeContext : Bool) (few : links.length < backlinkLimit) (filled : Text.strip path ≠ []) :
    getBacklinks env links path includeContext = .ok [] ↔
      ∀ row ∈ links, row.LeadsTo env (Text.strip path) → row.fromNotePath = Text.strip path := by
  have notEmpty : ¬ (Text.strip path).isEmpty = true := by
    rw [List.isEmpty_iff]
    exact filled
  unfold getBacklinks
  dsimp only
  rw [if_neg notEmpty, parse_backlinkFilter]
  dsimp only
  rw [List.take_of_length_le ((List.length_filter_le _ _).trans (Nat.le_of_lt few)),
    Except.ok.injEq, collectBacklinks_eq_nil]
  constructor
  · intro covered row member leads
    rcases covered row (List.mem_filter.mpr ⟨member, (backlinkFilter_holds env _ row).mpr leads⟩)
      with impossible | own
    · cases impossible
    · exact own
  · intro covered row member
    obtain ⟨present, holds⟩ := List.mem_filter.mp member
    exact Or.inr (covered row present ((backlinkFilter_holds env _ row).mp holds))

/-! ### The orphans of the catalog -/

theorem isLinked_iff (env : Env) (links : List LinkRecord) (path : Text) (filled : path ≠ []) :
    (linkedTargets links).isLinked env path = true ↔
      ∃ row ∈ links, row.toNotePath = path ∨
        row.linkTargetNormalized ≠ [] ∧ row.linkTargetNormalized ∈ noteNames env path := by
  unfold LinkedTargets.isLinked linkedTargets noteNames
  simp only [Bool.or_eq_true, List.contains_iff_mem, List.mem_filter, List.mem_map,
    Bool.not_eq_true', List.isEmpty_eq_false_iff, List.mem_cons, List.not_mem_nil, or_false]
  constructor
  · rintro ((⟨⟨row, member, same⟩, _filled⟩ | ⟨⟨row, member, same⟩, named⟩) |
      ⟨⟨row, member, same⟩, named⟩)
    · exact ⟨row, member, Or.inl same⟩
    · exact ⟨row, member, Or.inr ⟨same ▸ named, Or.inl same⟩⟩
    · exact ⟨row, member, Or.inr ⟨same ▸ named, Or.inr same⟩⟩
  · rintro ⟨row, member, same | ⟨named, same | same⟩⟩
    · exact Or.inl (Or.inl ⟨⟨row, member, same⟩, filled⟩)
    · exact Or.inl (Or.inr ⟨⟨row, member, same⟩, same ▸ named⟩)
    · exact Or.inr ⟨⟨row, member, same⟩, same ▸ named⟩

theorem keepLast_append {item : Type} {limit : Nat} (positive : 1 ≤ limit) (items : List item)
    (last : item) :
    keepLast limit (keepLast limit items ++ [last]) = keepLast limit (items ++ [last]) := by
  unfold keepLast
  rw [List.length_append, List.length_append, List.length_drop, List.length_singleton]
  by_cases full : limit ≤ items.length
  · have one : items.length - (items.length - limit) + 1 - limit = 1 := by omega
    have inside : items.length + 1 - limit ≤ items.length := by omega
    have more : items.length - limit + 1 = items.length + 1 - limit := by omega
    have filled : 1 ≤ (items.drop (items.length - limit)).length := by
      rw [List.length_drop]
      omega
    rw [one, List.drop_append_of_le_length filled, List.drop_append_of_le_length inside,
      List.drop_drop, more]
  · have none : items.length - limit = 0 := by omega
    rw [none, List.drop_zero]
    rfl

namespace OrphanScan

variable {env : Env} {catalog : NotesCatalog} {folder : Option Text} {targets : LinkedTargets}
  {limit : Nat}

/-- The notes without a link among those read. -/
def orphansAmong (env : Env) (targets : LinkedTargets) (notes : List NoteListItem) :
    List NoteListItem :=
  notes.filter (fun note => !targets.isLinked env note.path)

/-- The loop has read these notes. -/
structure HasRead (env : Env) (targets : LinkedTargets) (limit : Nat) (scan : OrphanScan)
    (notes : List NoteListItem) : Prop where
  count : scan.orphanCount = (orphansAmong env targets notes).length
  oldest : scan.oldestOrphans =
    keepLast limit ((orphansAmong env targets notes).map NoteListItem.orphan)

theorem HasRead.note (positive : 1 ≤ limit) {scan : OrphanScan} {notes : List NoteListItem}
    (sofar : scan.HasRead env targets limit notes) (next : NoteListItem) :
    (scan.note env targets limit next).HasRead env targets limit (notes ++ [next]) := by
  have extended : orphansAmong env targets (notes ++ [next]) =
      orphansAmong env targets notes ++
        if targets.isLinked env next.path then [] else [next] := by
    unfold orphansAmong
    rw [List.filter_append, List.filter_singleton]
    cases targets.isLinked env next.path <;> rfl
  unfold OrphanScan.note
  by_cases linked : targets.isLinked env next.path = true
  · rw [if_pos linked, List.append_nil] at extended
    rw [if_pos linked]
    constructor
    · rw [extended]
      exact sofar.count
    · rw [extended]
      exact sofar.oldest
  · rw [if_neg linked] at extended
    rw [if_neg linked]
    constructor
    · rw [extended, List.length_append, List.length_singleton]
      exact congrArg (· + 1) sofar.count
    · rw [extended, List.map_append, List.map_singleton]
      dsimp only
      rw [sofar.oldest, keepLast_append positive]

theorem HasRead.page (positive : 1 ≤ limit) (page : List NoteListItem) :
    ∀ (scan : OrphanScan) (notes : List NoteListItem), scan.HasRead env targets limit notes →
      (page.foldl (OrphanScan.note env targets limit) scan).HasRead env targets limit
        (notes ++ page) := by
  induction page with
  | nil =>
      intro scan notes sofar
      rw [List.append_nil]
      exact sofar
  | cons next page ih =>
      intro scan notes sofar
      have longer := ih _ _ (sofar.note positive next)
      rw [List.append_assoc] at longer
      exact longer

theorem note_frame (env : Env) (targets : LinkedTargets) (limit : Nat) (page : List NoteListItem) :
    ∀ scan : OrphanScan,
      (page.foldl (OrphanScan.note env targets limit) scan).offset = scan.offset ∧
        (page.foldl (OrphanScan.note env targets limit) scan).total = scan.total := by
  induction page with
  | nil =>
      intro scan
      exact ⟨rfl, rfl⟩
  | cons next page ih =>
      intro scan
      have step : (scan.note env targets limit next).offset = scan.offset ∧
          (scan.note env targets limit next).total = scan.total := by
        unfold OrphanScan.note
        split
        · exact ⟨rfl, rfl⟩
        · exact ⟨rfl, rfl⟩
      have later := ih (scan.note env targets limit next)
      exact ⟨later.1.trans step.1, later.2.trans step.2⟩

/-- The notes of every page together. -/
def pages (env : Env) (catalog : NotesCatalog) (folder : Option Text) : List NoteListItem :=
  (catalog.listing env folder (some ".md".toList)).map (rowToNote env)

theorem listNotes_eq (env : Env) (catalog : NotesCatalog) (folder : Option Text) (offset : Nat) :
    catalog.listNotes env folder (some ".md".toList) orphanPageSize offset =
      (((pages env catalog folder).drop offset).take orphanPageSize,
        (pages env catalog folder).length) := by
  unfold NotesCatalog.listNotes pages
  rw [List.length_map, NotesCatalog.listing_length, List.map_take, List.map_drop]

/-- The loop ends with every page read. -/
theorem loop_reads (positive : 1 ≤ limit) (fuel : Nat) :
    ∀ scan : OrphanScan, (pages env catalog folder).length < scan.offset + fuel →
      scan.offset ≤ (pages env catalog folder).length →
      scan.HasRead env targets limit ((pages env catalog folder).take scan.offset) →
      (scan.offset = 0 ∨ scan.total = (pages env catalog folder).length) →
      (loop env catalog folder targets limit fuel scan).HasRead env targets limit
          (pages env catalog folder) ∧
        (loop env catalog folder targets limit fuel scan).total =
          (pages env catalog folder).length := by
  induction fuel with
  | zero =>
      intro scan enough inside _sofar _known
      omega
  | succ fuel ih =>
      intro scan enough inside sofar known
      unfold loop
      rw [listNotes_eq]
      dsimp only
      split
      · split
        · rename_i _more empty
          have done : scan.offset = (pages env catalog folder).length := by
            rw [List.isEmpty_iff, ← List.length_eq_zero_iff, List.length_take,
              List.length_drop] at empty
            unfold orphanPageSize at empty
            omega
          rw [done, List.take_length] at sofar
          exact ⟨⟨sofar.count, sofar.oldest⟩, rfl⟩
        · rename_i _more filled
          have advance : 1 ≤ (((pages env catalog folder).drop scan.offset).take
              orphanPageSize).length := by
            rw [List.isEmpty_iff, ← List.length_eq_zero_iff] at filled
            omega
          have bounded : (((pages env catalog folder).drop scan.offset).take
              orphanPageSize).length ≤ (pages env catalog folder).length - scan.offset := by
            rw [List.length_take, List.length_drop]
            omega
          have frame := note_frame env targets limit
            (((pages env catalog folder).drop scan.offset).take orphanPageSize)
            { scan with total := (pages env catalog folder).length }
          apply ih
          · dsimp only
            rw [frame.1]
            dsimp only
            omega
          · dsimp only
            rw [frame.1]
            dsimp only
            omega
          · have read := HasRead.page positive
              (((pages env catalog folder).drop scan.offset).take orphanPageSize)
              { scan with total := (pages env catalog folder).length } _
              ⟨sofar.count, sofar.oldest⟩
            have prefixed : (pages env catalog folder).take scan.offset ++
                ((pages env catalog folder).drop scan.offset).take orphanPageSize =
                (pages env catalog folder).take (scan.offset +
                  (((pages env catalog folder).drop scan.offset).take orphanPageSize).length) := by
              rw [List.take_add, List.length_take]
              congr 1
              rw [List.take_eq_take_iff, Nat.min_assoc, Nat.min_self]
            rw [prefixed] at read
            dsimp only
            rw [frame.1]
            exact ⟨read.count, read.oldest⟩
          · right
            dsimp only
            rw [frame.2]
      · rename_i ended
        have done : scan.offset = (pages env catalog folder).length := by
          rcases known with start | total
          · exact absurd (Or.inl start) ended
          · rw [total] at ended
            omega
        rw [done, List.take_length] at sofar
        rcases known with start | total
        · exact absurd (Or.inl start) ended
        · exact ⟨sofar, total⟩

end OrphanScan

open OrphanScan

/-- The report of an available catalog: every note of the pages that no row leads to is
counted, and the last ones of the pages are returned. -/
theorem findOrphanNotes_eq {env : Env} {catalog : NotesCatalog} {links : List LinkRecord}
    {limit : Int} {report : OrphanReport} {folder : Option Text}
    (found : findOrphanNotes env catalog links folder limit = .ok report) :
    ∃ pages : List NoteListItem,
      pages = OrphanScan.pages env catalog (given ((given folder).map Text.strip)) ∧
      report.totalNotes = pages.length ∧
      report.totalOrphans = (orphansAmong env (linkedTargets links) pages).length ∧
      report.notes = (keepLast (max 1 (min limit 500)).toNat
        ((orphansAmong env (linkedTargets links) pages).map NoteListItem.orphan)).reverse := by
  unfold findOrphanNotes at found
  dsimp only at found
  split at found
  · cases found
  · split at found
    · cases found
    · have enough : (OrphanScan.pages env catalog (given ((given folder).map Text.strip))).length <
          ({} : OrphanScan).offset + (catalog.table.rows.length + 1) := by
        unfold OrphanScan.pages
        rw [List.length_map, NotesCatalog.listing_length]
        have fewer := List.length_filter_le
          (rowSelected env (given ((given folder).map Text.strip)) (some ".md".toList))
          catalog.table.rows
        change _ < 0 + _
        omega
      have positive : 1 ≤ (max 1 (min limit 500)).toNat := by omega
      have start : HasRead env (linkedTargets links) (max 1 (min limit 500)).toNat {}
          ((OrphanScan.pages env catalog (given ((given folder).map Text.strip))).take 0) :=
        ⟨rfl, List.drop_nil.symm⟩
      obtain ⟨read, total⟩ := loop_reads positive _ {} enough (Nat.zero_le _) start (Or.inl rfl)
      rw [← Except.ok.inj found]
      apply Exists.intro _
      apply And.intro rfl
      apply And.intro total
      apply And.intro read.count
      unfold OrphanScan.report
      dsimp only
      rw [read.oldest]

/-! ### Orphans and backlinks -/

/-- The rows that `find_orphan_notes` takes for links to a path. -/
def LinkRecord.LinksTo (env : Env) (row : LinkRecord) (path : Text) : Prop :=
  row.toNotePath = path ∨
    row.linkTargetNormalized ≠ [] ∧ row.linkTargetNormalized ∈ noteNames env path

theorem LinkRecord.LinksTo.leadsTo {env : Env} {row : LinkRecord} {path : Text}
    (links : row.LinksTo env path) : row.LeadsTo env path :=
  links.imp_right And.right

/-- A link from another note, whether or not the path is stripped. -/
def LinkRecord.Proper (env : Env) (path : Text) (row : LinkRecord) : Prop :=
  row.LinksTo env path ∧ row.LeadsTo env (Text.strip path) ∧ row.fromNotePath ≠ Text.strip path

/-- A link for `find_orphan_notes` alone: one from the note itself, or one to a path that
changes when it is stripped. -/
def LinkRecord.OrphanOnly (env : Env) (path : Text) (row : LinkRecord) : Prop :=
  row.LinksTo env path ∧
    (row.fromNotePath = Text.strip path ∨ ¬ row.LeadsTo env (Text.strip path))

/-- A link for `get_backlinks` alone: one without a normalized target to a note whose name
is normalized to nothing, or one to the stripped path. -/
def LinkRecord.BacklinkOnly (env : Env) (path : Text) (row : LinkRecord) : Prop :=
  row.fromNotePath ≠ Text.strip path ∧ row.LeadsTo env (Text.strip path) ∧ ¬ row.LinksTo env path

/-- Some row is a proper link, or neither tool or both take another row for a link. -/
def BacklinksAgree (env : Env) (links : List LinkRecord) (path : Text) : Prop :=
  (∃ row ∈ links, row.Proper env path) ∨
    ((∃ row ∈ links, row.OrphanOnly env path) ↔ ∃ row ∈ links, row.BacklinkOnly env path)

/-- For a path without surrounding whitespace the two kinds are the note's own links, and
the rows of other notes without a target that meet an empty name. -/
theorem LinkRecord.only_of_trimmed {env : Env} {path : Text} {row : LinkRecord}
    (trimmed : Text.strip path = path) :
    (row.OrphanOnly env path ↔ row.LinksTo env path ∧ row.fromNotePath = path) ∧
      (row.BacklinkOnly env path ↔ row.fromNotePath ≠ path ∧ row.toNotePath ≠ path ∧
        row.linkTargetNormalized = [] ∧ [] ∈ noteNames env path) := by
  unfold LinkRecord.OrphanOnly LinkRecord.BacklinkOnly
  rw [trimmed]
  constructor
  · constructor
    · rintro ⟨links, own | apart⟩
      · exact ⟨links, own⟩
      · exact absurd links.leadsTo apart
    · rintro ⟨links, own⟩
      exact ⟨links, Or.inl own⟩
  · unfold LinkRecord.LeadsTo LinkRecord.LinksTo
    constructor
    · rintro ⟨foreign, leads, unlinked⟩
      have elsewhere : row.toNotePath ≠ path := fun same => unlinked (Or.inl same)
      have named := leads.resolve_left elsewhere
      have blank : row.linkTargetNormalized = [] := by
        by_contra filled
        exact unlinked (Or.inr ⟨filled, named⟩)
      exact ⟨foreign, elsewhere, blank, blank ▸ named⟩
    · rintro ⟨foreign, elsewhere, blank, named⟩
      apply And.intro foreign
      apply And.intro (Or.inr (by rw [blank]; exact named))
      rintro (same | filled)
      · exact elsewhere same
      · exact filled.1 blank

/-- What either tool takes for a link is a proper one or one of its own kind. -/
theorem exists_linksTo_iff (env : Env) (links : List LinkRecord) (path : Text) :
    (∃ row ∈ links, row.LinksTo env path) ↔
      (∃ row ∈ links, row.Proper env path) ∨ ∃ row ∈ links, row.OrphanOnly env path := by
  constructor
  · rintro ⟨row, member, linked⟩
    by_cases proper : row.LeadsTo env (Text.strip path) ∧ row.fromNotePath ≠ Text.strip path
    · exact Or.inl ⟨row, member, linked, proper⟩
    · right
      apply Exists.intro row
      apply And.intro member
      apply And.intro linked
      by_cases own : row.fromNotePath = Text.strip path
      · exact Or.inl own
      · exact Or.inr (fun leads => proper ⟨leads, own⟩)
  · rintro (⟨row, member, linked, _proper⟩ | ⟨row, member, linked, _only⟩)
    · exact ⟨row, member, linked⟩
    · exact ⟨row, member, linked⟩

theorem exists_leadsTo_iff (env : Env) (links : List LinkRecord) (path : Text) :
    (∃ row ∈ links, row.LeadsTo env (Text.strip path) ∧ row.fromNotePath ≠ Text.strip path) ↔
      (∃ row ∈ links, row.Proper env path) ∨ ∃ row ∈ links, row.BacklinkOnly env path := by
  constructor
  · rintro ⟨row, member, leads, foreign⟩
    by_cases linked : row.LinksTo env path
    · exact Or.inl ⟨row, member, linked, leads, foreign⟩
    · exact Or.inr ⟨row, member, foreign, leads, linked⟩
  · rintro (⟨row, member, _linked, leads, foreign⟩ | ⟨row, member, foreign, leads, _only⟩)
    · exact ⟨row, member, leads, foreign⟩
    · exact ⟨row, member, leads, foreign⟩

/-- Two alternatives to a shared one are absent together. -/
theorem none_agree_iff (shared first second : Prop) :
    ((¬ (shared ∨ first) ↔ ¬ (shared ∨ second)) ↔ (shared ∨ (first ↔ second))) := by
  tauto

theorem strip_of_dot {path : Text} (dotted : '.' ∈ path) : Text.strip path ≠ [] := by
  intro empty
  rw [Text.strip_eq_nil_iff] at empty
  exact absurd (List.all_eq_true.mp empty '.' dotted) (by decide)

def selfRow : CatalogRow :=
  { path := "note.md".toList
    folder := []
    extension := ".md".toList
    title := "note".toList
    mtimeNs := 1
    size := 8 }

/-- A catalog with one note. -/
def selfCatalog : NotesCatalog :=
  { isInitialized := true
    table := { rows := [selfRow], distinct := by decide } }

/-- `[[note]]` in `note.md`. -/
def selfLink : LinkRecord :=
  { fromNotePath := "note.md".toList
    fromNoteTitle := "note".toList
    linkType := .wikilink
    linkTarget := "note".toList
    linkTargetNormalized := "note".toList
    toNotePath := "note.md".toList
    isResolved := true
    aliasText := []
    heading := []
    blockRef := []
    context := "[[note]]".toList
    modifiedAt := [] }

theorem selfCatalog_listing :
    selfCatalog.listing Env.plain none (some ".md".toList) = [selfRow] := by
  have selected : selfCatalog.table.rows.filter (rowSelected Env.plain none (some ".md".toList)) =
      [selfRow] := by decide
  unfold NotesCatalog.listing
  rw [selected, List.mergeSort_singleton]

theorem selfCatalog_pages :
    OrphanScan.pages Env.plain selfCatalog (given ((given none).map Text.strip)) =
      [rowToNote Env.plain selfRow] := by
  unfold OrphanScan.pages
  rw [show given ((given none).map Text.strip) = none from rfl, selfCatalog_listing]
  rfl

theorem selfCatalog_reported (links : List LinkRecord) :
    ∃ report, findOrphanNotes Env.plain selfCatalog links none 100 = .ok report := by
  exact ⟨_, rfl⟩

end VaultSearch
