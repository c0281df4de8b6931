/-
What a second synchronization reports.

The rows of every note are those of its content after the first one, and still the second one can
report a note again: one without chunks as new, one outside the scan as deleted, and one whose
time does not read back as modified.
-/

import VaultSearch.Core.SyncCheck
import VaultSearch.Server.TagMembership

set_option autoImplicit false

namespace VaultSearch

open Fallible

/-! ### The rows of a content -/

/-- A note has rows exactly if it is there and its parser finds chunks. -/
theorem contentRows_filled {env : Env} (embeds : EmbedsAll env) (path : Text)
    (content : Option File) : contentRows env path content .chunks ≠ [] ↔
      ∃ file, content = some file ∧ isIndexed env (path, file) = true := by
  cases content with
  | none => simp [contentRows_none]
  | some file =>
      have filled : contentRows env path (some file) .chunks ≠ [] ↔
          (truncateChunks env (parseFileResult env path file)).chunks ≠ [] := by
        unfold contentRows parsedRows contentParse
        dsimp only
        cases isChunks : (truncateChunks env (parseFileResult env path file)).chunks with
        | nil => simp [noteRows_empty]
        | cons chunk rest =>
            obtain ⟨vectors, answer, size⟩ := embeds ((chunk :: rest).map (fun chunk => chunk.text))
            have made : vectorized env (chunk :: rest) ≠ [] := by
              unfold vectorized
              rw [answer, Option.getD_some]
              intro empty
              have none := congrArg List.length empty
              rw [List.length_zipWith, size, List.length_map, Nat.min_self] at none
              cases none
            exact ⟨fun _filled => List.cons_ne_nil chunk rest, fun _present => made⟩
      have counted := parseFileResult_counted env path file
      have positive := env.config.maxChunksPositive
      have truncated : (truncateChunks env (parseFileResult env path file)).chunks ≠ [] ↔
          (parseFileResult env path file).chunks ≠ [] := by
        unfold truncateChunks
        rw [ne_eq, List.take_eq_nil_iff, not_or]
        exact ⟨fun both => both.2, fun some => ⟨by omega, some⟩⟩
      rw [filled, truncated]
      unfold ParseResult.Counted at counted
      simp [isIndexed, counted]

/-- Every chunk carries the time of its note. -/
theorem contentRows_stamp {env : Env} {path : Text} (normal : IsNormalPath path) (file : File) :
    ∀ row : ChunkWithVector, row ∈ contentRows env path (some file) .chunks →
      row.modifiedAt = env.isoformat file.mtime := by
  unfold contentRows parsedRows contentParse
  dsimp only
  split
  · intro row member
    rw [noteRows_empty] at member
    cases member
  · intro row member
    have inside := List.mem_of_mem_take (vectorized_chunk env _ row member)
    have collects : CollectsOnly env (extractFileMetadata env path file)
        (Text.join ", ".toList (fileTags env path file)) (RowOf env (path, file)) :=
      @collectsOnly_rowOf env (path, file) normal
    exact (parseFileResult_forall collects row.toChunkRecord inside).stamp

/-! ### What calls leave in place -/

/-- An automatic id is written to a note that is there. -/
theorem ensureNoteId_exists {env : Env} {fresh : Fresh} {relativePath : Text} {vault later : Vault}
    {result : OperationResult}
    (done : ensureNoteId env fresh relativePath vault = .ok (result, later)) (path : Text) :
    (later.read path).isSome = (vault.read path).isSome := by
  unfold ensureNoteId at done
  simp only [bind, Except.bind, pure, Except.pure] at done
  split at done
  · rw [← (Prod.mk.inj (Except.ok.inj done)).2]
  · split at done
    · cases done
    case h_2 filePath resolved =>
      split at done
      · rw [← (Prod.mk.inj (Except.ok.inj done)).2]
      case h_2 file present =>
        split at done
        · cases done
        · split at done
          · rw [← (Prod.mk.inj (Except.ok.inj done)).2]
          · rw [← (Prod.mk.inj (Except.ok.inj done)).2]
            by_cases same : PurePath.normalPath path = PurePath.normalPath filePath
            · rw [Vault.read_write_same vault _ same]
              have found : vault.read path = some file := by
                unfold Vault.read at present ⊢
                rw [same]
                exact present
              rw [found]
              rfl
            · rw [Vault.read_write_other vault _ same]

theorem reindexNote_exists {env : Env} {world : World} (ready : world.index.Ready) (call : Call)
    {edits : List (Label × Edit)} {path : Text}
    (spares : ∀ entry ∈ edits, PurePath.normalPath path ≠ PurePath.normalPath entry.2.path) :
    ((reindexNote env call (editing edits) world).final.vault.read path).isSome =
      (world.vault.read path).isSome := by
  have stays : ∀ entry ∈ edits, ∀ here : World,
      (here.vault.read path).isSome = (world.vault.read path).isSome →
        ((Acts.act entry.2.act here).vault.read path).isSome = (world.vault.read path).isSome := by
    intro entry member here holds
    rw [read_act entry.2 here path (spares entry member)]
    exact holds
  have reading : Reading env (editing edits) call (fun _ _ => True)
      (fun vault => (vault.read path).isSome = (world.vault.read path).isSome) :=
    { undisturbed := fun _ => editing_undisturbed (fun entry member here holds =>
        ⟨trivial, stays entry member here holds.2⟩)
      kept := editing_undisturbed stays
      sees := fun _ _ => trivial
      identified := fun _ _ _ _ holds done => (ensureNoteId_exists done path).trans holds }
  obtain ⟨returned, failed, _moments⟩ :=
    triple_reindexNote reading (fun _ => rfl) world ⟨ready.shows, rfl⟩
  cases found : (reindexNote env call (editing edits) world).value with
  | none => exact (failed found).2.2
  | some result => exact (returned result found).2

theorem reindexAll_exists {env : Env} {turns : Nat → SyncTurn} {path : Text}
    (spares : ∀ turn, ∀ entry ∈ (turns turn).edits,
      PurePath.normalPath path ≠ PurePath.normalPath entry.2.path)
    (paths : List Text) (turn : Nat) {world : World} (ready : world.index.Ready) :
    ((reindexAll env turns turn paths world).2.vault.read path).isSome =
      (world.vault.read path).isSome := by
  induction paths generalizing turn world with
  | nil => rfl
  | cons head rest ih =>
      rw [reindexAll_cons, ih (turn + 1) (reindexNote_ready ready _ _)]
      exact reindexNote_exists ready _ (spares turn)

/-! ### The maps of a note that is current -/

section Again

variable {number : Type} [LinearOrder number] {env : Env} {clock : SyncClock number}
  {surroundings : SyncSurroundings} {path : Text} {world : World}

theorem lookup_vaultMap {file : File} (scanned : path ∈ scanVault env world.vault)
    (read : world.vault.read path = some file) :
    (vaultMap env world.vault).lookup path = some file.mtime := by
  have distinct : ((vaultMap env world.vault).map Prod.fst).Nodup := by
    rw [keys_vaultMap]
    exact scanVault_nodup env world.vault
  have member : (path, file.mtime) ∈ vaultMap env world.vault := by
    unfold vaultMap
    rw [List.mem_filterMap]
    exact ⟨path, scanned, by rw [read]; rfl⟩
  exact OrderedDict.lookup_of_mem distinct member

theorem mem_indexed (ready : world.index.Ready) :
    path ∈ (syncIndexed surroundings world).1.map Prod.fst ↔
      world.index.noteRows path .chunks ≠ [] := by
  have keys := mem_keys_indexedMap (world.index.shown .chunks) path
  rw [← (syncIndexed_spec surroundings ready).1] at keys
  rw [keys]
  unfold Index.noteRows
  rw [ne_eq, List.filter_eq_nil_iff]
  simp only [decide_eq_true_eq, not_forall, not_not, exists_prop]
  rfl

theorem World.Agrees.indexed (agrees : world.Agrees env path) (embeds : EmbedsAll env)
    (ready : world.index.Ready) :
    path ∈ (syncIndexed surroundings world).1.map Prod.fst ↔
      ∃ file, world.vault.read path = some file ∧ isIndexed env (path, file) = true := by
  rw [mem_indexed ready, agrees]
  exact contentRows_filled embeds path _

/-- The time of the note is found. -/
theorem World.Agrees.lookup (agrees : world.Agrees env path) (ready : world.index.Ready)
    (normal : IsNormalPath path) {file : File} (read : world.vault.read path = some file)
    (listed : path ∈ (syncIndexed surroundings world).1.map Prod.fst) :
    (syncIndexed surroundings world).1.lookup path = some (env.isoformat file.mtime) := by
  have present := OrderedDict.lookup_isSome.mpr (List.mem_map.mp listed)
  have first := lookup_indexedMap (world.index.shown .chunks) path
  rw [← (syncIndexed_spec surroundings ready).1] at first
  rw [first, Option.isSome_map] at present
  rw [first]
  obtain ⟨row, found⟩ := Option.isSome_iff_exists.mp present
  have member : row ∈ world.index.noteRows path .chunks := by
    have same := List.find?_some found
    rw [decide_eq_true_eq] at same
    exact List.mem_filter.mpr ⟨List.mem_of_find?_eq_some found, decide_eq_true same.symm⟩
  rw [agrees, read] at member
  rw [found, Option.map_some, contentRows_stamp normal file row member]

/-! ### The second report -/

theorem scanned_after (ready : world.index.Ready) (spares : surroundings.Spares path) :
    path ∈ scanVault env (syncCheck env clock surroundings true world).2.vault ↔
      path ∈ scanVault env world.vault := by
  obtain ⟨_found, shows, _attempts, content⟩ := syncIndexed_spec surroundings ready
  rw [mem_scanVault_iff, mem_scanVault_iff, syncCheck_final,
    reindexAll_exists spares.turns _ 0 shows.ready, content path spares]

/-- What the second of two synchronizations reports of a note. -/
structure ReportsAgain (env : Env) (clock : SyncClock number) (first second : SyncPlan)
    (before after : World) (path : Text) : Prop where
  newFiles : path ∈ second.newFiles ↔ path ∈ scanVault env before.vault ∧
    ∃ file, after.vault.read path = some file ∧ isIndexed env (path, file) = false
  modifiedFiles : path ∈ second.modifiedFiles ↔ path ∈ scanVault env before.vault ∧
    ∃ file, after.vault.read path = some file ∧ isIndexed env (path, file) = true ∧
      isNewer clock file.mtime (env.isoformat file.mtime) = true
  deletedFiles : path ∈ second.deletedFiles ↔ path ∈ first.deletedFiles ∧
    ∃ file, after.vault.read path = some file ∧ isIndexed env (path, file) = true

/-- After a synchronization the next one reports as new exactly the scanned notes without chunks,
as modified those whose stored time reads back more than a second before the one of their file,
and as deleted those outside the scan that are still there: the first one has just indexed them. -/
theorem syncCheck_again (again : SyncSurroundings) (embeds : EmbedsAll env)
    (ready : world.index.Ready)
    (notes : ∀ note ∈ (syncPlan env clock surroundings world).paths, IsNote env note)
    (normal : IsNormalPath path) (spares : surroundings.Spares path)
    (admitted : Admitted path world.attempts)
    (parses : ∀ file,
      (syncCheck env clock surroundings true world).2.vault.read path = some file →
        (parseFileResult env path file).status ≠ .error)
    (unchanged : path ∈ scanVault env world.vault →
      path ∉ (syncPlan env clock surroundings world).paths → world.Agrees env path) :
    ReportsAgain env clock (syncPlan env clock surroundings world)
      (syncPlan env clock again (syncCheck env clock surroundings true world).2) world
      (syncCheck env clock surroundings true world).2 path := by
  obtain ⟨_synced, current, kept⟩ :=
    syncCheck_current embeds ready notes normal spares admitted parses
  have scanned := @scanned_after _ _ env clock _ _ _ ready spares
  have stillReady : (syncCheck env clock surroundings true world).2.index.Ready := by
    rw [syncCheck_final]
    exact reindexAll_ready _ 0 (syncIndexed_spec surroundings ready).2.1.ready
  have isKey : path ∈ (syncIndexed surroundings world).1.map Prod.fst ↔
      world.index.noteRows path .chunks ≠ [] := mem_indexed ready
  have scannedKey : path ∈ (vaultMap env world.vault).map Prod.fst ↔
      path ∈ scanVault env world.vault := by
    rw [keys_vaultMap]
  have isDeleted : path ∈ (syncPlan env clock surroundings world).deletedFiles ↔
      path ∈ (syncIndexed surroundings world).1.map Prod.fst ∧
        path ∉ scanVault env world.vault := by
    rw [← scannedKey]
    exact mem_deletedFiles clock surroundings.iterSet_perm
  have reportedFar : path ∈ (syncPlan env clock surroundings world).paths →
      path ∉ scanVault env world.vault →
        path ∈ (syncPlan env clock surroundings world).deletedFiles := by
    intro reported outside
    rw [← scannedKey] at outside
    rcases List.mem_append.mp reported with isGone | isThere
    · exact isGone
    · rcases List.mem_append.mp isThere with isNew | isOld
      · exact absurd ((mem_newFiles clock surroundings.iterSet_perm).mp isNew).1 outside
      · exact absurd ((mem_modifiedFiles clock surroundings.iterSet_perm).mp isOld).1.1 outside
  generalize syncPlan env clock surroundings world = first at *
  generalize (syncCheck env clock surroundings true world).2 = after at *
  have agrees : path ∈ scanVault env world.vault → after.Agrees env path := by
    intro inside
    by_cases reported : path ∈ first.paths
    · exact current reported
    · obtain ⟨content, rows⟩ := kept reported
      unfold World.Agrees
      rw [content, rows]
      exact unchanged inside reported
  constructor
  · unfold syncPlan
    rw [mem_newFiles clock again.iterSet_perm, keys_vaultMap, scanned]
    constructor
    · intro isNew
      obtain ⟨file, read⟩ := Option.isSome_iff_exists.mp
        ((mem_scanVault_iff env _ path).mp (scanned.mpr isNew.1)).2.1
      refine ⟨isNew.1, file, read, ?_⟩
      rw [(agrees isNew.1).indexed embeds stillReady] at isNew
      cases indexed : isIndexed env (path, file) with
      | false => rfl
      | true => exact absurd ⟨file, read, indexed⟩ isNew.2
    · intro isEmpty
      obtain ⟨inside, file, read, unindexed⟩ := isEmpty
      constructor
      · exact inside
      · rw [(agrees inside).indexed embeds stillReady]
        intro listed
        obtain ⟨other, found, indexed⟩ := listed
        rw [read] at found
        rw [← Option.some.inj found, unindexed] at indexed
        cases indexed
  · unfold syncPlan
    rw [mem_modifiedFiles clock again.iterSet_perm, keys_vaultMap, scanned]
    constructor
    · intro isOld
      obtain ⟨⟨inside, listed⟩, newer⟩ := isOld
      obtain ⟨file, read, indexed⟩ := ((agrees inside).indexed embeds stillReady).mp listed
      refine ⟨inside, file, read, indexed, ?_⟩
      unfold isModified at newer
      rw [lookup_vaultMap (scanned.mpr inside) read,
        (agrees inside).lookup stillReady normal read listed] at newer
      exact newer
    · intro isLate
      obtain ⟨inside, file, read, indexed, newer⟩ := isLate
      have listed : path ∈ (syncIndexed again after).1.map Prod.fst :=
        ((agrees inside).indexed embeds stillReady).mpr ⟨file, read, indexed⟩
      refine ⟨⟨inside, listed⟩, ?_⟩
      unfold isModified
      rw [lookup_vaultMap (scanned.mpr inside) read,
        (agrees inside).lookup stillReady normal read listed]
      exact newer
  · unfold syncPlan
    rw [mem_deletedFiles clock again.iterSet_perm, keys_vaultMap, scanned]
    constructor
    · intro isGone
      obtain ⟨listed, outside⟩ := isGone
      have reported : path ∈ first.paths := by
        by_contra unreported
        obtain ⟨_content, rows⟩ := kept unreported
        rw [mem_indexed stillReady, rows, ← isKey] at listed
        exact unreported (List.mem_append_left _ (isDeleted.mpr ⟨listed, outside⟩))
      exact ⟨reportedFar reported outside,
        ((current reported).indexed embeds stillReady).mp listed⟩
    · intro isThere
      have reported : path ∈ first.paths := List.mem_append_left _ isThere.1
      exact ⟨((current reported).indexed embeds stillReady).mpr isThere.2,
        (isDeleted.mp isThere.1).2⟩

end Again

def emptyNoteWorld : World :=
  { vault := Vault.empty.write "e.md".toList { text := [], mtime := 5 }
    index := Index.empty }

/-- An empty note is reported as new again. -/
theorem syncCheck_again_empty :
    "e.md".toList ∈ (syncPlan Env.plain plainSyncClock busySurroundings
      (syncCheck Env.plain plainSyncClock busySurroundings true emptyNoteWorld).2).newFiles := by
  have reported : (syncPlan Env.plain plainSyncClock busySurroundings emptyNoteWorld).paths =
      ["e.md".toList] := by decide +kernel
  have isNote : IsNote Env.plain "e.md".toList := by
    constructor <;> decide
  have parsed : ((syncCheck Env.plain plainSyncClock busySurroundings true
      emptyNoteWorld).2.vault.read "e.md".toList).any (fun file =>
        (parseFileResult Env.plain "e.md".toList file).status = .empty) = true := by
    decide +kernel
  obtain ⟨file, read, isEmpty⟩ := (Option.any_eq_true _ _).mp parsed
  rw [decide_eq_true_eq] at isEmpty
  have parses : ∀ other, (syncCheck Env.plain plainSyncClock busySurroundings true
      emptyNoteWorld).2.vault.read "e.md".toList = some other →
        (parseFileResult Env.plain "e.md".toList other).status ≠ .error := by
    intro other found
    rw [read] at found
    rw [← Option.some.inj found, isEmpty]
    decide
  have notes : ∀ note ∈ (syncPlan Env.plain plainSyncClock busySurroundings emptyNoteWorld).paths,
      IsNote Env.plain note := by
    rw [reported]
    exact List.forall_mem_singleton.mpr isNote
  have untried : Admitted "e.md".toList emptyNoteWorld.attempts := by
    intro entry member
    cases member
  have spares : busySurroundings.Spares "e.md".toList := by
    constructor
    · intro entry member
      cases member
    · intro turn entry member
      rw [List.mem_singleton.mp member]
      decide
  have reports := syncCheck_again busySurroundings (fun texts => ⟨_, rfl, List.length_map _⟩)
    Index.empty_ready notes isNote.normal spares untried parses (fun _inside unreported =>
      absurd (by rw [reported]; exact List.mem_cons_self) unreported)
  apply reports.newFiles.mpr
  constructor
  · decide
  · exact ⟨file, read, decide_eq_false (by rw [isEmpty]; decide)⟩

end VaultSearch
