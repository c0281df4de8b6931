/-
`sync_check` of `core/indexer.py`: the files of the vault are compared with the rows of the
index, and every file that differs is reindexed.

After a synchronization that nothing makes fail, each note that was reported has the rows of its
content, even though other notes are edited meanwhile; no other note changes.
-/

import Mathlib.Order.Lattice
import VaultSearch.Core.Editing
import VaultSearch.Core.Resolution
import VaultSearch.Store.Frames
import VaultSearch.Store.OrderedDict

set_option autoImplicit false

namespace VaultSearch

open Fallible

/-! ### The comparison -/

structure SyncStats where
  vaultFiles : Nat
  indexedFiles : Nat
  newFiles : Nat
  modifiedFiles : Nat
  deletedFiles : Nat
  synced : Nat
  deriving DecidableEq

/-- The times that are compared; `none` for a text that `fromisoformat` does not read. -/
structure SyncClock (number : Type) where
  /-- `st_mtime` -/
  modificationTime : Nat → number
  /-- `datetime.fromisoformat(text).timestamp()` -/
  timestamp : Text → Option number
  /-- `time + 1` -/
  tolerate : number → number

/-- The three lists of paths. -/
structure SyncPlan where
  newFiles : List Text
  modifiedFiles : List Text
  deletedFiles : List Text

/-- Deleted files first. -/
def SyncPlan.paths (plan : SyncPlan) : List Text :=
  plan.deletedFiles ++ (plan.newFiles ++ plan.modifiedFiles)

/-- `vault_map`; a file that is gone is skipped. -/
def vaultMap (env : Env) (vault : Vault) : List (Text × Nat) :=
  (scanVault env vault).filterMap (fun path =>
    (vault.read path).map (fun file => (path, file.mtime)))

/-- `indexed_map`: the first row of each path. -/
def indexedMap (rows : List ChunkWithVector) : List (Text × Text) :=
  rows.foldl (fun indexed row => addPath indexed row.notePath row.modifiedAt) []

section Comparing

variable {number : Type} [LinearOrder number] (clock : SyncClock number)

/-- A second is allowed for rounding; a time that cannot be read counts as an old one. -/
def isNewer (mtime : Nat) (stamp : Text) : Bool :=
  match clock.timestamp stamp with
  | some indexed => clock.tolerate indexed < clock.modificationTime mtime
  | none => true

def isModified (files : List (Text × Nat)) (indexed : List (Text × Text)) (path : Text) : Bool :=
  match files.lookup path, indexed.lookup path with
  | some mtime, some stamp => isNewer clock mtime stamp
  | _, _ => false

/-- The differences of the two maps; `iterSet` enumerates a `set` of paths. -/
def compareFiles (iterSet : List Text → List Text) (files : List (Text × Nat))
    (indexed : List (Text × Text)) : SyncPlan :=
  let vaultPaths := files.map Prod.fst
  let indexedPaths := indexed.map Prod.fst
  { newFiles := iterSet (vaultPaths.filter (fun path => !indexedPaths.contains path))
    deletedFiles := iterSet (indexedPaths.filter (fun path => !vaultPaths.contains path))
    modifiedFiles := (iterSet (vaultPaths.filter (fun path => indexedPaths.contains path))).filter
      (isModified clock files indexed) }

end Comparing

/-! ### The synchronization -/

/-- One call of `reindex_note`: its time, and the edits of other threads during it. -/
structure SyncTurn where
  edits : List (Label × Edit) := []
  now : Nat
  fresh : Fresh

/-- What the surroundings decide during one synchronization. -/
structure SyncSurroundings where
  /-- the order in which a `set` of paths is enumerated -/
  iterSet : List Text → List Text
  iterSet_perm : ∀ items, (iterSet items).Perm items
  /-- edits while the index is read -/
  reading : List (Label × Edit) := []
  turns : Nat → SyncTurn

/-- The rows as `sync_check` reads them; whatever is raised leaves none. -/
def readIndexed : Program (List (Text × Text)) := do
  let rows ← attempt (do
    let table ← ensureTable .chunks
    peekTable { operation := .scanRows } .chunks table (fun table => some table.rows))
  return indexedMap (rows.getD [])

def syncCall (turn : SyncTurn) (path : Text) : Call :=
  { path, now := turn.now, fresh := turn.fresh }

/-- The calls one after the other: how many returned, and the world after them. -/
def reindexAll (env : Env) (turns : Nat → SyncTurn) : Nat → List Text → World → Nat × World
  | _, [], world => (0, world)
  | turn, path :: rest, world =>
      let outcome := reindexNote env (syncCall (turns turn) path) (editing (turns turn).edits) world
      let later := reindexAll env turns (turn + 1) rest outcome.final
      (if outcome.value.isSome then later.1 + 1 else later.1, later.2)

section Synchronizing

variable {number : Type} [LinearOrder number] (env : Env) (clock : SyncClock number)
  (surroundings : SyncSurroundings)

/-- What is found in the index, and the world after that. -/
def syncIndexed (world : World) : List (Text × Text) × World :=
  let indexed := readIndexed (editing surroundings.reading) world
  (indexed.value.getD [], indexed.final)

def syncPlan (world : World) : SyncPlan :=
  compareFiles clock surroundings.iterSet (vaultMap env world.vault)
    (syncIndexed surroundings world).1

def syncCheck (autoSync : Bool) (world : World) : SyncStats × World :=
  let indexed := syncIndexed surroundings world
  let plan := syncPlan env clock surroundings world
  let stats : SyncStats :=
    { vaultFiles := (vaultMap env world.vault).length
      indexedFiles := indexed.1.length
      newFiles := plan.newFiles.length
      modifiedFiles := plan.modifiedFiles.length
      deletedFiles := plan.deletedFiles.length
      synced := 0 }
  if autoSync && !plan.paths.isEmpty then
    let done := reindexAll env surroundings.turns 0 plan.paths indexed.2
    ({ stats with synced := done.1 }, done.2)
  else (stats, indexed.2)

end Synchronizing

/-! ### The attempts of other notes -/

theorem others_attempts : OthersLeave OtherAction World.attempts :=
  attempts_act

section Frames

variable {alpha : Type}

theorem leaves_onTable {name : Label} {kind : TableKind} {side : Side}
    {operation : Table (Row kind) → Option (alpha × Table (Row kind))} :
    Leaves World.attempts (onTable name kind side operation) := by
  apply leaves_step others_attempts
  intro here value later found
  dsimp only at found
  split at found
  case h_1 => cases found
  case h_2 table present =>
    obtain ⟨result, _done, same⟩ := Option.map_eq_some_iff.mp found
    cases same
    rfl

theorem leaves_peekTable {name : Label} {kind : TableKind} {side : Side}
    {view : Table (Row kind) → Option alpha} :
    Leaves World.attempts (peekTable name kind side view) := by
  apply leaves_step others_attempts
  intro here value later found
  split at found
  case h_1 => cases found
  case h_2 table present =>
    obtain ⟨result, _done, same⟩ := Option.map_eq_some_iff.mp found
    cases same
    rfl

theorem leaves_ensureTable (kind : TableKind) : Leaves World.attempts (ensureTable kind) := by
  apply Leaves.andThen (leaves_look _)
  intro handle
  cases handle with
  | some side => exact leaves_ret side
  | none =>
      apply leaves_step others_attempts
      intro here value later found
      cases found
      rfl

theorem leaves_deleteNoteRows {kind : TableKind} {side : Side} {path : Text} :
    Leaves (besideLocals World.attempts) (deleteNoteRows kind side path) := by
  apply Leaves.andThen leaves_peekTable.lift
  intro version
  apply Leaves.andThen (leaves_setLocals _)
  intro _noted
  exact leaves_onTable.lift

theorem leaves_addNoteRows {kind : TableKind} {side : Side} {rows : List (Row kind)} :
    Leaves World.attempts (addNoteRows kind side rows) := by
  unfold addNoteRows
  split
  · exact leaves_ret ()
  · exact leaves_onTable

theorem leaves_indexAliases (env : Env) (turn : Nat) (path : Text) (aliases : List Text) :
    Leaves World.attempts (indexAliases env turn path aliases) := by
  unfold indexAliases
  split
  · exact leaves_ret 0
  · apply Leaves.andThen (leaves_ensureTable .aliases)
    intro side
    dsimp only
    split
    · exact leaves_ret 0
    · exact leaves_onTable.andThen (fun _ => leaves_ret _)

theorem leaves_applyNoteRecords (env : Env) (path : Text) (chunks : List ChunkWithVector)
    (links : List LinkRecord) (aliases : List Text) :
    Leaves World.attempts (applyNoteRecords env path chunks links aliases) := by
  apply Leaves.andThen (leaves_ensureTable .chunks)
  intro table
  apply Leaves.tryWith
  · apply Leaves.andThen leaves_deleteNoteRows
    intro _deleted
    apply Leaves.andThen leaves_addNoteRows.lift
    intro _added
    apply Leaves.andThen (leaves_ensureTable .links).lift
    intro linksTable
    apply Leaves.andThen leaves_deleteNoteRows
    intro _linksDeleted
    apply Leaves.andThen leaves_addNoteRows.lift
    intro _linksAdded
    apply Leaves.andThen (leaves_ensureTable .aliases).lift
    intro aliasesTable
    apply Leaves.andThen leaves_deleteNoteRows
    intro _aliasesDeleted
    apply Leaves.andThen (leaves_indexAliases env 0 path aliases).lift
    intro count
    exact leaves_ret _
  · intro snapshots
    have restores : ∀ snapshot, Leaves World.attempts (restoreSnapshot snapshot) :=
      fun snapshot => leaves_onTable.attempt.andThen (fun _ => leaves_ret ())
    exact (leaves_forEach restores snapshots.reverse).andThen (fun _ => leaves_raise)
  · intro counts snapshots
    exact leaves_ret counts

theorem leaves_recordIncrementalOperation (side : Side) :
    Leaves World.attempts (recordIncrementalOperation side) := by
  apply Leaves.andThen
  · exact leaves_assign others_attempts (fun _here => rfl)
  intro _counted
  apply Leaves.andThen (leaves_look _)
  intro operations
  split
  · exact leaves_ret false
  · apply Leaves.andThen leaves_onTable.attempt
    intro compacted
    cases compacted with
    | none => exact leaves_ret false
    | some _ =>
        exact (leaves_assign others_attempts (fun _here => rfl)).andThen (fun _ => leaves_ret true)

theorem leaves_removeNote (env : Env) (path : Text) :
    Leaves World.attempts (removeNote env path) := by
  apply Leaves.andThen (leaves_applyNoteRecords env path [] [] []).attempt
  intro applied
  cases applied with
  | none => exact leaves_ret addFailed
  | some counts =>
      exact (leaves_recordIncrementalOperation counts.1).andThen (fun _ => leaves_ret _)

theorem leaves_autoGenerateId (env : Env) (call : Call) :
    Leaves World.attempts (autoGenerateId env call) := by
  unfold autoGenerateId
  split
  · apply Leaves.andThen
    · apply Leaves.attempt
      apply leaves_step others_attempts
      intro here value later found
      split at found
      · cases found
      · cases found
        rfl
    · intro outcome
      exact leaves_ret _
  · exact leaves_ret false

/-- A step that only reads. -/
theorem leaves_reading {name : Label} (view : World → Option alpha) :
    Leaves World.attempts (step name (fun world =>
      (view world).map (fun value => (value, world))) : Program alpha) := by
  apply leaves_step others_attempts
  intro here value later found
  obtain ⟨result, _seen, same⟩ := Option.map_eq_some_iff.mp found
  cases same
  rfl

theorem leaves_pathExists (turn : Nat) (path : Text) :
    Leaves World.attempts (pathExists turn path) :=
  leaves_reading (fun world => some (world.vault.read path).isSome)

theorem leaves_parseStep (env : Env) (turn : Nat) (path : Text) :
    Leaves World.attempts (parseStep env turn path) := by
  apply Leaves.andThen
  · exact (leaves_reading (fun world => some (parsePath env world.vault path))).attempt
  · intro parsed
    exact leaves_ret _

theorem leaves_embedChunks (env : Env) (turn : Nat) (chunks : List ChunkRecord) :
    Leaves World.attempts (embedChunks env turn chunks) := by
  apply Leaves.andThen (leaves_reading _)
  intro vectors
  split
  · exact leaves_raise
  · exact leaves_ret _

theorem leaves_storeParsed (env : Env) (path : Text) (idAdded : Bool) (parsed : ParseResult) :
    Leaves World.attempts (storeParsed env path idAdded parsed) := by
  unfold storeParsed
  dsimp only
  split
  · apply Leaves.andThen (leaves_applyNoteRecords env path [] [] []).attempt
    intro applied
    cases applied with
    | none => exact leaves_ret addFailed
    | some counts =>
        exact (leaves_recordIncrementalOperation counts.1).andThen (fun _ => leaves_ret _)
  · apply Leaves.andThen (leaves_embedChunks env 0 _).attempt
    intro embedded
    cases embedded with
    | none => exact leaves_ret addFailed
    | some chunks =>
        apply Leaves.andThen (leaves_applyNoteRecords env path chunks _ _).attempt
        intro applied
        cases applied with
        | none => exact leaves_ret addFailed
        | some counts =>
            exact (leaves_recordIncrementalOperation counts.1).andThen (fun _ => leaves_ret _)

theorem leaves_reindexLocked (env : Env) (call : Call) :
    Leaves World.attempts (reindexLocked env call) := by
  apply Leaves.andThen (leaves_pathExists 0 call.path)
  intro found
  split
  · exact leaves_removeNote env call.path
  · apply Leaves.andThen (leaves_autoGenerateId env call)
    intro idAdded
    apply Leaves.andThen (leaves_parseStep env 0 call.path)
    intro parsed
    split
    · apply Leaves.andThen (leaves_pathExists 1 call.path)
      intro stillFound
      split
      · exact leaves_removeNote env call.path
      · exact leaves_ret _
    · exact leaves_storeParsed env call.path idAdded parsed

end Frames

/-- A note that may be tried again, whatever the time. -/
def Admitted (path : Text) (attempts : List (Text × (Nat × Nat))) : Prop :=
  ∀ entry ∈ attempts, entry.1 = path → entry.2.1 < circuitBreakerMaxAttempts

theorem Admitted.notBlocked {path : Text} {attempts : List (Text × (Nat × Nat))}
    (admitted : Admitted path attempts) (now : Nat) :
    (checkCircuitBreaker now path attempts).1 = false := by
  unfold checkCircuitBreaker
  dsimp only
  split
  case h_1 => rfl
  case h_2 count first found =>
    have member := (List.mem_filter.mp (OrderedDict.mem_of_lookup found)).1
    have few := admitted _ member rfl
    dsimp only at few
    rw [if_neg (by omega)]

theorem Admitted.check {path other : Text} {attempts : List (Text × (Nat × Nat))}
    (admitted : Admitted path attempts) (different : path ≠ other) (now : Nat) :
    Admitted path (checkCircuitBreaker now other attempts).2 := by
  have current : Admitted path
      (attempts.filter (fun entry => now - entry.2.2 ≤ circuitBreakerWindow)) :=
    fun entry member => admitted entry (List.mem_filter.mp member).1
  unfold checkCircuitBreaker
  dsimp only
  split
  case h_1 =>
    intro entry member same
    rcases List.mem_append.mp member with before | last
    · exact current entry before same
    · rw [List.mem_singleton.mp last] at same
      exact absurd same.symm different
  case h_2 count first _found =>
    split
    · exact current
    · intro entry member same
      obtain ⟨before, inside, shape⟩ := List.mem_map.mp member
      split at shape
      · rw [← shape] at same
        exact absurd same.symm different
      · rw [← shape] at same ⊢
        exact current before inside same

/-- A call counts for its own note only. -/
theorem reindexNote_admitted {path : Text} {env : Env} {call : Call}
    {schedule : Schedule Label OtherAction} {world : World} (different : path ≠ call.path)
    (admitted : Admitted path world.attempts) :
    Admitted path (reindexNote env call schedule world).final.attempts := by
  have keeps : ∀ result : ReindexResult, Triple schedule (fun _ => True)
      (fun here : World => Admitted path here.attempts) (ret result)
      (fun _ here => Admitted path here.attempts) (fun here => Admitted path here.attempts) :=
    fun result => (leaves_ret result).triple schedule (Admitted path)
  have whole : Triple schedule (fun _ => True) (fun here => Admitted path here.attempts)
      (reindexNote env call) (fun _ here => Admitted path here.attempts)
      (fun here => Admitted path here.attempts) := by
    unfold reindexNote
    split
    · exact keeps _
    · split
      · exact keeps _
      · apply triple_andThen (fun _ here => Admitted path here.attempts)
        · apply triple_step
          · intro name action _member here holds
            constructor
            · dsimp only
              rw [attempts_act]
              exact holds
            · trivial
          · intro start value later holds _fine found
            cases found
            exact ⟨holds.check different call.now, trivial⟩
          · exact fun _start holds _failed => holds
        · intro blocked
          split
          · exact keeps _
          · exact (leaves_reindexLocked env call).triple schedule (Admitted path)
  obtain ⟨returned, failed, _moments⟩ := whole world admitted
  cases found : (reindexNote env call schedule world).value with
  | none => exact failed found
  | some result => exact returned result found

/-! ### Reading the index -/

/-- Other threads spare a note during the synchronization. -/
structure SyncSurroundings.Spares (surroundings : SyncSurroundings) (path : Text) : Prop where
  reading : ∀ entry ∈ surroundings.reading,
    PurePath.normalPath path ≠ PurePath.normalPath entry.2.path
  turns : ∀ turn, ∀ entry ∈ (surroundings.turns turn).edits,
    PurePath.normalPath path ≠ PurePath.normalPath entry.2.path

theorem triple_readIndexed {schedule : Schedule Label OtherAction} {fact : Vault → Prop}
    (undisturbed : Undisturbed schedule fact) (fine : ¬HasFault schedule)
    (sides : TableKind → Side) (rows : Rows) :
    Triple schedule (fun _ => True)
      (fun world => world.index.Shows sides rows ∧ fact world.vault) readIndexed
      (fun found world => found = indexedMap (rows .chunks) ∧ world.index.Shows sides rows ∧
        fact world.vault) (fun _ => False) := by
  have opening : Triple schedule (fun _ => True)
      (fun world => world.index.Shows sides rows ∧ fact world.vault) (ensureTable .chunks)
      (fun side world => side = sides .chunks ∧
        Opened fact sides rows rows [] .chunks (world, [])) (fun _ => False) :=
    (triple_ensureTable undisturbed List.not_mem_nil []).weaken
      (fun world holds => ⟨Applying.start holds.1, rfl, holds.2⟩) (fun _ _ holds => holds)
      (fun _ broken => fine broken.1)
  unfold readIndexed
  apply triple_andThen (fun (found : Option (List ChunkWithVector)) world =>
    found = some (rows .chunks) ∧ world.index.Shows sides rows ∧ fact world.vault)
  · apply triple_attempt
    apply (triple_andThen _ opening ?_).weaken (fun _ holds => holds) (fun _ _ holds => holds)
      (fun _ impossible => impossible.elim)
    intro side
    apply triple_given
    intro same
    subst same
    apply triple_peekTable (undisturbed.steady Opened.stable)
    · intro world table found holds _fine present same
      have shown := holds.2.applying.shows
      rw [← Option.some.inj same, ← Index.rows_of_table present, shown.rows]
      exact ⟨⟨rfl, shown, holds.2.vault⟩, trivial⟩
    · intro world holds reason
      rcases reason with fault | absent | ⟨table, _found, impossible⟩
      · exact fine ⟨_, fault⟩
      · obtain ⟨table, present⟩ := holds.2.applying.shows.opened .chunks holds.1
        rw [absent] at present
        cases present
      · cases impossible
  · intro found
    apply triple_ret
    intro world holds
    rw [holds.1]
    exact ⟨rfl, holds.2⟩

theorem leaves_readIndexed : Leaves World.attempts readIndexed := by
  apply Leaves.andThen
  · apply Leaves.attempt
    exact (leaves_ensureTable .chunks).andThen (fun _ => leaves_peekTable)
  · exact fun _ => leaves_ret _

/-- What is read is what the index shows, which stays. -/
theorem syncIndexed_spec (surroundings : SyncSurroundings) {world : World}
    (ready : world.index.Ready) :
    (syncIndexed surroundings world).1 = indexedMap (world.index.shown .chunks) ∧
      (syncIndexed surroundings world).2.index.Shows world.index.side world.index.shown ∧
      (syncIndexed surroundings world).2.attempts = world.attempts ∧
      ∀ path, surroundings.Spares path →
        (syncIndexed surroundings world).2.vault.read path = world.vault.read path := by
  have reads : ∀ {fact : Vault → Prop}, fact world.vault →
      Undisturbed (editing surroundings.reading) fact →
      (syncIndexed surroundings world).1 = indexedMap (world.index.shown .chunks) ∧
        (syncIndexed surroundings world).2.index.Shows world.index.side world.index.shown ∧
        fact (syncIndexed surroundings world).2.vault := by
    intro fact holds undisturbed
    obtain ⟨returned, failed, _moments⟩ := triple_readIndexed undisturbed
      (noFault surroundings.reading) world.index.side world.index.shown world ⟨ready.shows, holds⟩
    unfold syncIndexed
    dsimp only
    cases found : (readIndexed (editing surroundings.reading) world).value with
    | none => exact (failed found).elim
    | some value => exact returned value found
  obtain ⟨found, shows, _vault⟩ := @reads (fun _ => True) trivial
    (editing_undisturbed (fun _ _ _ _ => trivial))
  refine ⟨found, shows, leaves_readIndexed _ _, ?_⟩
  intro path spares
  exact (@reads (fun vault => vault.read path = world.vault.read path) rfl
    (editing_undisturbed (fun entry member here holds =>
      (read_act entry.2 here path (spares.reading entry member)).trans holds))).2.2

/-! ### The calls -/

/-- The rows of a note are those of its content. -/
def World.Agrees (env : Env) (world : World) (path : Text) : Prop :=
  world.index.noteRows path = contentRows env path (world.vault.read path)

theorem reindexNote_returns {env : Env} {world : World} (ready : world.index.Ready) (call : Call)
    (edits : List (Label × Edit)) :
    (reindexNote env call (editing edits) world).value.isSome = true := by
  have reading : Reading env (editing edits) call (fun _ _ => True) (fun _ => True) :=
    { undisturbed := fun _ => editing_undisturbed (fun _ _ _ holds => holds)
      kept := editing_undisturbed (fun _ _ _ _ => trivial)
      sees := fun _ _ => trivial
      identified := fun _ _ _ _ _ _ => trivial }
  obtain ⟨_returned, failed, _moments⟩ :=
    triple_reindexNote reading (fun _ => rfl) world ⟨ready.shows, trivial⟩
  cases found : (reindexNote env call (editing edits) world).value with
  | none => exact absurd (failed found).1 (noFault edits)
  | some _ => rfl

section Calls

variable {env : Env} {turns : Nat → SyncTurn}

theorem reindexAll_cons (turn : Nat) (path : Text) (rest : List Text) (world : World) :
    (reindexAll env turns turn (path :: rest) world).2 =
      (reindexAll env turns (turn + 1) rest
        (reindexNote env (syncCall (turns turn) path) (editing (turns turn).edits)
          world).final).2 := rfl

theorem reindexAll_ready (paths : List Text) (turn : Nat) {world : World}
    (ready : world.index.Ready) : (reindexAll env turns turn paths world).2.index.Ready := by
  induction paths generalizing turn world with
  | nil => exact ready
  | cons path rest ih =>
      rw [reindexAll_cons]
      exact ih (turn + 1) (reindexNote_ready ready _ _)

/-- No call raises. -/
theorem reindexAll_synced (paths : List Text) (turn : Nat) {world : World}
    (ready : world.index.Ready) : (reindexAll env turns turn paths world).1 = paths.length := by
  induction paths generalizing turn world with
  | nil => rfl
  | cons path rest ih =>
      unfold reindexAll
      dsimp only
      rw [if_pos (reindexNote_returns ready _ _), ih (turn + 1) (reindexNote_ready ready _ _),
        List.length_cons]

variable {path : Text}

/-- The calls leave a note alone that is not among theirs. -/
theorem reindexAll_other (normal : IsNormalPath path)
    (spares : ∀ turn, ∀ entry ∈ (turns turn).edits,
      PurePath.normalPath path ≠ PurePath.normalPath entry.2.path)
    {paths : List Text} (notes : ∀ note ∈ paths, IsNote env note) (absent : path ∉ paths)
    (turn : Nat) {world : World} (ready : world.index.Ready) :
    (reindexAll env turns turn paths world).2.vault.read path = world.vault.read path ∧
      (reindexAll env turns turn paths world).2.index.noteRows path =
        world.index.noteRows path := by
  induction paths generalizing turn world with
  | nil => exact ⟨rfl, rfl⟩
  | cons head rest ih =>
      rw [List.mem_cons, not_or] at absent
      obtain ⟨content, rows⟩ := reindexNote_other ready (syncCall (turns turn) head)
        (notes head List.mem_cons_self) normal absent.1 (spares turn) rfl
      obtain ⟨laterContent, laterRows⟩ := ih (fun note member =>
        notes note (List.mem_cons_of_mem _ member)) absent.2 (turn + 1)
          (reindexNote_ready ready _ _)
      rw [reindexAll_cons]
      exact ⟨laterContent.trans content, laterRows.trans rows⟩

/-- After the calls the rows of each of their notes are those of its content. -/
theorem reindexAll_own (embeds : EmbedsAll env)
    (spares : ∀ turn, ∀ entry ∈ (turns turn).edits,
      PurePath.normalPath path ≠ PurePath.normalPath entry.2.path)
    {paths : List Text} (notes : ∀ note ∈ paths, IsNote env note) (once : paths.Nodup)
    (member : path ∈ paths) (turn : Nat) {world : World} (ready : world.index.Ready)
    (admitted : Admitted path world.attempts)
    (parses : ∀ file, (reindexAll env turns turn paths world).2.vault.read path = some file →
      (parseFileResult env path file).status ≠ .error) :
    (reindexAll env turns turn paths world).2.Agrees env path := by
  induction paths generalizing turn world with
  | nil => cases member
  | cons head rest ih =>
      obtain ⟨apart, restOnce⟩ := List.nodup_cons.mp once
      have restNotes : ∀ note ∈ rest, IsNote env note :=
        fun note inside => notes note (List.mem_cons_of_mem _ inside)
      have stillReady : (reindexNote env (syncCall (turns turn) head)
          (editing (turns turn).edits) world).final.index.Ready := reindexNote_ready ready _ _
      rw [reindexAll_cons] at parses ⊢
      by_cases same : path = head
      · subst same
        have note := notes path List.mem_cons_self
        obtain ⟨content, rows⟩ := reindexAll_other note.normal spares restNotes apart (turn + 1)
          stillReady
        rw [content] at parses
        obtain ⟨result, value, current⟩ := reindexNote_own embeds ready
          (syncCall (turns turn) path) note.normal note.inside note.indexable (spares turn) rfl
          parses
        rcases current with blocked | current
        · exact absurd blocked (reindexNote_notBlocked (admitted.notBlocked _) value)
        · unfold World.Agrees
          rw [content, rows]
          exact current
      · exact ih restNotes restOnce ((List.mem_cons.mp member).resolve_left same) (turn + 1)
          stillReady (reindexNote_admitted same admitted) parses

end Calls

/-! ### The two maps -/

theorem keys_vaultMap (env : Env) (vault : Vault) :
    (vaultMap env vault).map Prod.fst = scanVault env vault := by
  unfold vaultMap
  rw [List.map_filterMap]
  have present : ∀ path ∈ scanVault env vault,
      ((vault.read path).map (fun file => (path, file.mtime))).map Prod.fst = some path := by
    intro path member
    obtain ⟨file, found⟩ := Option.isSome_iff_exists.mp
      ((mem_scanVault_iff env vault path).mp member).2.1
    rw [found]
    rfl
  rw [List.filterMap_congr present, List.filterMap_some]

theorem distinct_addPath {indexed : List (Text × Text)} (distinct : (indexed.map Prod.fst).Nodup)
    (key value : Text) : ((addPath indexed key value).map Prod.fst).Nodup := by
  unfold addPath
  split
  case isTrue => exact distinct
  case isFalse unknown =>
    rw [List.map_append, List.map_singleton]
    apply List.Nodup.append distinct (List.nodup_singleton key)
    intro other member same
    rw [List.mem_singleton.mp same] at member
    exact unknown (OrderedDict.lookup_isSome.mpr (List.mem_map.mp member))

theorem distinct_indexedMap (rows : List ChunkWithVector) :
    ((indexedMap rows).map Prod.fst).Nodup := by
  have folded : ∀ indexed : List (Text × Text), (indexed.map Prod.fst).Nodup →
      ((rows.foldl (fun indexed row => addPath indexed row.notePath row.modifiedAt) indexed).map
        Prod.fst).Nodup := by
    induction rows with
    | nil => exact fun indexed distinct => distinct
    | cons row rest ih => exact fun indexed distinct => ih _ (distinct_addPath distinct _ _)
  exact folded [] List.nodup_nil

theorem lookup_indexedMap (rows : List ChunkWithVector) (path : Text) :
    (indexedMap rows).lookup path =
      (rows.find? (fun row => path = row.notePath)).map (fun row => row.modifiedAt) := by
  have folded : ∀ indexed : List (Text × Text),
      (rows.foldl (fun indexed row => addPath indexed row.notePath row.modifiedAt) indexed).lookup
        path = (indexed.lookup path).or
          ((rows.find? (fun row => path = row.notePath)).map (fun row => row.modifiedAt)) := by
    induction rows with
    | nil =>
        intro indexed
        rw [List.foldl_nil, List.find?_nil, Option.map_none, Option.or_none]
    | cons row rest ih =>
        intro indexed
        rw [List.foldl_cons, ih, lookup_addPath, Option.or_assoc, List.find?_cons]
        congr 1
        by_cases same : path = row.notePath
        · simp [same]
        · simp [same]
  exact folded []

theorem mem_keys_indexedMap (rows : List ChunkWithVector) (path : Text) :
    path ∈ (indexedMap rows).map Prod.fst ↔ ∃ row ∈ rows, row.notePath = path := by
  rw [List.mem_map, ← OrderedDict.lookup_isSome, lookup_indexedMap, Option.isSome_map,
    List.find?_isSome]
  simp [eq_comm]

section Plan

variable {number : Type} [LinearOrder number] {env : Env} (clock : SyncClock number)
  {surroundings : SyncSurroundings} {iterSet : List Text → List Text} {files : List (Text × Nat)}
  {indexed : List (Text × Text)} {path : Text}

theorem mem_newFiles (perm : ∀ items, (iterSet items).Perm items) :
    path ∈ (compareFiles clock iterSet files indexed).newFiles ↔
      path ∈ files.map Prod.fst ∧ path ∉ indexed.map Prod.fst := by
  unfold compareFiles
  rw [(perm _).mem_iff, List.mem_filter, Bool.not_eq_true', ← Bool.not_eq_true,
    List.contains_iff_mem]

theorem mem_deletedFiles (perm : ∀ items, (iterSet items).Perm items) :
    path ∈ (compareFiles clock iterSet files indexed).deletedFiles ↔
      path ∈ indexed.map Prod.fst ∧ path ∉ files.map Prod.fst := by
  unfold compareFiles
  rw [(perm _).mem_iff, List.mem_filter, Bool.not_eq_true', ← Bool.not_eq_true,
    List.contains_iff_mem]

theorem mem_modifiedFiles (perm : ∀ items, (iterSet items).Perm items) :
    path ∈ (compareFiles clock iterSet files indexed).modifiedFiles ↔
      (path ∈ files.map Prod.fst ∧ path ∈ indexed.map Prod.fst) ∧
        isModified clock files indexed path = true := by
  unfold compareFiles
  rw [List.mem_filter, (perm _).mem_iff, List.mem_filter, List.contains_iff_mem]

/-- No path is reported twice. -/
theorem nodup_paths (perm : ∀ items, (iterSet items).Perm items)
    (scanned : (files.map Prod.fst).Nodup) (distinct : (indexed.map Prod.fst).Nodup) :
    (compareFiles clock iterSet files indexed).paths.Nodup := by
  have once : ∀ {items : List Text}, items.Nodup → (iterSet items).Nodup :=
    fun nodup => (perm _).nodup_iff.mpr nodup
  unfold SyncPlan.paths
  apply List.Nodup.append (once (distinct.filter _))
  · apply List.Nodup.append (once (scanned.filter _)) ((once (scanned.filter _)).filter _)
    intro path isNew isOld
    exact ((mem_newFiles clock perm).mp isNew).2 ((mem_modifiedFiles clock perm).mp isOld).1.2
  · intro path isDeleted isPresent
    have gone := ((mem_deletedFiles clock perm).mp isDeleted).2
    rcases List.mem_append.mp isPresent with isNew | isOld
    · exact gone ((mem_newFiles clock perm).mp isNew).1
    · exact gone ((mem_modifiedFiles clock perm).mp isOld).1.1

variable {clock}

theorem nodup_syncPlan {world : World} (ready : world.index.Ready) :
    (syncPlan env clock surroundings world).paths.Nodup := by
  apply nodup_paths clock surroundings.iterSet_perm
  · rw [keys_vaultMap]
    exact scanVault_nodup env world.vault
  · rw [(syncIndexed_spec surroundings ready).1]
    exact distinct_indexedMap _

/-- The world after a synchronization. -/
theorem syncCheck_final (world : World) :
    (syncCheck env clock surroundings true world).2 =
      (reindexAll env surroundings.turns 0 (syncPlan env clock surroundings world).paths
        (syncIndexed surroundings world).2).2 := by
  unfold syncCheck
  dsimp only
  split
  case isTrue => rfl
  case isFalse none =>
    rw [Bool.true_and, Bool.not_eq_true', Bool.not_eq_false, List.isEmpty_iff] at none
    rw [none]
    rfl

theorem syncCheck_synced {world : World} (ready : world.index.Ready) :
    (syncCheck env clock surroundings true world).1.synced =
      (syncPlan env clock surroundings world).paths.length := by
  have counted := @reindexAll_synced env surroundings.turns
    (syncPlan env clock surroundings world).paths 0 _
    (syncIndexed_spec surroundings ready).2.1.ready
  unfold syncCheck
  dsimp only
  split
  case isTrue => exact counted
  case isFalse none =>
    rw [Bool.true_and, Bool.not_eq_true', Bool.not_eq_false, List.isEmpty_iff] at none
    rw [none]
    rfl

/-- A synchronization during which no step fails calls every reported path. A note that no other
thread edits meanwhile has the rows of its content afterwards if it was reported, whatever they
were before, and is as it was if it was not. -/
theorem syncCheck_current {world : World} (embeds : EmbedsAll env) (ready : world.index.Ready)
    (notes : ∀ note ∈ (syncPlan env clock surroundings world).paths, IsNote env note)
    (normal : IsNormalPath path) (spares : surroundings.Spares path)
    (admitted : Admitted path world.attempts)
    (parses : ∀ file,
      (syncCheck env clock surroundings true world).2.vault.read path = some file →
        (parseFileResult env path file).status ≠ .error) :
    (syncCheck env clock surroundings true world).1.synced =
        (syncPlan env clock surroundings world).paths.length ∧
      (path ∈ (syncPlan env clock surroundings world).paths →
        (syncCheck env clock surroundings true world).2.Agrees env path) ∧
      (path ∉ (syncPlan env clock surroundings world).paths →
        (syncCheck env clock surroundings true world).2.vault.read path =
            world.vault.read path ∧
          (syncCheck env clock surroundings true world).2.index.noteRows path =
            world.index.noteRows path) := by
  obtain ⟨_found, shows, attempts, content⟩ := syncIndexed_spec surroundings ready
  constructor
  · exact syncCheck_synced ready
  · rw [syncCheck_final] at parses ⊢
    constructor
    · intro reported
      rw [← attempts] at admitted
      exact reindexAll_own embeds spares.turns notes (nodup_syncPlan ready) reported 0 shows.ready
        admitted parses
    · intro unreported
      obtain ⟨kept, rows⟩ := reindexAll_other normal spares.turns notes unreported 0 shows.ready
      constructor
      · exact kept.trans (content path spares)
      · rw [rows]
        unfold Index.noteRows
        rw [shows.shown_eq]

end Plan

/-- The times of `Env.plain`, read back. -/
def plainSyncClock : SyncClock Nat :=
  { modificationTime := id
    timestamp := fun stamp => some stamp.length
    tolerate := Nat.succ }

/-- While one note is embedded another one is written. -/
def busySurroundings : SyncSurroundings :=
  { iterSet := id
    iterSet_perm := List.Perm.refl
    turns := fun turn =>
      { edits := [({ operation := .embed },
          { path := "b.md".toList, content := some { text := "B".toList, mtime := 9 } })]
        now := turn
        fresh := { uuid := "u".toList, mtime := 7 } } }

def unindexedWorld : World :=
  { vault := Vault.empty.write "a.md".toList { text := "A".toList, mtime := 5 }
    index := Index.empty }

theorem busySurroundings_spares : busySurroundings.Spares "a.md".toList := by
  constructor
  · intro entry member
    cases member
  · intro turn entry member
    rw [List.mem_singleton.mp member]
    decide

theorem syncCheck_current_busy :
    (syncCheck Env.plain plainSyncClock busySurroundings true unindexedWorld).2.Agrees Env.plain
      "a.md".toList := by
  have reported : (syncPlan Env.plain plainSyncClock busySurroundings unindexedWorld).paths =
      ["a.md".toList] := by decide +kernel
  have isNote : IsNote Env.plain "a.md".toList := by
    constructor <;> decide
  have parsed : ((syncCheck Env.plain plainSyncClock busySurroundings true
      unindexedWorld).2.vault.read "a.md".toList).all (fun file =>
        (parseFileResult Env.plain "a.md".toList file).status ≠ .error) = true := by
    decide +kernel
  have parses : ∀ file, (syncCheck Env.plain plainSyncClock busySurroundings true
      unindexedWorld).2.vault.read "a.md".toList = some file →
        (parseFileResult Env.plain "a.md".toList file).status ≠ .error := by
    intro file found
    rw [found] at parsed
    exact of_decide_eq_true parsed
  have notes : ∀ note ∈ (syncPlan Env.plain plainSyncClock busySurroundings unindexedWorld).paths,
      IsNote Env.plain note := by
    rw [reported]
    exact List.forall_mem_singleton.mpr isNote
  have untried : Admitted "a.md".toList unindexedWorld.attempts := by
    intro entry member
    cases member
  have current := syncCheck_current (fun texts => ⟨_, rfl, List.length_map _⟩) Index.empty_ready
    notes isNote.normal busySurroundings_spares untried parses
  apply current.2.1
  rw [reported]
  exact List.mem_cons_self

end VaultSearch
