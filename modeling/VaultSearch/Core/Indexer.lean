/-
The indexer of `core/indexer.py` as programs over the world: replacing the rows of one
note, reindexing a note, and rebuilding the index into staging tables that are then
published one after another.

The write lock is held from `rebuild` and `reindexLocked` on; what happens before it is
the scan of a full rebuild and the checks of `reindexNote`.
-/

import VaultSearch.Core.Tables
import VaultSearch.Crud.Write
import VaultSearch.Parsers.Dispatch

set_option autoImplicit false

namespace VaultSearch

open Fallible

def autoCompactThreshold : Nat :=
  100

/-! ### Parsing -/

/-- `parse_file_result` of a path of the vault; a file that is gone cannot be opened. -/
def parsePath (env : Env) (vault : Vault) (path : Text) : ParseResult :=
  match vault.read path with
  | some file => parseFileResult env path file
  | none =>
      match formatOf env path with
      | none => { status := .unsupported }
      | some _ => { status := .error, errorType := some .osError }

def truncateChunks (env : Env) (result : ParseResult) : ParseResult :=
  { result with chunks := result.chunks.take env.config.maxChunksPerNote }

/-- Parsing as a step; whatever is raised is reported as an error. -/
def parseStep (env : Env) (turn : Nat) (path : Text) : Program ParseResult := do
  let parsed ← attempt (step { operation := .parseNote, turn } (fun world =>
    some (parsePath env world.vault path, world)))
  return parsed.getD { status := .error }

/-- Generate one vector for each chunk. -/
def embedChunks (env : Env) (turn : Nat) (chunks : List ChunkRecord) :
    Program (List ChunkWithVector) := do
  let vectors ← step { operation := .embed, turn } (fun world =>
    (env.embedCorpus (chunks.map (fun chunk => chunk.text))).map (fun vectors => (vectors, world)))
  if vectors.length ≠ chunks.length then raise
  else
    return List.zipWith (fun chunk vector => { toChunkRecord := chunk, vector }) chunks vectors

/-! ### Links and aliases -/

def indexLinks (links : List LinkRecord) : Program Nat :=
  if links.isEmpty then return 0
  else do
    let side ← ensureTable .links
    addRows { operation := .addRows, kind := .links } .links side links
    return links.length

/-- The alias rows of one note; blank names are left out. -/
def aliasRecords (env : Env) (notePath : Text) (aliases : List Text) : List AliasRecord :=
  (aliases.filter (fun name => !(Text.strip name).isEmpty)).map (fun name =>
    { notePath
      aliasText := Text.strip name
      aliasNormalized := normalizeLinkTarget env name })

def indexAliases (env : Env) (turn : Nat) (notePath : Text) (aliases : List Text) :
    Program Nat :=
  if aliases.isEmpty then return 0
  else do
    let side ← ensureTable .aliases
    let records := aliasRecords env notePath aliases
    if records.isEmpty then return 0
    else
      addRows { operation := .addRows, kind := .aliases, turn } .aliases side records
      return records.length

/-! ### Replacing the rows of a note -/

/-- A version of a table that a failure has to bring back. -/
structure Snapshot where
  kind : TableKind
  side : Side
  version : Nat

abbrev Snapshotting := Fallible Label OtherAction (World × List Snapshot)

/-- Note the version of a table, then delete the rows of a note. -/
def deleteNoteRows (kind : TableKind) (side : Side) (path : Text) : Snapshotting Unit := do
  let version ← lift (tableVersion kind side)
  setLocals (fun snapshots => snapshots ++ [⟨kind, side, version⟩])
  lift (deleteWhere { operation := .deleteRows, kind } kind side (ownerFilter kind path))

/-- `if rows: table.add(rows)`. -/
def addNoteRows (kind : TableKind) (side : Side) (rows : List (Row kind)) : Program Unit :=
  if rows.isEmpty then ret () else addRows { operation := .addRows, kind } kind side rows

def restoreSnapshot (snapshot : Snapshot) : Program Unit := do
  let _ ← attempt (restoreVersion { operation := .restoreVersion, kind := snapshot.kind }
    snapshot.kind snapshot.side snapshot.version)

/-- The `try` block of `_apply_note_records`. -/
def replaceNoteRows (env : Env) (table : Side) (path : Text) (chunks : List ChunkWithVector)
    (links : List LinkRecord) (aliases : List Text) : Snapshotting (Side × Nat × Nat) := do
  deleteNoteRows .chunks table path
  lift (addNoteRows .chunks table chunks)
  let linksTable ← lift (ensureTable .links)
  deleteNoteRows .links linksTable path
  lift (addNoteRows .links linksTable links)
  let aliasesTable ← lift (ensureTable .aliases)
  deleteNoteRows .aliases aliasesTable path
  let aliasesCount ← lift (indexAliases env 0 path aliases)
  return (table, links.length, aliasesCount)

/-- `_apply_note_records`: the table and the numbers of links and aliases. -/
def applyNoteRecords (env : Env) (path : Text) (chunks : List ChunkWithVector)
    (links : List LinkRecord) (aliases : List Text) : Program (Side × Nat × Nat) := do
  let table ← ensureTable .chunks
  tryWith []
    (replaceNoteRows env table path chunks links aliases)
    (fun snapshots => do
      forEach restoreSnapshot snapshots.reverse
      raise)
    (fun counts _ => ret counts)

/-! ### Link resolution -/

/-- `if key not in path_map: path_map[key] = path`. -/
def addPath (pathMap : List (Text × Text)) (key path : Text) : List (Text × Text) :=
  if (pathMap.lookup key).isSome then pathMap else pathMap ++ [(key, path)]

/-- Normalized stems and paths first, aliases for what is still free. -/
def buildPathMap (env : Env) (paths : List Text) (aliases : List AliasRecord) :
    List (Text × Text) :=
  let named := paths.foldl (fun pathMap path =>
    addPath (addPath pathMap (normalizeLinkTarget env (PurePath.stem path)) path)
      (normalizeLinkTarget env path) path) []
  aliases.foldl (fun pathMap row => addPath pathMap row.aliasNormalized row.notePath) named

structure LinkUpdate where
  fromNotePath : Text
  linkType : LinkType
  linkTarget : Text
  toNotePath : Text

def unresolvedFilter : Text :=
  "is_resolved = false AND link_type != 'external'".toList

def unresolvedLimit : Nat :=
  100000

def LinkUpdate.filter (update : LinkUpdate) : Text :=
  "from_note_path = '".toList ++ escapeSqlString update.fromNotePath ++ "' AND ".toList ++
    "link_type = '".toList ++ escapeSqlString update.linkType.label ++ "' AND ".toList ++
    "link_target = '".toList ++ escapeSqlString update.linkTarget ++ "'".toList

/-- `if to_path:` a link is updated when its target is known and not empty. -/
def linkUpdate (pathMap : List (Text × Text)) (link : LinkRecord) : Option LinkUpdate :=
  match pathMap.lookup link.linkTargetNormalized with
  | none => none
  | some path =>
      if path.isEmpty then none
      else some {
        fromNotePath := link.fromNotePath
        linkType := link.linkType
        linkTarget := link.linkTarget
        toNotePath := path }

/-- Read the original record, delete it and add it back resolved. -/
def applyLinkUpdate (side : Side) (turn : Nat) (update : LinkUpdate) : Program Unit := do
  let orig ← peekTable { operation := .readLink, kind := .links, turn } .links side
    (fun table => (selectWhere update.filter table).map List.head?)
  match orig with
  | none => return ()
  | some record =>
      let record : LinkRecord := record
      deleteWhere { operation := .deleteLink, kind := .links, turn } .links side update.filter
      addRows { operation := .addLink, kind := .links, turn } .links side
        [{ record with toNotePath := update.toNotePath, isResolved := true }]

/-- What the surroundings decide during one rebuild. -/
structure Surroundings where
  /-- the order in which the worker threads read the notes -/
  reading : List Text → List Text
  /-- the order in which their results arrive -/
  arriving : List (Text × ParseResult) → List (Text × ParseResult)
  /-- the order in which a `set` of texts is enumerated -/
  iterSet : List Text → List Text
  /-- `shutdown_requested()` when a result arrives -/
  shutdownRequested : Nat → Bool
  reading_perm : ∀ notes, (reading notes).Perm notes
  arriving_perm : ∀ results, (arriving results).Perm results
  iterSet_mem : ∀ items item, item ∈ iterSet items ↔ item ∈ items

def resolveLinkTargets (env : Env) (surroundings : Surroundings) : Program Nat := do
  let linksTable ← ensureTable .links
  let aliasesTable ← ensureTable .aliases
  let chunksTable ← ensureTable .chunks
  let paths ← attempt (peekTable { operation := .scanRows, kind := .chunks } .chunks chunksTable
    (fun table => some (table.rows.map (Row.owner .chunks))))
  if (paths.getD []).isEmpty then return 0
  else
    let aliases ← attempt (peekTable { operation := .scanRows, kind := .aliases } .aliases
      aliasesTable (fun table => some table.rows))
    let pathMap := buildPathMap env (surroundings.iterSet (paths.getD [])) (aliases.getD [])
    let unresolved ← attempt (peekTable { operation := .scanRows, kind := .links } .links
      linksTable (fun table => (selectWhere unresolvedFilter table).map (·.take unresolvedLimit)))
    let updates := (unresolved.getD []).filterMap (linkUpdate pathMap)
    forEach (fun (update, turn) => do
      let _ ← attempt (applyLinkUpdate linksTable turn update)) updates.zipIdx
    return updates.length

/-! ### Handles -/

def createStaging (kind : TableKind) : Program Unit :=
  step { operation := .createStaging, kind } (fun world =>
    some ((), { world with index := world.index.setTable kind .staging Table.empty }))

/-- `_reset_staging_tables`. -/
def resetStagingTables : Program Unit := do
  step { operation := .listTables } (fun world => some ((), world))
  forEach createStaging [.chunks, .links, .aliases]

def assignHandle (turn : Nat) (side : Side) (kind : TableKind) : Program Unit :=
  assign { operation := .assignHandle, kind, turn } (fun world =>
    { world with index := world.index.setHandle kind (some side) })

def reopenHandle (turn : Nat) (tables : List TableKind) (kind : TableKind) : Program Unit :=
  if tables.contains kind then
    step { operation := .reopen, kind, turn } (fun world =>
      some ((), { world with index := world.index.setHandle kind (some .canonical) }))
  else
    assign { operation := .reopen, kind, turn } (fun world =>
      { world with index := world.index.setHandle kind none })

def Index.canonicalTables (index : Index) : List TableKind :=
  [.chunks, .links, .aliases].filter (fun kind => (index.lanes kind).canonical.isSome)

/-- `_restore_canonical_handles`; `turn` tells the calls of one rebuild apart. -/
def restoreCanonicalHandles (turn : Nat) : Program Unit := do
  let tables ← step { operation := .listTables, turn } (fun world =>
    some (world.index.canonicalTables, world))
  forEach (reopenHandle turn tables) [.chunks, .links, .aliases]

/-! ### Full rebuild -/

/-- The local variables of `full_reindex`. -/
structure Progress where
  totalChunks : Nat := 0
  totalLinks : Nat := 0
  totalAliases : Nat := 0
  notesIndexed : Nat := 0
  parseErrors : Nat := 0
  batch : List ChunkRecord := []
  allLinks : List LinkRecord := []
  allAliases : List (Text × List Text) := []
  /-- the number of batches stored -/
  stored : Nat := 0

abbrev Staging := Fallible Label OtherAction (World × Progress)

def failureStats (turn : Nat) (status : FullReindexStatus) (progress : Progress) :
    Program FullReindexStats := do
  restoreCanonicalHandles turn
  return {
    status
    totalNotes := progress.notesIndexed
    totalChunks := progress.totalChunks
    previousIndexPreserved := true
    parseErrors := if progress.parseErrors = 0 then none else some progress.parseErrors
    timedOut := status = .interrupted
    indicesSkipped := status = .interrupted }

def storeStagingBatch (env : Env) (turn : Nat) (batch : List ChunkRecord) : Program Nat := do
  let records ← embedChunks env turn batch
  addRows { operation := .addRows, kind := .chunks, turn } .chunks .staging records
  return records.length

def storeBatch (env : Env) : Staging Unit := do
  let progress ← locals
  let count ← lift (storeStagingBatch env progress.stored progress.batch)
  setLocals (fun progress => { progress with
    totalChunks := progress.totalChunks + count
    batch := []
    stored := progress.stored + 1 })

/-- The threads of the pool read the notes, each at a moment of its own. -/
def parseNotes (env : Env) : Nat → List Text → Program (List (Text × ParseResult))
  | _, [] => ret []
  | turn, path :: rest => do
      let parsed ← parseStep env turn path
      let results ← parseNotes env (turn + 1) rest
      return (path, truncateChunks env parsed) :: results

def Progress.collect (progress : Progress) (path : Text) (result : ParseResult) : Progress :=
  { progress with
    notesIndexed := progress.notesIndexed + 1
    batch := progress.batch ++ result.chunks
    allLinks := progress.allLinks ++ result.links
    allAliases :=
      if result.aliases.isEmpty then progress.allAliases
      else progress.allAliases ++ [(path, result.aliases)] }

def stageResult (env : Env) (path : Text) (result : ParseResult) : Staging Unit :=
  match result.status with
  | .error => setLocals (fun progress => { progress with parseErrors := progress.parseErrors + 1 })
  | .success => do
      setLocals (fun progress => progress.collect path result)
      let progress ← locals
      if env.config.batchSize ≤ progress.batch.length then storeBatch env else ret ()
  | .empty => ret ()
  | .unsupported => ret ()

/-- The loop over the results that arrive: whether a shutdown interrupted it. -/
def stageResults (env : Env) (surroundings : Surroundings) :
    Nat → List (Text × ParseResult) → Staging Bool
  | _, [] => ret false
  | turn, (path, result) :: rest =>
      if surroundings.shutdownRequested turn then ret true
      else do
        stageResult env path result
        stageResults env surroundings (turn + 1) rest

def storeLastBatch (env : Env) : Staging Unit := do
  let progress ← locals
  if progress.batch.isEmpty then ret () else storeBatch env

def stageAliases (env : Env) (entry : (Text × List Text) × Nat) : Staging Unit := do
  let count ← lift (indexAliases env entry.2 entry.1.1 entry.1.2)
  setLocals (fun progress => { progress with totalAliases := progress.totalAliases + count })

/-- Links and aliases go to staging when every chunk is there. -/
def stageGraph (env : Env) (surroundings : Surroundings) : Staging Unit := do
  let progress ← locals
  forEach (stageAliases env) progress.allAliases.zipIdx
  let count ← lift (indexLinks progress.allLinks)
  setLocals (fun progress => { progress with totalLinks := count })
  let _ ← lift (resolveLinkTargets env surroundings)

/-- The staging part of `full_reindex`: the result when it returns early. -/
def stage (env : Env) (surroundings : Surroundings) (notes : List Text) :
    Staging (Option FullReindexStats) := do
  lift resetStagingTables
  lift (forEach (assignHandle 0 .staging) [.chunks, .links, .aliases])
  let results ← lift (parseNotes env 0 (surroundings.reading notes))
  let interrupted ← stageResults env surroundings 0 (surroundings.arriving results)
  if interrupted then do
    let progress ← locals
    let stats ← lift (failureStats 0 .interrupted progress)
    return some stats
  else do
    storeLastBatch env
    let progress ← locals
    if progress.parseErrors ≠ 0 then do
      let stats ← lift (failureStats 0 .failed progress)
      return some stats
    else do
      stageGraph env surroundings
      return none

/-- `_replace_table_from_staging`: the version that was published before, if any. -/
def replaceTableFromStaging (kind : TableKind) : Program (Option Nat) := do
  let existing ← step { operation := .listTables, kind, turn := 2 } (fun world =>
    some ((world.index.lanes kind).canonical.isSome, world))
  let reader ← peekTable { operation := .countStaging, kind } kind .staging
    (fun table => some table.rows)
  if existing then do
    let previousVersion ← tableVersion kind .canonical
    overwriteRows { operation := .publish, kind } kind .canonical reader
    return some previousVersion
  else do
    step { operation := .publish, kind } (fun world =>
      match world.index.table kind .canonical with
      | some _ => none
      | none => some ((), { world with
          index := world.index.setTable kind .canonical { past := [], rows := reader } }))
    return none

/-- The tables that are already published, with their previous versions. -/
abbrev Committed := List (TableKind × Option Nat)

abbrev Committing := Fallible Label OtherAction (World × Committed)

def commitTable (kind : TableKind) : Committing Unit := do
  let previous ← lift (replaceTableFromStaging kind)
  setLocals (fun committed => committed ++ [(kind, previous)])

/-- `_rollback_table`. -/
def rollbackTable (kind : TableKind) (previousVersion : Option Nat) : Program Unit :=
  match previousVersion with
  | some version => restoreVersion { operation := .rollback, kind } kind .canonical version
  | none => overwriteRows { operation := .rollback, kind } kind .canonical []

def rollbackEntry (entry : TableKind × Option Nat) : Program Unit := do
  let _ ← attempt (rollbackTable entry.1 entry.2)

/-- What follows a published generation: handles, indexes and the statistics. -/
def finishRebuild (progress : Progress) : Program FullReindexStats := do
  forEach (assignHandle 1 .canonical) [.chunks, .links, .aliases]
  let _ ← attempt (onTable { operation := .buildIndexes } .chunks .canonical
    (fun table => some ((), table.commit table.rows)))
  assign { operation := .compact } (fun world =>
    { world with index := { world.index with operationsSinceCompact := 0 } })
  return {
    status := .completed
    totalNotes := progress.notesIndexed
    totalChunks := progress.totalChunks
    totalLinks := if progress.totalLinks = 0 then none else some progress.totalLinks
    totalAliases := if progress.totalAliases = 0 then none else some progress.totalAliases }

def commitRebuild (progress : Progress) : Program FullReindexStats :=
  tryWith []
    (forEach commitTable [.links, .aliases, .chunks])
    (fun committed => do
      forEach rollbackEntry committed.reverse
      failureStats 1 .failed progress)
    (fun _ _ => finishRebuild progress)

/-- `full_reindex` from the moment it holds the write lock. -/
def rebuild (env : Env) (surroundings : Surroundings) (notes : List Text) :
    Program FullReindexStats :=
  tryWith {}
    (stage env surroundings notes)
    (fun progress => failureStats 1 .failed progress)
    (fun early progress =>
      match early with
      | some stats => ret stats
      | none => commitRebuild progress)

/-- The scan, which does not wait for the write lock. -/
def scanNotes (env : Env) : Program (List Text) :=
  step { operation := .scanVault } (fun world => some (scanVault env world.vault, world))

def fullReindex (env : Env) (surroundings : Surroundings) : Program FullReindexStats := do
  let notes ← scanNotes env
  rebuild env surroundings notes

/-! ### Circuit breaker -/

def circuitBreakerMaxAttempts : Nat :=
  3

/-- Sixty seconds, in nanoseconds. -/
def circuitBreakerWindow : Nat :=
  60 * 10 ^ 9

/-- `_check_circuit_breaker` at the time `now`: whether to block, and the attempts. -/
def checkCircuitBreaker (now : Nat) (path : Text) (attempts : List (Text × (Nat × Nat))) :
    Bool × List (Text × (Nat × Nat)) :=
  let current := attempts.filter (fun entry => now - entry.2.2 ≤ circuitBreakerWindow)
  match current.lookup path with
  | none => (false, current ++ [(path, (1, now))])
  | some (count, first) =>
      if circuitBreakerMaxAttempts ≤ count then (true, current)
      else
        (false, current.map (fun entry =>
          if entry.1 = path then (path, (count + 1, first)) else entry))

/-! ### One note -/

/-- One call of `reindex_note`, with the time it is made at. -/
structure Call where
  path : Text
  autoGenerateId : Bool := true
  now : Nat
  fresh : Fresh

/-- `_record_incremental_operation`: whether the table was compacted. -/
def recordIncrementalOperation (side : Side) : Program Bool := do
  assign { operation := .compact, turn := 0 } (fun world =>
    { world with index :=
      { world.index with operationsSinceCompact := world.index.operationsSinceCompact + 1 } })
  let operations ← look (fun world => world.index.operationsSinceCompact)
  if operations < autoCompactThreshold then return false
  else do
    let compacted ← attempt (onTable { operation := .compact, turn := 1 } .chunks side
      (fun table => some ((), table.commit table.rows)))
    match compacted with
    | none => return false
    | some _ => do
        assign { operation := .compact, turn := 2 } (fun world =>
          { world with index := { world.index with operationsSinceCompact := 0 } })
        return true

def addFailed : ReindexResult :=
  { chunksIndexed := 0, status := .errorAddFailed }

/-- Remove the rows of a note that is gone. -/
def removeNote (env : Env) (path : Text) : Program ReindexResult := do
  let applied ← attempt (applyNoteRecords env path [] [] [])
  match applied with
  | none => return addFailed
  | some (table, _, _) => do
      let _ ← recordIncrementalOperation table
      return { chunksIndexed := 0, status := .deleted }

/-- The automatic id: whether one was added.  What `ensure_note_id` raises is logged. -/
def autoGenerateId (env : Env) (call : Call) : Program Bool :=
  if call.autoGenerateId && env.lower (PurePath.suffix call.path) = ".md".toList then do
    let result ← attempt (step { operation := .ensureNoteId } (fun world =>
      match ensureNoteId env call.fresh call.path world.vault with
      | .error _ => none
      | .ok (result, vault) => some (result, { world with vault })))
    return (result.bind (fun result => result.idAdded)).getD false
  else return false

/-- Store what was parsed. -/
def storeParsed (env : Env) (path : Text) (idAdded : Bool) (parsed : ParseResult) :
    Program ReindexResult := do
  let chunks := (truncateChunks env parsed).chunks
  if chunks.isEmpty then do
    let applied ← attempt (applyNoteRecords env path [] [] [])
    match applied with
    | none => return addFailed
    | some (table, _, _) => do
        let autoCompacted ← recordIncrementalOperation table
        return { chunksIndexed := 0, status := .empty, autoCompacted }
  else do
    let embedded ← attempt (embedChunks env 0 chunks)
    match embedded with
    | none => return addFailed
    | some chunksWithVectors => do
        let applied ← attempt
          (applyNoteRecords env path chunksWithVectors parsed.links parsed.aliases)
        match applied with
        | none => return addFailed
        | some (table, linksCount, aliasesCount) => do
            let autoCompacted ← recordIncrementalOperation table
            return {
              chunksIndexed := chunksWithVectors.length
              status := .updated
              linksIndexed := if linksCount = 0 then none else some linksCount
              aliasesIndexed := if aliasesCount = 0 then none else some aliasesCount
              idAdded
              autoCompacted }

def pathExists (turn : Nat) (path : Text) : Program Bool :=
  step { operation := .pathExists, turn } (fun world =>
    some ((world.vault.read path).isSome, world))

/-- The part of `reindex_note` that holds the write lock. -/
def reindexLocked (env : Env) (call : Call) : Program ReindexResult := do
  let exist ← pathExists 0 call.path
  if !exist then removeNote env call.path
  else do
    let idAdded ← autoGenerateId env call
    let parsed ← parseStep env 0 call.path
    if parsed.status = .error then do
      let exist ← pathExists 1 call.path
      if !exist then removeNote env call.path
      else return { chunksIndexed := 0, status := .parseError }
    else storeParsed env call.path idAdded parsed

def reindexNote (env : Env) (call : Call) : Program ReindexResult :=
  if !validateRelativePath call.path then
    return { chunksIndexed := 0, status := .rejectedPathTraversal }
  else if !hasIndexableExtension env call.path then
    return { chunksIndexed := 0, status := .rejectedExtension }
  else do
    let blocked ← step { operation := .circuitBreaker } (fun world =>
      let (blocked, attempts) := checkCircuitBreaker call.now call.path world.attempts
      some (blocked, { world with attempts }))
    if blocked then return { chunksIndexed := 0, status := .circuitBreakerOpen }
    else reindexLocked env call

end VaultSearch
