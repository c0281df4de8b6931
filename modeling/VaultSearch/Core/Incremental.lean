/-
One call of `reindex_note`, beside threads that edit the vault.

`contentRows` are the rows of a note with a given content.  A call that reports
`updated`, `empty` or `deleted` has replaced the rows of the note by those of a content
it has read; any other answer leaves every row as it was.
-/

import VaultSearch.Core.NoteRecords
import VaultSearch.Parsers.Records

set_option autoImplicit false

namespace VaultSearch

open Fallible

/-! ### The rows of a content -/

/-- What the parser makes of a note whose file is `content`. -/
def contentParse (env : Env) (path : Text) : Option File → ParseResult
  | some file => parseFileResult env path file
  | none =>
      match formatOf env path with
      | none => { status := .unsupported }
      | some _ => { status := .error, errorType := some .osError }

theorem parsePath_eq (env : Env) (vault : Vault) (path : Text) :
    parsePath env vault path = contentParse env path (vault.read path) := by
  unfold parsePath contentParse
  cases vault.read path <;> rfl

/-- The chunks with the vectors that one call of the model gives for them. -/
def vectorized (env : Env) (chunks : List ChunkRecord) : List ChunkWithVector :=
  List.zipWith (fun chunk vector => { toChunkRecord := chunk, vector }) chunks
    ((env.embedCorpus (chunks.map (fun chunk => chunk.text))).getD [])

/-- The rows that a parsed note puts into the tables; a note without chunks has none. -/
def parsedRows (env : Env) (path : Text) (parsed : ParseResult) : Rows :=
  let chunks := (truncateChunks env parsed).chunks
  if chunks.isEmpty then noteRows env path [] [] []
  else noteRows env path (vectorized env chunks) parsed.links parsed.aliases

def contentRows (env : Env) (path : Text) (content : Option File) : Rows :=
  parsedRows env path (contentParse env path content)

theorem noteRows_empty (env : Env) (path : Text) (kind : TableKind) :
    noteRows env path [] [] [] kind = [] := by
  cases kind <;> rfl

/-- A note that is gone has no rows. -/
theorem contentRows_none (env : Env) (path : Text) (kind : TableKind) :
    contentRows env path none kind = [] := by
  have empty : (truncateChunks env (contentParse env path none)).chunks.isEmpty = true := by
    unfold contentParse truncateChunks
    cases formatOf env path <;> simp
  unfold contentRows parsedRows
  simp only [empty, if_true]
  exact noteRows_empty env path kind

theorem vectorized_chunk (env : Env) (chunks : List ChunkRecord) :
    ∀ row ∈ vectorized env chunks, row.toChunkRecord ∈ chunks := by
  unfold vectorized
  generalize (env.embedCorpus (chunks.map (fun chunk => chunk.text))).getD [] = vectors
  induction chunks generalizing vectors with
  | nil =>
      intro row member
      rw [List.zipWith_nil_left] at member
      cases member
  | cons head tail ih =>
      intro row member
      cases vectors with
      | nil =>
          rw [List.zipWith_nil_right] at member
          cases member
      | cons vector rest =>
          rcases List.mem_cons.mp member with same | later
          · rw [same]
            exact List.mem_cons_self
          · exact List.mem_cons_of_mem _ (ih rest row later)

theorem contentParse_of (env : Env) (path : Text) (content : Option File) :
    (∀ chunk ∈ (contentParse env path content).chunks,
      chunk.notePath = PurePath.normalPath path) ∧
    FreshLinks (PurePath.normalPath path) (contentParse env path content).links := by
  unfold contentParse
  split
  · exact parseFileResult_of env path _
  · split
    · exact ⟨(fun _ member => by cases member), emptyLinks_fresh _⟩
    · exact ⟨(fun _ member => by cases member), emptyLinks_fresh _⟩

/-- Under a normal path every row of a content is a row of the note. -/
theorem contentRows_owner (env : Env) {path : Text} (normal : IsNormalPath path)
    (content : Option File) (kind : TableKind) :
    ∀ row ∈ contentRows env path content kind, Row.owner kind row = path := by
  obtain ⟨chunks, links⟩ := contentParse_of env path content
  rw [normal] at chunks links
  unfold contentRows parsedRows
  split
  · intro row member
    rw [noteRows_empty] at member
    cases member
  · refine noteRows_owner env path _ ?_ links.owner kind
    intro chunk member
    have inside := vectorized_chunk env _ chunk member
    exact chunks _ (List.mem_of_mem_take inside)

/-- The model gives one vector for each text. -/
def EmbedsAll (env : Env) : Prop :=
  ∀ texts, ∃ vectors, env.embedCorpus texts = some vectors ∧ vectors.length = texts.length

/-! ### What a call sees -/

/-- Other threads leave the index alone; what the call reads of its note satisfies `seen`,
which they keep, like `fact`, a fact that an automatic id does not break either. -/
structure Reading (env : Env) (schedule : Schedule Label OtherAction) (call : Call)
    (seen : Option File → Vault → Prop) (fact : Vault → Prop) : Prop where
  undisturbed : ∀ content, Undisturbed schedule (fun vault => seen content vault ∧ fact vault)
  kept : Undisturbed schedule fact
  sees : ∀ vault, fact vault → seen (vault.read call.path) vault
  identified : ∀ vault later result, call.autoGenerateId = true → fact vault →
    ensureNoteId env call.fresh call.path vault = .ok (result, later) → fact later

/-- The rows of the note have been replaced. -/
def ReindexStatus.applied : ReindexStatus → Bool
  | .updated => true
  | .empty => true
  | .deleted => true
  | _ => false

/-- The outcome of a call by its status: the rows `before` are replaced or kept, and a
failure has a reason. -/
def Answered (env : Env) (schedule : Schedule Label OtherAction) (call : Call)
    (seen : Option File → Vault → Prop) (sides : TableKind → Side) (before : Rows)
    (status : ReindexStatus) (world : World) : Prop :=
  match status with
  | .updated | .empty | .deleted => ∃ content, seen content world.vault ∧
      world.index.Shows sides (before.replace call.path (contentRows env call.path content))
  | .parseError => world.index.Shows sides before ∧ (HasFault schedule ∨
      ∃ content later, seen content world.vault ∧ seen later world.vault ∧ later.isSome = true ∧
        (contentParse env call.path content).status = .error)
  | .errorAddFailed => world.index.Shows sides before ∧ (HasFault schedule ∨ ¬EmbedsAll env)
  | .rejectedPathTraversal =>
      world.index.Shows sides before ∧ validateRelativePath call.path = false
  | .rejectedExtension =>
      world.index.Shows sides before ∧ hasIndexableExtension env call.path = false
  | .circuitBreakerOpen => world.index.Shows sides before

theorem Answered.replaced {env : Env} {schedule : Schedule Label OtherAction} {call : Call}
    {seen : Option File → Vault → Prop} {sides : TableKind → Side} {before : Rows}
    {status : ReindexStatus} {world : World}
    (answered : Answered env schedule call seen sides before status world)
    (applied : status.applied = true) : ∃ content, seen content world.vault ∧
      world.index.Shows sides (before.replace call.path (contentRows env call.path content)) := by
  cases status with
  | updated => exact answered
  | empty => exact answered
  | deleted => exact answered
  | parseError => cases applied
  | errorAddFailed => cases applied
  | rejectedPathTraversal => cases applied
  | rejectedExtension => cases applied
  | circuitBreakerOpen => cases applied

theorem Answered.kept {env : Env} {schedule : Schedule Label OtherAction} {call : Call}
    {seen : Option File → Vault → Prop} {sides : TableKind → Side} {before : Rows}
    {status : ReindexStatus} {world : World}
    (answered : Answered env schedule call seen sides before status world)
    (skipped : status.applied = false) : world.index.Shows sides before := by
  cases status with
  | updated => cases skipped
  | empty => cases skipped
  | deleted => cases skipped
  | parseError => exact answered.1
  | errorAddFailed => exact answered.1
  | rejectedPathTraversal => exact answered.1
  | rejectedExtension => exact answered.1
  | circuitBreakerOpen => exact answered

theorem Index.Shows.congr {index other : Index} {sides : TableKind → Side} {rows : Rows}
    (shows : index.Shows sides rows) (same : other.lanes = index.lanes) :
    other.Shows sides rows := by
  have table : ∀ kind side, other.table kind side = index.table kind side := by
    intro kind side
    unfold Index.table
    rw [same]
  have handle : ∀ kind, other.handle kind = index.handle kind := by
    intro kind
    unfold Index.handle
    rw [same]
  constructor
  · intro kind
    rw [handle]
    exact shows.facing kind
  · intro kind opened
    rw [handle] at opened
    rw [table]
    exact shows.opened kind opened
  · intro kind
    rw [Index.rows_congr (table kind (sides kind))]
    exact shows.rows kind

section Calls

variable {env : Env} {schedule : Schedule Label OtherAction} {call : Call}
  {seen : Option File → Vault → Prop} {fact : Vault → Prop} {sides : TableKind → Side}
  {before : Rows}

/-- Counting an operation, and the compaction it may lead to, change no row. -/
theorem triple_recordIncrementalOperation {known : Vault → Prop} {rows : Rows}
    (undisturbed : Undisturbed schedule known) (raised : World → Prop) :
    Triple schedule (fun _ => True)
      (fun world => world.index.Shows sides rows ∧ known world.vault)
      (recordIncrementalOperation (sides .chunks))
      (fun _ world => world.index.Shows sides rows ∧ known world.vault) raised := by
  have stable : Steady schedule (fun _ => True)
      (fun world : World => world.index.Shows sides rows ∧ known world.vault) := by
    refine undisturbed.steady ?_
    rintro world other same keep ⟨shows, vault⟩
    rw [same]
    exact ⟨shows, keep vault⟩
  unfold recordIncrementalOperation
  refine triple_andThen (fun _ world => world.index.Shows sides rows ∧ known world.vault) ?_ ?_
  · refine triple_assign stable ?_
    rintro world ⟨shows, vault⟩
    exact ⟨⟨shows.congr rfl, vault⟩, trivial⟩
  intro _
  refine triple_andThen (fun _ world => world.index.Shows sides rows ∧ known world.vault)
    (triple_look (fun _ holds => holds)) ?_
  intro operations
  split
  · exact triple_ret _ (fun _ holds => holds)
  · refine triple_andThen (fun _ world => world.index.Shows sides rows ∧ known world.vault) ?_ ?_
    · refine triple_attempt (triple_onTable stable ?_ (fun _ holds _ => holds))
      rintro world table value later ⟨shows, vault⟩ _fine found done
      rw [← (Prod.mk.inj (Option.some.inj done)).2]
      have kept := shows.setTable .chunks (table.commit table.rows)
      have same : table.rows = rows .chunks := by
        rw [← shows.rows .chunks, Index.rows_of_table found]
      rw [Table.commit_rows, same, Function.update_eq_self] at kept
      rw [same]
      exact ⟨⟨kept, vault⟩, trivial⟩
    · intro compacted
      cases compacted with
      | none => exact triple_ret _ (fun _ holds => holds)
      | some _ =>
          refine triple_andThen (fun _ world => world.index.Shows sides rows ∧ known world.vault)
            ?_ (fun _ => triple_ret _ (fun _ holds => holds))
          refine triple_assign stable ?_
          rintro world ⟨shows, vault⟩
          exact ⟨⟨shows.congr rfl, vault⟩, trivial⟩

/-- The vectors of a note, unless the model fails. -/
theorem triple_embedChunks {known : World → Prop}
    (stable : Steady schedule (fun _ => True) known) (turn : Nat) (chunks : List ChunkRecord) :
    Triple schedule (fun _ => True) known (embedChunks env turn chunks)
      (fun records world => records = vectorized env chunks ∧ known world)
      (fun world => (HasFault schedule ∨ ¬EmbedsAll env) ∧ known world) := by
  unfold embedChunks
  refine triple_andThen (fun vectors world =>
    env.embedCorpus (chunks.map (fun chunk => chunk.text)) = some vectors ∧ known world) ?_ ?_
  · refine triple_step stable ?_ ?_
    · intro world vectors later holds _fine found
      obtain ⟨made, embedded, same⟩ := Option.map_eq_some_iff.mp found
      rw [← (Prod.mk.inj same).1, ← (Prod.mk.inj same).2]
      exact ⟨⟨embedded, holds⟩, trivial⟩
    · rintro world holds (fault | impossible)
      · exact ⟨Or.inl ⟨_, fault⟩, holds⟩
      · refine ⟨Or.inr ?_, holds⟩
        intro embeds
        obtain ⟨vectors, found, _length⟩ := embeds (chunks.map (fun chunk => chunk.text))
        rw [found] at impossible
        cases impossible
  intro vectors
  split
  case isTrue differ =>
    refine triple_raise ?_
    rintro world ⟨found, holds⟩
    refine ⟨Or.inr ?_, holds⟩
    intro embeds
    obtain ⟨expected, same, length⟩ := embeds (chunks.map (fun chunk => chunk.text))
    rw [found] at same
    rw [← Option.some.inj same, List.length_map] at length
    exact differ length
  case isFalse =>
    refine triple_ret _ ?_
    rintro world ⟨found, holds⟩
    refine ⟨?_, holds⟩
    unfold vectorized
    rw [found]
    rfl

/-- Replacing the rows and counting the operation, for one seen content. -/
theorem triple_replaced {beta : Type} {known : Vault → Prop} {after : beta → World → Prop}
    (undisturbed : Undisturbed schedule known)
    (restores : ∀ kind, schedule.faults { operation := .restoreVersion, kind } = false)
    (path : Text) (chunks : List ChunkWithVector) (links : List LinkRecord) (aliases : List Text)
    {next : Option (Side × Nat × Nat) → Program beta} (raised : World → Prop)
    (failed : Triple schedule (fun _ => True) (fun world => HasFault schedule ∧
      world.index.Shows sides before ∧ known world.vault) (next none) after raised)
    (done : Triple schedule (fun _ => True) (fun world =>
      world.index.Shows sides (before.replace path (noteRows env path chunks links aliases)) ∧
        known world.vault)
      (next (some (sides .chunks, links.length, (aliasRecords env path aliases).length)))
      after raised) :
    Triple schedule (fun _ => True)
      (fun world => world.index.Shows sides before ∧ known world.vault)
      (andThen (attempt (applyNoteRecords env path chunks links aliases)) next) after raised := by
  have applied := @triple_applyNoteRecords schedule known sides before undisturbed restores env path
    chunks links aliases
  refine triple_andThen (fun result world =>
    match result with
    | none => HasFault schedule ∧ world.index.Shows sides before ∧ known world.vault
    | some result => result = (sides .chunks, links.length, (aliasRecords env path aliases).length) ∧
        world.index.Shows sides (before.replace path (noteRows env path chunks links aliases)) ∧
          known world.vault) (triple_attempt applied) ?_
  intro result
  cases result with
  | none => exact failed
  | some result =>
      rintro world ⟨same, shows⟩
      rw [same]
      exact done world shows

/-! ### The parts of a call -/

/-- Where a call is that has replaced nothing yet and knows a content. -/
def Knowing (seen : Option File → Vault → Prop) (fact : Vault → Prop) (sides : TableKind → Side)
    (before : Rows) (content : Option File) (world : World) : Prop :=
  world.index.Shows sides before ∧ seen content world.vault ∧ fact world.vault

theorem triple_removeNote (reading : Reading env schedule call seen fact)
    (restores : ∀ kind, schedule.faults { operation := .restoreVersion, kind } = false)
    (raised : World → Prop) {content : Option File} (gone : content = none) :
    Triple schedule (fun _ => True) (Knowing seen fact sides before content)
      (removeNote env call.path)
      (fun result world => Answered env schedule call seen sides before result.status world ∧
        fact world.vault) raised := by
  have rows : contentRows env call.path content = noteRows env call.path [] [] [] := by
    funext kind
    rw [gone, contentRows_none, noteRows_empty]
  unfold removeNote
  refine triple_replaced (reading.undisturbed content) restores call.path [] [] [] raised ?_ ?_
  · refine triple_ret addFailed ?_
    rintro world ⟨fault, shows, _known, kept⟩
    exact ⟨⟨shows, Or.inl fault⟩, kept⟩
  · refine triple_andThen _
      (triple_recordIncrementalOperation (reading.undisturbed content) raised) ?_
    intro _
    refine triple_ret _ ?_
    rintro world ⟨shows, known, kept⟩
    exact ⟨⟨content, known, by rw [rows]; exact shows⟩, kept⟩

theorem triple_storeParsed (reading : Reading env schedule call seen fact)
    (restores : ∀ kind, schedule.faults { operation := .restoreVersion, kind } = false)
    (raised : World → Prop) (idAdded : Bool) (content : Option File) :
    Triple schedule (fun _ => True) (Knowing seen fact sides before content)
      (storeParsed env call.path idAdded (contentParse env call.path content))
      (fun result world => Answered env schedule call seen sides before result.status world ∧
        fact world.vault) raised := by
  let parsed := contentParse env call.path content
  have undisturbed := reading.undisturbed content
  unfold storeParsed
  simp only
  split
  case isTrue empty =>
    have rows : contentRows env call.path content = noteRows env call.path [] [] [] := by
      unfold contentRows parsedRows
      simp only [empty, if_true]
    refine triple_replaced undisturbed restores call.path [] [] [] raised ?_ ?_
    · refine triple_ret addFailed ?_
      rintro world ⟨fault, shows, _known, kept⟩
      exact ⟨⟨shows, Or.inl fault⟩, kept⟩
    · refine triple_andThen _ (triple_recordIncrementalOperation undisturbed raised) ?_
      intro _
      refine triple_ret _ ?_
      rintro world ⟨shows, known, kept⟩
      exact ⟨⟨content, known, by rw [rows]; exact shows⟩, kept⟩
  case isFalse nonempty =>
    have rows : contentRows env call.path content = noteRows env call.path
        (vectorized env (truncateChunks env parsed).chunks) parsed.links parsed.aliases := by
      unfold contentRows parsedRows
      simp only [nonempty]
      rfl
    have stable : Steady schedule (fun _ => True) (Knowing seen fact sides before content) := by
      refine undisturbed.steady ?_
      rintro world other same keep ⟨shows, vault⟩
      exact ⟨by rw [same]; exact shows, keep vault⟩
    refine triple_andThen (fun records world => records.elim
      ((HasFault schedule ∨ ¬EmbedsAll env) ∧ Knowing seen fact sides before content world)
      (fun records => records = vectorized env (truncateChunks env parsed).chunks ∧
        Knowing seen fact sides before content world))
      (triple_attempt (triple_embedChunks stable 0 _)) ?_
    intro records
    cases records with
    | none =>
        refine triple_ret addFailed ?_
        rintro world ⟨reason, shows, _known, kept⟩
        exact ⟨⟨shows, reason⟩, kept⟩
    | some records =>
        refine triple_given ?_
        intro same
        subst same
        refine triple_replaced undisturbed restores call.path _ parsed.links parsed.aliases raised
          ?_ ?_
        · refine triple_ret addFailed ?_
          rintro world ⟨fault, shows, _known, kept⟩
          exact ⟨⟨shows, Or.inl fault⟩, kept⟩
        · refine triple_andThen _ (triple_recordIncrementalOperation undisturbed raised) ?_
          intro _
          refine triple_ret _ ?_
          rintro world ⟨shows, known, kept⟩
          exact ⟨⟨content, known, by rw [rows]; exact shows⟩, kept⟩

theorem triple_autoGenerateId (reading : Reading env schedule call seen fact)
    (raised : World → Prop) :
    Triple schedule (fun _ => True)
      (fun world => world.index.Shows sides before ∧ fact world.vault) (autoGenerateId env call)
      (fun _ world => world.index.Shows sides before ∧ fact world.vault) raised := by
  unfold autoGenerateId
  split
  case isTrue wanted =>
    refine triple_andThen (fun _ world => world.index.Shows sides before ∧ fact world.vault)
      (triple_attempt (triple_step ?_ ?_ (fun _ holds _ => holds)))
      (fun _ => triple_ret _ (fun _ holds => holds))
    · refine reading.kept.steady ?_
      rintro world other same keep ⟨shows, vault⟩
      exact ⟨by rw [same]; exact shows, keep vault⟩
    · rintro world result later ⟨shows, vault⟩ _fine found
      have automatic : call.autoGenerateId = true := (Bool.and_eq_true_iff.mp wanted).1
      cases outcome : ensureNoteId env call.fresh call.path world.vault with
      | error error => simp [outcome] at found
      | ok pair =>
          simp only [outcome, Option.some.injEq, Prod.mk.injEq] at found
          rw [← found.2]
          exact ⟨⟨shows, reading.identified _ _ _ automatic vault outcome⟩, trivial⟩
  case isFalse => exact triple_ret _ (fun _ holds => holds)

theorem triple_parseStep (reading : Reading env schedule call seen fact) (turn : Nat)
    (raised : World → Prop) :
    Triple schedule (fun _ => True)
      (fun world => world.index.Shows sides before ∧ fact world.vault)
      (parseStep env turn call.path)
      (fun parsed world => (∃ content, parsed = contentParse env call.path content ∧
          Knowing seen fact sides before content world) ∨
        (HasFault schedule ∧ parsed.status = .error ∧
          world.index.Shows sides before ∧ fact world.vault)) raised := by
  have stable : Steady schedule (fun _ => True)
      (fun world : World => world.index.Shows sides before ∧ fact world.vault) := by
    refine reading.kept.steady ?_
    rintro world other same keep ⟨shows, vault⟩
    exact ⟨by rw [same]; exact shows, keep vault⟩
  unfold parseStep
  refine triple_andThen (fun parsed world =>
    match parsed with
    | some parsed => ∃ content, parsed = contentParse env call.path content ∧
        Knowing seen fact sides before content world
    | none => HasFault schedule ∧ world.index.Shows sides before ∧ fact world.vault)
    (triple_attempt (triple_step stable ?_ ?_)) ?_
  · rintro world parsed later ⟨shows, vault⟩ _fine found
    obtain ⟨same, kept⟩ := Prod.mk.inj (Option.some.inj found)
    rw [← same, ← kept]
    exact ⟨⟨_, parsePath_eq env world.vault call.path, shows, reading.sees _ vault, vault⟩, trivial⟩
  · rintro world holds (fault | impossible)
    · exact ⟨⟨_, fault⟩, holds⟩
    · cases impossible
  · intro parsed
    cases parsed with
    | some parsed => exact triple_ret _ (fun world holds => Or.inl holds)
    | none => exact triple_ret _ (fun world holds => Or.inr ⟨holds.1, rfl, holds.2⟩)

theorem triple_pathExists (reading : Reading env schedule call seen fact) (turn : Nat)
    {known : World → Prop} (stable : Steady schedule (fun _ => True) known)
    (kept : ∀ world, known world → world.index.Shows sides before ∧ fact world.vault) :
    Triple schedule (fun _ => True) known (pathExists turn call.path)
      (fun found world => known world ∧ ∃ content, content.isSome = found ∧
        Knowing seen fact sides before content world)
      (fun world => HasFault schedule ∧ known world) := by
  refine triple_step stable ?_ ?_
  · intro world found later holds _fine done
    obtain ⟨same, unchanged⟩ := Prod.mk.inj (Option.some.inj done)
    obtain ⟨shows, vault⟩ := kept world holds
    rw [← same, ← unchanged]
    exact ⟨⟨holds, _, rfl, shows, reading.sees _ vault, vault⟩, trivial⟩
  · rintro world holds (fault | impossible)
    · exact ⟨⟨_, fault⟩, holds⟩
    · cases impossible

/-- Why a parse failed, in a form that other threads keep. -/
def ParseFailed (env : Env) (schedule : Schedule Label OtherAction) (call : Call)
    (seen : Option File → Vault → Prop) (fact : Vault → Prop) (sides : TableKind → Side)
    (before : Rows) (world : World) : Prop :=
  world.index.Shows sides before ∧ fact world.vault ∧ (HasFault schedule ∨
    ∃ content, seen content world.vault ∧ (contentParse env call.path content).status = .error)

theorem ParseFailed.steady (reading : Reading env schedule call seen fact) :
    Steady schedule (fun _ => True) (ParseFailed env schedule call seen fact sides before) := by
  rintro name action member world ⟨shows, vault, reason⟩
  refine ⟨⟨?_, reading.kept.vault name action member world vault, ?_⟩, trivial⟩
  · rw [reading.kept.index name action member world]
    exact shows
  · rcases reason with fault | ⟨content, known, failed⟩
    · exact Or.inl fault
    · exact Or.inr ⟨content,
        ((reading.undisturbed content).vault name action member world ⟨known, vault⟩).1, failed⟩

/-- The locked part of a call. -/
theorem triple_reindexLocked (reading : Reading env schedule call seen fact)
    (restores : ∀ kind, schedule.faults { operation := .restoreVersion, kind } = false) :
    Triple schedule (fun _ => True)
      (fun world => world.index.Shows sides before ∧ fact world.vault) (reindexLocked env call)
      (fun result world => Answered env schedule call seen sides before result.status world ∧
        fact world.vault)
      (fun world => HasFault schedule ∧ world.index.Shows sides before ∧ fact world.vault) := by
  have stable : Steady schedule (fun _ => True)
      (fun world : World => world.index.Shows sides before ∧ fact world.vault) := by
    refine reading.kept.steady ?_
    rintro world other same keep ⟨shows, vault⟩
    exact ⟨by rw [same]; exact shows, keep vault⟩
  have removed : ∀ found : Bool, found = false → Triple schedule (fun _ => True)
      (fun world => ∃ content : Option File, content.isSome = found ∧
        Knowing seen fact sides before content world) (removeNote env call.path)
      (fun result world => Answered env schedule call seen sides before result.status world ∧
        fact world.vault)
      (fun world => HasFault schedule ∧ world.index.Shows sides before ∧ fact world.vault) := by
    rintro found missing world ⟨content, same, knowing⟩
    rw [missing] at same
    have gone : content = none := Option.not_isSome_iff_eq_none.mp (by rw [same]; decide)
    exact triple_removeNote reading restores
      (fun world => HasFault schedule ∧ world.index.Shows sides before ∧ fact world.vault) gone
      world knowing
  unfold reindexLocked
  refine triple_andThen _ (triple_pathExists reading 0 stable (fun _ holds => holds)) ?_
  intro found
  split
  case isTrue missing =>
    refine (removed found (by simpa using missing)).weaken ?_ (fun _ _ holds => holds)
      (fun _ holds => holds)
    rintro world ⟨_holds, content, knowing⟩
    exact ⟨content, knowing⟩
  case isFalse =>
    refine triple_andThen (fun _ world => world.index.Shows sides before ∧ fact world.vault)
      ((triple_autoGenerateId reading _).weaken (fun _ holds => holds.1) (fun _ _ holds => holds)
        (fun _ holds => holds)) ?_
    intro idAdded
    refine triple_andThen _ (triple_parseStep reading 0 _) ?_
    intro parsed
    split
    case isTrue failed =>
      refine triple_andThen (fun found world =>
        ParseFailed env schedule call seen fact sides before world ∧
          ∃ content : Option File, content.isSome = found ∧
            Knowing seen fact sides before content world)
        ((triple_pathExists reading 1 (ParseFailed.steady reading)
          (fun _ failure => ⟨failure.1, failure.2.1⟩)).weaken ?_ (fun _ _ holds => holds) ?_) ?_
      · rintro world (⟨content, same, shows, known, vault⟩ | ⟨fault, _status, shows, vault⟩)
        · exact ⟨shows, vault, Or.inr ⟨content, known, by rw [← same]; exact failed⟩⟩
        · exact ⟨shows, vault, Or.inl fault⟩
      · rintro world ⟨fault, shows, vault, _reason⟩
        exact ⟨fault, shows, vault⟩
      intro found
      split
      case isTrue missing =>
        refine (removed found (by simpa using missing)).weaken ?_ (fun _ _ holds => holds)
          (fun _ holds => holds)
        rintro world ⟨_failed, content, knowing⟩
        exact ⟨content, knowing⟩
      case isFalse present =>
        refine triple_ret _ ?_
        rintro world ⟨⟨shows, vault, reason⟩, later, same, _shows, known, _vault⟩
        refine ⟨⟨shows, ?_⟩, vault⟩
        rcases reason with fault | ⟨content, read, broken⟩
        · exact Or.inl fault
        · exact Or.inr ⟨content, later, read, known, by rw [same]; simpa using present, broken⟩
    case isFalse parses =>
      rintro world (⟨content, same, knowing⟩ | ⟨_fault, failed, _holds⟩)
      · rw [same]
        exact triple_storeParsed reading restores
          (fun world => HasFault schedule ∧ world.index.Shows sides before ∧ fact world.vault)
          idAdded content world knowing
      · exact absurd failed parses

/-- A call of `reindex_note` answers as its status says. -/
theorem triple_reindexNote (reading : Reading env schedule call seen fact)
    (restores : ∀ kind, schedule.faults { operation := .restoreVersion, kind } = false) :
    Triple schedule (fun _ => True)
      (fun world => world.index.Shows sides before ∧ fact world.vault) (reindexNote env call)
      (fun result world => Answered env schedule call seen sides before result.status world ∧
        fact world.vault)
      (fun world => HasFault schedule ∧ world.index.Shows sides before ∧ fact world.vault) := by
  have stable : Steady schedule (fun _ => True)
      (fun world : World => world.index.Shows sides before ∧ fact world.vault) := by
    refine reading.kept.steady ?_
    rintro world other same keep ⟨shows, vault⟩
    exact ⟨by rw [same]; exact shows, keep vault⟩
  unfold reindexNote
  split
  case isTrue outside =>
    refine triple_ret _ ?_
    rintro world ⟨shows, vault⟩
    exact ⟨⟨shows, by simpa using outside⟩, vault⟩
  case isFalse =>
    split
    case isTrue foreign =>
      refine triple_ret _ ?_
      rintro world ⟨shows, vault⟩
      exact ⟨⟨shows, by simpa using foreign⟩, vault⟩
    case isFalse =>
      refine triple_andThen (fun _ world => world.index.Shows sides before ∧ fact world.vault)
        (triple_step stable ?_ ?_) ?_
      · intro world blocked later holds _fine found
        rw [← (Prod.mk.inj (Option.some.inj found)).2]
        exact ⟨holds, trivial⟩
      · rintro world holds (fault | impossible)
        · exact ⟨⟨_, fault⟩, holds⟩
        · cases impossible
      intro blocked
      split
      · refine triple_ret _ ?_
        rintro world ⟨shows, vault⟩
        exact ⟨shows, vault⟩
      · exact triple_reindexLocked reading restores

end Calls

end VaultSearch
