/-
A call of `reindex_note` beside threads that edit notes, without a fault.

If no editor touches the note of the call, an answer other than that of the circuit
breaker leaves the rows of the note's content; the rows of every other note stay.
-/

import VaultSearch.Core.Incremental

set_option autoImplicit false

namespace VaultSearch

open Fallible

/-! ### Editors -/

/-- A note is written, or removed when there is no content. -/
structure Edit where
  path : Text
  content : Option File

def Edit.act (edit : Edit) : OtherAction :=
  match edit.content with
  | some file => .write edit.path file
  | none => .remove edit.path

/-- No step fails, and editors act just before the steps they are listed for. -/
def editing (edits : List (Label × Edit)) : Schedule Label OtherAction :=
  { faults := fun _ => false
    others := fun name => (edits.filter (fun entry => entry.1 = name)).map (fun entry => entry.2.act) }

/-- A note in the spelling of the scan, that `reindex_note` accepts. -/
structure IsNote (env : Env) (path : Text) : Prop where
  normal : IsNormalPath path
  stripped : Text.strip path = path
  inside : validateRelativePath path = true
  indexable : hasIndexableExtension env path = true

theorem read_act (edit : Edit) (world : World) (path : Text)
    (other : PurePath.normalPath path ≠ PurePath.normalPath edit.path) :
    (Acts.act edit.act world).vault.read path = world.vault.read path := by
  unfold Edit.act
  cases edit.content with
  | some file => exact Vault.read_write_other _ _ other
  | none => exact Vault.read_remove_other _ other

theorem index_act (edit : Edit) (world : World) : (Acts.act edit.act world).index = world.index := by
  unfold Edit.act
  cases edit.content <;> rfl

theorem editing_undisturbed {edits : List (Label × Edit)} {fact : Vault → Prop}
    (keep : ∀ entry ∈ edits, ∀ world : World, fact world.vault →
      fact (Acts.act entry.2.act world).vault) : Undisturbed (editing edits) fact := by
  have found : ∀ name, ∀ action ∈ (editing edits).others name,
      ∃ entry ∈ edits, entry.2.act = action := by
    intro name action member
    obtain ⟨entry, inside, same⟩ := List.mem_map.mp member
    exact ⟨entry, (List.mem_filter.mp inside).1, same⟩
  constructor
  · intro name action member world
    obtain ⟨entry, _inside, same⟩ := found name action member
    rw [← same]
    exact index_act entry.2 world
  · intro name action member world holds
    obtain ⟨entry, inside, same⟩ := found name action member
    rw [← same]
    exact keep entry inside world holds

/-- Editors that leave the note alone. -/
theorem reading_own {env : Env} {call : Call} {edits : List (Label × Edit)}
    (apart : ∀ entry ∈ edits, PurePath.normalPath call.path ≠ PurePath.normalPath entry.2.path) :
    Reading env (editing edits) call (fun content vault => vault.read call.path = content)
      (fun _ => True) where
  undisturbed := fun _ => editing_undisturbed (fun entry member world holds =>
    ⟨(read_act entry.2 world call.path (apart entry member)).trans holds.1, trivial⟩)
  kept := editing_undisturbed (fun _ _ _ _ => trivial)
  sees := fun _ _ => rfl
  identified := fun _ _ _ _ _ _ => trivial

/-- Editors and a call that leave another note alone. -/
theorem reading_other {env : Env} {call : Call} {edits : List (Label × Edit)} {path : Text}
    (content : Option File)
    (apart : ∀ entry ∈ edits, PurePath.normalPath path ≠ PurePath.normalPath entry.2.path)
    (different : PurePath.normalPath path ≠ PurePath.normalPath (Text.strip call.path)) :
    Reading env (editing edits) call (fun _ _ => True) (fun vault => vault.read path = content) where
  undisturbed := fun _ => editing_undisturbed (fun entry member world holds =>
    ⟨trivial, (read_act entry.2 world path (apart entry member)).trans holds.2⟩)
  kept := editing_undisturbed (fun entry member world holds =>
    (read_act entry.2 world path (apart entry member)).trans holds)
  sees := fun _ _ => trivial
  identified := fun _ _ _ _ holds done => (ensureNoteId_read done different).trans holds

theorem noFault (edits : List (Label × Edit)) : ¬HasFault (editing edits) := by
  rintro ⟨name, impossible⟩
  cases impossible

/-- Every file of the vault parses. -/
def Vault.Parses (env : Env) (vault : Vault) : Prop :=
  ∀ entry ∈ vault.files, (parseFileResult env entry.1 entry.2).status ≠ .error

theorem Vault.Parses.read {env : Env} {vault : Vault} (parses : vault.Parses env) {path : Text}
    (normal : IsNormalPath path) {file : File} (read : vault.read path = some file) :
    (parseFileResult env path file).status ≠ .error := by
  unfold Vault.read at read
  rw [normal] at read
  obtain ⟨front, back, split, _absent⟩ := List.lookup_eq_some_iff.mp read
  exact parses (path, file) (by rw [split]; simp)

/-- The rows that the tables hold for one note. -/
def Index.noteRows (index : Index) (path : Text) : Rows :=
  fun kind => (index.shown kind).filter (fun row => Row.owner kind row = path)

/-- After a call that the breaker admits the rows of its note are current. -/
theorem reindexNote_own {env : Env} (embeds : EmbedsAll env) {world : World}
    (ready : world.index.Ready) (call : Call) (normal : IsNormalPath call.path)
    (inside : validateRelativePath call.path = true)
    (indexable : hasIndexableExtension env call.path = true) {edits : List (Label × Edit)}
    (apart : ∀ entry ∈ edits, PurePath.normalPath call.path ≠ PurePath.normalPath entry.2.path)
    {outcome : Outcome World ReindexResult}
    (run : reindexNote env call (editing edits) world = outcome)
    (parses : ∀ file, outcome.final.vault.read call.path = some file →
      (parseFileResult env call.path file).status ≠ .error) :
    ∃ result, outcome.value = some result ∧ (result.status = .circuitBreakerOpen ∨
      outcome.final.index.noteRows call.path =
        contentRows env call.path (outcome.final.vault.read call.path)) := by
  obtain ⟨returned, failed, _moments⟩ :=
    triple_reindexNote (reading_own apart) (fun _ => rfl) world ⟨ready.shows, trivial⟩
  rw [run] at returned failed
  cases found : outcome.value with
  | none => exact absurd (failed found).1 (noFault edits)
  | some result =>
      refine ⟨result, rfl, ?_⟩
      obtain ⟨answered, _vault⟩ := returned result found
      cases applied : result.status.applied with
      | true =>
          obtain ⟨content, read, shows⟩ := answered.replaced applied
          refine Or.inr ?_
          funext kind
          unfold Index.noteRows
          rw [shows.shown_eq, filter_replace _ (contentRows_owner env normal content),
            if_pos rfl, read]
      | false =>
          refine Or.inl ?_
          cases status : result.status with
          | updated => rw [status] at applied; cases applied
          | empty => rw [status] at applied; cases applied
          | deleted => rw [status] at applied; cases applied
          | circuitBreakerOpen => rfl
          | rejectedPathTraversal =>
              rw [status] at answered
              exact absurd (inside.symm.trans answered.2) (by decide)
          | rejectedExtension =>
              rw [status] at answered
              exact absurd (indexable.symm.trans answered.2) (by decide)
          | errorAddFailed =>
              rw [status] at answered
              rcases answered.2 with fault | unembedded
              · exact absurd fault (noFault edits)
              · exact absurd embeds unembedded
          | parseError =>
              rw [status] at answered
              rcases answered.2 with fault | ⟨content, later, read, again, present, broken⟩
              · exact absurd fault (noFault edits)
              · obtain ⟨file, same⟩ := Option.isSome_iff_exists.mp present
                rw [same] at again
                rw [again] at read
                rw [← read] at broken
                exact absurd broken (parses file again)

/-- A call leaves the rows of every other note alone. -/
theorem reindexNote_other {env : Env} {world : World} (ready : world.index.Ready) (call : Call)
    (note : IsNote env call.path) {edits : List (Label × Edit)} {path : Text}
    (normal : IsNormalPath path) (different : path ≠ call.path)
    (apart : ∀ entry ∈ edits, PurePath.normalPath path ≠ PurePath.normalPath entry.2.path)
    {outcome : Outcome World ReindexResult}
    (run : reindexNote env call (editing edits) world = outcome) :
    outcome.final.vault.read path = world.vault.read path ∧
      outcome.final.index.noteRows path = world.index.noteRows path := by
  have elsewhere : PurePath.normalPath path ≠ PurePath.normalPath (Text.strip call.path) := by
    rw [note.stripped, normal, note.normal]
    exact different
  obtain ⟨returned, failed, _moments⟩ := triple_reindexNote
    (reading_other (world.vault.read path) apart elsewhere) (fun _ => rfl) world ⟨ready.shows, rfl⟩
  rw [run] at returned failed
  have unchanged : outcome.final.index.Shows world.index.side world.index.shown →
      outcome.final.index.noteRows path = world.index.noteRows path := by
    intro shows
    unfold Index.noteRows
    rw [shows.shown_eq]
  cases found : outcome.value with
  | none => exact ⟨(failed found).2.2, unchanged (failed found).2.1⟩
  | some result =>
      obtain ⟨answered, kept⟩ := returned result found
      refine ⟨kept, ?_⟩
      cases applied : result.status.applied with
      | false => exact unchanged (answered.kept applied)
      | true =>
          obtain ⟨content, _read, shows⟩ := answered.replaced applied
          funext kind
          unfold Index.noteRows
          rw [shows.shown_eq, filter_replace _ (contentRows_owner env note.normal content),
            if_neg different]

/-- The handles stay on tables that exist. -/
theorem reindexNote_ready {env : Env} {world : World} (ready : world.index.Ready) (call : Call)
    (edits : List (Label × Edit)) :
    (reindexNote env call (editing edits) world).final.index.Ready := by
  have reading : Reading env (editing edits) call (fun _ _ => True) (fun _ => True) :=
    { undisturbed := fun _ => editing_undisturbed (fun _ _ _ holds => holds)
      kept := editing_undisturbed (fun _ _ _ _ => trivial)
      sees := fun _ _ => trivial
      identified := fun _ _ _ _ _ _ => trivial }
  obtain ⟨returned, failed, _moments⟩ :=
    triple_reindexNote reading (fun _ => rfl) world ⟨ready.shows, trivial⟩
  cases found : (reindexNote env call (editing edits) world).value with
  | none => exact (failed found).2.1.ready
  | some result =>
      obtain ⟨answered, _vault⟩ := returned result found
      cases applied : result.status.applied with
      | false => exact (answered.kept applied).ready
      | true =>
          obtain ⟨_content, _read, shows⟩ := answered.replaced applied
          exact shows.ready

/-! ### The circuit breaker -/

/-- What answers a call that the breaker lets through. -/
theorem triple_notBlocked (env : Env) (call : Call) (schedule : Schedule Label OtherAction) :
    Triple schedule (fun _ => True) (fun _ => True) (reindexLocked env call)
      (fun result _world => result.status ≠ .circuitBreakerOpen) (fun _ => True) := by
  have answers : ∀ result : ReindexResult, result.status ≠ .circuitBreakerOpen →
      Triple schedule (fun _ => True) (fun _ : World => True) (ret result)
        (fun result _world => result.status ≠ .circuitBreakerOpen) (fun _ => True) :=
    fun result passes => triple_ret result (fun _world _holds => passes)
  have removed : Triple schedule (fun _ => True) (fun _ => True) (removeNote env call.path)
      (fun result _world => result.status ≠ .circuitBreakerOpen) (fun _ => True) := by
    unfold removeNote
    apply triple_andThen _ (triple_any _)
    intro applied
    cases applied with
    | none => exact answers _ (by decide)
    | some counts =>
        apply triple_andThen _ (triple_any _)
        intro _compacted
        exact answers _ (by intro impossible; cases impossible)
  unfold reindexLocked
  apply triple_andThen _ (triple_any _)
  intro found
  split
  · exact removed
  · apply triple_andThen _ (triple_any _)
    intro idAdded
    apply triple_andThen _ (triple_any _)
    intro parsed
    split
    · apply triple_andThen _ (triple_any _)
      intro stillFound
      split
      · exact removed
      · exact answers _ (by intro impossible; cases impossible)
    · unfold storeParsed
      dsimp only
      split
      · apply triple_andThen _ (triple_any _)
        intro applied
        cases applied with
        | none => exact answers _ (by decide)
        | some counts =>
            apply triple_andThen _ (triple_any _)
            intro _compacted
            exact answers _ (by intro impossible; cases impossible)
      · apply triple_andThen _ (triple_any _)
        intro embedded
        cases embedded with
        | none => exact answers _ (by decide)
        | some vectors =>
            apply triple_andThen _ (triple_any _)
            intro applied
            cases applied with
            | none => exact answers _ (by decide)
            | some counts =>
                apply triple_andThen _ (triple_any _)
                intro _compacted
                exact answers _ (by intro impossible; cases impossible)

theorem attempts_act (action : OtherAction) (world : World) :
    (Acts.act action world).attempts = world.attempts := by
  cases action <;> rfl

/-- A call that the breaker lets through is not answered by it. -/
theorem reindexNote_notBlocked {env : Env} {call : Call} {world : World} {result : ReindexResult}
    {schedule : Schedule Label OtherAction}
    (admitted : (checkCircuitBreaker call.now call.path world.attempts).1 = false)
    (answered : (reindexNote env call schedule world).value = some result) :
    result.status ≠ .circuitBreakerOpen := by
  unfold reindexNote at answered
  split at answered
  · cases answered
    intro impossible
    cases impossible
  · split at answered
    · cases answered
      intro impossible
      cases impossible
    · have blocked : Triple schedule (fun _ => True)
          (fun here => (checkCircuitBreaker call.now call.path here.attempts).1 = false)
          (step { operation := .circuitBreaker } (fun here : World =>
            some ((checkCircuitBreaker call.now call.path here.attempts).1,
              { here with attempts := (checkCircuitBreaker call.now call.path here.attempts).2 })))
          (fun blocked _world => blocked = false) (fun _ => True) := by
        apply triple_step
        · intro name action _member here holds
          constructor
          · dsimp only
            rw [attempts_act]
            exact holds
          · trivial
        · intro start value later holds _fine found
          cases found
          exact ⟨holds, trivial⟩
        · exact fun _start _holds _failed => trivial
      have goesOn : ∀ value, Triple schedule (fun _ => True) (fun _ : World => value = false)
          (if value then ret { chunksIndexed := 0, status := .circuitBreakerOpen }
          else reindexLocked env call)
          (fun result _world => result.status ≠ .circuitBreakerOpen) (fun _ => True) := by
        intro value
        cases value with
        | true =>
            intro start impossible
            cases impossible
        | false =>
            exact (triple_notBlocked env call _).weaken (fun _ _ => trivial)
              (fun _ _ holds => holds) (fun _ _ => trivial)
      exact (triple_andThen _ blocked goesOn world admitted).1 result answered

end VaultSearch
