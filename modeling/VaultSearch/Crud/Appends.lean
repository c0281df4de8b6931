/-
What the locks mean for `append_note`: of the calls that append to one note, however many run at a
time, no successful one is lost, and those that fail leave nothing behind.
-/

import VaultSearch.Crud.Creations

set_option autoImplicit false

namespace VaultSearch

open Symlinks

namespace Commits

theorem appendBody {service : CrudService} (relativePath content separator : Text)
    (stamp : Stamp) (filePath : Location Text) :
    Commits (service.appendBody relativePath content separator stamp filePath) := by
  apply captureRevision
  intro revision
  apply ask (fun _host _files => rfl)
  intro answer
  cases answer with
  | error error => cases error <;> exact done _
  | ok existing =>
      apply ask (fun _host _files => rfl)
      intro found
      apply ifUnchanged
      apply proceed
      intro _sized
      exact safeWriteText filePath _ relativePath revision stamp rfl

end Commits

namespace CrudService

variable (service : CrudService)

def AppendsTo (request : WriteRequest) (place : Location Text) : Prop :=
  match request.call with
  | .appendNote relativePath _ _ => service.vault.resolvePath service.env relativePath = .ok place
  | _ => False

instance (request : WriteRequest) (place : Location Text) :
    Decidable (service.AppendsTo request place) :=
  match request with
  | { call := .appendNote relativePath _ _, .. } =>
      inferInstanceAs
        (Decidable (service.vault.resolvePath service.env relativePath = .ok place))
  | { call := .createNote _ _ _ _, .. } => isFalse id
  | { call := .writeNote _ _, .. } => isFalse id
  | { call := .updateFrontmatter _ _ _ _, .. } => isFalse id
  | { call := .ensureNoteId _ _, .. } => isFalse id
  | { call := .deleteNote _, .. } => isFalse id
  | { call := .moveNote _ _, .. } => isFalse id

/-- What is read of the note once the call has appended its content to it. -/
def appended (request : WriteRequest) (text : Text) : Text :=
  match request.call with
  | .appendNote _ content separator =>
      Text.universalNewlines (appendedContent text separator content)
  | _ => text

/-- The text with the contents of the successful appends to this place, in this order. -/
def appendedText (place : Location Text) : List WriteRequest → List Bool → Text → Text
  | request :: later, success :: rest, text =>
      appendedText place later rest
        (if success = true ∧ service.AppendsTo request place then appended request text else text)
  | _, _, text => text

variable {service} {request : WriteRequest} {files : Files} {place : Location Text}

/-- A successful call appends to the text that it finds, another one changes nothing. -/
theorem performOne_appends (appends : service.AppendsTo request place) {file : NoteFile}
    {text : Text} (isThere : files place = some file) (isRead : file.read = .ok text) :
    ∃ later, (service.performOne request files).2 place = some later ∧
      later.read = .ok
        (if (service.performOne request files).1.isSuccess = true then appended request text
          else text) := by
  obtain ⟨call, supply, host⟩ := request
  unfold AppendsTo at appends
  cases call with
  | appendNote relativePath content separator =>
      have commits : Commits (service.appendNote supply relativePath content separator).body :=
        Commits.validated relativePath _
          (fun place => Commits.appendBody relativePath content separator supply.stamp place)
      have keeps := commits host files
      rw [succeeds_iff] at keeps
      unfold performOne
      change ∃ later, ((service.appendNote supply relativePath content separator).body.run
        (fileStorage host) files).2 place = some later ∧ later.read = .ok
          (if ((service.appendNote supply relativePath content separator).body.run
            (fileStorage host) files).1.isSuccess = true then _ else text)
      generalize isRun : (service.appendNote supply relativePath content separator).body.run
        (fileStorage host) files = ended at keeps ⊢
      obtain ⟨outcome, final⟩ := ended
      dsimp only at keeps ⊢
      by_cases success : outcome.isSuccess = true
      · cases outcome with
        | error raised => cases success
        | ok result =>
            obtain ⟨filePath, validated, done⟩ := run_validated isRun
            have resolved := (LinkedVault.validateForWrite_ok validated).2
            have same : place = filePath := Except.ok.inj (appends.symm.trans resolved)
            obtain ⟨old, existing, found, read, written⟩ := run_appendBody done success
            rw [← same, isThere] at found
            cases found
            rw [isRead] at read
            cases read
            rw [if_pos success, written, ← same, Function.update_self]
            exact ⟨_, rfl, rfl⟩
      · rw [if_neg success, keeps.resolve_left success]
        exact ⟨file, isThere, isRead⟩
  | createNote relativePath content frontmatter validateSchema => exact appends.elim
  | writeNote relativePath content => exact appends.elim
  | updateFrontmatter relativePath metadata merge validateSchema => exact appends.elim
  | ensureNoteId relativePath validateSchema => exact appends.elim
  | deleteNote relativePath => exact appends.elim
  | moveNote fromPath toPath => exact appends.elim

theorem performOne_outside (outside : place ∉ service.footprint request) :
    (service.performOne request files).2 place = files place :=
  Dialogue.run_outside (service.within_issue request) files place outside

theorem appendedText_cons (later : List WriteRequest) (text : Text) :
    service.appendedText place (request :: later)
        ((service.performAll (request :: later) files).1.map CrudOutcome.isSuccess) text =
      service.appendedText place later
        ((service.performAll later (service.performOne request files).2).1.map
          CrudOutcome.isSuccess)
        (if (service.performOne request files).1.isSuccess = true ∧
            service.AppendsTo request place then appended request text else text) :=
  rfl

/-- Calls that touch the note only to append to it. -/
theorem performAll_appends {requests : List WriteRequest} :
    ∀ {files : Files} {file : NoteFile} {text : Text}, files place = some file →
      file.read = .ok text →
        (∀ request ∈ requests, ¬ service.AppendsTo request place →
          place ∉ service.footprint request) →
            ∃ later, (service.performAll requests files).2 place = some later ∧
              later.read = .ok (service.appendedText place requests
                ((service.performAll requests files).1.map CrudOutcome.isSuccess) text) := by
  induction requests with
  | nil =>
      intro files file text isThere isRead _onlyAppends
      exact ⟨file, isThere, isRead⟩
  | cons request later ih =>
      intro files file text isThere isRead onlyAppends
      have laterOnly := fun other member => onlyAppends other (List.mem_cons_of_mem _ member)
      by_cases appends : service.AppendsTo request place
      · obtain ⟨written, isWritten, reads⟩ := performOne_appends appends isThere isRead
        obtain ⟨final, isFinal, finalRead⟩ := ih isWritten reads laterOnly
        refine ⟨final, isFinal, ?_⟩
        rw [appendedText_cons]
        simp only [appends, and_true]
        exact finalRead
      · have outside := onlyAppends request List.mem_cons_self appends
        have same : (service.performOne request files).2 place = some file :=
          (performOne_outside outside).trans isThere
        obtain ⟨final, isFinal, finalRead⟩ := ih same isRead laterOnly
        refine ⟨final, isFinal, ?_⟩
        rw [appendedText_cons, if_neg (fun both => appends both.2)]
        exact finalRead

end CrudService

namespace Writers

variable {Name Thread Process : Type} [DecidableEq Name] [DecidableEq Thread]
  [DecidableEq Process]

/-- A note that is only appended to ends with the contents of all successful calls in the order of
their locks, and of no other call. -/
theorem appends_kept (service : CrudService)
    (setting : Locking.Setting Text Name Thread Process)
    (shared : setting.hasFcntl = true ∨ ∀ first second, setting.home first = setting.home second)
    (files : Files) (events : List (WriterEvent Name Thread Process))
    (final : Writers Name Thread Process)
    (careful : Transitions.Each (step service setting) (Careful service setting)
      (start Name Thread Process files) events)
    (ran : Transitions.run (step service setting) (start Name Thread Process files) events =
      some final)
    (quiet : ∀ thread, (final.locks.caller thread).control ≠ .inside)
    {place : Location Text} {file : NoteFile} {text : Text} (isThere : files place = some file)
    (isRead : file.read = .ok text)
    (onlyAppends : ∀ request ∈ final.began, ¬ service.AppendsTo request place →
      place ∉ service.footprint request) :
    ∃ later, final.files place = some later ∧
      later.read = .ok (service.appendedText place final.began final.successes text) := by
  have coherent : Coherent service setting files final := run_coherent shared careful ran
  obtain ⟨results, sameFiles⟩ := coherent.results quiet
  rw [successes_eq results, sameFiles]
  exact CrudService.performAll_appends isThere isRead onlyAppends

/-- The same call as `appendRequest` with another text. -/
def secondAppend : WriteRequest :=
  { call := .appendNote "a.md".toList "last".toList "\n".toList, supply := plainSupply }

/-- Two processes append to the note, while one of them waits for the other. -/
def appendedByTwo : List (WriterEvent Bool Bool Bool) :=
  .call true secondAppend :: (wholeCall false appendRequest 8 ++
    (wholeCall true secondAppend 8).tail)

theorem appends_kept_byTwo :
    ∃ final, Transitions.run (step plainService twoProcesses)
        (start Bool Bool Bool (noteFiles "old".toList 1 100)) appendedByTwo = some final ∧
      ∃ later, final.files notePath = some later ∧
        later.read = .ok
          (plainService.appendedText notePath final.began final.successes "old".toList) := by
  have ends : (Transitions.run (step plainService twoProcesses)
      (start Bool Bool Bool (noteFiles "old".toList 1 100)) appendedByTwo).any (fun final =>
        (∀ thread, (final.locks.caller thread).control ≠ .inside) ∧
          ∀ request ∈ final.began, plainService.AppendsTo request notePath) = true := by
    decide +kernel
  have careful : Transitions.Each (step plainService twoProcesses)
      (Careful plainService twoProcesses)
      (start Bool Bool Bool (noteFiles "old".toList 1 100)) appendedByTwo := by decide +kernel
  obtain ⟨final, isFinal, facts⟩ := (Option.any_eq_true _ _).mp ends
  obtain ⟨quiet, all⟩ := of_decide_eq_true facts
  exact ⟨final, isFinal, @appends_kept _ _ _ _ _ _ plainService twoProcesses (Or.inl rfl)
    (noteFiles "old".toList 1 100) appendedByTwo final careful isFinal quiet notePath _
    "old".toList rfl rfl (fun request member never => absurd (all request member) never)⟩

end Writers

end VaultSearch
