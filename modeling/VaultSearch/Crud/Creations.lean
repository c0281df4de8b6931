/-
What the locks mean for `create_note`: a note that is there stays until a deletion or a move takes
it away.  Of the calls that create one path, however many run at a time, at most one succeeds
between two of those.
-/

import VaultSearch.Crud.Cooperation
import VaultSearch.Crud.Trash

set_option autoImplicit false

namespace VaultSearch

open Symlinks

def CrudOutcome.isSuccess : CrudOutcome → Bool
  | .ok result => result.success
  | .error _ => false

theorem succeeds_iff (outcome : CrudOutcome) : Succeeds outcome ↔ outcome.isSuccess = true := by
  cases outcome with
  | ok result => rfl
  | error raised => exact ⟨fun never => never.elim, nofun⟩

namespace CrudService

variable (service : CrudService)

def Creates (request : WriteRequest) (place : Location Text) : Prop :=
  match request.call with
  | .createNote relativePath _ _ _ => service.vault.resolvePath service.env relativePath = .ok place
  | _ => False

/-- A call that takes the file at a place away, when it succeeds. -/
def Removes (request : WriteRequest) (place : Location Text) : Prop :=
  match request.call with
  | .deleteNote relativePath => service.vault.resolvePath service.env relativePath = .ok place
  | .moveNote fromPath _ => service.vault.resolvePath service.env fromPath = .ok place
  | _ => False

/-- The result of a call that runs alone, and the files after it. -/
def performOne (request : WriteRequest) (files : Files) : CrudOutcome × Files :=
  (service.issue request.supply request.call).body.run (fileStorage request.host) files

variable {service} {request : WriteRequest} {files : Files} {place : Location Text}

/-! ### One call -/

/-- No question but the move of a file makes it disappear. -/
theorem performRequest_present (host : Host) (question : FileRequest)
    (stays : ∀ destination, question ≠ .move place destination)
    (present : (files place).isSome = true) :
    ((performRequest host question files).2 place).isSome = true := by
  cases question with
  | fileRevision filePath observer => exact present
  | readText filePath => exact present
  | pathExists filePath => exact present
  | makeFolders folder => exact present
  | statMode filePath => exact present
  | writeTemporary filePath => exact present
  | replace filePath content stamp =>
      change ((performReplace host filePath content stamp files).2 place).isSome = true
      unfold performReplace
      split
      · dsimp only
        by_cases same : place = filePath
        · rw [same, Function.update_self]
          rfl
        · rw [Function.update_of_ne same]
          exact present
      · exact present
  | move source destination =>
      have notSource : place ≠ source := fun same => stays destination (by rw [same])
      change ((performMove host source destination files).2 place).isSome = true
      by_cases same : place = destination
      · unfold performMove
        split
        · exact present
        · split
          · unfold moveFile
            dsimp only
            rw [same, Function.update_self]
            rfl
          · exact present
      · rw [performMove_untouched host source destination files place notSource same]
        exact present

theorem allows_stays (place other : Location Text) :
    Allows (fun question => ∀ destination, question ≠ .move place destination) other := by
  constructor
  · intro question about destination same
    rw [same] at about
    cases about
  · intro question about destination same
    rw [same] at about
    cases about

/-- A note that is there stays, unless the call takes it away. -/
theorem performOne_present (present : (files place).isSome = true)
    (keeps : ¬ service.Removes request place) :
    ((service.performOne request files).2 place).isSome = true := by
  have stays : CoveredCall
      (fun _paths question => ∀ destination, question ≠ .move place destination)
      (service.issue request.supply request.call) := by
    apply service.coveredCall_issue request
    · exact fun other => allows_stays place other
    · intro relativePath source isDelete isSource name _isName
      refine ⟨allows_stays place name, ?_⟩
      intro destination same
      cases same
      apply keeps
      unfold Removes
      rw [isDelete]
      exact isSource
    · intro fromPath toPath fromFile toFile isMove isSource
      refine ⟨allows_stays place fromFile, allows_stays place toFile, ?_⟩
      intro destination same
      cases same
      apply keeps
      unfold Removes
      rw [isMove]
      exact isSource
  have kept : ∀ (question : FileRequest) (contents : Files),
      (∀ destination, question ≠ .move place destination) →
        (fun found : Files => (found place).isSome = true) contents →
          (fun found : Files => (found place).isSome = true)
            ((fileStorage request.host).perform question contents).2 :=
    fun question _contents isAllowed isPresent =>
      performRequest_present request.host question isAllowed isPresent
  exact Dialogue.Asks.run_keeps kept stays present

/-- A call that could take a note away changes nothing unless it succeeds. -/
theorem performOne_removes (removes : service.Removes request place) :
    (service.performOne request files).1.isSuccess = true ∨
      (service.performOne request files).2 = files := by
  rw [← succeeds_iff]
  obtain ⟨call, supply, host⟩ := request
  unfold Removes at removes
  cases call with
  | deleteNote relativePath =>
      exact Commits.validated relativePath _ (Commits.deleteBody supply relativePath) host files
  | moveNote fromPath toPath => exact Commits.moveNote fromPath toPath host files
  | createNote relativePath content frontmatter validateSchema => exact removes.elim
  | writeNote relativePath content => exact removes.elim
  | appendNote relativePath content separator => exact removes.elim
  | updateFrontmatter relativePath metadata merge validateSchema => exact removes.elim
  | ensureNoteId relativePath validateSchema => exact removes.elim

theorem performOne_creates (creates : service.Creates request place)
    (success : (service.performOne request files).1.isSuccess = true) :
    files place = none ∧ ((service.performOne request files).2 place).isSome = true := by
  obtain ⟨call, supply, host⟩ := request
  unfold Creates at creates
  cases call with
  | createNote relativePath content frontmatter validateSchema =>
      unfold performOne at success ⊢
      generalize isRun : ((service.issue supply
        (.createNote relativePath content frontmatter validateSchema)).body.run
          (fileStorage host) files) = ended at success ⊢
      obtain ⟨outcome, final⟩ := ended
      cases outcome with
      | error raised => cases success
      | ok result =>
          change (service.createNote supply relativePath content frontmatter
            validateSchema).body.run (fileStorage host) files = (.ok result, final) at isRun
          unfold createNote at isRun
          split at isRun
          case h_1 refusal refused =>
            have same : refusal = .ok result := (Prod.mk.inj isRun).1
            rw [same] at refused
            have failed := checkNew_refused refused
            change result.success = true at success
            rw [failed] at success
            cases success
          case h_2 checked isChecked =>
            obtain ⟨filePath, validated, done⟩ := run_validated isRun
            obtain ⟨_unit, _sized, isValid⟩ := bind_ok validated
            have resolved := (LinkedVault.validateForWrite_ok isValid).2
            have same : place = filePath := Except.ok.inj (creates.symm.trans resolved)
            obtain ⟨absent, written⟩ := run_createBody done success
            rw [same]
            refine ⟨absent, ?_⟩
            rw [written]
            dsimp only
            rw [Function.update_self]
            rfl
  | deleteNote relativePath => exact creates.elim
  | moveNote fromPath toPath => exact creates.elim
  | writeNote relativePath content => exact creates.elim
  | appendNote relativePath content separator => exact creates.elim
  | updateFrontmatter relativePath metadata merge validateSchema => exact creates.elim
  | ensureNoteId relativePath validateSchema => exact creates.elim

/-! ### Calls one after the other -/

/-- The call at this place of the order succeeds. -/
def succeedsAt (service : CrudService) (requests : List WriteRequest) (files : Files)
    (index : Nat) : Bool :=
  ((service.performAll requests files).1[index]?).any CrudOutcome.isSuccess

/-- A creation where a note is succeeds only after a call has taken the note away. -/
theorem removed_before {requests : List WriteRequest} :
    ∀ {files : Files} {index : Nat} {request : WriteRequest}, (files place).isSome = true →
      requests[index]? = some request → service.Creates request place →
        service.succeedsAt requests files index = true →
          ∃ between removal, between < index ∧ requests[between]? = some removal ∧
            service.Removes removal place ∧ service.succeedsAt requests files between = true := by
  induction requests with
  | nil =>
      intro files index request present found
      cases found
  | cons head later ih =>
      intro files index request present found creates success
      cases index with
      | zero =>
          cases found
          have absent := (performOne_creates creates success).1
          rw [absent] at present
          cases present
      | succ index =>
          by_cases gone : service.Removes head place ∧
              (service.performOne head files).1.isSuccess = true
          · exact ⟨0, head, Nat.succ_pos _, rfl, gone.1, gone.2⟩
          · have still : ((service.performOne head files).2 place).isSome = true := by
              by_cases removes : service.Removes head place
              · have same := (performOne_removes removes).resolve_left
                  (fun success => gone ⟨removes, success⟩)
                rw [same]
                exact present
              · exact performOne_present present removes
            obtain ⟨between, removal, before, isRemoval, removes, removed⟩ :=
              ih still found creates success
            exact ⟨between + 1, removal, Nat.succ_lt_succ before, isRemoval, removes, removed⟩

theorem removed_between {requests : List WriteRequest} :
    ∀ {files : Files} {first second : Nat} {request another : WriteRequest}, first < second →
      requests[first]? = some request → requests[second]? = some another →
        service.Creates request place → service.Creates another place →
          service.succeedsAt requests files first = true →
            service.succeedsAt requests files second = true →
              ∃ between removal, first < between ∧ between < second ∧
                requests[between]? = some removal ∧ service.Removes removal place ∧
                  service.succeedsAt requests files between = true := by
  induction requests with
  | nil =>
      intro files first second request another earlier isFirst
      cases isFirst
  | cons head later ih =>
      intro files first second request another earlier isFirst isSecond creates alsoCreates
        success alsoSuccess
      cases second with
      | zero => cases earlier
      | succ second =>
          cases first with
          | zero =>
              cases isFirst
              have present := (performOne_creates creates success).2
              have isLater : later[second]? = some another := isSecond
              have laterSuccess : service.succeedsAt later (service.performOne head files).2
                  second = true := alsoSuccess
              obtain ⟨between, removal, before, isRemoval, removes, removed⟩ :=
                removed_before present isLater alsoCreates laterSuccess
              exact ⟨between + 1, removal, Nat.succ_pos _, Nat.succ_lt_succ before, isRemoval,
                removes, removed⟩
          | succ first =>
              obtain ⟨between, removal, after, before, isRemoval, removes, removed⟩ :=
                ih (Nat.lt_of_succ_lt_succ earlier) isFirst isSecond creates alsoCreates success
                  alsoSuccess
              exact ⟨between + 1, removal, Nat.succ_lt_succ after, Nat.succ_lt_succ before,
                isRemoval, removes, removed⟩

end CrudService

namespace Writers

variable {Name Thread Process : Type} [DecidableEq Name] [DecidableEq Thread]
  [DecidableEq Process]

/-- The call that was the so-and-so-manieth to get its locks has succeeded. -/
def succeeded (writers : Writers Name Thread Process) (index : Nat) : Bool :=
  (writers.rests[index]?).any (fun rest =>
    (rest.program.outcome?).any CrudOutcome.isSuccess)

/-- Which of the calls have succeeded, in the order of their locks. -/
def successes (writers : Writers Name Thread Process) : List Bool :=
  writers.rests.map (fun rest => (rest.program.outcome?).any CrudOutcome.isSuccess)

omit [DecidableEq Name] [DecidableEq Thread] [DecidableEq Process] in
theorem successes_eq {writers : Writers Name Thread Process} {outcomes : List CrudOutcome}
    (same : writers.rests.map (fun rest => rest.program.outcome?) = outcomes.map some) :
    writers.successes = outcomes.map CrudOutcome.isSuccess := by
  have flags := congrArg (List.map (Option.any CrudOutcome.isSuccess)) same
  rw [List.map_map, List.map_map] at flags
  exact flags

omit [DecidableEq Name] [DecidableEq Thread] [DecidableEq Process] in
theorem succeeded_eq {writers : Writers Name Thread Process} {outcomes : List CrudOutcome}
    (same : writers.rests.map (fun rest => rest.program.outcome?) = outcomes.map some)
    (index : Nat) :
    writers.succeeded index = (outcomes[index]?).any CrudOutcome.isSuccess := by
  have flags := successes_eq same
  unfold successes at flags
  have here := congrArg (fun found : List Bool => (found[index]?).any id) flags
  simp only [List.getElem?_map, Option.any_map] at here
  exact here

instance (service : CrudService) (request : WriteRequest) (place : Location Text) :
    Decidable (service.Creates request place) :=
  match request with
  | { call := .createNote relativePath _ _ _, .. } =>
      inferInstanceAs
        (Decidable (service.vault.resolvePath service.env relativePath = .ok place))
  | { call := .writeNote _ _, .. } => isFalse id
  | { call := .appendNote _ _ _, .. } => isFalse id
  | { call := .updateFrontmatter _ _ _ _, .. } => isFalse id
  | { call := .ensureNoteId _ _, .. } => isFalse id
  | { call := .deleteNote _, .. } => isFalse id
  | { call := .moveNote _ _, .. } => isFalse id

def createRequest : WriteRequest :=
  { call := .createNote "c.md".toList "new".toList none false, supply := plainSupply }

/-- A call of a thread with its locks, from the first question to the last. -/
def wholeCall (thread : Bool) (request : WriteRequest) (questions : Nat) :
    List (WriterEvent Bool Bool Bool) :=
  let moves (made : List (Locking.Move Text)) : List (WriterEvent Bool Bool Bool) :=
    made.map (fun move => .locking (.thread thread move))
  .call thread request :: moves [.lookup, .acquire, .openFile, .poll, .enter] ++
    List.replicate questions (.ask thread) ++
    moves [.finish, .cleanUp, .cleanUp, .cleanUp, .cleanUp]

/-- One process creates a note, the other one deletes it, and the first one creates it again. -/
def createdTwice : List (WriterEvent Bool Bool Bool) :=
  wholeCall false createRequest 6 ++
    wholeCall true { call := .deleteNote "c.md".toList, supply := plainSupply } 6 ++
    wholeCall false createRequest 6

end Writers

end VaultSearch
