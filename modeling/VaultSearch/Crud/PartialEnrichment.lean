/-
What the enrichment saves when the validation of the merged frontmatter finds errors.

`_persist_generated_frontmatter` saves a partial enrichment if the text of all the errors
together mentions the word required, whatever the other errors are.
-/

import VaultSearch.Crud.KeptFrontmatter

set_option autoImplicit false

namespace VaultSearch

open Symlinks

variable {host : Host} {files final : Files} {outcome : CrudOutcome} {filePath : Location Text}

/-! ### Runs that change a file -/

theorem changed_proceed {value : Type} {computed : Except PyError value}
    {next : value → CrudProgram} (changed : final ≠ files)
    (done : (proceed computed next).run (fileStorage host) files = (outcome, final)) :
    ∃ given, computed = .ok given ∧
      (next given).run (fileStorage host) files = (outcome, final) := by
  cases computed with
  | error error =>
      cases done
      exact absurd rfl changed
  | ok given => exact ⟨given, rfl, done⟩

theorem captureRevision_run {missing : CrudResult} {next : Option FileRevision → CrudProgram} :
    (captureRevision filePath missing next).run (fileStorage host) files =
      (if ((files filePath).map NoteFile.revision).isNone then finish missing
      else next ((files filePath).map NoteFile.revision)).run (fileStorage host) files := rfl

theorem safeReadText_run {relativePath : Text} {next : Text → CrudProgram} :
    (safeReadText filePath relativePath next).run (fileStorage host) files =
      (afterRead relativePath next (readFile (files filePath))).run (fileStorage host) files :=
  rfl

theorem checkRevision_run {relativePath : Text} {captured : Option FileRevision}
    {next : CrudProgram} :
    (checkRevision filePath relativePath captured next).run (fileStorage host) files =
      (ifUnchanged captured (writeConflict relativePath) next
        ((files filePath).map NoteFile.revision)).run (fileStorage host) files := rfl

theorem readStable_run {relativePath : Text} {missing : CrudResult}
    {next : Option FileRevision → Text → CrudProgram} {file : NoteFile}
    (isThere : files filePath = some file) :
    (readStable filePath relativePath missing next).run (fileStorage host) files =
      (afterRead relativePath (next (some file.revision)) file.read).run
        (fileStorage host) files := by
  have whole : readFile (some file) = file.read := rfl
  unfold readStable
  rw [captureRevision_run, isThere, Option.map_some, Option.isNone_some,
    if_neg Bool.false_ne_true, safeReadText_run, isThere, whole]
  cases file.read with
  | error error => cases error <;> rfl
  | ok content =>
      dsimp only [afterRead]
      rw [checkRevision_run, isThere, Option.map_some]
      unfold ifUnchanged
      rw [if_neg (fun differs => differs rfl)]

theorem changed_readStable {relativePath : Text} {missing : CrudResult}
    {next : Option FileRevision → Text → CrudProgram} (changed : final ≠ files)
    (done : (readStable filePath relativePath missing next).run (fileStorage host) files =
      (outcome, final)) :
    ∃ file content, files filePath = some file ∧ file.read = .ok content ∧
      (next (some file.revision) content).run (fileStorage host) files = (outcome, final) := by
  cases isThere : files filePath with
  | none =>
      unfold readStable at done
      rw [captureRevision_run, isThere] at done
      cases done
      exact absurd rfl changed
  | some file =>
      rw [readStable_run isThere] at done
      cases isRead : file.read with
      | ok content =>
          rw [isRead] at done
          exact ⟨file, content, rfl, isRead, done⟩
      | error error =>
          rw [isRead] at done
          cases error <;> (cases done; exact absurd rfl changed)

theorem whether_true {yes no : CrudProgram} : whether yes no true = yes := rfl

theorem whether_false {yes no : CrudProgram} : whether yes no false = no := rfl

/-- Nothing interferes between the two looks at the file. -/
theorem safeWriteText_run {content relativePath : Text} {expected : Option FileRevision}
    {stamp : Stamp} {next : CrudProgram} :
    (safeWriteText filePath content relativePath expected stamp next).run
        (fileStorage host) files =
      (replaceChecked filePath content relativePath expected stamp next).run
        (fileStorage host) files := by
  let replacing := replaceChecked filePath content relativePath expected stamp next
  have asked : (safeWriteText filePath content relativePath expected stamp next).run
        (fileStorage host) files =
      (whether
        (.ask (.statMode filePath) (whether replacing (writeFailed relativePath)))
        replacing (files filePath).isSome).run (fileStorage host) files := rfl
  have readable : (Dialogue.ask (.statMode filePath)
        (whether replacing (writeFailed relativePath)) : CrudProgram).run
          (fileStorage host) files =
      (whether replacing (writeFailed relativePath) (files filePath).isSome).run
        (fileStorage host) files := rfl
  rw [asked]
  cases found : (files filePath).isSome with
  | false => rfl
  | true => rw [whether_true, readable, found, whether_true]

theorem replaceChecked_run {content relativePath : Text} {expected : Option FileRevision}
    {stamp : Stamp} {next : CrudProgram} :
    (replaceChecked filePath content relativePath expected stamp next).run
        (fileStorage host) files =
      (whether
        (ifUnchanged expected (crudError relativePath conflictMessage)
          (.ask (.replace filePath content stamp) (whether next (writeFailed relativePath)))
          ((files filePath).map NoteFile.revision))
        (writeFailed relativePath) (host.writesTemporary filePath)).run
          (fileStorage host) files := by
  have asked : (replaceChecked filePath content relativePath expected stamp next).run
        (fileStorage host) files =
      (whether
        (.ask (.fileRevision filePath .safeWrite)
          (ifUnchanged expected (crudError relativePath conflictMessage)
            (.ask (.replace filePath content stamp) (whether next (writeFailed relativePath)))))
        (writeFailed relativePath) (host.writesTemporary filePath)).run
          (fileStorage host) files := rfl
  rw [asked]
  cases host.writesTemporary filePath with
  | false => rfl
  | true => rfl

/-- Where the host refuses nothing, a note that is unchanged is replaced. -/
theorem safeWriteText_replaces {content relativePath : Text} {stamp : Stamp}
    {next : CrudProgram} {file : NoteFile} (isThere : files filePath = some file) :
    (safeWriteText filePath content relativePath (some file.revision) stamp next).run
        (fileStorage {}) files =
      next.run (fileStorage {})
        (Function.update files filePath (some (writtenFile content stamp))) := by
  rw [safeWriteText_run, replaceChecked_run, whether_true, isThere, Option.map_some]
  unfold ifUnchanged
  rw [if_neg (fun differs => differs rfl)]
  rfl

/-- Whatever the host lets the program do, the file is replaced or nothing happens. -/
theorem safeWriteText_replaces_or {content relativePath : Text} {expected : Option FileRevision}
    {stamp : Stamp} {next : CrudProgram} :
    (safeWriteText filePath content relativePath expected stamp next).run
        (fileStorage host) files =
      next.run (fileStorage host)
        (Function.update files filePath (some (writtenFile content stamp))) ∨
    ((safeWriteText filePath content relativePath expected stamp next).run
      (fileStorage host) files).2 = files := by
  have performed : (Dialogue.ask (.replace filePath content stamp)
        (whether next (writeFailed relativePath)) : CrudProgram).run (fileStorage host) files =
      (whether next (writeFailed relativePath)
        (performReplace host filePath content stamp files).1).run (fileStorage host)
          (performReplace host filePath content stamp files).2 := rfl
  rw [safeWriteText_run, replaceChecked_run]
  cases host.writesTemporary filePath with
  | false => exact Or.inr rfl
  | true =>
      rw [whether_true]
      unfold ifUnchanged
      split
      · exact Or.inr rfl
      · rw [performed]
        unfold performReplace
        cases host.replaces filePath with
        | false => exact Or.inr rfl
        | true => exact Or.inl rfl

namespace CrudService

variable {service : CrudService}

/-! ### What is saved -/

variable (service) in
/-- Validation finds nothing wrong but required fields that are missing. -/
def OnlyRequiredMissing (frontmatter : Mapping) : Prop :=
  ∃ result, service.validator.validate frontmatter = .ok result ∧
    ∀ error ∈ result.errors, error.code = "required_missing".toList

variable (service) in
/-- The text of the errors has the word in it, in any case. -/
def mentionsRequired (errors : List ValidationError) : Bool :=
  let lowered := service.env.lower (formatErrors errors)
  (Text.find "required".toList lowered).isSome ||
    (Text.find "required_missing".toList lowered).isSome

variable (service) in
/-- What `_persist_generated_frontmatter` validates. -/
def merged (generated existing : Mapping) : Mapping :=
  OrderedDict.merge existing (service.newValues generated existing)

variable (service) in
/-- The note that would be saved is not too large. -/
def Fits (frontmatter : Mapping) (body : Text) : Prop :=
  validateFrontmatterSize service.env frontmatter = .ok () ∧
    validateContentSize service.env
      (serializeFrontmatter service.env frontmatter ++ body) = .ok ()

variable (service) in
/-- The frontmatter with its errors is not saved: nothing is added to the note, or its
validation is asked for and does not mention the word, or it does not fit. -/
def NotSaved (validateSchema : Bool) (generated existing : Mapping) (body : Text) : Prop :=
  service.newValues generated existing = [] ∨
    (validateSchema = true ∧
      ∀ result, service.validator.validate (service.merged generated existing) = .ok result →
        service.mentionsRequired result.errors = false) ∨
    ¬ service.Fits (service.merged generated existing) body

variable (service) in
/-- If the note is rewritten, whatever the host lets the program do, then the validation of
the merged frontmatter finds nothing but required fields that are missing. -/
def PersistsOnlyValid (relativePath : Text) (generated : Mapping) (validateSchema : Bool)
    (filePath : Location Text) (files : Files) : Prop :=
  ∀ host stamp,
    ((service.persistBody relativePath generated validateSchema stamp filePath).run
      (fileStorage host) files).2 ≠ files →
    ∃ file content existing body, files filePath = some file ∧ file.read = .ok content ∧
      parseFrontmatter service.env content = .ok (existing, body) ∧
      service.OnlyRequiredMissing (service.merged generated existing)

/-! ### Which errors are saved -/

theorem errors_of_valid {frontmatter : Mapping} {result : ValidationResult}
    (done : service.validator.validate frontmatter = .ok result) (valid : result.valid = true) :
    result.errors = [] := by
  unfold FrontmatterValidator.validate at done
  split at done
  · cases done
    rfl
  · obtain ⟨so, _resolved, afterAliases⟩ := bind_ok done
    obtain ⟨found, _checked, ended⟩ := bind_ok afterAliases
    cases ended
    unfold FrontmatterValidator.conclude at valid ⊢
    cases isMode : service.validator.config.mode with
    | warnOnly => rfl
    | strict =>
        rw [isMode] at valid
        exact List.isEmpty_iff.mp valid
    | lenient =>
        rw [isMode] at valid
        exact List.isEmpty_iff.mp valid

/-- Frontmatter with another error is saved as it is, if its errors mention the word. -/
theorem checkEnriched_invalid {validateSchema : Bool} {frontmatter : Mapping}
    (invalid : ¬ service.OnlyRequiredMissing frontmatter) {checked : Checked}
    (saved : service.checkEnriched validateSchema frontmatter = .ok checked) :
    checked.frontmatter = frontmatter ∧
      (validateSchema = true → ∃ result,
        service.validator.validate frontmatter = .ok result ∧
          service.mentionsRequired result.errors = true) := by
  unfold checkEnriched checkSchema validateFrontmatterSchema at saved
  cases validateSchema with
  | false =>
      cases saved
      exact ⟨rfl, fun asked => nomatch asked⟩
  | true =>
      rw [if_pos rfl] at saved
      cases outcome : service.validator.validate frontmatter with
      | error fault =>
          rw [outcome] at saved
          cases saved
      | ok result =>
          rw [outcome] at saved
          dsimp only at saved
          cases valid : result.valid with
          | true =>
              exfalso
              apply invalid
              refine ⟨result, outcome, ?_⟩
              rw [errors_of_valid outcome valid]
              exact fun _error impossible => nomatch impossible
          | false =>
              rw [valid, if_neg Bool.false_ne_true] at saved
              dsimp only at saved
              split at saved
              case isTrue mentioned =>
                cases saved
                exact ⟨rfl, fun _asked => ⟨result, rfl, mentioned⟩⟩
              case isFalse => cases saved

theorem checkEnriched_saves {validateSchema : Bool} {frontmatter : Mapping}
    (invalid : ¬ service.OnlyRequiredMissing frontmatter)
    (mentioned : validateSchema = true → ∃ result,
      service.validator.validate frontmatter = .ok result ∧
        service.mentionsRequired result.errors = true) :
    ∃ checked, service.checkEnriched validateSchema frontmatter = .ok checked ∧
      checked.frontmatter = frontmatter := by
  unfold checkEnriched checkSchema validateFrontmatterSchema
  cases validateSchema with
  | false => exact ⟨_, rfl, rfl⟩
  | true =>
      obtain ⟨result, outcome, mentions⟩ := mentioned rfl
      have refused : result.valid = false := by
        rw [Bool.eq_false_iff]
        intro valid
        apply invalid
        refine ⟨result, outcome, ?_⟩
        rw [errors_of_valid outcome valid]
        exact fun _error impossible => nomatch impossible
      rw [if_pos rfl, outcome]
      dsimp only
      rw [refused, if_neg Bool.false_ne_true]
      dsimp only
      unfold mentionsRequired at mentions
      dsimp only at mentions
      rw [mentions, if_pos rfl]
      exact ⟨_, rfl, rfl⟩

/-! ### When nothing invalid is saved -/

/-- A note that is rewritten has a new field, and what is written passed the checks. -/
theorem changed_persistBody {relativePath : Text} {generated : Mapping} {validateSchema : Bool}
    {stamp : Stamp} (changed : final ≠ files)
    (done : (service.persistBody relativePath generated validateSchema stamp filePath).run
      (fileStorage host) files = (outcome, final)) :
    ∃ file content existing body checked, files filePath = some file ∧
      file.read = .ok content ∧
      parseFrontmatter service.env content = .ok (existing, body) ∧
      service.newValues generated existing ≠ [] ∧
      service.checkEnriched validateSchema (service.merged generated existing) = .ok checked ∧
      service.Fits checked.frontmatter body ∧
      Written files final filePath
        (serializeFrontmatter service.env checked.frontmatter ++ body) stamp := by
  obtain ⟨file, content, isThere, isRead, afterRead⟩ := changed_readStable changed done
  obtain ⟨⟨existing, body⟩, parsed, afterParse⟩ := changed_proceed changed afterRead
  dsimp only at afterParse
  split at afterParse
  · cases afterParse
    exact absurd rfl changed
  · split at afterParse
    · cases afterParse
      exact absurd rfl changed
    case isFalse added =>
      split at afterParse
      · cases afterParse
        exact absurd rfl changed
      · cases afterParse
        exact absurd rfl changed
      case h_3 checked isChecked =>
        obtain ⟨_size, fitsFrontmatter, afterSize⟩ := changed_proceed changed afterParse
        obtain ⟨_size, fitsContent, afterFit⟩ := changed_proceed changed afterSize
        refine ⟨file, content, existing, body, checked, isThere, isRead, parsed, ?_, isChecked,
          ⟨fitsFrontmatter, fitsContent⟩, ?_⟩
        · intro empty
          rw [empty] at added
          exact added rfl
        · rcases safeWriteText_replaces_or with replaced | unchanged
          · rw [replaced] at afterFit
            cases afterFit
            rfl
          · rw [afterFit] at unchanged
            exact absurd unchanged changed

/-- Where the host refuses nothing, frontmatter that passes the checks is saved. -/
theorem persistBody_saves {relativePath : Text} {generated : Mapping} {validateSchema : Bool}
    {stamp : Stamp} {file : NoteFile} {content : Text} {existing : Mapping} {body : Text}
    {checked : Checked} (isThere : files filePath = some file)
    (isRead : file.read = .ok content)
    (parsed : parseFrontmatter service.env content = .ok (existing, body))
    (added : service.newValues generated existing ≠ [])
    (isChecked : service.checkEnriched validateSchema (service.merged generated existing) =
      .ok checked)
    (fits : service.Fits checked.frontmatter body) :
    ((service.persistBody relativePath generated validateSchema stamp filePath).run
      (fileStorage {}) files).2 =
        Function.update files filePath (some (writtenFile
          (serializeFrontmatter service.env checked.frontmatter ++ body) stamp)) := by
  have missing : (service.missingRequired existing).isEmpty = false := by
    cases none : service.missingRequired existing with
    | cons head tail => rfl
    | nil =>
        exfalso
        apply added
        unfold newValues
        rw [none]
        exact List.filter_eq_nil_iff.mpr (fun _entry _member impossible => nomatch impossible)
  have nonempty : (service.newValues generated existing).isEmpty = false := by
    rw [Bool.eq_false_iff]
    exact fun empty => added (List.isEmpty_iff.mp empty)
  unfold merged at isChecked
  unfold persistBody
  rw [readStable_run isThere, isRead]
  dsimp only [afterRead]
  rw [parsed]
  dsimp only [proceed]
  rw [missing, nonempty, if_neg Bool.false_ne_true, if_neg Bool.false_ne_true, isChecked]
  dsimp only
  rw [fits.1]
  dsimp only
  rw [fits.2]
  dsimp only
  rw [safeWriteText_replaces isThere]
  rfl

/-- A written file is another than the one it replaces, if its inode is. -/
theorem update_ne {content : Text} {stamp : Stamp} {file : NoteFile}
    (isThere : files filePath = some file) (fresh : stamp.inode ≠ file.revision.inode) :
    Function.update files filePath (some (writtenFile content stamp)) ≠ files := by
  intro same
  have here := congrFun same filePath
  rw [Function.update_self, isThere] at here
  apply fresh
  rw [← Option.some.inj here]
  rfl

/-- The enrichment saves no error but missing required fields exactly if what it merges has no
other error, or would not be saved. -/
theorem persistsOnlyValid_iff (service : CrudService) (relativePath : Text) (generated : Mapping)
    (validateSchema : Bool) (filePath : Location Text) (files : Files) :
    service.PersistsOnlyValid relativePath generated validateSchema filePath files ↔
      ∀ file content existing body, files filePath = some file → file.read = .ok content →
        parseFrontmatter service.env content = .ok (existing, body) →
          service.OnlyRequiredMissing (service.merged generated existing) ∨
            service.NotSaved validateSchema generated existing body := by
  constructor
  · intro onlyValid file content existing body isThere isRead parsed
    by_contra neither
    obtain ⟨invalid, saved⟩ := not_or.mp neither
    obtain ⟨added, savedToo⟩ := not_or.mp saved
    obtain ⟨notRefused, fitting⟩ := not_or.mp savedToo
    have mentioned : validateSchema = true → ∃ result,
        service.validator.validate (service.merged generated existing) = .ok result ∧
          service.mentionsRequired result.errors = true := by
      intro asked
      by_contra unmentioned
      apply notRefused
      refine ⟨asked, ?_⟩
      intro result outcome
      rw [Bool.eq_false_iff]
      exact fun mentions => unmentioned ⟨result, outcome, mentions⟩
    obtain ⟨checked, isChecked, same⟩ := checkEnriched_saves invalid mentioned
    have fits := not_not.mp fitting
    rw [← same] at fits
    -- the new file gets an inode of its own
    have written := @persistBody_saves files filePath service relativePath generated
      validateSchema { inode := file.revision.inode + 1, mtimeNs := 0 } file content existing body
      checked isThere isRead parsed added isChecked fits
    have changed := onlyValid {} { inode := file.revision.inode + 1, mtimeNs := 0 }
    rw [written] at changed
    obtain ⟨file', content', existing', body', isThere', isRead', parsed', valid⟩ :=
      changed (update_ne isThere (Nat.succ_ne_self file.revision.inode))
    rw [isThere] at isThere'
    cases isThere'
    rw [isRead] at isRead'
    cases isRead'
    rw [parsed] at parsed'
    cases parsed'
    exact invalid valid
  · intro condition host stamp changed
    obtain ⟨file, content, existing, body, checked, isThere, isRead, parsed, added, isChecked,
      fits, _written⟩ := changed_persistBody changed rfl
    refine ⟨file, content, existing, body, isThere, isRead, parsed, ?_⟩
    rcases condition file content existing body isThere isRead parsed with valid | refused
    · exact valid
    · by_contra invalid
      obtain ⟨same, mentioned⟩ := checkEnriched_invalid invalid isChecked
      rcases refused with empty | unsaved
      · exact added empty
      · rcases unsaved with ⟨asked, unmentioned⟩ | large
        · obtain ⟨result, outcome, mentions⟩ := mentioned asked
          rw [unmentioned result outcome] at mentions
          cases mentions
        · rw [same] at fits
          exact large fits

end CrudService

/-! ### A wrong value next to a missing field -/

/-- The provider gives the status a value that is none, and leaves the kind out. -/
def wrongStatus : Mapping :=
  [(.text "status".toList, .str "maybe".toList)]

/-- Two required fields with lists of allowed values. -/
def requiringService : CrudService :=
  { plainService with
    env := { Env.plain with dump := fun _frontmatter => "status: maybe\n".toList }
    validator :=
      { config :=
          { enabled := true
            mode := .strict
            schema :=
              [("kind".toList,
                  { type := .enum, onMissing := .require, values := ["note".toList] }),
                ("status".toList,
                  { type := .enum, onMissing := .require, values := ["draft".toList] })] }
        lower := Env.plain.lower
        coerce := coerceValue Env.plain plainCoercions
        generated := fun _field => .null } }

theorem wrongStatus_refused :
    ∃ result, requiringService.validator.validate wrongStatus = .ok result ∧
      ∃ error ∈ result.errors, error.code ≠ "required_missing".toList :=
  ⟨_, rfl, _, List.mem_cons_of_mem _ List.mem_cons_self, by decide⟩

/-- The missing kind lets the wrong value through. -/
theorem wrongStatus_saved :
    ¬ requiringService.PersistsOnlyValid "a.md".toList wrongStatus true notePath
      (noteFiles "Text".toList 1 100) := by
  intro onlyValid
  have changed : ((requiringService.persistBody "a.md".toList wrongStatus true plainSupply.stamp
      notePath).run (fileStorage {}) (noteFiles "Text".toList 1 100)).2 ≠
        noteFiles "Text".toList 1 100 := by
    intro same
    have here := congrArg (Option.map NoteFile.revision) (congrFun same notePath)
    exact absurd here (by decide)
  obtain ⟨file, content, existing, body, isThere, isRead, parsed, result, validated, errors⟩ :=
    onlyValid {} plainSupply.stamp changed
  cases isThere
  cases isRead
  cases parsed
  obtain ⟨refused, outcome, error, member, other⟩ := wrongStatus_refused
  have same : requiringService.merged wrongStatus [] = wrongStatus := by rfl
  rw [same, outcome] at validated
  cases validated
  exact other (errors error member)

end VaultSearch
