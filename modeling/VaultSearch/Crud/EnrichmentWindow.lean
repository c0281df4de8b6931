/-
Enrichment of a note that changes while the provider runs.

The lock is free between the first read and the persist step, so that what is missing is
computed twice, from two contents of the note.  Validation sees the fields of the second one
together with the generated values, and keeps the first spelling of every name.
-/

import VaultSearch.Crud.PartialEnrichment
import VaultSearch.Frontmatter.CleanValidation

set_option autoImplicit false

namespace VaultSearch

open Symlinks

/-! ### First spellings in a merge -/

namespace FrontmatterValidator

variable {validator : FrontmatterValidator}

theorem firstWith_set (data : Mapping) (name : Key) (value : Value) (key : Key) :
    (∀ first, validator.firstWith (OrderedDict.set data name value) key = some first →
      first = (name, value) ∨ validator.firstWith data key = some first) ∧
    (validator.firstWith (OrderedDict.set data name value) key = none →
      validator.firstWith data key = none) := by
  unfold OrderedDict.set
  split
  · have mapped : validator.firstWith
        (data.map (fun entry => if entry.1 == name then (name, value) else entry)) key =
          (validator.firstWith data key).map
            (fun entry => if entry.1 == name then (name, value) else entry) := by
      unfold firstWith
      rw [List.find?_map]
      congr 2
      funext entry
      rw [Function.comp_apply]
      split
      case isTrue same => rw [eq_of_beq same]
      case isFalse => rfl
    rw [mapped]
    constructor
    · intro first found
      obtain ⟨earlier, isEarlier, same⟩ := Option.map_eq_some_iff.mp found
      split at same
      · exact Or.inl same.symm
      · rw [← same]
        exact Or.inr isEarlier
    · exact Option.map_eq_none_iff.mp
  · rw [firstWith_append]
    cases validator.firstWith data key with
    | some earlier =>
        rw [Option.some_or]
        exact ⟨fun _first found => Or.inr found, id⟩
    | none =>
        rw [Option.none_or]
        refine ⟨?_, fun _missing => rfl⟩
        intro first found
        rw [firstWith_singleton] at found
        split at found
        · exact Or.inl (Option.some.inj found).symm
        · cases found

/-- The first spelling of a name comes from the updates, or it was the first before. -/
theorem firstWith_merge (existing updates : Mapping) (key : Key) :
    (∀ first, validator.firstWith (OrderedDict.merge existing updates) key = some first →
      first ∈ updates ∨ validator.firstWith existing key = some first) ∧
    (validator.firstWith (OrderedDict.merge existing updates) key = none →
      validator.firstWith existing key = none) := by
  induction updates generalizing existing with
  | nil => exact ⟨fun _first found => Or.inr found, id⟩
  | cons head tail ih =>
      obtain ⟨fromTail, missing⟩ := ih (OrderedDict.set existing head.1 head.2)
      obtain ⟨fromHead, missingBefore⟩ := @firstWith_set validator existing head.1 head.2 key
      constructor
      · intro first found
        rcases fromTail first found with inTail | before
        · exact Or.inl (List.mem_cons_of_mem _ inTail)
        · rcases fromHead first before with same | earlier
          · rw [same]
            exact Or.inl List.mem_cons_self
          · exact Or.inr earlier
      · intro none
        exact missingBefore (missing none)

theorem validatedValue_congr {data data' : Mapping} {key : Key}
    (same : validator.keptValue data key = validator.keptValue data' key) :
    validator.validatedValue data key = validator.validatedValue data' key := by
  unfold validatedValue
  rw [same]

end FrontmatterValidator

/-! ### The window -/

/-- A call of the enrichment, the note as it is first read, and the note at the persist step,
after anything has been done to the vault. -/
structure EnrichmentWindow (service : CrudService) where
  relativePath : Text
  validateSchema : Bool
  filePath : Location Text
  before : Files
  firstFile : NoteFile
  first : Text
  wasThere : before filePath = some firstFile
  wasRead : firstFile.read = .ok first
  after : Files
  file : NoteFile
  content : Text
  existing : Mapping
  body : Text
  isThere : after filePath = some file
  isRead : file.read = .ok content
  parsed : parseFrontmatter service.env content = .ok (existing, body)
  distinct : (existing.map Prod.fst).Nodup

namespace EnrichmentWindow

variable {service : CrudService} (window : EnrichmentWindow service)

/-- The questions of the first read. -/
def firstRead : Nat := 3

def run (host : Host) (stamp : Stamp) : CrudOutcome × Files :=
  (service.enrichBody window.relativePath window.validateSchema stamp
    window.filePath).interrupted (fileStorage host) firstRead (fun _ => window.after)
    window.before

/-- The generated fields inside the list of missing ones. -/
def providedFields (missing : List Text) : Provided → Mapping
  | .generated fields => CrudService.allowed missing fields
  | .failed _ => []
  | .raised _ => []

/-- What the provider generates for the fields that were missing at first. -/
def generated : Mapping :=
  match parseFrontmatter service.env window.first with
  | .error _ => []
  | .ok parsed =>
      if service.validator.config.enabled then
        providedFields (service.missingRequired parsed.1)
          (service.provide window.relativePath parsed.2 parsed.1
            (service.missingRequired parsed.1))
      else []

/-- The generated values that are still asked for. -/
def added : Mapping :=
  service.newValues window.generated window.existing

def merged : Mapping :=
  OrderedDict.merge window.existing window.added

/-- The merged frontmatter is validated, and valid. -/
def Validated : Prop :=
  window.validateSchema = true ∧ ∃ result,
    service.validator.validate window.merged = .ok result ∧ result.valid = true

/-- A required field that is missing or empty at the persist step. -/
def StillMissing (key : Key) : Prop :=
  ∃ fieldName ∈ service.missingRequired window.existing, key = .text fieldName

/-- In the validated frontmatter the fields of the note have their values, coerced and under
their canonical names; apart from the missing required fields it is what it would be without
the provider. -/
structure KeepsValidated (written : Mapping) : Prop where
  kept : ∀ entry ∈ window.existing, CrudService.isEmptyValue entry.2 = false →
    written.lookup (service.validator.canonicalKey entry.1) =
      some (service.validator.expectedValue entry)
  added : ∀ key, ¬ window.StillMissing key →
    written.lookup key = service.validator.validatedValue window.existing key

/-- The same of frontmatter that is saved as it is. -/
structure KeepsAsIs (written : Mapping) : Prop where
  kept : ∀ entry ∈ window.existing, CrudService.isEmptyValue entry.2 = false →
    written.lookup entry.1 = some entry.2
  added : ∀ key, ¬ window.StillMissing key →
    written.lookup key = window.existing.lookup key

/-- The frontmatter to write, after validation. -/
def Saves (written : Mapping) : Prop :=
  ∃ checked, service.checkEnriched window.validateSchema window.merged = .ok checked ∧
    checked.frontmatter = written

/-- If the note is rewritten, then with its body and its fields. -/
def RespectsDisk : Prop :=
  service.validator.config.mode ≠ .warnOnly → ∀ host stamp,
    (window.run host stamp).2 ≠ window.after →
      ∃ written, window.Saves written ∧
        CrudService.Written window.after (window.run host stamp).2 window.filePath
          (serializeFrontmatter service.env written ++ window.body) stamp ∧
        (window.Validated → window.KeepsValidated written) ∧
        (¬ window.Validated → window.KeepsAsIs written)

/-- In the merged frontmatter no first spelling stands in the way of a field of the note. -/
structure Undisturbed : Prop where
  /-- a field that is not empty is the first spelling of its name, or agrees with it -/
  spelled : ∀ entry ∈ window.existing, CrudService.isEmptyValue entry.2 = false →
    ∀ first, service.validator.firstWith window.merged
      (service.validator.canonicalKey entry.1) = some first →
        service.validator.expectedValue first = service.validator.expectedValue entry
  /-- a generated value is the first spelling of a missing field only, or changes nothing -/
  generatedFirst : ∀ key, ¬ window.StillMissing key → ∀ first ∈ window.added,
    service.validator.firstWith window.merged key = some first →
      service.validator.validatedValue window.existing key =
        some (service.validator.expectedValue first)

/-- Validated frontmatter is saved. -/
def SavesValidated : Prop :=
  service.validator.config.mode ≠ .warnOnly ∧ window.added ≠ [] ∧
    window.validateSchema = true ∧ ∃ result,
      service.validator.validate window.merged = .ok result ∧ result.valid = true ∧
        service.Fits result.validatedData window.body

/-! ### The run -/

variable {window : EnrichmentWindow service} {host : Host} {stamp : Stamp}

/-- The three questions of a read that meets no conflict. -/
theorem readStable_advance {files : Files} {filePath : Location Text} {relativePath : Text}
    {missing : CrudResult} {next : Option FileRevision → Text → CrudProgram} {file : NoteFile}
    {content : Text} (isThere : files filePath = some file)
    (isRead : file.read = .ok content) :
    (readStable filePath relativePath missing next).advance (fileStorage host) firstRead files =
      (next (some file.revision) content, files) := by
  have captured : (readStable filePath relativePath missing next).advance (fileStorage host)
      firstRead files =
      (if ((files filePath).map NoteFile.revision).isNone then finish missing
        else
          safeReadText filePath relativePath (fun content =>
            checkRevision filePath relativePath ((files filePath).map NoteFile.revision)
              (next ((files filePath).map NoteFile.revision) content))).advance
        (fileStorage host) 2 files := rfl
  have answered : ∀ after : Text → CrudProgram,
      (safeReadText filePath relativePath after).advance (fileStorage host) 2 files =
        (afterRead relativePath after (readFile (files filePath))).advance
          (fileStorage host) 1 files := fun _after => rfl
  have checked : ∀ after : CrudProgram,
      (checkRevision filePath relativePath (some file.revision) after).advance
        (fileStorage host) 1 files =
        (ifUnchanged (some file.revision) (writeConflict relativePath) after
          ((files filePath).map NoteFile.revision), files) := fun _after => rfl
  have whole : readFile (some file) = .ok content := isRead
  rw [captured, isThere, Option.map_some, Option.isNone_some, if_neg Bool.false_ne_true,
    answered, isThere, whole]
  dsimp only [afterRead]
  rw [checked, isThere, Option.map_some]
  unfold ifUnchanged
  rw [if_neg (fun differs => differs rfl)]

/-- After the first read the rest of the call meets the changed vault. -/
theorem run_eq : window.run host stamp =
    (service.enrichContent window.relativePath window.validateSchema stamp window.filePath
      window.first).run (fileStorage host) window.after := by
  unfold run Dialogue.interrupted CrudService.enrichBody
  rw [readStable_advance window.wasThere window.wasRead]

/-- Nothing is saved without a generated value. -/
theorem persistBody_nothing {relativePath : Text} {validateSchema : Bool}
    {filePath : Location Text} {files : Files} :
    ((service.persistBody relativePath [] validateSchema stamp filePath).run (fileStorage host)
      files).2 = files := by
  by_contra changed
  obtain ⟨_file, _content, _existing, _body, _checked, _isThere, _isRead, _parsed, added, _rest⟩ :=
    CrudService.changed_persistBody changed rfl
  exact added rfl

theorem providedFields_nil (provided : Provided) : providedFields [] provided = [] := by
  cases provided with
  | generated fields => rfl
  | failed message => rfl
  | raised error => rfl

/-- What is left of the call persists the generated values, if it does anything. -/
theorem run_persists : (window.run host stamp).2 =
    ((service.persistBody window.relativePath window.generated window.validateSchema stamp
      window.filePath).run (fileStorage host) window.after).2 := by
  rw [run_eq]
  unfold CrudService.enrichContent generated
  cases parseFrontmatter service.env window.first with
  | error error => exact persistBody_nothing.symm
  | ok parsed =>
      dsimp only [proceed]
      cases enabled : service.validator.config.enabled with
      | false => exact persistBody_nothing.symm
      | true =>
          rw [Bool.not_true, if_neg Bool.false_ne_true, if_pos rfl]
          split
          case isTrue empty =>
            have nothing : service.missingRequired parsed.1 = [] := by
              unfold CrudService.missingRequired
              rw [List.isEmpty_iff.mp empty]
              rfl
            rw [nothing, providedFields_nil]
            exact persistBody_nothing.symm
          · split
            case isTrue empty =>
              rw [List.isEmpty_iff.mp empty, providedFields_nil]
              exact persistBody_nothing.symm
            · cases service.provide window.relativePath parsed.2 parsed.1
                (service.missingRequired parsed.1) with
              | generated fields => rfl
              | failed message => exact persistBody_nothing.symm
              | raised error => exact persistBody_nothing.symm

/-- A rewritten note holds checked frontmatter over the body on disk. -/
theorem written_of_changed (changed : (window.run host stamp).2 ≠ window.after) :
    window.added ≠ [] ∧ ∃ checked,
      service.checkEnriched window.validateSchema window.merged = .ok checked ∧
      service.Fits checked.frontmatter window.body ∧
      CrudService.Written window.after (window.run host stamp).2 window.filePath
        (serializeFrontmatter service.env checked.frontmatter ++ window.body) stamp := by
  rw [run_persists] at changed ⊢
  obtain ⟨file, content, existing, body, checked, isThere, isRead, parsed, added, isChecked,
    fits, written⟩ := CrudService.changed_persistBody changed rfl
  rw [window.isThere] at isThere
  cases isThere
  rw [window.isRead] at isRead
  cases isRead
  rw [window.parsed] at parsed
  cases parsed
  exact ⟨added, checked, isChecked, fits, written⟩

/-- The schema is enabled where anything is generated. -/
theorem enabled_of_added (added : window.added ≠ []) :
    service.validator.config.enabled = true := by
  cases enabled : service.validator.config.enabled with
  | true => rfl
  | false =>
      exfalso
      apply added
      have nothing : window.generated = [] := by
        unfold generated
        cases parseFrontmatter service.env window.first with
        | error error => rfl
        | ok parsed =>
            dsimp only
            rw [enabled, if_neg Bool.false_ne_true]
      unfold EnrichmentWindow.added
      rw [nothing]
      rfl

/-! ### What is written -/

theorem distinct_merged : (window.merged.map Prod.fst).Nodup :=
  OrderedDict.distinct_merge window.distinct window.added

/-- What validation makes of the merged frontmatter, key by key. -/
theorem validated_merged {result : ValidationResult}
    (enabled : service.validator.config.enabled = true)
    (reports : service.validator.config.mode ≠ .warnOnly)
    (done : service.validator.validate window.merged = .ok result)
    (valid : result.valid = true) :
    (∀ key, result.validatedData.lookup key =
      service.validator.validatedValue window.merged key) ∧
    ∀ key first, service.validator.firstWith window.merged key = some first →
      service.validator.validatedValue window.merged key =
        some (service.validator.expectedValue first) := by
  constructor
  · exact FrontmatterValidator.lookup_validate distinct_merged enabled done
  · intro key first found
    exact FrontmatterValidator.validatedValue_of_clean distinct_merged enabled reports done
      (CrudService.errors_of_valid done valid) found

/-- Valid frontmatter is saved as validation returns it. -/
theorem checked_validated {checked : CrudService.Checked} {result : ValidationResult}
    (asked : window.validateSchema = true)
    (done : service.validator.validate window.merged = .ok result)
    (valid : result.valid = true) :
    service.checkEnriched window.validateSchema window.merged = .ok checked →
      checked.frontmatter = result.validatedData := by
  intro isChecked
  unfold CrudService.checkEnriched CrudService.checkSchema
    CrudService.validateFrontmatterSchema at isChecked
  rw [asked, if_pos rfl, done] at isChecked
  dsimp only at isChecked
  rw [valid, if_pos rfl] at isChecked
  cases isChecked
  rfl

/-- Other frontmatter is saved as it is. -/
theorem checked_asIs {checked : CrudService.Checked} (invalid : ¬ window.Validated)
    (isChecked : service.checkEnriched window.validateSchema window.merged = .ok checked) :
    checked.frontmatter = window.merged := by
  unfold CrudService.checkEnriched CrudService.checkSchema
    CrudService.validateFrontmatterSchema at isChecked
  cases asked : window.validateSchema with
  | false =>
      rw [asked] at isChecked
      cases isChecked
      rfl
  | true =>
      rw [asked, if_pos rfl] at isChecked
      cases outcome : service.validator.validate window.merged with
      | error fault =>
          rw [outcome] at isChecked
          cases isChecked
      | ok result =>
          have refused : result.valid = false := by
            rw [Bool.eq_false_iff]
            exact fun valid => invalid ⟨asked, result, outcome, valid⟩
          rw [outcome] at isChecked
          dsimp only at isChecked
          rw [refused, if_neg Bool.false_ne_true] at isChecked
          dsimp only at isChecked
          split at isChecked
          · cases isChecked
            rfl
          · cases isChecked

/-- A generated value belongs to a field that is still missing. -/
theorem stillMissing_of_added {entry : Key × Value} (member : entry ∈ window.added) :
    window.StillMissing entry.1 := by
  obtain ⟨_inGenerated, isMissing⟩ := List.mem_filter.mp member
  obtain ⟨fieldName, missing, same⟩ := List.any_eq_true.mp isMissing
  exact ⟨fieldName, missing, (of_decide_eq_true same).symm⟩

/-- A field that is not empty is not missing. -/
theorem not_missing_of_nonempty {entry : Key × Value} (member : entry ∈ window.existing)
    (nonempty : CrudService.isEmptyValue entry.2 = false) : ¬ window.StillMissing entry.1 := by
  intro stillMissing
  obtain ⟨fieldName, missing, same⟩ := stillMissing
  have empty := (List.mem_filter.mp missing).2
  unfold CrudService.isFieldMissingOrEmpty at empty
  rw [← same, OrderedDict.lookup_of_mem window.distinct member, Option.map_some,
    Option.getD_some, nonempty] at empty
  cases empty

theorem lookup_merged {key : Key} (present : ¬ window.StillMissing key) :
    window.merged.lookup key = window.existing.lookup key := by
  unfold merged
  rw [OrderedDict.lookup_merge]
  have untouched : window.added.reverse.lookup key = none := by
    rw [OrderedDict.lookup_eq_none]
    intro entry member same
    apply present
    rw [← same]
    exact stillMissing_of_added (List.mem_reverse.mp member)
  rw [untouched, Option.none_or]

theorem keepsAsIs : window.KeepsAsIs window.merged := by
  constructor
  · intro entry member nonempty
    rw [lookup_merged (not_missing_of_nonempty member nonempty)]
    exact OrderedDict.lookup_of_mem window.distinct member
  · intro key present
    exact lookup_merged present

/-- The field of the note has some first spelling in the merge. -/
theorem exists_first {entry : Key × Value} (member : entry ∈ window.existing) :
    ∃ first, service.validator.firstWith window.merged
      (service.validator.canonicalKey entry.1) = some first := by
  have present : (window.merged.lookup entry.1).isSome = true := by
    apply OrderedDict.merge_keeps
    exact OrderedDict.lookup_isSome.mpr ⟨entry, member, rfl⟩
  obtain ⟨other, inMerged, same⟩ := OrderedDict.lookup_isSome.mp present
  rw [← same]
  exact FrontmatterValidator.firstWith_isSome inMerged

theorem keepsValidated_of_undisturbed {result : ValidationResult}
    (enabled : service.validator.config.enabled = true)
    (reports : service.validator.config.mode ≠ .warnOnly)
    (done : service.validator.validate window.merged = .ok result)
    (valid : result.valid = true) (undisturbed : window.Undisturbed) :
    window.KeepsValidated result.validatedData := by
  obtain ⟨looked, firsts⟩ := validated_merged enabled reports done valid
  constructor
  · intro entry member nonempty
    obtain ⟨first, found⟩ := exists_first member
    rw [looked, firsts _ first found, undisturbed.spelled entry member nonempty first found]
  · intro key present
    obtain ⟨fromMerge, missing⟩ := @FrontmatterValidator.firstWith_merge service.validator
      window.existing window.added key
    rw [looked]
    -- either a generated value comes first, or what came first on disk
    cases found : service.validator.firstWith window.merged key with
    | none =>
        apply FrontmatterValidator.validatedValue_congr
        unfold FrontmatterValidator.keptValue
        rw [found, missing found]
    | some first =>
        rcases fromMerge first found with generated | onDisk
        · rw [undisturbed.generatedFirst key present first generated found]
          exact firsts key first found
        · apply FrontmatterValidator.validatedValue_congr
          unfold FrontmatterValidator.keptValue
          rw [found, onDisk]

theorem undisturbed_of_keepsValidated {result : ValidationResult}
    (enabled : service.validator.config.enabled = true)
    (reports : service.validator.config.mode ≠ .warnOnly)
    (done : service.validator.validate window.merged = .ok result)
    (valid : result.valid = true) (keeps : window.KeepsValidated result.validatedData) :
    window.Undisturbed := by
  obtain ⟨looked, firsts⟩ := validated_merged enabled reports done valid
  constructor
  · intro entry member nonempty first found
    have kept := keeps.kept entry member nonempty
    rw [looked, firsts _ first found] at kept
    exact Option.some.inj kept
  · intro key present first _generated found
    rw [← keeps.added key present, looked]
    exact firsts key first found

/-- A rewritten note respects what is on disk at the persist step exactly if nothing validated
is saved, or no first spelling stands in the way. -/
theorem respectsDisk_iff (window : EnrichmentWindow service) :
    window.RespectsDisk ↔ (window.SavesValidated → window.Undisturbed) := by
  constructor
  · intro respects saves
    obtain ⟨reports, added, asked, result, done, valid, fits⟩ := saves
    have isChecked : service.checkEnriched window.validateSchema window.merged =
        .ok { frontmatter := result.validatedData
              warnings := result.warnings
              suggestions := result.suggestions } := by
      unfold CrudService.checkEnriched CrudService.checkSchema
        CrudService.validateFrontmatterSchema
      rw [asked, if_pos rfl, done]
      dsimp only
      rw [valid, if_pos rfl]
    -- a host that refuses nothing, and an inode of its own for the new file
    let stamp : Stamp := { inode := window.file.revision.inode + 1, mtimeNs := 0 }
    have written := @CrudService.persistBody_saves window.after window.filePath service
      window.relativePath window.generated window.validateSchema stamp window.file window.content
      window.existing window.body _ window.isThere window.isRead window.parsed added isChecked
      fits
    have changed : (window.run {} stamp).2 ≠ window.after := by
      rw [run_persists, written]
      exact CrudService.update_ne window.isThere (Nat.succ_ne_self _)
    obtain ⟨saved, isSaved, _inFile, ifValidated, _ifNot⟩ := respects reports {} stamp changed
    obtain ⟨checked, isChecked', same⟩ := isSaved
    rw [checked_validated asked done valid isChecked'] at same
    rw [← same] at ifValidated
    exact undisturbed_of_keepsValidated (enabled_of_added added) reports done valid
      (ifValidated ⟨asked, result, done, valid⟩)
  · intro condition reports host stamp changed
    obtain ⟨added, checked, isChecked, fits, written⟩ := written_of_changed changed
    refine ⟨checked.frontmatter, ⟨checked, isChecked, rfl⟩, written, ?_, ?_⟩
    · intro validated
      obtain ⟨asked, result, done, valid⟩ := validated
      have same := checked_validated asked done valid isChecked
      rw [same] at fits ⊢
      exact keepsValidated_of_undisturbed (enabled_of_added added) reports done valid
        (condition ⟨reports, added, asked, result, done, valid, fits⟩)
    · intro invalid
      rw [checked_asIs invalid isChecked]
      exact keepsAsIs

end EnrichmentWindow

/-! ### An alias that is filled in while the provider runs -/

/-- The frontmatter of the note after somebody has filled in the alias of an empty field. -/
def filledMapping : Mapping :=
  [(.text "created_at".toList, .str []), (.text "created".toList, .str "mine".toList)]

/-- One required field, which may also be spelled `created`. -/
def createdService : CrudService :=
  { plainService with
    env :=
      { Env.plain with
        safeLoad := fun _yaml => .ok (.map filledMapping)
        dump := fun _frontmatter => "created_at: generated\n".toList }
    validator :=
      { config :=
          { enabled := true
            mode := .strict
            schema :=
              [("created_at".toList,
                { type := .string, onMissing := .require, aliases := ["created".toList] })] }
        lower := Env.plain.lower
        coerce := coerceValue Env.plain plainCoercions
        generated := fun _field => .null }
    provide := fun _path _body _frontmatter _missing =>
      .generated [(.text "created_at".toList, .str "generated".toList)] }

def filledText : Text := "---\ncreated_at: ''\ncreated: mine\n---\n\nText".toList

def filledWindow : EnrichmentWindow createdService :=
  { relativePath := "a.md".toList
    validateSchema := true
    filePath := notePath
    before := noteFiles "Text".toList 1 100
    firstFile :=
      { text := .ok "Text".toList
        revision := { inode := 1, mtimeNs := 100, size := utf8Length "Text".toList } }
    first := "Text".toList
    wasThere := by rfl
    wasRead := by rfl
    after := noteFiles filledText 2 200
    file :=
      { text := .ok filledText
        revision := { inode := 2, mtimeNs := 200, size := utf8Length filledText } }
    content := filledText
    existing := filledMapping
    body := "Text".toList
    isThere := by rfl
    isRead := by rfl
    parsed := by rfl
    distinct := by decide }

/-- The generated value displaces the alias, and the value that was filled in is lost. -/
theorem generated_displaces_alias : ¬ filledWindow.RespectsDisk := by
  intro respects
  have changed : (filledWindow.run {} plainSupply.stamp).2 ≠ filledWindow.after := by
    intro same
    have here := congrArg (Option.map NoteFile.revision) (congrFun same notePath)
    exact absurd here (by decide)
  obtain ⟨written, ⟨checked, isChecked, same⟩, _inFile, ifValidated, _ifNot⟩ :=
    respects (by decide) {} plainSupply.stamp changed
  have kept := (ifValidated ⟨rfl, _, rfl, rfl⟩).kept
    (.text "created".toList, .str "mine".toList)
    (List.mem_cons_of_mem _ (List.mem_singleton_self _)) (by decide)
  cases isChecked
  cases same
  exact absurd (Value.str.inj (Option.some.inj kept)) (by decide)

end VaultSearch
