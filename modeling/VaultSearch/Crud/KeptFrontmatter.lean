/-
Frontmatter that goes through validation before it is written back.

`update_frontmatter` with `merge` and the enrichment write the validated data in place of the
frontmatter they read.  A field of the note that validation drops is gone from the file.
-/

import VaultSearch.Crud.ExternalEdits
import VaultSearch.Crud.Runs
import VaultSearch.Frontmatter.KeptFields

set_option autoImplicit false

namespace VaultSearch

open Symlinks

/-- `{**existing, **updates}` of dictionaries with strings as keys. -/
def StringMapping.merge (existing : StringMapping) (updates : Mapping)
    (strings : ∀ entry ∈ updates, ∃ name, entry.1 = Key.text name) : StringMapping :=
  { entries := OrderedDict.merge existing.entries updates
    strings := by
      intro entry member
      rcases OrderedDict.keys_merge (List.mem_map_of_mem member) with inOld | inNew
      · obtain ⟨old, present, same⟩ := List.mem_map.mp inOld
        rw [← same]
        exact existing.strings old present
      · obtain ⟨new, present, same⟩ := List.mem_map.mp inNew
        rw [← same]
        exact strings new present
    distinct := OrderedDict.distinct_merge existing.distinct updates }

namespace FrontmatterValidator

variable (validator : FrontmatterValidator)

/-- The name under which a field is looked for after validation. -/
def nameOf (key : Key) : Key :=
  if validator.config.enabled then validator.canonicalKey key else key

/-- Every field of the note is still there. -/
def KeepsExisting (existing written : Mapping) : Prop :=
  ∀ entry ∈ existing, (written.lookup (validator.nameOf entry.1)).isSome = true

/-- When an enabled validator drops no field of the note. -/
structure Survivable (existing merged : Mapping) : Prop where
  /-- what is kept for a field of the schema is coerced without an exception -/
  coerced : ∀ entry ∈ existing, ∀ field value,
    schemaOf validator.config.schema (validator.canonicalKey entry.1) = some field →
      validator.keptValue merged (validator.canonicalKey entry.1) = some value →
        ∃ outcome, validator.coerce field.2 value = .ok outcome
  /-- no field is outside the schema, or such fields are allowed -/
  admitted : validator.config.allowExtraFields = true ∨
    ∀ entry ∈ existing, validator.inSchema (validator.canonicalKey entry.1) = true

variable {validator}

theorem validatedValue_isSome_iff {data : Mapping} {key : Key}
    (kept : (validator.keptValue data key).isSome = true) :
    (validator.validatedValue data key).isSome = true ↔
      (∀ field value, schemaOf validator.config.schema key = some field →
        validator.keptValue data key = some value →
          ∃ outcome, validator.coerce field.2 value = .ok outcome) ∧
      (validator.config.allowExtraFields = true ∨ validator.inSchema key = true) := by
  obtain ⟨value, isValue⟩ := Option.isSome_iff_exists.mp kept
  rw [inSchema_iff]
  unfold validatedValue
  cases schematic : schemaOf validator.config.schema key with
  | none =>
      dsimp only
      rw [isValue]
      constructor
      · intro present
        refine ⟨fun _field _value impossible => (by cases impossible), Or.inl ?_⟩
        cases allowed : validator.config.allowExtraFields with
        | true => rfl
        | false =>
            rw [allowed] at present
            cases present
      · intro both
        rcases both.2 with allowed | impossible
        · rw [if_pos allowed]
          rfl
        · cases impossible
  | some field =>
      dsimp only
      rw [isValue]
      unfold fieldValue
      dsimp only
      constructor
      · intro present
        refine ⟨?_, Or.inr rfl⟩
        intro other given isField isGiven
        cases isField
        cases isGiven
        cases outcome : validator.coerce field.2 value with
        | ok coerced => exact ⟨coerced, rfl⟩
        | error fault =>
            rw [outcome] at present
            cases present
      · intro both
        obtain ⟨outcome, coerced⟩ := both.1 field value rfl rfl
        rw [coerced]
        rfl

/-- The fields of the note survive a validation of them together with the updates. -/
theorem keepsExisting_iff {existing : Mapping} {merged : StringMapping}
    {result : ValidationResult}
    (within : ∀ entry ∈ existing, (merged.entries.lookup entry.1).isSome = true)
    (done : validator.validate merged.entries = .ok result) :
    validator.KeepsExisting existing result.validatedData ↔
      (validator.config.enabled = true → validator.Survivable existing merged.entries) := by
  cases enabled : validator.config.enabled with
  | false =>
      have unchanged : result.validatedData = merged.entries := by
        unfold validate at done
        rw [enabled, Bool.not_false, if_pos rfl] at done
        cases done
        rfl
      refine ⟨fun _keeps impossible => (by cases impossible), ?_⟩
      intro _able entry member
      unfold nameOf
      rw [enabled, if_neg Bool.false_ne_true, unchanged]
      exact within entry member
  | true =>
      have kept : ∀ entry ∈ existing,
          (validator.keptValue merged.entries (validator.canonicalKey entry.1)).isSome = true := by
        intro entry member
        obtain ⟨other, present, same⟩ := OrderedDict.lookup_isSome.mp (within entry member)
        obtain ⟨first, found⟩ := @firstWith_isSome validator merged.entries other present
        unfold keptValue
        rw [← same, found]
        rfl
      have written : ∀ entry ∈ existing,
          result.validatedData.lookup (validator.nameOf entry.1) =
            validator.validatedValue merged.entries (validator.canonicalKey entry.1) := by
        intro entry _member
        unfold nameOf
        rw [enabled, if_pos rfl, lookup_validate merged.distinct enabled done]
      constructor
      · intro keeps _isEnabled
        have each : ∀ entry ∈ existing,
            (validator.validatedValue merged.entries
              (validator.canonicalKey entry.1)).isSome = true := by
          intro entry member
          rw [← written entry member]
          exact keeps entry member
        constructor
        · intro entry member field value
          exact ((validatedValue_isSome_iff (kept entry member)).mp
            (each entry member)).1 field value
        · cases allowed : validator.config.allowExtraFields with
          | true => exact Or.inl rfl
          | false =>
              refine Or.inr ?_
              intro entry member
              have either := ((validatedValue_isSome_iff (kept entry member)).mp
                (each entry member)).2
              rw [allowed] at either
              exact either.resolve_left Bool.false_ne_true
      · intro able entry member
        have survives := able rfl
        rw [written entry member]
        apply (validatedValue_isSome_iff (kept entry member)).mpr
        refine ⟨survives.coerced entry member, ?_⟩
        rcases survives.admitted with allowed | inside
        · exact Or.inl allowed
        · exact Or.inr (inside entry member)

theorem validate_valid {data : Mapping} {result : ValidationResult}
    (warns : validator.config.mode = .warnOnly) (done : validator.validate data = .ok result) :
    result.valid = true := by
  unfold validate at done
  split at done
  · cases done
    rfl
  · obtain ⟨so, _resolved, afterAliases⟩ := bind_ok done
    obtain ⟨found, _checked, ended⟩ := bind_ok afterAliases
    cases ended
    unfold conclude
    rw [warns]

end FrontmatterValidator

namespace CrudService

variable {service : CrudService}

theorem checkSchema_ok {data : Mapping} {checked : Checked}
    (done : service.checkSchema true data = .ok checked) :
    ∃ result, service.validator.validate data = .ok result ∧
      checked.frontmatter = result.validatedData := by
  unfold checkSchema validateFrontmatterSchema at done
  rw [if_pos rfl] at done
  cases outcome : service.validator.validate data with
  | error fault =>
      rw [outcome] at done
      cases done
  | ok result =>
      rw [outcome] at done
      dsimp only at done
      cases valid : result.valid with
      | false =>
          rw [valid] at done
          cases done
      | true =>
          rw [valid] at done
          cases done
          exact ⟨result, rfl, rfl⟩

/-- With warnings only, what the enrichment writes is what validation returns. -/
theorem checkEnriched_ok {data : Mapping} {checked : Checked}
    (warns : service.validator.config.mode = .warnOnly)
    (done : service.checkEnriched true data = .ok checked) :
    ∃ result, service.validator.validate data = .ok result ∧
      checked.frontmatter = result.validatedData := by
  apply checkSchema_ok
  unfold checkEnriched at done
  split at done
  case h_1 message refused =>
    exfalso
    unfold checkSchema validateFrontmatterSchema at refused
    rw [if_pos rfl] at refused
    cases outcome : service.validator.validate data with
    | error fault =>
        rw [outcome] at refused
        cases refused
    | ok result =>
        rw [outcome] at refused
        dsimp only at refused
        rw [FrontmatterValidator.validate_valid warns outcome] at refused
        cases refused
  case h_2 => exact done

/-- A call that writes validated frontmatter back to a note. -/
inductive Rewrite where
  | updateFrontmatter (metadata : StringMapping)
  | enrichNoteFrontmatterRequired

def Rewrite.body (service : CrudService) (stamp : Stamp) (relativePath : Text)
    (filePath : Location Text) : Rewrite → CrudProgram
  | .updateFrontmatter metadata =>
      service.updateBody relativePath metadata.entries true true stamp filePath
  | .enrichNoteFrontmatterRequired => service.enrichBody relativePath true stamp filePath

/-- Such a call, without interference, on a note with frontmatter, and its success. -/
structure RewriteRun (service : CrudService) where
  rewrite : Rewrite
  host : Host
  stamp : Stamp
  relativePath : Text
  filePath : Location Text
  files : Files
  final : Files
  result : CrudResult
  done : (rewrite.body service stamp relativePath filePath).run (fileStorage host) files =
    (.ok result, final)
  success : result.success = true
  note : NoteFile
  content : Text
  existing : StringMapping
  body : Text
  isThere : files filePath = some note
  isRead : note.read = .ok content
  parsed : parseFrontmatter service.env content = .ok (existing.entries, body)

namespace RewriteRun

variable (run : RewriteRun service)

/-- The note ends up with this frontmatter, which comes from merging in these updates. -/
structure Writes (updates written : Mapping) : Prop where
  isUpdate : ∀ metadata, run.rewrite = .updateFrontmatter metadata → updates = metadata.entries
  validated : ∃ result, written = result.validatedData ∧
    service.validator.validate (OrderedDict.merge run.existing.entries updates) = .ok result
  inFile : Written run.files run.final run.filePath
    (serializeFrontmatter service.env written ++ run.body) run.stamp

/-- The call leaves the note alone, or it writes frontmatter that keeps the fields exactly
when they survive validation. -/
def KeepsIff : Prop :=
  run.final = run.files ∨
    ∃ updates written, run.Writes updates written ∧
      (service.validator.KeepsExisting run.existing.entries written ↔
        (service.validator.config.enabled = true →
          service.validator.Survivable run.existing.entries
            (OrderedDict.merge run.existing.entries updates)))

variable {run}

theorem keepsIff_of_merged {updates : Mapping} {result : ValidationResult}
    (strings : ∀ entry ∈ updates, ∃ name, entry.1 = Key.text name)
    (done : service.validator.validate (OrderedDict.merge run.existing.entries updates) =
      .ok result) :
    service.validator.KeepsExisting run.existing.entries result.validatedData ↔
      (service.validator.config.enabled = true →
        service.validator.Survivable run.existing.entries
          (OrderedDict.merge run.existing.entries updates)) := by
  apply @FrontmatterValidator.keepsExisting_iff _ _ (run.existing.merge updates strings) _ _ done
  intro entry member
  apply OrderedDict.merge_keeps
  exact OrderedDict.lookup_isSome.mpr ⟨entry, member, rfl⟩

/-- What the run has read is what the note holds. -/
theorem read_same {file : NoteFile} {content body : Text} {existing : Mapping}
    (isThere : run.files run.filePath = some file) (isRead : file.read = .ok content)
    (parsed : parseFrontmatter service.env content = .ok (existing, body)) :
    existing = run.existing.entries ∧ body = run.body := by
  have sameFile : file = run.note := Option.some.inj (isThere.symm.trans run.isThere)
  rw [sameFile] at isRead
  have sameContent : content = run.content := Except.ok.inj (isRead.symm.trans run.isRead)
  rw [sameContent] at parsed
  have samePair := Except.ok.inj (parsed.symm.trans run.parsed)
  exact ⟨congrArg Prod.fst samePair, congrArg Prod.snd samePair⟩

theorem keepsIff (warns : service.validator.config.mode = .warnOnly) (run : RewriteRun service) :
    run.KeepsIff := by
  cases isRewrite : run.rewrite with
  | updateFrontmatter metadata =>
      have done := run.done
      rw [isRewrite] at done
      obtain ⟨file, content, existing, body, checked, isThere, isRead, parsed, isChecked,
        written⟩ := run_updateBody done run.success
      obtain ⟨sameExisting, sameBody⟩ := read_same isThere isRead parsed
      obtain ⟨result, validated, isData⟩ := checkSchema_ok isChecked
      rw [if_pos rfl, sameExisting] at validated
      rw [isData, sameBody] at written
      refine Or.inr ⟨metadata.entries, result.validatedData, ?_, ?_⟩
      · constructor
        · intro other same
          rw [isRewrite] at same
          cases same
          rfl
        · exact ⟨result, rfl, validated⟩
        · exact written
      · exact keepsIff_of_merged metadata.strings validated
  | enrichNoteFrontmatterRequired =>
      have done := run.done
      rw [isRewrite] at done
      rcases run_enrichBody done run.success with unchanged | enriched
      · exact Or.inl unchanged
      · obtain ⟨generated, file, content, existing, body, checked, isThere, isRead, parsed,
          isChecked, written⟩ := enriched
        obtain ⟨sameExisting, sameBody⟩ := read_same isThere isRead parsed
        obtain ⟨result, validated, isData⟩ := checkEnriched_ok warns isChecked
        rw [sameExisting] at validated
        rw [isData, sameBody] at written
        refine Or.inr ⟨service.newValues generated run.existing.entries, result.validatedData,
          ?_, ?_⟩
        · constructor
          · intro other same
            rw [isRewrite] at same
            cases same
          · exact ⟨result, rfl, validated⟩
          · exact written
        · refine keepsIff_of_merged ?_ validated
          intro entry member
          obtain ⟨_present, isMissing⟩ := List.mem_filter.mp member
          obtain ⟨fieldName, _isField, same⟩ := List.any_eq_true.mp isMissing
          exact ⟨fieldName, (of_decide_eq_true same).symm⟩

end RewriteRun

/-- With warnings only, the fields that validation is given are in what it returns, and the
fields of a note stay in the note, exactly when they are coerced and the schema admits them. -/
theorem warnOnly_keeps_iff (warns : service.validator.config.mode = .warnOnly) :
    (∀ data : StringMapping, service.validator.KeepsFields data.entries ↔
      (service.validator.config.enabled = true → service.validator.Keepable data.entries)) ∧
    ∀ run : RewriteRun service, run.KeepsIff :=
  ⟨FrontmatterValidator.keepsFields_iff, RewriteRun.keepsIff warns⟩

end CrudService

/-! ### A schema with one boolean field -/

def plainCoercions : Coercions :=
  { typeName := fun _object => "object".toList
    patternMatches := fun _pattern _text => some true
    parsed := fun _type _schema value => .ok (value, none) }

def warnOnlyService : CrudService :=
  { vault := oneNoteVault
    env := Env.plain
    validator :=
      { config :=
          { enabled := true
            mode := .warnOnly
            schema := [("done".toList, { type := .bool })] }
        lower := Env.plain.lower
        coerce := coerceValue Env.plain plainCoercions
        generated := fun _field => .null }
    provide := fun _path _body _frontmatter _missing => .failed [] }

/-- Frontmatter with this value of the field. -/
def doneMapping (value : Value) : StringMapping :=
  { entries := [(.text "done".toList, value)]
    strings := by
      intro entry member
      rw [List.mem_singleton.mp member]
      exact ⟨_, rfl⟩
    distinct := List.nodup_singleton _ }

theorem warnOnly_keeps_true :
    warnOnlyService.validator.KeepsFields (doneMapping (.bool true)).entries := by
  apply ((@CrudService.warnOnly_keeps_iff warnOnlyService rfl).1 (doneMapping (.bool true))).mpr
  intro _enabled
  constructor
  · intro key field value schematic kept
    by_cases isDone : key = .text "done".toList
    · rw [isDone] at schematic kept
      cases schematic
      cases kept
      exact ⟨_, rfl⟩
    · have missing : FrontmatterValidator.schemaOf warnOnlyService.validator.config.schema key =
          none := by
        apply List.find?_eq_none.mpr
        intro entry member
        rw [List.mem_singleton.mp member, decide_eq_true_iff]
        exact fun same => isDone same.symm
      rw [missing] at schematic
      cases schematic
  · exact Or.inl rfl
  · intro entry member _notLost first found
    rw [List.mem_singleton.mp member]
    rw [List.mem_singleton.mp (FrontmatterValidator.firstWith_some found).1]

/-- The same schema, with a YAML parser that finds the field in every note. -/
def doneService : CrudService :=
  { warnOnlyService with
    env :=
      { Env.plain with
        safeLoad := fun _yaml => .ok (.map [(.text "done".toList, .str "maybe".toList)])
        dump := fun _frontmatter => "done: maybe\n".toList } }

def doneText : Text := "---\ndone: maybe\n---\n\nText".toList

/-- A title is added to the note. -/
def titleMapping : StringMapping :=
  { entries := [(.text "title".toList, .str "A".toList)]
    strings := by
      intro entry member
      rw [List.mem_singleton.mp member]
      exact ⟨_, rfl⟩
    distinct := List.nodup_singleton _ }

def titleOutcome : CrudOutcome × Files :=
  (doneService.updateBody "a.md".toList titleMapping.entries true true plainSupply.stamp
    notePath).run (fileStorage {}) (noteFiles doneText 1 100)

/-- A successful update of the note, after which the field is gone. -/
def titleRun : CrudService.RewriteRun doneService :=
  { rewrite := .updateFrontmatter titleMapping
    host := {}
    stamp := plainSupply.stamp
    relativePath := "a.md".toList
    filePath := notePath
    files := noteFiles doneText 1 100
    final := titleOutcome.2
    result := titleOutcome.1.toOption.getD (crudError [] [])
    done := by rfl
    success := by rfl
    note := { text := .ok doneText
              revision := { inode := 1, mtimeNs := 100, size := utf8Length doneText } }
    content := doneText
    existing := doneMapping (.str "maybe".toList)
    body := "Text".toList
    isThere := by rfl
    isRead := by rfl
    parsed := by rfl }

theorem done_refused :
    ∃ message, warnOnlyService.validator.coerce { type := .bool } (.str "maybe".toList) =
      .error (.invalid message) :=
  ⟨_, rfl⟩

/-- A value that is no boolean is dropped with a warning, and an update of another field takes
it out of the note. -/
theorem warnOnly_drops_invalid :
    warnOnlyService.validator.config.mode = .warnOnly ∧
      ¬ warnOnlyService.validator.KeepsFields (doneMapping (.str "maybe".toList)).entries ∧
      ∀ updates written, titleRun.Writes updates written →
        ¬ warnOnlyService.validator.KeepsExisting titleRun.existing.entries written := by
  obtain ⟨message, isError⟩ := done_refused
  refine ⟨rfl, ?_, ?_⟩
  · intro keeps
    have able := FrontmatterValidator.keepable_of_keepsFields rfl keeps
    obtain ⟨outcome, coerced⟩ := able.coerced (.text "done".toList)
      ("done".toList, { type := .bool }) (.str "maybe".toList) rfl rfl
    rw [isError] at coerced
    cases coerced
  · intro updates written writes keeps
    obtain ⟨result, isData, validated⟩ := writes.validated
    have isTitle := writes.isUpdate titleMapping rfl
    rw [isTitle] at validated
    rw [isData] at keeps
    have survives := (CrudService.RewriteRun.keepsIff_of_merged titleMapping.strings
      validated).mp keeps rfl
    obtain ⟨outcome, coerced⟩ := survives.coerced (.text "done".toList, .str "maybe".toList)
      List.mem_cons_self ("done".toList, { type := .bool }) (.str "maybe".toList) rfl rfl
    have refused : doneService.validator.coerce { type := .bool } (.str "maybe".toList) =
        .error (.invalid message) := isError
    rw [refused] at coerced
    cases coerced

end VaultSearch
