/-
The size limits of `crud/validation.py` and the texts that the operations of `crud/write.py`
write.

Each operation puts the text together in its own way.  All of them check it but two:
`update_frontmatter` checks the number of fields alone, and `ensure_note_id` nothing.
-/

import VaultSearch.Crud.KeptFrontmatter
import VaultSearch.Parsers.FrontmatterStream
import VaultSearch.Store.Transitions

set_option autoImplicit false

namespace VaultSearch

open Symlinks

/-! ### Calls -/

/-- The operations that write a text. -/
inductive TextCall where
  | createNote (relativePath content : Text) (frontmatter : Option Mapping) (validateSchema : Bool)
  | writeNote (relativePath content : Text)
  | appendNote (relativePath content separator : Text)
  | updateFrontmatter (relativePath : Text) (metadata : Mapping) (merge validateSchema : Bool)
  | enrichNoteFrontmatterRequired (relativePath : Text) (validateSchema : Bool)
  | ensureNoteId (relativePath : Text) (validateSchema : Bool)

/-- A call, what it brings with it and what the operating system lets it do. -/
structure TextStep where
  call : TextCall
  supply : Supply
  host : Host := {}

namespace CrudService

variable (service : CrudService)

def perform (supply : Supply) : TextCall → PathLocked
  | .createNote relativePath content frontmatter validateSchema =>
      service.createNote supply relativePath content frontmatter validateSchema
  | .writeNote relativePath content => service.writeNote supply relativePath content
  | .appendNote relativePath content separator =>
      service.appendNote supply relativePath content separator
  | .updateFrontmatter relativePath metadata merge validateSchema =>
      service.updateFrontmatter supply relativePath metadata merge validateSchema
  | .enrichNoteFrontmatterRequired relativePath validateSchema =>
      service.enrichNoteFrontmatterRequired supply relativePath validateSchema
  | .ensureNoteId relativePath validateSchema =>
      service.ensureNoteId supply relativePath validateSchema

/-- The files after a call, if it is successful. -/
def textStep (files : Files) (step : TextStep) : Option Files :=
  match (service.perform step.supply step.call).body.run (fileStorage step.host) files with
  | (.ok result, final) => if result.success then some final else none
  | (.error _, _) => none

/-! ### What a call writes -/

/-- The note that a call opens, as the parser divides it. -/
structure Opens (files : Files) (relativePath : Text) (filePath : Location Text)
    (existing : Mapping) (body : Text) : Prop where
  resolved : service.vault.resolvePath service.env relativePath = .ok filePath
  read : ∃ note content, files filePath = some note ∧ note.read = .ok content ∧
    parseFrontmatter service.env content = .ok (existing, body)

end CrudService

/-- The text of a file, and the mapping serialized for it. -/
structure TextRecord where
  filePath : Location Text
  content : Text
  frontmatter : Option Mapping

/-- Accepted by `validate_content_size` and `validate_frontmatter_size`. -/
structure TextRecord.WithinLimits (env : Env) (record : TextRecord) : Prop where
  content : validateContentSize env record.content = .ok ()
  frontmatter : ∀ mapping ∈ record.frontmatter, validateFrontmatterSize env mapping = .ok ()

namespace CrudService

variable (service : CrudService)

/-- Frontmatter and body, as they are put together again. -/
def recordOf (filePath : Location Text) (frontmatter : Mapping) (body : Text) : TextRecord :=
  { filePath
    content := serializeFrontmatter service.env frontmatter ++ body
    frontmatter := some frontmatter }

/-- The id of a note that has none, in front of its fields. -/
def withNewId (supply : Supply) (validateSchema : Bool) (existing : Mapping) (checked : Checked) :
    Mapping :=
  frontmatterWithId existing (if validateSchema then checked.frontmatter else []) supply.uuid

/-- What a call puts together to be written. -/
inductive Puts (supply : Supply) (files : Files) : TextCall → TextRecord → Prop where
  | createNote {relativePath content : Text} {frontmatter : Option Mapping} {validateSchema : Bool}
      {filePath : Location Text} {checked : Checked}
      (resolved : service.vault.resolvePath service.env relativePath = .ok filePath)
      (isChecked : service.checkNew relativePath validateSchema (frontmatter.getD []) =
        .ok checked) :
      Puts supply files (.createNote relativePath content frontmatter validateSchema)
        (service.recordOf filePath (withId checked.frontmatter supply.uuid) content)
  | writeNote {relativePath content : Text} {filePath : Location Text}
      (resolved : service.vault.resolvePath service.env relativePath = .ok filePath) :
      Puts supply files (.writeNote relativePath content) ⟨filePath, content, none⟩
  | appendNote {relativePath content separator existing : Text} {filePath : Location Text}
      {note : NoteFile}
      (resolved : service.vault.resolvePath service.env relativePath = .ok filePath)
      (isThere : files filePath = some note) (isRead : note.read = .ok existing) :
      Puts supply files (.appendNote relativePath content separator)
        ⟨filePath, appendedContent existing separator content, none⟩
  | updateFrontmatter {relativePath body : Text} {metadata existing : Mapping}
      {merge validateSchema : Bool} {filePath : Location Text} {checked : Checked}
      (opens : service.Opens files relativePath filePath existing body)
      (isChecked : service.checkSchema validateSchema
        (if merge then OrderedDict.merge existing metadata else metadata) = .ok checked) :
      Puts supply files (.updateFrontmatter relativePath metadata merge validateSchema)
        (service.recordOf filePath checked.frontmatter body)
  | enrich {relativePath body : Text} {existing fields : Mapping} {validateSchema : Bool}
      {filePath : Location Text} {checked : Checked}
      (opens : service.Opens files relativePath filePath existing body)
      (markdown : Text.endsWith (service.env.lower relativePath) ".md".toList = true)
      (enabled : service.validator.config.enabled = true)
      (missing : service.missingRequired existing ≠ [])
      (provided : service.provide relativePath body existing (service.missingRequired existing) =
        .generated fields)
      (isChecked : service.checkEnriched validateSchema (OrderedDict.merge existing
        (service.newValues (allowed (service.missingRequired existing) fields) existing)) =
          .ok checked) :
      Puts supply files (.enrichNoteFrontmatterRequired relativePath validateSchema)
        (service.recordOf filePath checked.frontmatter body)
  | ensureNoteId {relativePath body : Text} {existing : Mapping} {validateSchema : Bool}
      {filePath : Location Text} {checked : Checked}
      (opens : service.Opens files relativePath filePath existing body)
      (markdown : Text.endsWith (service.env.lower relativePath) ".md".toList = true)
      (without : existing.lookup idKey = none)
      (isChecked : service.checkSchema validateSchema existing = .ok checked) :
      Puts supply files (.ensureNoteId relativePath validateSchema)
        (service.recordOf filePath (withNewId supply validateSchema existing checked) body)

/-- Every text and every mapping of a successful call is within the limits. -/
def KeepsLimits (files : Files) (step : TextStep) : Prop :=
  (service.textStep files step).isSome = true →
    ∀ record, service.Puts step.supply files step.call record → record.WithinLimits service.env

/-- The new frontmatter and the body fit into a note together. -/
def FitsTogether (frontmatter : Mapping) (body : Text) : Prop :=
  utf8Length (serializeFrontmatter service.env frontmatter) + utf8Length body ≤
    service.env.config.maxContentSize

/-- What the two operations without a check of their own would have to check. -/
def BoundedCall (supply : Supply) (files : Files) : TextCall → Prop
  | .updateFrontmatter relativePath metadata merge validateSchema =>
      ∀ filePath existing body checked, service.Opens files relativePath filePath existing body →
        service.checkSchema validateSchema
          (if merge then OrderedDict.merge existing metadata else metadata) = .ok checked →
        service.FitsTogether checked.frontmatter body
  | .ensureNoteId relativePath validateSchema =>
      ∀ filePath existing body checked, service.Opens files relativePath filePath existing body →
        existing.lookup idKey = none →
        service.checkSchema validateSchema existing = .ok checked →
        (withNewId supply validateSchema existing checked).length ≤
            service.env.config.maxFrontmatterKeys ∧
          service.FitsTogether (withNewId supply validateSchema existing checked) body
  | _ => True

/-- A successful call of these two has a new note that is within the limits. -/
def Bounded (files : Files) (step : TextStep) : Prop :=
  (service.textStep files step).isSome = true → service.BoundedCall step.supply files step.call

/-! ### The checks of a successful call -/

variable {service} {host : Host} {files final : Files} {result : CrudResult}

theorem validateForWrite_sizes {vault : LinkedVault} {env : Env} {relativePath : Text}
    {content : Option Text} {frontmatter : Option Mapping} {markdownOnly : Bool}
    {location : Location Text}
    (validated : vault.validateForWrite env relativePath content frontmatter markdownOnly =
      .ok location) :
    whenGiven content (validateContentSize env) = .ok () ∧
      whenGiven frontmatter (validateFrontmatterSize env) = .ok () := by
  unfold LinkedVault.validateForWrite at validated
  have afterExtension : (do
      validateNotIgnoredFolder env relativePath
      whenGiven content (validateContentSize env)
      whenGiven frontmatter (validateFrontmatterSize env)
      vault.resolvePath env relativePath) = Except.ok location := by
    cases markdownOnly with
    | false => exact (bind_ok validated).choose_spec.2
    | true => exact (bind_ok validated).choose_spec.2
  obtain ⟨_unit, _checked, afterIgnored⟩ := bind_ok afterExtension
  obtain ⟨_, size, afterContent⟩ := bind_ok afterIgnored
  obtain ⟨_, keys, _resolved⟩ := bind_ok afterContent
  exact ⟨size, keys⟩

theorem Opens.unique {relativePath body body' : Text} {filePath filePath' : Location Text}
    {existing existing' : Mapping}
    (first : service.Opens files relativePath filePath existing body)
    (second : service.Opens files relativePath filePath' existing' body') :
    filePath = filePath' ∧ existing = existing' ∧ body = body' := by
  have samePath := Except.ok.inj (first.resolved.symm.trans second.resolved)
  obtain ⟨note, content, isThere, isRead, parsed⟩ := first.read
  obtain ⟨note', content', isThere', isRead', parsed'⟩ := second.read
  rw [← samePath, isThere] at isThere'
  rw [← Option.some.inj isThere', isRead] at isRead'
  rw [← Except.ok.inj isRead', parsed] at parsed'
  have same := Prod.mk.inj (Except.ok.inj parsed')
  exact ⟨samePath, same.1, same.2⟩

/-- The whole text is accepted exactly when its two parts fit together. -/
theorem contentSize_iff (frontmatter : Mapping) (body : Text) :
    validateContentSize service.env (serializeFrontmatter service.env frontmatter ++ body) =
        .ok () ↔ service.FitsTogether frontmatter body := by
  unfold validateContentSize FitsTogether
  rw [utf8Length_append]
  constructor
  · intro accepted
    by_contra large
    rw [if_pos (Nat.lt_of_not_le large)] at accepted
    cases accepted
  · intro fits
    exact if_neg (Nat.not_lt_of_le fits)

theorem frontmatterSize_iff (frontmatter : Mapping) :
    validateFrontmatterSize service.env frontmatter = .ok () ↔
      frontmatter.length ≤ service.env.config.maxFrontmatterKeys := by
  unfold validateFrontmatterSize
  constructor
  · intro accepted
    by_contra large
    rw [if_pos (Nat.lt_of_not_le large)] at accepted
    cases accepted
  · intro fits
    exact if_neg (Nat.not_lt_of_le fits)

theorem withinLimits_iff (filePath : Location Text) (frontmatter : Mapping) (body : Text) :
    (service.recordOf filePath frontmatter body).WithinLimits service.env ↔
      frontmatter.length ≤ service.env.config.maxFrontmatterKeys ∧
        service.FitsTogether frontmatter body := by
  constructor
  · intro within
    exact ⟨(frontmatterSize_iff _).mp (within.frontmatter _ rfl),
      (contentSize_iff _ _).mp within.content⟩
  · rintro ⟨few, fits⟩
    constructor
    · exact (contentSize_iff _ _).mpr fits
    · intro mapping same
      rw [← Option.some.inj same]
      exact (frontmatterSize_iff _).mpr few

/-! ### One lemma for each operation -/

variable {supply : Supply} {relativePath : Text} {record : TextRecord}

theorem createNote_within {content : Text} {frontmatter : Option Mapping} {validateSchema : Bool}
    (puts : service.Puts supply files
      (.createNote relativePath content frontmatter validateSchema) record)
    (done : (service.createNote supply relativePath content frontmatter validateSchema).body.run
      (fileStorage host) files = (.ok result, final)) :
    record.WithinLimits service.env := by
  cases puts with
  | createNote resolved isChecked =>
      unfold createNote at done
      rw [isChecked] at done
      obtain ⟨_location, validated, _written⟩ := run_validated done
      obtain ⟨_unit, sized, afterSize⟩ := bind_ok validated
      obtain ⟨_content, few⟩ := validateForWrite_sizes afterSize
      apply (withinLimits_iff _ _ _).mpr
      exact ⟨(frontmatterSize_iff _).mp few, (contentSize_iff _ _).mp sized⟩

theorem writeNote_within {content : Text}
    (puts : service.Puts supply files (.writeNote relativePath content) record)
    (done : (service.writeNote supply relativePath content).body.run (fileStorage host) files =
      (.ok result, final)) :
    record.WithinLimits service.env := by
  cases puts with
  | writeNote resolved =>
      obtain ⟨_location, validated, _written⟩ := run_validated done
      exact
        { content := (validateForWrite_sizes validated).1
          frontmatter := by
            intro mapping impossible
            cases impossible }

theorem appendNote_within {content separator : Text}
    (puts : service.Puts supply files (.appendNote relativePath content separator) record)
    (done : (service.appendNote supply relativePath content separator).body.run
      (fileStorage host) files = (.ok result, final))
    (success : result.success = true) :
    record.WithinLimits service.env := by
  cases puts with
  | appendNote resolved isThere isRead =>
      obtain ⟨location, validated, opened⟩ := run_validated done
      have samePath := Except.ok.inj
        (resolved.symm.trans (LinkedVault.validateForWrite_ok validated).2)
      subst samePath
      obtain ⟨note, existing, found, isFound, rest⟩ := run_readStable rfl opened success
      rw [isThere] at found
      rw [← Option.some.inj found, isRead] at isFound
      rw [← Except.ok.inj isFound] at rest
      obtain ⟨_unit, sized, _written⟩ := run_proceed rest
      exact
        { content := sized
          frontmatter := by
            intro mapping impossible
            cases impossible }

/-- A run that reads the note goes on with its two parts. -/
theorem Opens.run {filePath : Location Text} {existing : Mapping} {body : Text}
    (opens : service.Opens files relativePath filePath existing body) {missing : CrudResult}
    {next : Option FileRevision → Mapping × Text → CrudProgram}
    (unsuccessful : missing.success = false)
    (done : (readStable filePath relativePath missing (fun revision content =>
      proceed (parseFrontmatter service.env content) (next revision))).run (fileStorage host)
        files = (.ok result, final))
    (success : result.success = true) :
    ∃ revision, (next revision (existing, body)).run (fileStorage host) files =
      (.ok result, final) := by
  obtain ⟨note, content, isThere, isRead, parsed⟩ := opens.read
  obtain ⟨found, read, isFound, wasRead, rest⟩ := run_readStable unsuccessful done success
  rw [isThere] at isFound
  rw [← Option.some.inj isFound, isRead] at wasRead
  rw [← Except.ok.inj wasRead] at rest
  obtain ⟨both, isBoth, afterParse⟩ := run_proceed rest
  rw [parsed] at isBoth
  rw [← Except.ok.inj isBoth] at afterParse
  exact ⟨_, afterParse⟩

theorem updateFrontmatter_within {metadata : Mapping} {merge validateSchema : Bool}
    (puts : service.Puts supply files
      (.updateFrontmatter relativePath metadata merge validateSchema) record)
    (done : (service.updateFrontmatter supply relativePath metadata merge validateSchema).body.run
      (fileStorage host) files = (.ok result, final))
    (success : result.success = true) :
    record.WithinLimits service.env ↔
      service.BoundedCall supply files
        (.updateFrontmatter relativePath metadata merge validateSchema) := by
  cases puts with
  | @updateFrontmatter _ body _ existing _ _ filePath checked opens isChecked =>
      obtain ⟨location, validated, ran⟩ := run_validated done
      have samePath := Except.ok.inj
        (opens.resolved.symm.trans (LinkedVault.validateForWrite_ok validated).2)
      subst samePath
      obtain ⟨revision, rest⟩ := opens.run rfl ran success
      dsimp only at rest
      rw [isChecked] at rest
      obtain ⟨_unit, few, _written⟩ := run_proceed rest
      rw [withinLimits_iff]
      constructor
      · intro within filePath' existing' body' checked' opens' isChecked'
        obtain ⟨_samePath, sameFields, sameBody⟩ := opens.unique opens'
        rw [← sameFields, isChecked] at isChecked'
        rw [← sameBody, ← Except.ok.inj isChecked']
        exact within.2
      · intro bounded
        exact ⟨(frontmatterSize_iff _).mp few, bounded _ _ _ _ opens isChecked⟩

/-- A call that is for Markdown alone. -/
theorem run_markdown {message : CrudResult} {locked : PathLocked}
    (done : (if !Text.endsWith (service.env.lower relativePath) ".md".toList then
        unlocked relativePath (.ok message)
      else locked).body.run (fileStorage host) files = (.ok result, final)) :
    result = message ∧ final = files ∨
      locked.body.run (fileStorage host) files = (.ok result, final) := by
  split at done
  · cases done
    exact Or.inl ⟨rfl, rfl⟩
  · exact Or.inr done

theorem persistBody_within {filePath : Location Text} {existing generated : Mapping} {body : Text}
    {validateSchema : Bool} {checked : Checked}
    (opens : service.Opens files relativePath filePath existing body)
    (missing : service.missingRequired existing ≠ [])
    (isChecked : service.checkEnriched validateSchema
      (OrderedDict.merge existing (service.newValues generated existing)) = .ok checked)
    (done : (service.persistBody relativePath generated validateSchema supply.stamp filePath).run
      (fileStorage host) files = (.ok result, final))
    (success : result.success = true) :
    (service.recordOf filePath checked.frontmatter body).WithinLimits service.env := by
  obtain ⟨revision, rest⟩ := opens.run rfl done success
  dsimp only at rest
  rw [if_neg (fun empty => missing (List.isEmpty_iff.mp empty))] at rest
  split at rest
  · cases rest
    cases success
  · rw [isChecked] at rest
    obtain ⟨_unit, few, afterFew⟩ := run_proceed rest
    obtain ⟨_fits, sized, _written⟩ := run_proceed afterFew
    apply (withinLimits_iff _ _ _).mpr
    exact ⟨(frontmatterSize_iff _).mp few, (contentSize_iff _ _).mp sized⟩

theorem enrich_within {validateSchema : Bool}
    (puts : service.Puts supply files (.enrichNoteFrontmatterRequired relativePath validateSchema)
      record)
    (done : (service.enrichNoteFrontmatterRequired supply relativePath validateSchema).body.run
      (fileStorage host) files = (.ok result, final))
    (success : result.success = true) :
    record.WithinLimits service.env := by
  cases puts with
  | @enrich _ body existing fields _ filePath checked opens markdown enabled missing provided
      isChecked =>
      unfold enrichNoteFrontmatterRequired at done
      rw [markdown, Bool.not_true, if_neg Bool.false_ne_true] at done
      obtain ⟨location, resolved, ran⟩ := run_validated done
      have samePath := Except.ok.inj (opens.resolved.symm.trans resolved)
      subst samePath
      obtain ⟨revision, rest⟩ := opens.run rfl ran success
      have required : service.requiredSchemaFields.isEmpty = false := by
        cases fields : service.requiredSchemaFields with
        | nil =>
            unfold missingRequired at missing
            rw [fields] at missing
            exact absurd rfl missing
        | cons first others => rfl
      rw [enabled, required, Bool.not_true, if_neg Bool.false_ne_true,
        if_neg Bool.false_ne_true] at rest
      dsimp only at rest
      rw [if_neg (fun empty => missing (List.isEmpty_iff.mp empty)), provided] at rest
      exact persistBody_within opens missing isChecked rest success

theorem ensureNoteId_within {validateSchema : Bool}
    (puts : service.Puts supply files (.ensureNoteId relativePath validateSchema) record) :
    record.WithinLimits service.env ↔
      service.BoundedCall supply files (.ensureNoteId relativePath validateSchema) := by
  cases puts with
  | @ensureNoteId _ body existing _ filePath checked opens _markdown without isChecked =>
      rw [withinLimits_iff]
      constructor
      · intro within filePath' existing' body' checked' opens' without' isChecked'
        obtain ⟨_samePath, sameFields, sameBody⟩ := opens.unique opens'
        rw [← sameFields, isChecked] at isChecked'
        rw [← sameFields, ← sameBody, ← Except.ok.inj isChecked']
        exact within
      · intro bounded
        exact bounded _ _ _ _ opens without isChecked

/-! ### Nothing else is written -/

variable (service) in
/-- The files are as before, or one text that the call puts together is in place. -/
def Wrote (supply : Supply) (files final : Files) (call : TextCall) : Prop :=
  final = files ∨
    ∃ record, service.Puts supply files call record ∧
      Written files final record.filePath record.content supply.stamp

theorem enrich_wrote {validateSchema : Bool}
    (done : (service.enrichNoteFrontmatterRequired supply relativePath validateSchema).body.run
      (fileStorage host) files = (.ok result, final))
    (success : result.success = true) :
    service.Wrote supply files final
      (.enrichNoteFrontmatterRequired relativePath validateSchema) := by
  unfold enrichNoteFrontmatterRequired at done
  split at done
  · cases done
    exact Or.inl rfl
  case isFalse markdown =>
    obtain ⟨location, resolved, ran⟩ := run_validated done
    obtain ⟨note, content, isThere, isRead, rest⟩ := run_readStable rfl ran success
    unfold enrichContent at rest
    obtain ⟨⟨existing, body⟩, parsed, afterParse⟩ := run_proceed rest
    have opens : service.Opens files relativePath location existing body :=
      ⟨resolved, note, content, isThere, isRead, parsed⟩
    dsimp only at afterParse
    split at afterParse
    · cases afterParse
      exact Or.inl rfl
    case isFalse enabled =>
      split at afterParse
      · cases afterParse
        exact Or.inl rfl
      · split at afterParse
        · cases afterParse
          exact Or.inl rfl
        case isFalse missing =>
          split at afterParse
          · cases afterParse
            cases success
          · cases afterParse
          case h_3 fields provided =>
            rcases run_persistBody afterParse success with unchanged | written
            · exact Or.inl unchanged
            · obtain ⟨note', content', existing', body', checked, isThere', isRead', parsed',
                isChecked, inPlace⟩ := written
              have opens' : service.Opens files relativePath location existing' body' :=
                ⟨resolved, note', content', isThere', isRead', parsed'⟩
              obtain ⟨_samePath, sameFields, sameBody⟩ := opens'.unique opens
              rw [sameFields] at isChecked
              rw [sameBody] at inPlace
              apply Or.inr
              refine ⟨service.recordOf location checked.frontmatter body, ?_, inPlace⟩
              exact .enrich opens (by simpa using markdown) (by simpa using enabled)
                (fun empty => missing (List.isEmpty_iff.mpr empty)) provided isChecked

theorem ensureNoteId_wrote {validateSchema : Bool}
    (done : (service.ensureNoteId supply relativePath validateSchema).body.run
      (fileStorage host) files = (.ok result, final))
    (success : result.success = true) :
    service.Wrote supply files final (.ensureNoteId relativePath validateSchema) := by
  unfold ensureNoteId at done
  split at done
  · cases done
    cases success
  case isFalse markdown =>
    obtain ⟨location, resolved, ran⟩ := run_validated done
    obtain ⟨note, content, isThere, isRead, rest⟩ := run_readStable rfl ran success
    obtain ⟨⟨existing, body⟩, parsed, afterParse⟩ := run_proceed rest
    have opens : service.Opens files relativePath location existing body :=
      ⟨resolved, note, content, isThere, isRead, parsed⟩
    dsimp only at afterParse
    split at afterParse
    · exact Or.inl (Prod.mk.inj afterParse).2.symm
    case h_2 without =>
      unfold addId at afterParse
      split at afterParse
      · cases afterParse
      · cases afterParse
        cases success
      case h_3 checked isChecked =>
        obtain ⟨_unchanged, ended⟩ := run_safeWriteText afterParse success
        cases ended
        apply Or.inr
        refine ⟨service.recordOf location (withNewId supply validateSchema existing checked) body,
          ?_, rfl⟩
        exact .ensureNoteId opens (by simpa using markdown) without isChecked

theorem perform_wrote {call : TextCall}
    (done : (service.perform supply call).body.run (fileStorage host) files = (.ok result, final))
    (success : result.success = true) : service.Wrote supply files final call := by
  cases call with
  | createNote relativePath content frontmatter validateSchema =>
      unfold perform createNote at done
      dsimp only at done
      split at done
      · exact Or.inl (Prod.mk.inj done).2.symm
      case h_2 checked isChecked =>
        obtain ⟨location, validated, ran⟩ := run_validated done
        obtain ⟨_unit, _sized, afterSize⟩ := bind_ok validated
        have resolved := (LinkedVault.validateForWrite_ok afterSize).2
        obtain ⟨_absent, written⟩ := run_createBody ran success
        exact Or.inr ⟨_, .createNote resolved isChecked, written⟩
  | writeNote relativePath content =>
      obtain ⟨location, validated, ran⟩ := run_validated done
      have resolved := (LinkedVault.validateForWrite_ok validated).2
      exact Or.inr ⟨_, .writeNote resolved, run_writeBody ran success⟩
  | appendNote relativePath content separator =>
      obtain ⟨location, validated, ran⟩ := run_validated done
      have resolved := (LinkedVault.validateForWrite_ok validated).2
      obtain ⟨note, existing, isThere, isRead, written⟩ := run_appendBody ran success
      exact Or.inr ⟨_, .appendNote resolved isThere isRead, written⟩
  | updateFrontmatter relativePath metadata merge validateSchema =>
      obtain ⟨location, validated, ran⟩ := run_validated done
      have resolved := (LinkedVault.validateForWrite_ok validated).2
      obtain ⟨note, content, existing, body, checked, isThere, isRead, parsed, isChecked,
        written⟩ := run_updateBody ran success
      exact Or.inr ⟨_, .updateFrontmatter ⟨resolved, note, content, isThere, isRead, parsed⟩
        isChecked, written⟩
  | enrichNoteFrontmatterRequired relativePath validateSchema =>
      exact enrich_wrote done success
  | ensureNoteId relativePath validateSchema => exact ensureNoteId_wrote done success

/-! ### Runs -/

theorem textStep_some {step : TextStep} (stepped : service.textStep files step = some final) :
    ∃ result, result.success = true ∧
      (service.perform step.supply step.call).body.run (fileStorage step.host) files =
        (.ok result, final) := by
  unfold textStep at stepped
  split at stepped
  case h_1 result after ran =>
    split at stepped
    case isTrue success =>
      cases stepped
      exact ⟨result, success, ran⟩
    · cases stepped
  · cases stepped

theorem ensureNoteId_markdown {validateSchema : Bool}
    (done : (service.ensureNoteId supply relativePath validateSchema).body.run
      (fileStorage host) files = (.ok result, final))
    (success : result.success = true) :
    Text.endsWith (service.env.lower relativePath) ".md".toList = true := by
  unfold ensureNoteId at done
  split at done
  · cases done
    cases success
  case isFalse markdown => exact eq_true_of_ne_false (fun plain => markdown (by rw [plain]; rfl))

/-- Each call keeps the limits exactly when it is bounded. -/
theorem keepsLimits_iff (step : TextStep) :
    service.KeepsLimits files step ↔ service.Bounded files step := by
  constructor
  · intro keeps successful
    obtain ⟨final, stepped⟩ := Option.isSome_iff_exists.mp successful
    obtain ⟨result, success, done⟩ := textStep_some stepped
    have within := keeps successful
    obtain ⟨call, supply, host⟩ := step
    cases call with
    | createNote | writeNote | appendNote | enrichNoteFrontmatterRequired => trivial
    | updateFrontmatter relativePath metadata merge validateSchema =>
        intro filePath existing body checked opens isChecked
        have puts : service.Puts supply files
            (.updateFrontmatter relativePath metadata merge validateSchema) _ :=
          .updateFrontmatter opens isChecked
        exact (updateFrontmatter_within puts done success).mp (within _ puts) _ _ _ _ opens
          isChecked
    | ensureNoteId relativePath validateSchema =>
        intro filePath existing body checked opens without isChecked
        have puts : service.Puts supply files (.ensureNoteId relativePath validateSchema) _ :=
          .ensureNoteId opens (ensureNoteId_markdown done success) without isChecked
        exact (ensureNoteId_within puts).mp (within _ puts) _ _ _ _ opens without isChecked
  · intro bounded successful record puts
    obtain ⟨final, stepped⟩ := Option.isSome_iff_exists.mp successful
    obtain ⟨result, success, done⟩ := textStep_some stepped
    have within := bounded successful
    obtain ⟨call, supply, host⟩ := step
    cases call with
    | createNote => exact createNote_within puts done
    | writeNote => exact writeNote_within puts done
    | appendNote => exact appendNote_within puts done success
    | updateFrontmatter => exact (updateFrontmatter_within puts done success).mpr within
    | enrichNoteFrontmatterRequired => exact enrich_within puts done success
    | ensureNoteId => exact (ensureNoteId_within puts).mpr within

/-- Every text is accepted by `validate_content_size`. -/
def TextsAccepted (env : Env) (files : Files) : Prop :=
  ∀ filePath note content, files filePath = some note → note.text = .ok content →
    validateContentSize env content = .ok ()

theorem textStep_accepted {step : TextStep} (accepted : TextsAccepted service.env files)
    (bounded : service.Bounded files step)
    (stepped : service.textStep files step = some final) :
    TextsAccepted service.env final := by
  obtain ⟨result, success, done⟩ := textStep_some stepped
  have within := (keepsLimits_iff step).mpr bounded (Option.isSome_iff_exists.mpr ⟨_, stepped⟩)
  rcases perform_wrote done success with unchanged | ⟨record, puts, written⟩
  · rw [unchanged]
    exact accepted
  · intro filePath note content isThere isRead
    rw [written] at isThere
    by_cases same : filePath = record.filePath
    · rw [same, Function.update_self] at isThere
      cases isThere
      cases isRead
      exact (within record puts).content
    · rw [Function.update_of_ne same] at isThere
      exact accepted filePath note content isThere isRead

theorem noteFiles_accepted {env : Env} {text : Text} {inode mtimeNs : Nat}
    (fits : validateContentSize env text = .ok ()) :
    TextsAccepted env (noteFiles text inode mtimeNs) := by
  intro filePath note content isThere isText
  unfold noteFiles at isThere
  split at isThere
  · cases isThere
    cases isText
    exact fits
  · cases isThere

/-- The note is written anew. -/
def writeStep : TextStep :=
  { call := .writeNote "a.md".toList "new".toList, supply := plainSupply }

/-- One field is all that a note may have. -/
def oneFieldService : CrudService :=
  { plainService with
    env :=
      { Env.plain with
        config := { Env.plain.config with maxFrontmatterKeys := 1 }
        safeLoad := fun _yaml => .ok (.map [(.text "a".toList, .int 1)])
        dump := fun _frontmatter => "id: '0198'\na: 1\n".toList } }

def oneFieldFiles : Files :=
  noteFiles "---\na: 1\n---\n\nText".toList 1 100

def ensureStep : TextStep :=
  { call := .ensureNoteId "a.md".toList true, supply := plainSupply }

end CrudService

end VaultSearch
