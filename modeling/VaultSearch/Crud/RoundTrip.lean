/-
What a note written with `serialize_frontmatter` is when it is parsed again, and that
`ensure_note_id` has nothing left to do for a note it went through.
-/

import VaultSearch.Crud.SizeLimits
import VaultSearch.Parsers.DelimiterLines
import VaultSearch.Text.Placement

set_option autoImplicit false

namespace VaultSearch

open Placement Symlinks

/-! ### Serialized frontmatter -/

/-- What PyYAML is relied on for with a mapping: its dump is made of whole lines, begins with
a key, holds no delimiter line and no carriage return, and is loaded as the mapping. -/
structure DumpLaw (env : Env) (frontmatter : Mapping) : Prop where
  lined : ∃ head tail, env.dump frontmatter = head :: tail ++ ['\n'] ∧
    Text.isSpace head = false ∧ (Text.lines (head :: tail)).any delimiterLine = false
  unbroken : '\r' ∉ env.dump frontmatter
  loads : env.safeLoad ('\n' :: env.dump frontmatter) = .ok (.map frontmatter)

/-- Parsing what was serialized in front of the body gives the frontmatter, and the body up
to the whitespace around it. -/
def RoundTrips (env : Env) (frontmatter : Mapping) (body : Text) : Prop :=
  ∃ parsedBody, parseFrontmatter env (serializeFrontmatter env frontmatter ++ body) =
    .ok (frontmatter, parsedBody) ∧ Text.strip parsedBody = Text.strip body

theorem delimiterRun_dashes {head : Char} (solid : Text.isSpace head = false) (rest : Text) :
    delimiterRun ("---".toList ++ '\n' :: head :: rest) = some 3 := by
  have stopped : spaceRun (head :: rest) = none := by
    apply spaceRun_solid
    rw [solid]
    exact Bool.false_ne_true
  have run : spaceRun ('\n' :: head :: rest) = some 0 := by
    rw [spaceRun_space isSpace_newline, stopped]
    rfl
  change (spaceRun ('\n' :: head :: rest)).map (3 + ·) = some 3
  rw [run]
  rfl

theorem delimiterRun_newline (rest : Text) :
    ∃ length, delimiterRun ("---".toList ++ '\n' :: rest) = some length := by
  apply Option.isSome_iff_exists.mp
  rw [delimiterRun_isSome]
  rfl

/-- The split stops at the delimiter that the serializer wrote. -/
theorem frontmatterSplit_serialized {head : Char} (solid : Text.isSpace head = false) {tail : Text}
    (plain : (Text.lines (head :: tail)).any delimiterLine = false) (body : Text) :
    ∃ after, frontmatterSplit
        ("---".toList ++ '\n' :: (head :: tail ++ '\n' :: ("---".toList ++ '\n' :: '\n' :: body))) =
          some ('\n' :: (head :: tail ++ ['\n']), after) ∧
      Text.strip after = Text.strip body := by
  obtain ⟨length, run⟩ := delimiterRun_newline ('\n' :: body)
  obtain ⟨spaces, after, whole, size, blank⟩ := delimiterRun_shape run
  have dashes : '\n' ∉ "---".toList := by decide
  have firstMark : markHere 0 ("---".toList ++
      '\n' :: (head :: tail ++ '\n' :: ("---".toList ++ '\n' :: '\n' :: body))) = [(0, 3)] := by
    unfold markHere
    rw [List.cons_append, delimiterRun_dashes solid]
    rfl
  have secondMark : markHere (4 + (head :: tail).length + 1)
      ("---".toList ++ '\n' :: '\n' :: body) =
        [(4 + (head :: tail).length + 1, 4 + (head :: tail).length + 1 + length)] := by
    unfold markHere
    rw [run]
    rfl
  have found := marks_line dashes
    (head :: tail ++ '\n' :: ("---".toList ++ '\n' :: '\n' :: body)) 0
  have apart : 0 + "---".toList.length + 1 = 4 := rfl
  rw [firstMark, apart, marks_of_plain plain, marks_line dashes ('\n' :: body), secondMark] at found
  exists after
  constructor
  · rw [frontmatterSplit_marks, found]
    have front : "---".toList ++
        '\n' :: (head :: tail ++ '\n' :: ("---".toList ++ '\n' :: '\n' :: body)) =
          ("---".toList ++ '\n' :: (head :: tail ++ ['\n'])) ++
            (("---".toList ++ spaces) ++ after) := by
      rw [List.append_assoc "---".toList spaces, ← whole]
      simp
    have long : ("---".toList ++ '\n' :: (head :: tail ++ ['\n'])).length =
        4 + (head :: tail).length + 1 := by
      simp
      omega
    have spaced : ("---".toList ++ spaces).length = length := by
      rw [size, List.length_append]
      rfl
    rw [front, ← long, ← spaced, List.singleton_append, List.singleton_append, splitAt_start,
      List.take_left, ← List.drop_drop, List.drop_left, List.drop_left]
    rfl
  · have same : '\n' :: '\n' :: body = spaces ++ after := List.append_cancel_left whole
    rw [← Text.strip_append_of_blank blank after, ← same]
    have breaks : Text.isBlank ['\n', '\n'] = true := rfl
    exact Text.strip_append_of_blank breaks body

theorem asMetadata_map {frontmatter : Mapping} (filled : frontmatter ≠ []) :
    (Value.map frontmatter).asMetadata = some frontmatter := by
  have truthy : (Value.map frontmatter).truthy = true := by
    cases frontmatter with
    | nil => exact absurd rfl filled
    | cons entry rest => rfl
  unfold Value.asMetadata
  rw [if_pos truthy]

/-- A note with frontmatter is read back as it was written. -/
theorem parseFrontmatter_serialized {env : Env} {frontmatter : Mapping} (filled : frontmatter ≠ [])
    (law : DumpLaw env frontmatter) (body : Text) :
    parseFrontmatter env (serializeFrontmatter env frontmatter ++ body) =
      .ok (frontmatter, Text.strip body) := by
  obtain ⟨head, tail, dumped, solid, plain⟩ := law.lined
  obtain ⟨after, split, stripped⟩ := frontmatterSplit_serialized solid plain body
  have written : serializeFrontmatter env frontmatter ++ body = "---".toList ++
      '\n' :: (head :: tail ++ '\n' :: ("---".toList ++ '\n' :: '\n' :: body)) := by
    unfold serializeFrontmatter
    rw [if_neg (by simpa using filled), dumped]
    simp
  have unmarked : stripBom (serializeFrontmatter env frontmatter ++ body) =
      serializeFrontmatter env frontmatter ++ body := by
    rw [written]
    rfl
  unfold parseFrontmatter
  simp only
  rw [unmarked, written, split]
  simp only
  rw [← dumped, law.loads]
  simp only
  rw [asMetadata_map filled, stripped]

/-! ### A body of its own -/

theorem inked_rstrip (text : Text) : inked (Text.rstrip text) = inked text := by
  have parts := List.takeWhile_append_dropWhile (p := Text.isSpace) (l := text.reverse)
  have blank : inked (text.reverse.takeWhile Text.isSpace) = 0 := by
    rw [inked_eq_zero_iff]
    exact List.all_takeWhile
  have whole := congrArg inked parts
  rw [inked_append, blank, Nat.zero_add] at whole
  unfold Text.rstrip
  unfold inked at whole ⊢
  rw [List.countP_reverse, whole, List.countP_reverse]

theorem inked_lstrip (text : Text) : inked (Text.lstrip text) = inked text := by
  have parts := List.takeWhile_append_dropWhile (p := Text.isSpace) (l := text)
  have blank : inked (text.takeWhile Text.isSpace) = 0 := by
    rw [inked_eq_zero_iff]
    exact List.all_takeWhile
  have whole := congrArg inked parts
  rw [inked_append, blank, Nat.zero_add] at whole
  exact whole

theorem inked_strip (text : Text) : inked (Text.strip text) = inked text := by
  unfold Text.strip
  rw [inked_rstrip, inked_lstrip]

theorem inked_le_of_suffix {part text : Text} (suffix : part <:+ text) :
    inked part ≤ inked text := by
  obtain ⟨front, whole⟩ := suffix
  rw [← whole, inked_append]
  exact Nat.le_add_left _ _

theorem inked_dropWhile_lt {text : Text} {marked : Char → Bool}
    (solid : ∀ char, marked char = true → Text.isSpace char = false)
    (shorter : text.dropWhile marked ≠ text) : inked (text.dropWhile marked) < inked text := by
  cases text with
  | nil => exact absurd rfl shorter
  | cons head tail =>
      by_cases isMarked : marked head = true
      · rw [List.dropWhile_cons_of_pos isMarked]
        have less := inked_le_of_suffix (List.dropWhile_suffix (l := tail) marked)
        have whole : inked (head :: tail) = inked tail + 1 := by
          unfold inked
          rw [List.countP_cons_of_pos (by simpa using solid head isMarked)]
        omega
      · exact absurd (List.dropWhile_cons_of_neg isMarked) shorter

theorem stripBom_inked_lt {body : Text} (marked : stripBom body ≠ body) :
    inked (stripBom body) < inked body := by
  apply inked_dropWhile_lt _ marked
  intro char same
  rw [eq_of_beq same]
  decide

/-- What is behind a block lacks the dashes in front of it. -/
theorem frontmatterSplit_inked_lt {content yamlText after : Text}
    (split : frontmatterSplit content = some (yamlText, after)) : inked after < inked content := by
  rw [frontmatterSplit_marks] at split
  cases found : marks 0 true content with
  | nil =>
      rw [found] at split
      cases split
  | cons first others =>
      cases others with
      | nil =>
          rw [found] at split
          cases split
      | cons second others =>
          rw [found, splitAt] at split
          split at split
          · have dropped : content.drop second.2 = after :=
              (Prod.mk.inj (Option.some.inj split)).2
            have bound := marks_start_add_le content 0 true second (by rw [found]; simp)
            have parts := congrArg inked (List.take_append_drop second.2 content)
            rw [inked_append, dropped] at parts
            -- a delimiter cannot start in whitespace
            have filled : inked (content.take second.2) ≠ 0 := by
              rw [Ne, inked_eq_zero_iff]
              intro blank
              have moved := marks_of_blank blank (content.drop second.2) 0 true
              rw [List.take_append_drop, found, List.length_take] at moved
              have start := marks_start_le _ _ _ second (by rw [← moved]; simp)
              omega
            omega
          · cases split

/-- The body is the whole text, or what is behind the block. -/
theorem parseFrontmatter_body {env : Env} {content body : Text} {metadata : Mapping}
    (parsed : parseFrontmatter env content = .ok (metadata, body)) :
    frontmatterSplit (stripBom content) = none ∧ body = stripBom content ∨
      ∃ yamlText after, frontmatterSplit (stripBom content) = some (yamlText, after) ∧
        body = Text.strip after := by
  unfold parseFrontmatter at parsed
  simp only at parsed
  cases split : frontmatterSplit (stripBom content) with
  | none =>
      rw [split] at parsed
      exact Or.inl ⟨rfl, (Prod.mk.inj (Except.ok.inj parsed)).2.symm⟩
  | some parts =>
      rw [split] at parsed
      apply Or.inr
      refine ⟨parts.1, parts.2, rfl, ?_⟩
      simp only at parsed
      split at parsed
      · exact (Prod.mk.inj (Except.ok.inj parsed)).2.symm
      · cases parsed
      · split at parsed
        · exact (Prod.mk.inj (Except.ok.inj parsed)).2.symm
        · exact (Prod.mk.inj (Except.ok.inj parsed)).2.symm

/-- Without frontmatter nothing is written in front of the body, so that a byte order mark or
a block of its own is taken from it. -/
theorem roundTrips_empty_iff (env : Env) (body : Text) :
    RoundTrips env [] body ↔
      stripBom body = body ∧ opensWithBlock (Text.lines body) = false := by
  have nothing : serializeFrontmatter env [] ++ body = body := rfl
  unfold RoundTrips
  rw [nothing]
  constructor
  · rintro ⟨parsedBody, parsed, same⟩
    have all : inked parsedBody = inked body := by
      rw [← inked_strip, same, inked_strip]
    have kept := inked_le_of_suffix (List.dropWhile_suffix (l := body) (· == '\ufeff'))
    change inked (stripBom body) ≤ inked body at kept
    rcases parseFrontmatter_body parsed with ⟨unsplit, whole⟩ | ⟨yamlText, after, split, isBody⟩
    · have unmarked : stripBom body = body := by
        by_contra marked
        have less := stripBom_inked_lt marked
        rw [whole] at all
        omega
      rw [unmarked] at unsplit
      rw [← frontmatterSplit_isSome, unsplit]
      exact ⟨unmarked, rfl⟩
    · have less := frontmatterSplit_inked_lt split
      rw [isBody, inked_strip] at all
      omega
  · rintro ⟨unmarked, unopened⟩
    have unsplit : frontmatterSplit body = none := by
      rw [← Option.not_isSome_iff_eq_none, frontmatterSplit_isSome, unopened]
      exact Bool.false_ne_true
    exists body
    constructor
    · unfold parseFrontmatter
      simp only
      rw [unmarked, unsplit]
    · rfl

theorem roundTrips_iff {env : Env} {frontmatter : Mapping} (body : Text)
    (law : frontmatter ≠ [] → DumpLaw env frontmatter) :
    RoundTrips env frontmatter body ↔
      frontmatter ≠ [] ∨ stripBom body = body ∧ opensWithBlock (Text.lines body) = false := by
  by_cases filled : frontmatter = []
  · rw [filled, roundTrips_empty_iff]
    exact (or_iff_right (fun different => different rfl)).symm
  · constructor
    · exact fun _trips => Or.inl filled
    · intro _either
      exact ⟨Text.strip body, parseFrontmatter_serialized filled (law filled) body,
        Text.strip_strip body⟩

/-! ### Successive calls of `ensure_note_id` -/

structure IdCall where
  relativePath : Text
  validateSchema : Bool
  supply : Supply
  host : Host := {}

/-- The note has this id already. -/
def ReportsId (id : Option Value) (outcome : CrudOutcome) : Prop :=
  ∃ result, outcome = .ok result ∧ result.success = true ∧ result.idAdded = some false ∧
    result.id = id

namespace CrudService

variable (service : CrudService)

/-- A call, and the files behind it. -/
def ensured (files : Files) (call : IdCall) : CrudOutcome × Files :=
  (service.ensureNoteId call.supply call.relativePath call.validateSchema).body.run
    (fileStorage call.host) files

/-- Calls one after the other. -/
def ensuredAll : Files → List IdCall → List (CrudOutcome × Files)
  | _, [] => []
  | files, call :: rest =>
      let ended := service.ensured files call
      ended :: ensuredAll ended.2 rest

/-- A path of the same note, with the extension that is asked for. -/
def SameNote (first later : IdCall) : Prop :=
  Text.endsWith (service.env.lower later.relativePath) ".md".toList = true ∧
    service.vault.resolvePath service.env later.relativePath =
      service.vault.resolvePath service.env first.relativePath

/-- If the call validates the note, the validator comes to a result. -/
def Validates (files : Files) (call : IdCall) : Prop :=
  call.validateSchema = true →
    ∀ filePath stored body, service.Opens files call.relativePath filePath stored body →
      ∃ result, service.validator.validate stored = .ok result

/-- PyYAML keeps the frontmatter that the call would write. -/
def DumpsNewId (files : Files) (call : IdCall) : Prop :=
  ∀ filePath existing body checked,
    service.Opens files call.relativePath filePath existing body →
      existing.lookup idKey = none →
        service.checkSchema call.validateSchema existing = .ok checked →
          DumpLaw service.env (withNewId call.supply call.validateSchema existing checked)

variable {service} {host : Host} {files final : Files} {result : CrudResult}

theorem run_locks {relativePath : Text} {filePath : Except PyError (Location Text)}
    {body : Location Text → CrudProgram}
    (done : (service.validated relativePath filePath body).body.run (fileStorage host) files =
      (.ok result, final)) :
    service.lockPath = .ok () := by
  unfold validated at done
  cases filePath with
  | error error => cases done
  | ok location =>
      dsimp only at done
      unfold locked at done
      cases opened : service.lockPath with
      | error error =>
          rw [opened] at done
          cases done
      | ok _unit => rfl

theorem idFirst_lookup (id : Value) (frontmatter : Mapping) :
    ((idFirst id frontmatter).lookup idKey).isSome = true := by
  apply OrderedDict.merge_keeps
  rw [OrderedDict.lookup_head]
  rfl

/-- The new frontmatter has an id. -/
theorem frontmatterWithId_lookup (existing validated : Mapping) (uuid : Text) :
    ((frontmatterWithId existing validated uuid).lookup idKey).isSome = true := by
  unfold frontmatterWithId
  cases validated.lookup idKey with
  | some id => exact OrderedDict.merge_keeps (idFirst_lookup id _)
  | none => exact idFirst_lookup _ _

theorem strip_subset (text : Text) : Text.strip text ⊆ text := by
  intro char member
  have reversed := (List.dropWhile_sublist _).subset (List.mem_reverse.mp member)
  exact (List.dropWhile_sublist _).subset (List.mem_reverse.mp reversed)

theorem frontmatterSplit_subset {content yamlText after : Text}
    (split : frontmatterSplit content = some (yamlText, after)) : after ⊆ content := by
  rw [frontmatterSplit_marks] at split
  unfold splitAt at split
  split at split
  · split at split
    · rw [← (Prod.mk.inj (Option.some.inj split)).2]
      exact List.drop_subset _ _
    · cases split
  · cases split

theorem parseFrontmatter_subset {env : Env} {content body : Text} {metadata : Mapping}
    (parsed : parseFrontmatter env content = .ok (metadata, body)) : body ⊆ content := by
  have kept : stripBom content ⊆ content := (List.dropWhile_sublist _).subset
  rcases parseFrontmatter_body parsed with ⟨_unsplit, whole⟩ | ⟨yamlText, after, split, isBody⟩
  · rw [whole]
    exact kept
  · rw [isBody]
    exact fun _char member => kept (frontmatterSplit_subset split (strip_subset _ member))

theorem read_free {note : NoteFile} {content : Text} (isRead : note.read = .ok content) :
    '\r' ∉ content := by
  unfold NoteFile.read at isRead
  cases found : note.text with
  | error error =>
      rw [found] at isRead
      cases isRead
  | ok raw =>
      rw [found] at isRead
      rw [← Except.ok.inj isRead]
      exact Text.universalNewlines_free raw

/-- What is written for a note that was read has no carriage return. -/
theorem serialized_free {env : Env} {frontmatter : Mapping} (law : DumpLaw env frontmatter)
    {body : Text} (free : '\r' ∉ body) : '\r' ∉ serializeFrontmatter env frontmatter ++ body := by
  rw [List.mem_append, not_or]
  constructor
  · unfold serializeFrontmatter
    split
    · exact List.not_mem_nil
    · rw [List.mem_append, List.mem_append, not_or, not_or]
      exact ⟨⟨by decide, law.unbroken⟩, by decide⟩
  · exact free

/-- After a call that succeeds the note has the id reported. -/
theorem ensured_stores {first : IdCall} (law : service.DumpsNewId files first)
    (done : service.ensured files first = (.ok result, final)) (success : result.success = true) :
    service.lockPath = .ok () ∧ ∃ filePath stored body id,
      service.Opens final first.relativePath filePath stored body ∧
        stored.lookup idKey = some id ∧ result.id = some id := by
  unfold ensured ensureNoteId at done
  split at done
  · cases done
    cases success
  case isFalse _markdown =>
    have locks := run_locks done
    obtain ⟨location, resolved, ran⟩ := run_validated done
    obtain ⟨note, content, isThere, isRead, rest⟩ := run_readStable rfl ran success
    obtain ⟨⟨existing, body⟩, parsed, afterParse⟩ := run_proceed rest
    have opens : service.Opens files first.relativePath location existing body :=
      ⟨resolved, note, content, isThere, isRead, parsed⟩
    refine ⟨locks, location, ?_⟩
    dsimp only at afterParse
    split at afterParse
    case h_1 id present =>
      have kept := Prod.mk.inj afterParse
      rw [← kept.2]
      refine ⟨existing, body, id, opens, present, ?_⟩
      have outcome := kept.1
      unfold keptId at outcome
      dsimp only at outcome
      split at outcome
      · split at outcome
        · cases outcome
        · rw [← Except.ok.inj outcome]
        · rw [← Except.ok.inj outcome]
      · rw [← Except.ok.inj outcome]
    case h_2 without =>
      unfold addId at afterParse
      split at afterParse
      · cases afterParse
      · cases afterParse
        cases success
      case h_3 checked isChecked =>
        have kept : DumpLaw service.env
            (withNewId first.supply first.validateSchema existing checked) :=
          law location existing body checked opens without isChecked
        obtain ⟨_unchanged, ended⟩ := run_safeWriteText afterParse success
        obtain ⟨id, present⟩ := Option.isSome_iff_exists.mp
          (frontmatterWithId_lookup existing
            (if first.validateSchema then checked.frontmatter else []) first.supply.uuid)
        have filled : withNewId first.supply first.validateSchema existing checked ≠ [] := by
          intro empty
          rw [withNewId] at empty
          rw [empty] at present
          cases present
        have free : '\r' ∉ body :=
          fun member => read_free isRead (parseFrontmatter_subset parsed member)
        cases ended
        refine ⟨_, Text.strip body, id,
          ⟨resolved, _, serializeFrontmatter service.env
            (withNewId first.supply first.validateSchema existing checked) ++ body,
              Function.update_self .., ?_, ?_⟩, present, present⟩
        · exact congrArg Except.ok (Text.universalNewlines_of_free (serialized_free kept free))
        · exact parseFrontmatter_serialized filled kept body

theorem readStable_run {filePath : Location Text} {relativePath : Text} {missing : CrudResult}
    {next : Option FileRevision → Text → CrudProgram} {note : NoteFile} {content : Text}
    (isThere : files filePath = some note) (isRead : note.read = .ok content) :
    (readStable filePath relativePath missing next).run (fileStorage host) files =
      (next (some note.revision) content).run (fileStorage host) files := by
  have captured : (readStable filePath relativePath missing next).run (fileStorage host) files =
      ((fun revision : Option FileRevision => if revision.isNone then finish missing
        else safeReadText filePath relativePath (fun content =>
          checkRevision filePath relativePath revision (next revision content)))
            ((files filePath).map NoteFile.revision)).run (fileStorage host) files := rfl
  rw [captured, isThere]
  have read : (safeReadText filePath relativePath (fun content =>
      checkRevision filePath relativePath (some note.revision)
        (next (some note.revision) content))).run (fileStorage host) files =
      (afterRead relativePath (fun content =>
        checkRevision filePath relativePath (some note.revision)
          (next (some note.revision) content)) (readFile (files filePath))).run
            (fileStorage host) files := rfl
  have whole : readFile (some note) = .ok content := isRead
  have checked : (checkRevision filePath relativePath (some note.revision)
      (next (some note.revision) content)).run (fileStorage host) files =
      (ifUnchanged (some note.revision) (writeConflict relativePath)
        (next (some note.revision) content) ((files filePath).map NoteFile.revision)).run
          (fileStorage host) files := rfl
  rw [isThere, whole] at read
  rw [isThere] at checked
  refine read.trans (checked.trans ?_)
  unfold ifUnchanged
  rw [if_neg (fun different => different rfl)]

/-- A call for a note that has an id. -/
theorem ensured_of_stored {call : IdCall} {filePath : Location Text} {stored : Mapping}
    {body : Text} {id : Value} (locks : service.lockPath = .ok ())
    (markdown : Text.endsWith (service.env.lower call.relativePath) ".md".toList = true)
    (opens : service.Opens files call.relativePath filePath stored body)
    (present : stored.lookup idKey = some id) :
    service.ensured files call =
      (service.keptId call.relativePath call.validateSchema stored id, files) := by
  obtain ⟨note, content, isThere, isRead, parsed⟩ := opens.read
  unfold ensured ensureNoteId
  rw [markdown, Bool.not_true, if_neg Bool.false_ne_true, opens.resolved]
  unfold validated
  dsimp only
  unfold locked
  rw [locks]
  dsimp only
  unfold ensureNoteIdLocked
  rw [readStable_run isThere isRead, parsed]
  unfold proceed
  dsimp only
  rw [present]
  rfl

/-- A validation that fails is passed over, one that raises anything else is not. -/
theorem keptId_reports_iff (relativePath : Text) (validateSchema : Bool) (stored : Mapping)
    (id : Value) :
    ReportsId (some id) (service.keptId relativePath validateSchema stored id) ↔
      (validateSchema = true → ∃ result, service.validator.validate stored = .ok result) := by
  unfold keptId
  dsimp only
  cases validateSchema with
  | false =>
      rw [if_neg Bool.false_ne_true]
      exact iff_of_true ⟨_, rfl, rfl, rfl, rfl⟩ (fun impossible => absurd impossible (by decide))
  | true =>
      rw [if_pos rfl]
      unfold validateFrontmatterSchema
      cases service.validator.validate stored with
      | error fault =>
          dsimp only
          constructor
          · rintro ⟨result, impossible, _rest⟩
            cases impossible
          · intro validates
            obtain ⟨result, impossible⟩ := validates rfl
            cases impossible
      | ok validated =>
          dsimp only
          apply iff_of_true _ (fun _same => ⟨validated, rfl⟩)
          cases validated.valid with
          | true => exact ⟨_, rfl, rfl, rfl, rfl⟩
          | false => exact ⟨_, rfl, rfl, rfl, rfl⟩

theorem Opens.renamed {relativePath other : Text} {filePath : Location Text} {stored : Mapping}
    {body : Text} (opens : service.Opens files relativePath filePath stored body)
    (same : service.vault.resolvePath service.env other =
      service.vault.resolvePath service.env relativePath) :
    service.Opens files other filePath stored body :=
  ⟨same.trans opens.resolved, opens.read⟩

/-- Every later call reports the id and leaves the files as they are, exactly if none of
them meets an exception of the validator. -/
theorem ensuredAll_iff {first : IdCall} (law : service.DumpsNewId files first)
    (done : service.ensured files first = (.ok result, final)) (success : result.success = true)
    {calls : List IdCall} (same : ∀ call ∈ calls, service.SameNote first call) :
    (∀ ended ∈ service.ensuredAll final calls, ReportsId result.id ended.1 ∧ ended.2 = final) ↔
      ∀ call ∈ calls, service.Validates final call := by
  obtain ⟨locks, filePath, stored, body, id, opens, present, reported⟩ :=
    ensured_stores law done success
  rw [reported]
  induction calls with
  | nil =>
      exact iff_of_true (fun _ended impossible => absurd impossible List.not_mem_nil)
        (fun _call impossible => absurd impossible List.not_mem_nil)
  | cons call rest ih =>
      have named := same call List.mem_cons_self
      have opensHere := opens.renamed named.2
      have later := ih (fun other member => same other (List.mem_cons_of_mem _ member))
      have here : service.Validates final call ↔
          (call.validateSchema = true → ∃ result, service.validator.validate stored = .ok result) := by
        constructor
        · exact fun validates asked => validates asked filePath stored body opensHere
        · intro validates asked otherPath otherStored otherBody otherOpens
          rw [← (opensHere.unique otherOpens).2.1]
          exact validates asked
      have ends := ensured_of_stored locks named.1 opensHere present
      rw [ensuredAll, ends, List.forall_mem_cons, List.forall_mem_cons, later, here,
        keptId_reports_iff]
      exact and_congr_left (fun _rest => and_iff_left rfl)

/-- A serialized note is parsed as it was written, unless there was no frontmatter to write
and the body begins with a byte order mark or a block; and a note with an id is left alone. -/
theorem serialized_and_ensured (service : CrudService) :
    (∀ frontmatter body, (frontmatter ≠ [] → DumpLaw service.env frontmatter) →
      (RoundTrips service.env frontmatter body ↔
        frontmatter ≠ [] ∨ stripBom body = body ∧ opensWithBlock (Text.lines body) = false)) ∧
    (∀ files first result final, service.DumpsNewId files first →
      service.ensured files first = (.ok result, final) → result.success = true →
        ∀ calls, (∀ call ∈ calls, service.SameNote first call) →
          ((∀ ended ∈ service.ensuredAll final calls,
              ReportsId result.id ended.1 ∧ ended.2 = final) ↔
            ∀ call ∈ calls, service.Validates final call)) := by
  constructor
  · exact fun _frontmatter body law => roundTrips_iff body law
  · exact fun _files _first _result _final law done success _calls same =>
      ensuredAll_iff law done success same

def idOnly : Mapping :=
  [(idKey, .str "0198".toList)]

/-- A YAML library that knows the empty mapping and the one with an id. -/
def idService : CrudService :=
  { plainService with
    env :=
      { Env.plain with
        safeLoad := fun yaml => .ok (.map (if yaml.contains '\x7b' then [] else idOnly))
        dump := fun frontmatter =>
          if frontmatter.isEmpty then "\x7b\x7d\n".toList else "id: '0198'\n".toList } }

def idCall (validateSchema : Bool) : IdCall :=
  { relativePath := "a.md".toList, validateSchema, supply := plainSupply }

theorem dumpLaw_idOnly : DumpLaw idService.env idOnly :=
  { lined := ⟨'i', "d: '0198'".toList, rfl, rfl, rfl⟩
    unbroken := by decide
    loads := rfl }

theorem dumpLaw_empty : DumpLaw idService.env [] :=
  { lined := ⟨'\x7b', "\x7d".toList, rfl, rfl, rfl⟩
    unbroken := by decide
    loads := rfl }

def idResult : CrudResult :=
  { toOperationResult :=
      { successResult "a.md".toList "ID added: a.md".toList with
        idAdded := some true, id := some (.str "0198".toList) } }

/-- The note with its id. -/
def idFiles : Files :=
  Function.update (noteFiles "Text".toList 1 100) notePath
    (some (writtenFile "---\nid: '0198'\n---\n\nText".toList plainSupply.stamp))

theorem ensured_idCall :
    idService.ensured (noteFiles "Text".toList 1 100) (idCall false) = (.ok idResult, idFiles) := by
  rfl

theorem dumpsNewId_idCall : idService.DumpsNewId (noteFiles "Text".toList 1 100) (idCall false) := by
  intro filePath existing body checked opens _without isChecked
  have here : idService.Opens (noteFiles "Text".toList 1 100) "a.md".toList notePath []
      "Text".toList := ⟨by rfl, _, _, by rfl, by rfl, by rfl⟩
  rw [← (here.unique opens).2.1] at isChecked ⊢
  rw [← Except.ok.inj isChecked]
  exact dumpLaw_idOnly

theorem serialized_and_ensured_note :
    RoundTrips idService.env idOnly "Text".toList ∧
      ∀ ended ∈ idService.ensuredAll idFiles [idCall false, idCall true],
        ReportsId (some (.str "0198".toList)) ended.1 ∧ ended.2 = idFiles := by
  have both := serialized_and_ensured idService
  constructor
  · exact (both.1 _ _ (fun _filled => dumpLaw_idOnly)).mpr (Or.inl (List.cons_ne_nil _ _))
  · apply (both.2 _ _ _ _ dumpsNewId_idCall ensured_idCall rfl _ _).mpr
    · intro call _member _asked filePath stored body _opens
      exact ⟨_, rfl⟩
    · intro call member
      rcases List.mem_pair.mp member with first | second
      · rw [first]
        exact ⟨by rfl, rfl⟩
      · rw [second]
        exact ⟨by rfl, rfl⟩

/-- A note whose body begins with a block of its own. -/
def nestedText : Text :=
  "---\ntitle: x\n---\n---\nid: '0198'\n---\nText".toList

/-- `update_frontmatter` replaces the frontmatter by nothing, and the note has an id. -/
theorem replaced_by_nothing :
    DumpLaw idService.env [] ∧
      (∃ result final, (idService.updateFrontmatter plainSupply "a.md".toList [] false false).body.run
          (fileStorage {}) (noteFiles nestedText 1 100) = (.ok result, final) ∧
        result.success = true ∧
        (final notePath).map NoteFile.read = some (.ok (serializeFrontmatter idService.env [] ++
          "---\nid: '0198'\n---\nText".toList))) ∧
      parseFrontmatter idService.env (serializeFrontmatter idService.env [] ++
        "---\nid: '0198'\n---\nText".toList) = .ok (idOnly, "Text".toList) ∧
      ¬ RoundTrips idService.env [] "---\nid: '0198'\n---\nText".toList := by
  refine ⟨dumpLaw_empty, ⟨_, _, by rfl, by rfl, by rfl⟩, by rfl, ?_⟩
  rw [roundTrips_empty_iff]
  exact fun kept => absurd kept.2 (by decide)

end CrudService

end VaultSearch
