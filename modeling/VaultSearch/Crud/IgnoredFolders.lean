/-
The protection of the ignored folders: `validate_not_ignored_folder` reads the components of
the path string as it was given, `resolve_path` strips the string and follows links.

Where the two see the same components the ignored folders are closed to every write.  A
component that only appears once the string is stripped, and a component that the target of
a link writes, are never compared with the ignored folders.
-/

import VaultSearch.Crud.LinkedVault

set_option autoImplicit false

namespace VaultSearch

open Symlinks PurePath

/-- Who wrote a component of a resolved path: the caller, or the target of a link. -/
inductive Origin where
  | given
  | link (place : Location Text)
  deriving DecidableEq

/-- The calls that change the vault, with the arguments their validation reads. -/
inductive Mutation where
  | createNote (relativePath content : Text) (frontmatter : Mapping)
  | writeNote (relativePath content : Text)
  | appendNote (relativePath content : Text)
  | updateFrontmatter (relativePath : Text) (metadata : Mapping)
  | deleteNote (relativePath : Text)
  | moveNote (fromPath toPath : Text)

namespace LinkedVault

variable (vault : LinkedVault) (env : Env)

/-- The checks at the start of `delete_note`. -/
def validateForDelete (relativePath : Text) : Except PyError (Location Text) := do
  validateExtension env relativePath
  validateNotIgnoredFolder env relativePath
  vault.resolvePath env relativePath

/-- `from_ext != to_ext`, whose error result counts as an error here. -/
def validateSameExtension (fromPath toPath : Text) : Except PyError Unit :=
  if env.lower (suffix fromPath) != env.lower (suffix toPath) then .error .valueError else .ok ()

/-- The checks at the start of `move_note`. -/
def validateForMove (fromPath toPath : Text) :
    Except PyError (Location Text × Location Text) := do
  validateExtension env fromPath
  validateExtension env toPath
  validateNotIgnoredFolder env toPath
  validateNotIgnoredFolder env fromPath
  validateSameExtension env fromPath toPath
  let fromFile ← vault.resolvePath env fromPath
  let toFile ← vault.resolvePath env toPath
  return (fromFile, toFile)

/-- The paths that a call accepts, with the files they resolve to. -/
def accepts : Mutation → Except PyError (List (Text × Location Text))
  | .createNote relativePath content frontmatter => do
      let filePath ← vault.validateForWrite env relativePath (some content) (some frontmatter)
      return [(relativePath, filePath)]
  | .writeNote relativePath content => do
      let filePath ← vault.validateForWrite env relativePath (some content) none
      return [(relativePath, filePath)]
  | .appendNote relativePath content => do
      let filePath ← vault.validateForWrite env relativePath (some content) none
      return [(relativePath, filePath)]
  | .updateFrontmatter relativePath metadata => do
      let filePath ← vault.validateForWrite env relativePath none (some metadata)
      return [(relativePath, filePath)]
  | .deleteNote relativePath => do
      let filePath ← vault.validateForDelete env relativePath
      return [(relativePath, filePath)]
  | .moveNote fromPath toPath => do
      let files ← vault.validateForMove env fromPath toPath
      return [(fromPath, files.1), (toPath, files.2)]

/-- The components of a location below the vault root. -/
def relative {component : Type} (location : List component) : List component :=
  location.drop vault.root.length

/-- The components that a path resolves to, each with its writer. -/
def origins (relativePath : Text) : List (Text × Origin) :=
  vault.tree.trace Prod.fst (fun link entry => (entry, .link link))
    (vault.root.map (fun entry => (entry, .given)))
    ((PurePath.steps (Text.strip relativePath)).map (Step.map (fun entry => (entry, .given))))

/-- No component that only the stripped string has, and none that a link writes, names an
ignored folder where the path leads. -/
structure KeptOut (relativePath : Text) : Prop where
  stripped : ∀ part ∈ parts (Text.strip relativePath),
    (part, .given) ∈ vault.relative (vault.origins relativePath) →
    part ∉ parts relativePath → part ∉ env.config.ignoredFolders
  linked : ∀ part place, (part, .link place) ∈ vault.relative (vault.origins relativePath) →
    part ∉ env.config.ignoredFolders

variable {vault env}

/-- The writers are added to what `resolve_path` returns. -/
theorem origins_names {relativePath : Text} {location : Location Text}
    (resolved : vault.resolvePath env relativePath = .ok location) :
    (vault.origins relativePath).map Prod.fst = location := by
  have start : (vault.root.map (fun entry => (entry, Origin.given))).map Prod.fst = vault.root := by
    rw [List.map_map]
    exact List.map_id vault.root
  have steps : ((PurePath.steps (Text.strip relativePath)).map
      (Step.map (fun entry => (entry, Origin.given)))).map (Step.map Prod.fst) =
      PurePath.steps (Text.strip relativePath) := by
    rw [List.map_map]
    conv_rhs => rw [← List.map_id (PurePath.steps (Text.strip relativePath))]
    apply List.map_congr_left
    intro step _member
    cases step <;> rfl
  unfold origins
  rw [FileTree.trace_names (fun _link _entry => rfl) (by rw [start]; exact root_real), start, steps,
    (resolveInternalPath_ok (resolvePath_ok resolved)).1]

/-- Below the root every component is one of the stripped string or written by a link. -/
theorem origins_origin (relativePath : Text) :
    ∀ entry ∈ vault.relative (vault.origins relativePath),
      (entry.2 = .given ∧ entry.1 ∈ parts (Text.strip relativePath)) ∨
        ∃ place, entry.2 = .link place := by
  unfold relative origins
  apply FileTree.resolve_forall
  · intro link named
    exact Or.inr ⟨link, rfl⟩
  · intro entry member
    obtain ⟨step, isStep, same⟩ := List.mem_map.mp member
    obtain ⟨original, isPart, image⟩ := List.mem_map.mp isStep
    obtain ⟨part, inParts, written⟩ := List.mem_map.mp isPart
    cases same
    split at written
    · cases written
      cases image
    · cases written
      cases image
      exact Or.inl ⟨rfl, inParts⟩
  · intro entry member
    rw [← List.length_map (fun entry => (entry, Origin.given)), List.drop_length] at member
    cases member
  · intro link result resolved
    cases resolved

theorem notIgnored_of_ok {relativePath : Text}
    (checked : validateNotIgnoredFolder env relativePath = .ok ()) {part : Text}
    (member : part ∈ parts relativePath) : part ∉ env.config.ignoredFolders := by
  unfold validateNotIgnoredFolder at checked
  split at checked
  case isTrue => cases checked
  case isFalse free =>
    intro ignored
    apply free
    rw [List.any_eq_true]
    exact ⟨part, ignored, List.contains_iff_mem.mpr member⟩

/-- What holds for one path that passed both checks. -/
theorem keptOut_iff {relativePath : Text} {location : Location Text}
    (checked : validateNotIgnoredFolder env relativePath = .ok ())
    (resolved : vault.resolvePath env relativePath = .ok location) :
    (∀ part ∈ vault.relative location, part ∉ env.config.ignoredFolders) ↔
      vault.KeptOut env relativePath := by
  have names : (vault.relative (vault.origins relativePath)).map Prod.fst =
      vault.relative location := by
    unfold relative
    rw [List.map_drop, origins_names resolved]
  constructor
  · intro free
    have each : ∀ entry ∈ vault.relative (vault.origins relativePath),
        entry.1 ∉ env.config.ignoredFolders := by
      intro entry member
      apply free
      rw [← names]
      exact List.mem_map_of_mem member
    constructor
    · intro part _inPath member _fresh
      exact each _ member
    · intro part place member
      exact each _ member
  · intro kept part member
    rw [← names] at member
    obtain ⟨entry, present, same⟩ := List.mem_map.mp member
    obtain ⟨name, origin⟩ := entry
    cases same
    rcases origins_origin relativePath _ present with ⟨isGiven, inStripped⟩ | ⟨place, isLink⟩
    · cases isGiven
      by_cases inGiven : name ∈ parts relativePath
      · exact notIgnored_of_ok checked inGiven
      · exact kept.stripped name inStripped present inGiven
    · cases isLink
      exact kept.linked name place present

theorem validateForDelete_ok {relativePath : Text} {location : Location Text}
    (validated : vault.validateForDelete env relativePath = .ok location) :
    validateNotIgnoredFolder env relativePath = .ok () ∧
      vault.resolvePath env relativePath = .ok location := by
  obtain ⟨_, _extension, afterExtension⟩ := bind_ok validated
  obtain ⟨_unit, checked, resolved⟩ := bind_ok afterExtension
  exact ⟨checked, resolved⟩

theorem validateForMove_ok {fromPath toPath : Text} {files : Location Text × Location Text}
    (validated : vault.validateForMove env fromPath toPath = .ok files) :
    (validateNotIgnoredFolder env fromPath = .ok () ∧
      vault.resolvePath env fromPath = .ok files.1) ∧
    (validateNotIgnoredFolder env toPath = .ok () ∧
      vault.resolvePath env toPath = .ok files.2) := by
  obtain ⟨_, _fromExtension, afterFrom⟩ := bind_ok validated
  obtain ⟨_, _toExtension, afterTo⟩ := bind_ok afterFrom
  obtain ⟨_, toChecked, afterToIgnored⟩ := bind_ok afterTo
  obtain ⟨_, fromChecked, afterIgnored⟩ := bind_ok afterToIgnored
  obtain ⟨_, _sameExtension, afterExtensions⟩ := bind_ok afterIgnored
  obtain ⟨fromFile, fromResolved, afterFromFile⟩ := bind_ok afterExtensions
  obtain ⟨toFile, toResolved, done⟩ := bind_ok afterFromFile
  cases done
  exact ⟨⟨fromChecked, fromResolved⟩, toChecked, toResolved⟩

/-- Every path a call accepts has passed both checks. -/
theorem accepts_checked {call : Mutation} {targets : List (Text × Location Text)}
    (accepted : vault.accepts env call = .ok targets) :
    ∀ target ∈ targets, validateNotIgnoredFolder env target.1 = .ok () ∧
      vault.resolvePath env target.1 = .ok target.2 := by
  intro target member
  cases call with
  | createNote relativePath content frontmatter =>
      obtain ⟨filePath, validated, done⟩ := bind_ok accepted
      cases done
      rw [List.mem_singleton.mp member]
      exact validateForWrite_ok validated
  | writeNote relativePath content =>
      obtain ⟨filePath, validated, done⟩ := bind_ok accepted
      cases done
      rw [List.mem_singleton.mp member]
      exact validateForWrite_ok validated
  | appendNote relativePath content =>
      obtain ⟨filePath, validated, done⟩ := bind_ok accepted
      cases done
      rw [List.mem_singleton.mp member]
      exact validateForWrite_ok validated
  | updateFrontmatter relativePath metadata =>
      obtain ⟨filePath, validated, done⟩ := bind_ok accepted
      cases done
      rw [List.mem_singleton.mp member]
      exact validateForWrite_ok validated
  | deleteNote relativePath =>
      obtain ⟨filePath, validated, done⟩ := bind_ok accepted
      cases done
      rw [List.mem_singleton.mp member]
      exact validateForDelete_ok validated
  | moveNote fromPath toPath =>
      obtain ⟨files, validated, done⟩ := bind_ok accepted
      cases done
      have both := validateForMove_ok validated
      cases List.mem_cons.mp member with
      | inl isFrom =>
          rw [isFrom]
          exact both.1
      | inr isTo =>
          rw [List.mem_singleton.mp isTo]
          exact both.2

variable (vault env) in
/-- No component of the files a call addresses is an ignored folder. -/
def SparesIgnored (targets : List (Text × Location Text)) : Prop :=
  ∀ target ∈ targets, ∀ part ∈ vault.relative target.2, part ∉ env.config.ignoredFolders

/-- A call stays out of the ignored folders exactly when stripping its paths and following
their links brings in none of them. -/
theorem sparesIgnored_iff {call : Mutation} {targets : List (Text × Location Text)}
    (accepted : vault.accepts env call = .ok targets) :
    vault.SparesIgnored env targets ↔ ∀ target ∈ targets, vault.KeptOut env target.1 := by
  have checked := accepts_checked accepted
  constructor
  · intro spared target member
    obtain ⟨free, resolved⟩ := checked target member
    exact (keptOut_iff free resolved).mp (spared target member)
  · intro kept target member
    obtain ⟨free, resolved⟩ := checked target member
    exact (keptOut_iff free resolved).mpr (kept target member)

end LinkedVault

/-- A vault at `/vault` that holds one note. -/
def oneNoteVault : LinkedVault :=
  { tree :=
      { entries :=
          [(["vault".toList], .directory), (["vault".toList, "a.md".toList], .file)]
        placed := by decide }
    root := ["vault".toList]
    rootFolder := by decide }

theorem sparesIgnored_oneNote :
    oneNoteVault.SparesIgnored Env.plain [("a.md".toList, ["vault".toList, "a.md".toList])] := by
  have accepted : oneNoteVault.accepts Env.plain (.writeNote "a.md".toList []) =
      .ok [("a.md".toList, ["vault".toList, "a.md".toList])] := by decide
  have onlyNote : oneNoteVault.relative (oneNoteVault.origins "a.md".toList) =
      [("a.md".toList, .given)] := by decide
  apply (LinkedVault.sparesIgnored_iff accepted).mpr
  intro target member
  rw [List.mem_singleton.mp member]
  constructor
  · intro part inStripped _present fresh
    exact absurd inStripped fresh
  · intro part place present
    rw [onlyNote] at present
    cases List.mem_singleton.mp present

/-- Written with a space in front, a path into the trash is accepted. -/
theorem sparesIgnored_fails :
    oneNoteVault.accepts Env.plain (.createNote " .trash/a.md".toList [] []) =
        .ok [(" .trash/a.md".toList, ["vault".toList, ".trash".toList, "a.md".toList])] ∧
      ¬ oneNoteVault.SparesIgnored Env.plain
        [(" .trash/a.md".toList, ["vault".toList, ".trash".toList, "a.md".toList])] := by
  constructor
  · decide
  · intro spared
    exact spared _ List.mem_cons_self ".trash".toList (by decide) (by decide)

end VaultSearch
