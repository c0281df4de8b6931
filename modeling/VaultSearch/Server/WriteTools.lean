/-
The tools of `server/crud_tools.py` that write, and the keys they enqueue.

An operation strips the path it is given and resolves it; the tool enqueues the string as it
came, and the indexer keeps rows under the path it reads there.
-/

import VaultSearch.Crud.CatalogScan
import VaultSearch.Crud.ExternalEdits
import VaultSearch.Crud.Runs
import VaultSearch.Server.ReindexDelivery

set_option autoImplicit false

namespace VaultSearch

open Symlinks

inductive WriteTool where
  | createNote (path content : Text) (frontmatter : Option Mapping)
  | writeNote (path content : Text)
  | appendNote (path content separator : Text)
  | updateFrontmatter (path : Text) (metadata : Mapping) (merge : Bool)
  | deleteNote (path : Text)
  | moveNote (fromPath toPath : Text)

/-- What `_safe_reindex` is given after a success. -/
def WriteTool.keys : WriteTool → List Text
  | .createNote path _ _ => [path]
  | .writeNote path _ => [path]
  | .appendNote path _ _ => [path]
  | .updateFrontmatter path _ _ => [path]
  | .deleteNote path => [path]
  | .moveNote fromPath toPath => [fromPath, toPath]

namespace CrudService

variable (service : CrudService)

def runTool (supply : Supply) : WriteTool → PathLocked
  | .createNote path content frontmatter => service.createNote supply path content frontmatter
  | .writeNote path content => service.writeNote supply path content
  | .appendNote path content separator => service.appendNote supply path content separator
  | .updateFrontmatter path metadata merge =>
      service.updateFrontmatter supply path metadata merge
  | .deleteNote path => service.deleteNote supply path
  | .moveNote fromPath toPath => service.moveNote fromPath toPath

/-- The file that an operation means by a path. -/
def Means (path : Text) (place : Location Text) : Prop :=
  service.vault.resolvePath service.env path = .ok place

/-- The path of a file in the index. -/
def indexedPath (place : Location Text) : Text :=
  PurePath.render (place.drop service.vault.root.length)

/-- Indexing this key brings the file's rows up to date, whatever is in the index. -/
structure Reindexes (key : Text) (place : Location Text) : Prop where
  /-- `VAULT_PATH / key` -/
  denotes : service.vault.lands (enters service.vault.root ++ PurePath.steps key) =
    service.vault.lands (enters place)
  reflects : ∀ world now fresh outcome result, world.index.Ready →
    (checkCircuitBreaker now key world.attempts).1 = false →
    reindexNote service.env (Delivery.workerCall key now fresh) (editing []) world = outcome →
    outcome.value = some result → outcome.final.vault.Parses service.env →
    outcome.final.index.noteRows (service.indexedPath place) =
      contentRows service.env (service.indexedPath place)
        (outcome.final.vault.read (service.indexedPath place))

/-- The key is the path of the file, and `reindex_note` admits it. -/
structure Spelled (key : Text) (place : Location Text) : Prop where
  canonical : key = service.indexedPath place
  inside : validateRelativePath key = true
  indexable : hasIndexableExtension service.env key = true

end CrudService

/-- A call of a tool, without interference, and its success. -/
structure ToolRun (service : CrudService) where
  tool : WriteTool
  supply : Supply
  host : Host
  files : Files
  final : Files
  result : CrudResult
  done : (service.runTool supply tool).body.run (fileStorage host) files = (.ok result, final)
  success : result.success = true
  /-- as the file system has them -/
  named : ∀ key ∈ tool.keys, ∀ place, service.Means key place → ∀ name ∈ place, IsFileName name

namespace ToolRun

variable {service : CrudService} (run : ToolRun service)

/-- A name in the trash for the note that is deleted. -/
def InTrash (place : Location Text) : Prop :=
  ∃ path trashPath, run.tool = .deleteNote path ∧ service.vault.trashPath path = .ok trashPath ∧
    CrudService.TrashName trashPath place

/-- Each key means a file, and nothing but these files and the trash is changed. -/
structure Touches : Prop where
  resolved : ∀ key ∈ run.tool.keys, ∃ place, service.Means key place
  within : ∀ place, run.final place ≠ run.files place →
    (∃ key ∈ run.tool.keys, service.Means key place) ∨ run.InTrash place

variable {run}

theorem changed_of_update {files final : Files} {filePath place : Location Text}
    {found : Option NoteFile} (written : final = Function.update files filePath found)
    (changed : final place ≠ files place) : place = filePath := by
  by_contra other
  rw [written, Function.update_of_ne other] at changed
  exact changed rfl

theorem changed_of_move {files final : Files} {source destination place : Location Text}
    {note : NoteFile} (moved : final = moveFile files source destination note)
    (changed : final place ≠ files place) : place = source ∨ place = destination := by
  by_cases atDestination : place = destination
  · exact Or.inr atDestination
  · unfold moveFile at moved
    rw [moved, Function.update_of_ne atDestination] at changed
    exact Or.inl (changed_of_update rfl changed)

/-- An operation on one path that writes one file. -/
theorem touches_of_written {key : Text} {filePath : Location Text} {content : Text}
    {stamp : Stamp} (keys : run.tool.keys = [key]) (means : service.Means key filePath)
    (written : CrudService.Written run.files run.final filePath content stamp) : run.Touches := by
  constructor
  · intro other member
    rw [keys] at member
    rw [List.mem_singleton.mp member]
    exact ⟨filePath, means⟩
  · intro place changed
    rw [changed_of_update written changed, keys]
    exact Or.inl ⟨key, List.mem_singleton_self key, means⟩

theorem touches_createNote {path content : Text} {frontmatter : Option Mapping}
    (isTool : run.tool = .createNote path content frontmatter) : run.Touches := by
  have done := run.done
  rw [isTool] at done
  unfold CrudService.runTool CrudService.createNote at done
  dsimp only at done
  split at done
  case h_1 outcome refused =>
    have isOutcome : outcome = .ok run.result := (Prod.mk.inj done).1
    rw [isOutcome] at refused
    exact absurd run.success (by rw [CrudService.checkNew_refused refused]; decide)
  case h_2 checked isChecked =>
    obtain ⟨location, validated, ran⟩ := CrudService.run_validated done
    obtain ⟨_unit, _sized, afterSize⟩ := bind_ok validated
    obtain ⟨_absent, written⟩ := CrudService.run_createBody ran run.success
    exact touches_of_written (by rw [isTool]; rfl) (LinkedVault.validateForWrite_ok afterSize).2
      written

theorem touches_writeNote {path content : Text} (isTool : run.tool = .writeNote path content) :
    run.Touches := by
  have done := run.done
  rw [isTool] at done
  obtain ⟨location, validated, ran⟩ := CrudService.run_validated done
  exact touches_of_written (by rw [isTool]; rfl) (LinkedVault.validateForWrite_ok validated).2
    (CrudService.run_writeBody ran run.success)

theorem touches_appendNote {path content separator : Text}
    (isTool : run.tool = .appendNote path content separator) : run.Touches := by
  have done := run.done
  rw [isTool] at done
  obtain ⟨location, validated, ran⟩ := CrudService.run_validated done
  obtain ⟨_note, _existing, _isThere, _isRead, written⟩ :=
    CrudService.run_appendBody ran run.success
  exact touches_of_written (by rw [isTool]; rfl) (LinkedVault.validateForWrite_ok validated).2
    written

theorem touches_updateFrontmatter {path : Text} {metadata : Mapping} {merge : Bool}
    (isTool : run.tool = .updateFrontmatter path metadata merge) : run.Touches := by
  have done := run.done
  rw [isTool] at done
  obtain ⟨location, validated, ran⟩ := CrudService.run_validated done
  obtain ⟨_note, _content, _existing, _body, _checked, _isThere, _isRead, _parsed, _isChecked,
    written⟩ := CrudService.run_updateBody ran run.success
  exact touches_of_written (by rw [isTool]; rfl) (LinkedVault.validateForWrite_ok validated).2
    written

theorem touches_deleteNote {path : Text} (isTool : run.tool = .deleteNote path) :
    run.Touches := by
  have done := run.done
  rw [isTool] at done
  obtain ⟨location, validated, ran⟩ := CrudService.run_validated done
  have means : service.Means path location := by
    unfold LinkedVault.validateForDelete at validated
    obtain ⟨_unit, _extension, afterExtension⟩ := bind_ok validated
    obtain ⟨_unit, _ignored, resolved⟩ := bind_ok afterExtension
    exact resolved
  have keys : run.tool.keys = [path] := by
    rw [isTool]
    rfl
  obtain ⟨trashPath, chosen, note, isTrash, inTrash, _free, _isThere, moved⟩ :=
    CrudService.run_deleteBody ran run.success
  constructor
  · intro other member
    rw [keys] at member
    rw [List.mem_singleton.mp member]
    exact ⟨location, means⟩
  · intro place changed
    rcases changed_of_move moved changed with atSource | atChosen
    · rw [atSource, keys]
      exact Or.inl ⟨path, List.mem_singleton_self path, means⟩
    · rw [atChosen]
      exact Or.inr ⟨path, trashPath, isTool, isTrash, inTrash⟩

theorem touches_moveNote {fromPath toPath : Text} (isTool : run.tool = .moveNote fromPath toPath) :
    run.Touches := by
  have done := run.done
  rw [isTool] at done
  obtain ⟨fromFile, toFile, fromMeans, toMeans, ran⟩ := CrudService.run_moveNote done run.success
  obtain ⟨note, _isThere, _free, moved⟩ := CrudService.run_moveBody ran run.success
  have keys : run.tool.keys = [fromPath, toPath] := by
    rw [isTool]
    rfl
  have isSource : fromPath ∈ run.tool.keys := by
    rw [keys]
    exact List.mem_cons_self
  have isDestination : toPath ∈ run.tool.keys := by
    rw [keys]
    exact List.mem_cons_of_mem _ List.mem_cons_self
  constructor
  · intro key member
    rw [keys] at member
    rcases List.mem_cons.mp member with same | later
    · rw [same]
      exact ⟨fromFile, fromMeans⟩
    · rw [List.mem_singleton.mp later]
      exact ⟨toFile, toMeans⟩
  · intro place changed
    rcases changed_of_move moved changed with atSource | atDestination
    · rw [atSource]
      exact Or.inl ⟨fromPath, isSource, fromMeans⟩
    · rw [atDestination]
      exact Or.inl ⟨toPath, isDestination, toMeans⟩

theorem touches (run : ToolRun service) : run.Touches := by
  cases isTool : run.tool with
  | createNote path content frontmatter => exact touches_createNote isTool
  | writeNote path content => exact touches_writeNote isTool
  | appendNote path content separator => exact touches_appendNote isTool
  | updateFrontmatter path metadata merge => exact touches_updateFrontmatter isTool
  | deleteNote path => exact touches_deleteNote isTool
  | moveNote fromPath toPath => exact touches_moveNote isTool

end ToolRun

/-! ### One key -/

namespace CrudService

variable {service : CrudService} {key : Text} {place : Location Text}

theorem steps_of_names {names : List Text} (valid : ∀ name ∈ names, IsFileName name) :
    PurePath.steps (PurePath.render names) = enters names := by
  unfold PurePath.steps enters
  rw [parts_render_names valid]
  apply List.map_congr_left
  intro name member
  obtain ⟨_nonempty, _noSlash, _noNull, _notDot, notUp⟩ := valid name member
  exact if_neg notUp

/-- A canonical key leads to the file, and its rows are those of the file. -/
theorem reindexes_of_spelled (embeds : EmbedsAll service.env) (means : service.Means key place)
    (named : ∀ name ∈ place, IsFileName name) (spelled : service.Spelled key place) :
    service.Reindexes key place := by
  have inside := (LinkedVault.resolveInternalPath_ok (LinkedVault.resolvePath_ok means)).2
  obtain ⟨names, whole⟩ := inside
  have isKey : key = PurePath.render names := by
    rw [spelled.canonical]
    unfold indexedPath
    rw [← whole, List.drop_left]
  have valid : ∀ name ∈ names, IsFileName name := by
    intro name member
    apply named name
    rw [← whole]
    exact List.mem_append_right _ member
  have normal : IsNormalPath key := by
    unfold IsNormalPath PurePath.normalPath
    rw [isKey, parts_render_names valid]
  constructor
  · rw [isKey, steps_of_names valid, ← whole]
    unfold enters
    rw [List.map_append]
  · intro world now fresh outcome result ready admitted run answered parses
    rw [← spelled.canonical]
    obtain ⟨given, isGiven, blocked | current⟩ := reindexNote_own embeds ready
      (Delivery.workerCall key now fresh) normal spelled.inside spelled.indexable
      (fun _entry impossible => (by cases impossible)) run
      (fun _file read => parses.read normal read)
    · rw [← run] at isGiven
      exact absurd blocked (reindexNote_notBlocked admitted isGiven)
    · exact current

/-! ### A row left over -/

def leftover (path : Text) : AliasRecord :=
  { notePath := path, aliasText := [], aliasNormalized := [] }

/-- The note is gone, and one of its rows is still there. -/
def leftoverWorld (path : Text) : World :=
  { vault := Vault.empty
    index := Index.empty.setTable .aliases .canonical (Table.empty.commit [leftover path]) }

theorem leftover_ready (path : Text) : (leftoverWorld path).index.Ready := by
  intro kind opened
  cases kind <;> cases opened

theorem leftover_shown (path : Text) : (leftoverWorld path).index.shown .aliases = [leftover path] :=
  rfl

/-- Nothing is done to a vault without files. -/
theorem reading_empty (env : Env) (call : Call) :
    Reading env (editing []) call (fun content vault => vault.read call.path = content)
      (fun vault => vault = Vault.empty) where
  undisturbed := fun _ => editing_undisturbed (fun entry impossible => (by cases impossible))
  kept := editing_undisturbed (fun entry impossible => (by cases impossible))
  sees := fun _ _ => rfl
  identified := by
    intro vault later result _auto isEmpty done
    rw [isEmpty] at done
    unfold VaultSearch.ensureNoteId at done
    simp only [bind, Except.bind, pure, Except.pure] at done
    split at done
    · exact (Prod.mk.inj (Except.ok.inj done)).2.symm
    · split at done
      · cases done
      · exact (Prod.mk.inj (Except.ok.inj done)).2.symm

/-- A path that is refused changes no row. -/
theorem applied_admits {env : Env} {call : Call} {schedule : Schedule Label OtherAction}
    {world : World} {result : ReindexResult}
    (answered : (reindexNote env call schedule world).value = some result)
    (applied : result.status.applied = true) :
    validateRelativePath call.path = true ∧ hasIndexableExtension env call.path = true := by
  unfold reindexNote at answered
  split at answered
  · cases answered
    cases applied
  case isFalse inside =>
    split at answered
    · cases answered
      cases applied
    case isFalse indexable => exact ⟨by simpa using inside, by simpa using indexable⟩

/-- Whatever the answer for the key, the row stays unless it is the key's own. -/
theorem leftover_stays (env : Env) (key path : Text) (now : Nat) (fresh : Fresh) :
    ∃ result, (reindexNote env (Delivery.workerCall key now fresh) (editing [])
        (leftoverWorld path)).value = some result ∧
      (reindexNote env (Delivery.workerCall key now fresh) (editing [])
        (leftoverWorld path)).final.vault = Vault.empty ∧
      (leftover path ∈ (reindexNote env (Delivery.workerCall key now fresh) (editing [])
          (leftoverWorld path)).final.index.shown .aliases ∨
        key = path ∧ validateRelativePath key = true ∧ hasIndexableExtension env key = true) := by
  obtain ⟨returned, failed, _moments⟩ := triple_reindexNote
    (reading_empty env (Delivery.workerCall key now fresh)) (fun _ => rfl) (leftoverWorld path)
    ⟨(leftover_ready path).shows, rfl⟩
  cases found : (reindexNote env (Delivery.workerCall key now fresh) (editing [])
      (leftoverWorld path)).value with
  | none => exact absurd (failed found).1 (noFault [])
  | some result =>
      obtain ⟨answered, isEmpty⟩ := returned result found
      refine ⟨result, rfl, isEmpty, ?_⟩
      cases applied : result.status.applied with
      | false =>
          rw [(answered.kept applied).shown_eq, leftover_shown]
          exact Or.inl List.mem_cons_self
      | true =>
          by_cases same : key = path
          · exact Or.inr ⟨same, applied_admits found applied⟩
          · obtain ⟨content, _read, shows⟩ := answered.replaced applied
            rw [shows.shown_eq]
            apply Or.inl
            apply List.mem_append_left
            rw [leftover_shown]
            apply List.mem_filter.mpr
            exact ⟨List.mem_cons_self, decide_eq_true (fun other => same other.symm)⟩

/-- Otherwise a row that is left over stays. -/
theorem spelled_of_reindexes (reindexes : service.Reindexes key place) :
    service.Spelled key place := by
  obtain ⟨result, answered, isEmpty, outcome⟩ := leftover_stays service.env key
    (service.indexedPath place) 0 { uuid := [], mtime := 0 }
  rcases outcome with stays | ⟨same, inside, indexable⟩
  · have current := reindexes.reflects (leftoverWorld (service.indexedPath place)) 0
      { uuid := [], mtime := 0 } _ result (leftover_ready _) rfl rfl answered (by
        rw [isEmpty]
        intro entry impossible
        cases impossible)
    rw [isEmpty] at current
    have noneLeft := congrFun current .aliases
    rw [show Vault.empty.read (service.indexedPath place) = none from rfl,
      contentRows_none] at noneLeft
    have owned : decide (Row.owner .aliases (leftover (service.indexedPath place)) =
        service.indexedPath place) = true := decide_eq_true rfl
    exact absurd owned (List.filter_eq_nil_iff.mp noneLeft _ stays)
  · exact ⟨same, inside, indexable⟩

theorem reindexes_iff (embeds : EmbedsAll service.env) (means : service.Means key place)
    (named : ∀ name ∈ place, IsFileName name) :
    service.Reindexes key place ↔ service.Spelled key place :=
  ⟨spelled_of_reindexes, reindexes_of_spelled embeds means named⟩

/-! ### The queue -/

/-- Some tool enqueues the path, and it is the path of the file, without white space around. -/
def Announces (path : Text) : Prop :=
  ∃ run : ToolRun service, path ∈ run.tool.keys ∧ Text.strip path = path ∧
    ∀ place, service.Means path place → service.Spelled path place

theorem Announces.isNote (announces : service.Announces key) : IsNote service.env key := by
  obtain ⟨run, member, stripped, spelled⟩ := announces
  obtain ⟨place, means⟩ := run.touches.resolved key member
  have isSpelled := spelled place means
  have valid : ∀ name ∈ place.drop service.vault.root.length, IsFileName name :=
    fun name inside => run.named key member place means name (List.mem_of_mem_drop inside)
  constructor
  · unfold IsNormalPath PurePath.normalPath
    rw [isSpelled.canonical]
    unfold indexedPath
    rw [parts_render_names valid]
  · exact stripped
  · exact isSpelled.inside
  · exact isSpelled.indexable

end CrudService

/-! ### A leading blank -/

/-- The note is overwritten. -/
def overwritten (path : Text) : CrudOutcome × Files :=
  (plainService.writeNote plainSupply path "new".toList).body.run (fileStorage {})
    (noteFiles "old".toList 1 100)

theorem notePath_named : ∀ name ∈ notePath, IsFileName name := by
  unfold IsFileName
  decide

/-- A successful call whose path means the note. -/
def overwrite (path : Text) (means : plainService.Means path notePath)
    (done : overwritten path =
      (.ok ((overwritten path).1.toOption.getD (crudError [] [])), (overwritten path).2))
    (success : ((overwritten path).1.toOption.getD (crudError [] [])).success = true) :
    ToolRun plainService :=
  { tool := .writeNote path "new".toList
    supply := plainSupply
    host := {}
    files := noteFiles "old".toList 1 100
    final := (overwritten path).2
    result := (overwritten path).1.toOption.getD (crudError [] [])
    done
    success
    named := by
      intro key member place isPlace
      rw [List.mem_singleton.mp member] at isPlace
      rw [← Except.ok.inj (means.symm.trans isPlace)]
      exact notePath_named }

def plainRun : ToolRun plainService :=
  overwrite "a.md".toList rfl (by rfl) (by rfl)

/-- The operation strips the path. -/
def blankRun : ToolRun plainService :=
  overwrite " a.md".toList rfl (by rfl) (by rfl)

end VaultSearch
