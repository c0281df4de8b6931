/-
One note replaced by two processes at once.

The server and the daemon each hold a write lock of their own, so the table operations of
their calls of `_apply_note_records` may come in any order.  Whether a table ends with one
generation of the note is decided by the order of its own four operations.
-/

import VaultSearch.Core.NoteRecords
import VaultSearch.Store.Interleaving

set_option autoImplicit false

namespace VaultSearch

/-! ### Operations on the shared tables -/

inductive Process where
  | server
  | daemon
  deriving DecidableEq

inductive TableOperation where
  | delete (kind : TableKind) (filter : Text)
  | add (kind : TableKind) (rows : List (Row kind))

def TableOperation.kind : TableOperation → TableKind
  | .delete kind _ => kind
  | .add kind _ => kind

/-- `table.delete(filter)` on rows; a filter that cannot be read deletes nothing. -/
def deleteSelected (kind : TableKind) (filter : Text) (rows : List (Row kind)) :
    List (Row kind) :=
  match Sql.parse filter with
  | none => rows
  | some read => rows.filter (fun row => !read.holds (Row.columns kind row))

/-- An operation on the latest version of its table. -/
def TableOperation.apply (rows : Rows) : TableOperation → Rows
  | .delete kind filter => Function.update rows kind (deleteSelected kind filter (rows kind))
  | .add kind added => Function.update rows kind (rows kind ++ added)

/-- The operations on one table: delete the rows of the note, then add the new ones. -/
def replaceOperations (kind : TableKind) (path : Text) (rows : List (Row kind)) :
    List TableOperation :=
  .delete kind (ownerFilter kind path) :: if rows.isEmpty then [] else [.add kind rows]

/-- The table operations of one `_apply_note_records` that is not interrupted. -/
def noteOperations (path : Text) (records : Rows) : List TableOperation :=
  replaceOperations .chunks path (records .chunks) ++
    (replaceOperations .links path (records .links) ++
      replaceOperations .aliases path (records .aliases))

def applyOperations (operations : List TableOperation) (rows : Rows) : Rows :=
  operations.foldl TableOperation.apply rows

/-- The rows that one call stores for a note. -/
structure NoteGeneration (path : Text) where
  rows : Rows
  own : ∀ kind, ∀ row ∈ rows kind, Row.owner kind row = path

def NoteGeneration.ofRecords (env : Env) (path : Text) (chunks : List ChunkWithVector)
    (links : List LinkRecord) (aliases : List Text)
    (ownChunks : ∀ chunk ∈ chunks, chunk.notePath = path)
    (ownLinks : ∀ link ∈ links, link.fromNotePath = path) : NoteGeneration path :=
  { rows := noteRows env path chunks links aliases
    own := noteRows_owner env path aliases ownChunks ownLinks }

/-- The rows of the note that a table holds. -/
def Rows.ofNote (rows : Rows) (path : Text) (kind : TableKind) : List (Row kind) :=
  (rows kind).filter (fun row => Row.owner kind row = path)

/-- What the two processes do, each with its own generation. -/
def processOperations {path : Text} (generations : Process → NoteGeneration path)
    (process : Process) : List (Process × TableOperation) :=
  (noteOperations path (generations process).rows).map (Prod.mk process)

/-- The rows after the operations of both processes, in the order of `merged`. -/
def sharedRows (merged : List (Process × TableOperation)) (rows : Rows) : Rows :=
  applyOperations (merged.map Prod.snd) rows

/-! ### One operation -/

section Operation

variable (operation : TableOperation) {kind : TableKind} {path : Text}

theorem apply_delete (rows : Rows) (path : Text) :
    (TableOperation.delete kind (ownerFilter kind path)).apply rows =
      Function.update rows kind
        ((rows kind).filter (fun row => Row.owner kind row ≠ path)) := by
  obtain ⟨read, parsed, selects⟩ := parse_ownerFilter kind path
  simp only [TableOperation.apply, deleteSelected, parsed, selects, decide_not]

/-- An operation leaves the other tables alone. -/
theorem apply_other (rows : Rows) (different : kind ≠ operation.kind) :
    operation.apply rows kind = rows kind := by
  cases operation with
  | delete own filter => exact Function.update_of_ne different _ _
  | add own added => exact Function.update_of_ne different _ _

/-- What an operation does to a table depends on this table only. -/
theorem apply_congr {rows other : Rows} (same : rows kind = other kind) :
    operation.apply rows kind = operation.apply other kind := by
  by_cases own : kind = operation.kind
  · subst own
    cases operation with
    | delete own filter =>
        simp only [TableOperation.kind] at same ⊢
        simp only [TableOperation.apply, Function.update_self, same]
    | add own added =>
        simp only [TableOperation.kind] at same ⊢
        simp only [TableOperation.apply, Function.update_self, same]
  · rw [apply_other operation rows own, apply_other operation other own]
    exact same

theorem ofNote_delete (rows : Rows) :
    ((TableOperation.delete kind (ownerFilter kind path)).apply rows).ofNote path kind = [] := by
  unfold Rows.ofNote
  rw [apply_delete, Function.update_self, List.filter_filter, List.filter_eq_nil_iff]
  intro row _member
  by_cases own : Row.owner kind row = path
  · simp [own]
  · simp [own]

theorem ofNote_add (generation : NoteGeneration path) (rows : Rows) :
    ((TableOperation.add kind (generation.rows kind)).apply rows).ofNote path kind =
      rows.ofNote path kind ++ generation.rows kind := by
  have kept : (generation.rows kind).filter (fun row => Row.owner kind row = path) =
      generation.rows kind := by
    apply List.filter_eq_self.mpr
    intro row member
    exact decide_eq_true (generation.own kind row member)
  simp only [Rows.ofNote, TableOperation.apply, Function.update_self, List.filter_append, kept]

end Operation

/-! ### One table -/

/-- The operations on one table decide what it holds. -/
theorem applyOperations_kind (kind : TableKind) (operations : List TableOperation) :
    ∀ {rows other : Rows}, rows kind = other kind →
      applyOperations operations rows kind =
        applyOperations (operations.filter (fun operation => operation.kind = kind)) other
          kind := by
  induction operations with
  | nil =>
      intro rows other same
      exact same
  | cons head tail ih =>
      intro rows other same
      by_cases own : head.kind = kind
      · rw [List.filter_cons_of_pos (by simpa using own)]
        exact ih (apply_congr head same)
      · rw [List.filter_cons_of_neg (by simpa using own)]
        apply ih
        rw [apply_other head rows (fun equal => own equal.symm)]
        exact same

theorem replaceOperations_kind {kind : TableKind} {path : Text} {rows : List (Row kind)} :
    ∀ operation ∈ replaceOperations kind path rows, operation.kind = kind := by
  intro operation member
  unfold replaceOperations at member
  cases rows with
  | nil =>
      rw [List.mem_singleton.mp member]
      rfl
  | cons head tail =>
      rcases List.mem_cons.mp member with first | later
      · rw [first]
        rfl
      · rw [List.mem_singleton.mp later]
        rfl

/-- Of the operations on all tables, those on one of them. -/
theorem noteOperations_filter (path : Text) (records : Rows) (kind : TableKind) :
    (noteOperations path records).filter (fun operation => operation.kind = kind) =
      replaceOperations kind path (records kind) := by
  have kept : (replaceOperations kind path (records kind)).filter
      (fun operation => operation.kind = kind) = replaceOperations kind path (records kind) := by
    apply List.filter_eq_self.mpr
    intro operation member
    exact decide_eq_true (replaceOperations_kind operation member)
  have dropped : ∀ other, other ≠ kind → (replaceOperations other path (records other)).filter
      (fun operation => operation.kind = kind) = [] := by
    intro other different
    apply List.filter_eq_nil_iff.mpr
    intro operation member found
    exact different ((replaceOperations_kind operation member).symm.trans
      (of_decide_eq_true found))
  unfold noteOperations
  rw [List.filter_append, List.filter_append]
  cases kind with
  | chunks =>
      rw [kept, dropped .links (by decide), dropped .aliases (by decide), List.append_nil,
        List.append_nil]
  | links =>
      rw [kept, dropped .chunks (by decide), dropped .aliases (by decide), List.append_nil,
        List.nil_append]
  | aliases =>
      rw [kept, dropped .chunks (by decide), dropped .links (by decide), List.nil_append,
        List.nil_append]

theorem ofNote_delete_add {path : Text} (generation : NoteGeneration path) (kind : TableKind)
    (rows : Rows) :
    (applyOperations [.delete kind (ownerFilter kind path), .add kind (generation.rows kind)]
      rows).ofNote path kind = generation.rows kind := by
  unfold applyOperations
  rw [List.foldl_cons, List.foldl_cons, List.foldl_nil, ofNote_add, ofNote_delete, List.nil_append]

theorem applyOperations_replace (path : Text) (records rows : Rows) (kind : TableKind) :
    applyOperations (replaceOperations kind path (records kind)) rows kind =
      rows.replace path records kind := by
  unfold replaceOperations Rows.replace applyOperations
  rw [List.foldl_cons, apply_delete]
  cases records kind with
  | nil => simp
  | cons head tail => simp [TableOperation.apply]

/-- The operations replace the rows of the note. -/
theorem applyOperations_noteOperations (path : Text) (records rows : Rows) :
    applyOperations (noteOperations path records) rows = rows.replace path records := by
  funext kind
  rw [applyOperations_kind kind _ rfl, noteOperations_filter, applyOperations_replace]

/-- A call of `_apply_note_records` in which nothing fails performs these operations. -/
theorem applyNoteRecords_operations (env : Env) (path : Text) (chunks : List ChunkWithVector)
    (links : List LinkRecord) (aliases : List Text) {world : World} (ready : world.index.Ready) :
    (applyNoteRecords env path chunks links aliases (alone (fun _ => false)) world).final.index.shown
      = applyOperations (noteOperations path (noteRows env path chunks links aliases))
          world.index.shown := by
  rw [applyOperations_noteOperations]
  obtain ⟨returned, failed, _moments⟩ := triple_applyNoteRecords
    (undisturbed_alone (fun _ => false) (fun _ => True)) (fun _ => rfl) env path chunks links aliases
    world ⟨ready.shows, trivial⟩
  cases found : (applyNoteRecords env path chunks links aliases (alone (fun _ => false))
      world).value with
  | none =>
      obtain ⟨⟨_name, fault⟩, _rest⟩ := failed found
      cases fault
  | some result =>
      obtain ⟨_result, shows, _vault⟩ := returned result found
      exact shows.shown_eq

theorem replaceOperations_empty {kind : TableKind} (path : Text) {rows : List (Row kind)}
    (empty : rows = []) :
    replaceOperations kind path rows = [.delete kind (ownerFilter kind path)] := by
  rw [empty]
  rfl

theorem replaceOperations_nonempty {kind : TableKind} (path : Text) {rows : List (Row kind)}
    (nonempty : rows ≠ []) :
    replaceOperations kind path rows =
      [.delete kind (ownerFilter kind path), .add kind rows] := by
  cases rows with
  | nil => exact absurd rfl nonempty
  | cons head tail => rfl

theorem ofNote_deletes {kind : TableKind} {path : Text} {operations : List TableOperation}
    (some : operations ≠ [])
    (each : ∀ operation ∈ operations, operation = .delete kind (ownerFilter kind path)) :
    ∀ rows : Rows, (applyOperations operations rows).ofNote path kind = [] := by
  induction operations with
  | nil => exact absurd rfl some
  | cons head tail ih =>
      intro rows
      cases tail with
      | nil =>
          rw [each head List.mem_cons_self]
          exact ofNote_delete rows
      | cons next rest =>
          exact ih (List.cons_ne_nil _ _)
            (fun operation member => each operation (List.mem_cons_of_mem _ member)) _

/-- A delete by another call among the operations of one: its rows are there or none. -/
theorem ofNote_deleteAmong {path : Text} (generation : NoteGeneration path) {kind : TableKind}
    {front back : List TableOperation}
    (split : replaceOperations kind path (generation.rows kind) = front ++ back) (rows : Rows) :
    let after := applyOperations (front ++ .delete kind (ownerFilter kind path) :: back) rows
    after.ofNote path kind = generation.rows kind ∨ after.ofNote path kind = [] := by
  intro after
  by_cases empty : generation.rows kind = []
  · rw [replaceOperations_empty path empty] at split
    apply Or.inr
    apply ofNote_deletes (by simp)
    intro operation member
    have inside : operation ∈ .delete kind (ownerFilter kind path) :: (front ++ back) :=
      List.perm_middle.mem_iff.mp member
    rw [← split] at inside
    simpa using inside
  · rw [replaceOperations_nonempty path empty] at split
    cases front with
    | nil =>
        apply Or.inl
        have whole : back = _ := split.symm
        subst whole
        exact ofNote_delete_add generation kind _
    | cons first rest =>
        obtain ⟨sameFirst, sameRest⟩ := List.cons.inj split
        subst sameFirst
        cases rest with
        | nil =>
            apply Or.inl
            have whole : back = _ := sameRest.symm
            subst whole
            exact ofNote_delete_add generation kind _
        | cons second others =>
            -- the delete of the other call comes last
            obtain ⟨_sameSecond, nothing⟩ := List.cons.inj sameRest
            obtain ⟨noOthers, noBack⟩ := List.append_eq_nil_iff.mp nothing.symm
            subst noOthers
            subst noBack
            exact Or.inr (ofNote_delete _)

/-! ### Two processes -/

section Shared

variable {path : Text} (generations : Process → NoteGeneration path)

/-- In `merged` one process has added its rows to a table before the other deletes there. -/
def AddsBeforeDelete (merged : List (Process × TableOperation)) (kind : TableKind)
    (first second : Process) : Prop :=
  [(first, TableOperation.add kind ((generations first).rows kind)),
    (second, TableOperation.delete kind (ownerFilter kind path))].Sublist merged

/-- The pairs of one table do not overlap, or one of them adds nothing. -/
def Separated (merged : List (Process × TableOperation)) (kind : TableKind) : Prop :=
  (∃ process, (generations process).rows kind = []) ∨
    AddsBeforeDelete generations merged kind .server .daemon ∨
    AddsBeforeDelete generations merged kind .daemon .server

/-- The operations of both processes on one table. -/
def onKind (kind : TableKind) (step : Process × TableOperation) : Bool :=
  step.2.kind = kind

theorem processOperations_filter (process : Process) (kind : TableKind) :
    (processOperations generations process).filter (onKind kind) =
      (replaceOperations kind path ((generations process).rows kind)).map (Prod.mk process) := by
  unfold processOperations
  rw [List.filter_map, ← noteOperations_filter]
  rfl

theorem sharedRows_kind (merged : List (Process × TableOperation)) (rows : Rows)
    (kind : TableKind) :
    sharedRows merged rows kind = sharedRows (merged.filter (onKind kind)) rows kind := by
  unfold sharedRows
  rw [applyOperations_kind kind _ (rfl : rows kind = rows kind), List.filter_map]
  rfl

theorem addsBeforeDelete_filter {merged : List (Process × TableOperation)} {kind : TableKind}
    {first second : Process}
    (before : AddsBeforeDelete generations (merged.filter (onKind kind)) kind first second) :
    AddsBeforeDelete generations merged kind first second :=
  before.trans List.filter_sublist

theorem addsBeforeDelete_of_merged {merged : List (Process × TableOperation)} {kind : TableKind}
    {first second : Process} (before : AddsBeforeDelete generations merged kind first second) :
    AddsBeforeDelete generations (merged.filter (onKind kind)) kind first second := by
  have inside := before.filter (onKind kind)
  rw [List.filter_eq_self.mpr (by
    intro step member
    rcases List.mem_cons.mp member with same | last
    · rw [same]
      exact decide_eq_true rfl
    · rw [List.mem_singleton.mp last]
      exact decide_eq_true rfl)] at inside
  exact inside

/-- When both deletes come first, no add stands before a delete. -/
theorem not_addsBeforeDelete {front back : List (Process × TableOperation)} {kind : TableKind}
    {first second : Process}
    (deletes : ∀ step ∈ front, ∃ filter, step.2 = TableOperation.delete kind filter)
    (adds : ∀ step ∈ back, ∃ rows, step.2 = TableOperation.add kind rows) :
    ¬AddsBeforeDelete generations (front ++ back) kind first second := by
  intro before
  obtain ⟨left, right, split, inFront, inBack⟩ := List.sublist_append_iff.mp before
  cases left with
  | nil =>
      rw [List.nil_append] at split
      obtain ⟨rows, impossible⟩ := adds
        (second, .delete kind (ownerFilter kind path)) (inBack.subset (by rw [← split]; simp))
      cases impossible
  | cons head tail =>
      obtain ⟨sameHead, _sameTail⟩ := List.cons.inj split
      obtain ⟨filter, impossible⟩ := deletes head (inFront.subset List.mem_cons_self)
      rw [← sameHead] at impossible
      cases impossible

/-- The note after both deletes and then both adds. -/
theorem ofNote_overlapping (first second : Process) {kind : TableKind} (rows : Rows)
    {front : List (Process × TableOperation)} (some : front ≠ [])
    (deletes : ∀ step ∈ front, step.2 = TableOperation.delete kind (ownerFilter kind path)) :
    (sharedRows (front ++ [(first, .add kind ((generations first).rows kind)),
      (second, .add kind ((generations second).rows kind))]) rows).ofNote path kind =
        (generations first).rows kind ++ (generations second).rows kind := by
  have cleared : (sharedRows front rows).ofNote path kind = [] := by
    apply ofNote_deletes (by simpa using some)
    intro operation member
    obtain ⟨step, present, same⟩ := List.mem_map.mp member
    rw [← same]
    exact deletes step present
  have added : sharedRows (front ++ [(first, .add kind ((generations first).rows kind)),
      (second, .add kind ((generations second).rows kind))]) rows =
        (TableOperation.add kind ((generations second).rows kind)).apply
          ((TableOperation.add kind ((generations first).rows kind)).apply
            (sharedRows front rows)) := by
    unfold sharedRows applyOperations
    rw [List.map_append, List.foldl_append]
    rfl
  rw [added, ofNote_add, ofNote_add, cleared, List.nil_append]

/-- Two generations are not one. -/
theorem not_oneGeneration {kind : TableKind} (nonempty : ∀ process,
      (generations process).rows kind ≠ []) (first second process : Process)
    (held : List (Row kind))
    (shape : held = (generations first).rows kind ++ (generations second).rows kind)
    (different : first ≠ second) : ¬held.Perm ((generations process).rows kind) := by
  intro perm
  have lengths := perm.length_eq
  rw [shape, List.length_append] at lengths
  have firstPositive := List.length_pos_iff.mpr (nonempty first)
  have secondPositive := List.length_pos_iff.mpr (nonempty second)
  have chosen : process = first ∨ process = second := by
    cases process <;> cases first <;> cases second <;> simp_all
  rcases chosen with same | same
  · rw [same] at lengths
    omega
  · rw [same] at lengths
    omega

/-- One table after its four operations. -/
theorem ofNote_sharedRows_iff {merged : List (Process × TableOperation)} {kind : TableKind}
    (both : Interleaves
      ((replaceOperations kind path ((generations .server).rows kind)).map (Prod.mk .server))
      ((replaceOperations kind path ((generations .daemon).rows kind)).map (Prod.mk .daemon))
      merged) (rows : Rows) :
    (∃ process, ((sharedRows merged rows).ofNote path kind).Perm
      ((generations process).rows kind)) ↔ Separated generations merged kind := by
  have untagged := both.map Prod.snd
  simp only [List.map_map, Function.comp_def, List.map_id'] at untagged
  by_cases serverEmpty : (generations .server).rows kind = []
  · rw [replaceOperations_empty path serverEmpty] at untagged
    obtain ⟨front, back, split, whole⟩ := untagged.swap.of_singleton
    have among := ofNote_deleteAmong (generations .daemon) split rows
    constructor
    · intro _one
      exact Or.inl ⟨.server, serverEmpty⟩
    · intro _separated
      unfold sharedRows
      rw [whole]
      rcases among with daemonRows | noRows
      · exact ⟨.daemon, List.Perm.of_eq daemonRows⟩
      · exact ⟨.server, List.Perm.of_eq (noRows.trans serverEmpty.symm)⟩
  · by_cases daemonEmpty : (generations .daemon).rows kind = []
    · rw [replaceOperations_empty path daemonEmpty] at untagged
      obtain ⟨front, back, split, whole⟩ := untagged.of_singleton
      have among := ofNote_deleteAmong (generations .server) split rows
      constructor
      · intro _one
        exact Or.inl ⟨.daemon, daemonEmpty⟩
      · intro _separated
        unfold sharedRows
        rw [whole]
        rcases among with serverRows | noRows
        · exact ⟨.server, List.Perm.of_eq serverRows⟩
        · exact ⟨.daemon, List.Perm.of_eq (noRows.trans daemonEmpty.symm)⟩
    · rw [replaceOperations_nonempty path serverEmpty,
        replaceOperations_nonempty path daemonEmpty] at both
      rcases both.of_pairs with serverFirst | daemonFirst | ⟨front, back, whole, opening, closing⟩
      · subst serverFirst
        constructor
        · intro _one
          apply Or.inr
          apply Or.inl
          exact List.Sublist.cons _ (List.Sublist.cons_cons _ (List.Sublist.cons_cons _
            (List.nil_sublist _)))
        · intro _separated
          exact ⟨.daemon, List.Perm.of_eq (ofNote_delete_add (generations .daemon) kind _)⟩
      · subst daemonFirst
        constructor
        · intro _one
          apply Or.inr
          apply Or.inr
          exact List.Sublist.cons _ (List.Sublist.cons_cons _ (List.Sublist.cons_cons _
            (List.nil_sublist _)))
        · intro _separated
          exact ⟨.server, List.Perm.of_eq (ofNote_delete_add (generations .server) kind _)⟩
      · subst whole
        have deletes : ∀ step ∈ front,
            step.2 = TableOperation.delete kind (ownerFilter kind path) := by
          rcases opening with order | order
          · rw [order]
            simp
          · rw [order]
            simp
        have adds : ∀ step ∈ back, ∃ rows, step.2 = TableOperation.add kind rows := by
          rcases closing with order | order
          · rw [order]
            simp
          · rw [order]
            simp
        have some : front ≠ [] := by
          rcases opening with order | order
          · rw [order]
            exact List.cons_ne_nil _ _
          · rw [order]
            exact List.cons_ne_nil _ _
        have nonempty : ∀ process, (generations process).rows kind ≠ [] := by
          intro process
          cases process with
          | server => exact serverEmpty
          | daemon => exact daemonEmpty
        constructor
        · rintro ⟨process, perm⟩
          rcases closing with order | order
          · rw [order] at perm
            exact absurd perm (not_oneGeneration generations nonempty .server .daemon process _
              (ofNote_overlapping generations .server .daemon rows some deletes) (by decide))
          · rw [order] at perm
            exact absurd perm (not_oneGeneration generations nonempty .daemon .server process _
              (ofNote_overlapping generations .daemon .server rows some deletes) (by decide))
        · intro separated
          have filters : ∀ step ∈ front, ∃ filter,
              step.2 = TableOperation.delete kind filter :=
            fun step member => ⟨_, deletes step member⟩
          rcases separated with ⟨process, empty⟩ | serverFirst | daemonFirst
          · exact absurd empty (nonempty process)
          · exact absurd serverFirst (not_addsBeforeDelete generations filters adds)
          · exact absurd daemonFirst (not_addsBeforeDelete generations filters adds)

/-- Whatever the order of the operations of both processes, each table ends with one
generation of the note exactly when the two calls are separated there. -/
theorem sharedRows_oneGeneration_iff {merged : List (Process × TableOperation)}
    (both : Interleaves (processOperations generations .server)
      (processOperations generations .daemon) merged) (rows : Rows) :
    (∀ kind, ∃ process, ((sharedRows merged rows).ofNote path kind).Perm
      ((generations process).rows kind)) ↔ ∀ kind, Separated generations merged kind := by
  apply forall_congr'
  intro kind
  have onTable := both.filter (onKind kind)
  rw [processOperations_filter, processOperations_filter] at onTable
  have table := ofNote_sharedRows_iff generations onTable rows
  have same : (sharedRows merged rows).ofNote path kind =
      (sharedRows (merged.filter (onKind kind)) rows).ofNote path kind := by
    unfold Rows.ofNote
    rw [sharedRows_kind]
  rw [same, table]
  unfold Separated
  constructor
  · rintro (empty | serverFirst | daemonFirst)
    · exact Or.inl empty
    · exact Or.inr (Or.inl (addsBeforeDelete_filter generations serverFirst))
    · exact Or.inr (Or.inr (addsBeforeDelete_filter generations daemonFirst))
  · rintro (empty | serverFirst | daemonFirst)
    · exact Or.inl empty
    · exact Or.inr (Or.inl (addsBeforeDelete_of_merged generations serverFirst))
    · exact Or.inr (Or.inr (addsBeforeDelete_of_merged generations daemonFirst))

end Shared

/-- What both processes store for `a.md` with one chunk. -/
def plainGeneration : NoteGeneration "a.md".toList :=
  NoteGeneration.ofRecords Env.plain "a.md".toList [respelledChunk] [] [] (by decide) (by decide)

/-- Both calls delete the rows of the note before either adds its own. -/
def overlapping : List (Process × TableOperation) :=
  let delete := fun kind => TableOperation.delete kind (ownerFilter kind "a.md".toList)
  [(.server, delete .chunks), (.daemon, delete .chunks),
    (.server, .add .chunks (plainGeneration.rows .chunks)),
    (.daemon, .add .chunks (plainGeneration.rows .chunks)),
    (.server, delete .links), (.server, delete .aliases),
    (.daemon, delete .links), (.daemon, delete .aliases)]

theorem overlapping_interleaves :
    Interleaves (processOperations (fun _ => plainGeneration) .server)
      (processOperations (fun _ => plainGeneration) .daemon) overlapping :=
  .left (.right (.left (.right (.left (.left (.right (.right .done)))))))

/-- The chunk of the note is stored twice. -/
theorem sharedRows_duplicated :
    ¬∀ merged, Interleaves (processOperations (fun _ => plainGeneration) .server)
        (processOperations (fun _ => plainGeneration) .daemon) merged →
      ∀ kind, ∃ _process : Process,
        ((sharedRows merged (fun _ => [])).ofNote "a.md".toList kind).Perm
          (plainGeneration.rows kind) := by
  intro holds
  obtain ⟨_process, perm⟩ := holds overlapping overlapping_interleaves .chunks
  exact absurd perm.length_eq (by decide +kernel)

/-- One call after the other. -/
theorem sharedRows_oneGeneration_plain :
    ∃ _process : Process,
      ((sharedRows (processOperations (fun _ => plainGeneration) .server ++
        processOperations (fun _ => plainGeneration) .daemon) (fun _ => [])).ofNote
          "a.md".toList .chunks).Perm (plainGeneration.rows .chunks) := by
  refine (sharedRows_oneGeneration_iff (fun _ => plainGeneration) (Interleaves.append _ _)
    (fun _ => [])).mpr ?_ .chunks
  intro kind
  cases kind with
  | chunks =>
      apply Or.inr
      apply Or.inl
      exact .cons _ (.cons_cons _ (.cons _ (.cons _ (.cons_cons _ (List.nil_sublist _)))))
  | links => exact Or.inl ⟨.server, rfl⟩
  | aliases => exact Or.inl ⟨.server, rfl⟩

end VaultSearch
