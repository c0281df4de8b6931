/-
What a full rebuild reports about the index it replaces.

Beside no other thread a fault pattern decides how far the commit gets and whether the
handles can be opened again.  `Committed` lists what has to be taken back; the report is
true exactly when no rollback of a changed table fails.
-/

import VaultSearch.Core.Generation

set_option autoImplicit false

namespace VaultSearch

open Fallible

/-! ### How far a commit gets -/

/-- Whether publishing `kind` fails; the previous version is only read of a table that
exists. -/
def publishFails (faults : Label → Bool) (present : TableKind → Bool) (kind : TableKind) : Bool :=
  faults { operation := .listTables, kind, turn := 2 } || faults { operation := .countStaging, kind } ||
    (present kind && faults { operation := .tableVersion, kind }) ||
    faults { operation := .publish, kind }

/-- The tables that are published before the first one that fails, if one does. -/
def failedCommit (fails : TableKind → Bool) : List TableKind → Option (List TableKind)
  | [] => none
  | kind :: rest => if fails kind then some [] else (failedCommit fails rest).map (kind :: ·)

/-- Whether `_restore_canonical_handles` gets through. -/
def handlesReopen (faults : Label → Bool) (turn : Nat) (present : TableKind → Bool) : Bool :=
  !faults { operation := .listTables, turn } &&
    [TableKind.chunks, .links, .aliases].all (fun kind =>
      !present kind || !faults { operation := .reopen, kind, turn })

/-- The canonical tables that exist; the staging tables all do. -/
structure Index.Existing (index : Index) (present : TableKind → Bool) : Prop where
  canonical : ∀ kind, (index.table kind .canonical).isSome = present kind
  staging : ∀ kind, (index.table kind .staging).isSome = true

theorem Index.Existing.setTable {index : Index} {present : TableKind → Bool}
    (existing : index.Existing present) (kind : TableKind) (table : Table (Row kind)) :
    (index.setTable kind .canonical table).Existing
      (fun other => present other || decide (other = kind)) := by
  constructor
  · intro other
    by_cases same : other = kind
    · subst same
      rw [Index.table_setTable_same]
      simp
    · rw [Index.table_setTable_kind _ _ _ _ same, existing.canonical]
      simp [same]
  · intro other
    by_cases same : other = kind
    · subst same
      rw [Index.table_setTable_side _ _ _ (by decide), existing.staging]
    · rw [Index.table_setTable_kind _ _ _ _ same, existing.staging]

/-- Writing to a table that is there. -/
theorem Index.Existing.overwrite {index : Index} {present : TableKind → Bool}
    (existing : index.Existing present) {kind : TableKind} {current : Table (Row kind)}
    (found : index.table kind .canonical = some current) (table : Table (Row kind)) :
    (index.setTable kind .canonical table).Existing present := by
  have here : present kind = true := by
    rw [← existing.canonical, found]
    rfl
  have same : (fun other => present other || decide (other = kind)) = present := by
    funext other
    by_cases equal : other = kind
    · rw [equal, here]
      rfl
    · simp [equal]
  rw [← same]
  exact existing.setTable kind table

section Alone

variable {faults : Label → Bool} {present : TableKind → Bool}

theorem steady_alone {store : Type} [Acts OtherAction store] (always before : store → Prop) :
    Steady (alone faults) always before := by
  intro name action member
  cases member

theorem triple_replaceTable_alone (kind : TableKind) :
    Triple (alone faults) (fun _ => True) (fun world => world.index.Existing present)
      (replaceTableFromStaging kind)
      (fun _ world => publishFails faults present kind = false ∧
        world.index.Existing (fun other => present other || decide (other = kind)))
      (fun world => publishFails faults present kind = true ∧ world.index.Existing present) := by
  unfold replaceTableFromStaging publishFails
  refine triple_andThen (fun existing world => existing = present kind ∧
    faults { operation := .listTables, kind, turn := 2 } = false ∧
      world.index.Existing present) ?_ ?_
  · refine triple_step (steady_alone _ _) ?_ ?_
    · intro world existing later known fine found
      obtain ⟨same, kept⟩ := Prod.mk.inj (Option.some.inj found)
      rw [← same, ← kept]
      exact ⟨⟨known.canonical kind, fine, known⟩, trivial⟩
    · rintro world known (fault | impossible)
      · exact ⟨by rw [show faults _ = true from fault]; rfl, known⟩
      · cases impossible
  intro existing
  refine triple_andThen (fun _ world => existing = present kind ∧
    faults { operation := .listTables, kind, turn := 2 } = false ∧
      faults { operation := .countStaging, kind } = false ∧ world.index.Existing present) ?_ ?_
  · refine triple_peekTable (steady_alone _ _) ?_ ?_
    · rintro world table reader ⟨same, listed, known⟩ fine _found _read
      exact ⟨⟨same, listed, fine, known⟩, trivial⟩
    · rintro world ⟨same, listed, known⟩ (fault | absent | ⟨table, _found, impossible⟩)
      · refine ⟨?_, known⟩
        rw [show faults { operation := .countStaging, kind } = true from fault]
        simp
      · have staged := known.staging kind
        rw [absent] at staged
        cases staged
      · cases impossible
  intro reader
  split
  case isTrue published =>
    refine triple_andThen (fun _ world => present kind = true ∧
      faults { operation := .listTables, kind, turn := 2 } = false ∧
        faults { operation := .countStaging, kind } = false ∧
          faults { operation := .tableVersion, kind } = false ∧
            world.index.Existing present) ?_ ?_
    · refine triple_peekTable (steady_alone _ _) ?_ ?_
      · rintro world table version ⟨same, listed, counted, known⟩ fine _found _read
        exact ⟨⟨same.symm.trans published, listed, counted, fine, known⟩, trivial⟩
      · rintro world ⟨same, listed, counted, known⟩ (fault | absent | ⟨table, _found, impossible⟩)
        · refine ⟨?_, known⟩
          rw [show faults { operation := .tableVersion, kind } = true from fault, ← same, published]
          simp
        · have there := known.canonical kind
          rw [absent, ← same, published] at there
          cases there
        · cases impossible
    · intro version
      refine triple_andThen (fun _ world => _) ?_ (fun _ => triple_ret _ (fun _ done => done))
      refine triple_onTable (steady_alone _ _) ?_ ?_
      · rintro world table value later ⟨there, listed, counted, read, known⟩ fine _found done
        refine ⟨⟨?_, known.setTable kind later⟩, trivial⟩
        simp only [listed, counted, read, show faults { operation := .publish, kind } = false from fine,
          Bool.and_false, Bool.or_false]
      · rintro world ⟨there, listed, counted, read, known⟩ (fault | absent | ⟨table, _found, impossible⟩)
        · refine ⟨?_, known⟩
          rw [show faults { operation := .publish, kind } = true from fault]
          simp
        · have here := known.canonical kind
          rw [absent, there] at here
          cases here
        · cases impossible
  case isFalse missing =>
    refine triple_andThen (fun _ world => _) ?_ (fun _ => triple_ret _ (fun _ done => done))
    refine triple_step (steady_alone _ _) ?_ ?_
    · rintro world value later ⟨same, listed, counted, known⟩ fine found
      cases absent : world.index.table kind .canonical with
      | some table => simp [absent] at found
      | none =>
          simp only [absent, Option.some.injEq, Prod.mk.injEq] at found
          have nowhere : present kind = false := by
            rw [← known.canonical, absent]
            rfl
          rw [← found.2]
          refine ⟨⟨?_, known.setTable kind _⟩, trivial⟩
          simp only [listed, counted, nowhere,
            show faults { operation := .publish, kind } = false from fine, Bool.false_and,
            Bool.or_false]
    · rintro world ⟨same, listed, counted, known⟩ (fault | impossible)
      · refine ⟨?_, known⟩
        rw [show faults { operation := .publish, kind } = true from fault]
        simp
      · have nowhere : present kind = false := by
          rw [← same]
          exact Bool.eq_false_iff.mpr missing
        have absent := known.canonical kind
        rw [nowhere] at absent
        have gone : world.index.table kind .canonical = none :=
          Option.not_isSome_iff_eq_none.mp (Bool.eq_false_iff.mp absent)
        rw [gone] at impossible
        cases impossible

/-- The commit after the tables in `kinds`, as far as existence goes. -/
def CommitExisting (present : TableKind → Bool) (kinds : List TableKind)
    (pair : World × Committed) : Prop :=
  pair.1.index.Existing (fun kind => present kind || decide (kind ∈ kinds)) ∧
    pair.2.map (·.1) = kinds

theorem triple_commitTable_alone (kind : TableKind) (kinds : List TableKind)
    (fresh : kind ∉ kinds) :
    Triple (alone faults) (fun _ => True) (CommitExisting present kinds) (commitTable kind)
      (fun _ pair => publishFails faults present kind = false ∧
        CommitExisting present (kinds ++ [kind]) pair)
      (fun pair => publishFails faults present kind = true ∧
        CommitExisting present kinds pair) := by
  have untouched : publishFails faults (fun other => present other || decide (other ∈ kinds)) kind =
      publishFails faults present kind := by
    unfold publishFails
    simp [fresh]
  unfold commitTable
  refine triple_andThen (fun _ pair => publishFails faults present kind = false ∧
    pair.1.index.Existing (fun other => present other || decide (other ∈ kinds ++ [kind])) ∧
      pair.2.map (·.1) = kinds) ?_ ?_
  · refine triple_lift ?_
    rintro committed world ⟨existing, same⟩
    obtain ⟨returned, failed, moments⟩ :=
      triple_replaceTable_alone kind world existing
    rw [untouched] at returned failed
    refine ⟨?_, fun found => ⟨(failed found).1, (failed found).2, same⟩, moments⟩
    intro version found
    obtain ⟨fine, later⟩ := returned version found
    refine ⟨fine, ?_, same⟩
    have both : (fun other => (present other || decide (other ∈ kinds)) || decide (other = kind)) =
        (fun other => present other || decide (other ∈ kinds ++ [kind])) := by
      funext other
      simp [Bool.or_assoc]
    rw [← both]
    exact later
  · intro version
    refine triple_setLocals ?_
    rintro world committed ⟨fine, existing, same⟩
    exact ⟨fine, existing, by rw [List.map_append, same]; rfl⟩

/-- The whole commit: `failedCommit` says where it stops. -/
theorem triple_commitTables_alone (todo kinds : List TableKind) (distinct : (kinds ++ todo).Nodup) :
    Triple (alone faults) (fun _ => True) (CommitExisting present kinds)
      (forEach commitTable todo)
      (fun _ _ => failedCommit (publishFails faults present) todo = none)
      (fun pair => ∃ done, failedCommit (publishFails faults present) todo = some done ∧
        CommitExisting present (kinds ++ done) pair) := by
  induction todo generalizing kinds with
  | nil => exact triple_ret () (fun _ _ => rfl)
  | cons kind rest ih =>
      have fresh : kind ∉ kinds := by
        intro member
        exact (List.disjoint_of_nodup_append distinct) member List.mem_cons_self
      have later : ((kinds ++ [kind]) ++ rest).Nodup := by
        rw [List.append_assoc]
        exact distinct
      refine triple_andThen (fun _ pair => publishFails faults present kind = false ∧
        CommitExisting present (kinds ++ [kind]) pair) ?_ ?_
      · refine (triple_commitTable_alone kind kinds fresh).weaken (fun _ holds => holds)
          (fun _ _ holds => holds) ?_
        rintro pair ⟨fails, existing⟩
        refine ⟨[], ?_, by rw [List.append_nil]; exact existing⟩
        simp only [failedCommit, fails, if_true]
      · intro _ pair ⟨fine, existing⟩
        obtain ⟨returned, failed, moments⟩ := ih (kinds ++ [kind]) later pair existing
        refine ⟨?_, ?_, moments⟩
        · intro value found
          simp only [failedCommit, fine, Bool.false_eq_true, if_false, returned value found,
            Option.map_none]
        · intro found
          obtain ⟨done, stops, after⟩ := failed found
          refine ⟨kind :: done, ?_, ?_⟩
          · simp only [failedCommit, fine, Bool.false_eq_true, if_false, stops, Option.map_some]
          · rw [List.append_assoc] at after
            exact after

/-! ### Handles and rollbacks -/

theorem triple_reopenHandle_alone (turn : Nat) (tables : List TableKind) (kind : TableKind) :
    Triple (alone faults) (fun _ => True) (fun world => world.index.Existing present)
      (reopenHandle turn tables kind)
      (fun _ world => world.index.Existing present ∧
        (!tables.contains kind || !faults { operation := .reopen, kind, turn }) = true)
      (fun _ => (!tables.contains kind || !faults { operation := .reopen, kind, turn }) = false) := by
  have pointed : ∀ (world : World) handle, world.index.Existing present →
      (world.index.setHandle kind handle).Existing present := by
    intro world handle existing
    constructor
    · intro other
      rw [Index.table_setHandle]
      exact existing.canonical other
    · intro other
      rw [Index.table_setHandle]
      exact existing.staging other
  unfold reopenHandle
  split
  case isTrue inside =>
    refine triple_step (steady_alone _ _) ?_ ?_
    · intro world value later existing fine found
      rw [← (Prod.mk.inj (Option.some.inj found)).2]
      refine ⟨⟨pointed world _ existing, ?_⟩, trivial⟩
      rw [show faults _ = false from fine, Bool.not_false, Bool.or_true]
    · rintro world _existing (fault | impossible)
      · rw [inside, show faults _ = true from fault]
        rfl
      · cases impossible
  case isFalse outside =>
    refine triple_assign (steady_alone _ _) ?_
    intro world existing
    refine ⟨⟨pointed world _ existing, ?_⟩, trivial⟩
    rw [Bool.eq_false_iff.mpr outside]
    rfl

theorem triple_restoreHandles_alone (turn : Nat) :
    Triple (alone faults) (fun _ => True) (fun world => world.index.Existing present)
      (restoreCanonicalHandles turn)
      (fun _ _ => handlesReopen faults turn present = true)
      (fun _ => handlesReopen faults turn present = false) := by
  unfold restoreCanonicalHandles
  refine triple_andThen (fun tables world => world.index.Existing present ∧
    faults { operation := .listTables, turn } = false ∧
      ∀ kind, tables.contains kind = present kind) ?_ ?_
  · refine triple_step (steady_alone _ _) ?_ ?_
    · intro world tables later existing fine found
      obtain ⟨same, kept⟩ := Prod.mk.inj (Option.some.inj found)
      rw [← same, ← kept]
      refine ⟨⟨existing, fine, ?_⟩, trivial⟩
      intro kind
      have shown := existing.canonical kind
      rw [Bool.eq_iff_iff, List.contains_iff_mem, ← shown]
      unfold Index.canonicalTables
      rw [List.mem_filter]
      constructor
      · intro both
        exact both.2
      · intro there
        exact ⟨by cases kind <;> decide, there⟩
    · rintro world _existing (fault | impossible)
      · unfold handlesReopen
        rw [show faults _ = true from fault]
        rfl
      · cases impossible
  intro tables
  let reopens := fun kind : TableKind =>
    !tables.contains kind || !faults { operation := .reopen, kind, turn }
  have each : Triple (alone faults) (fun _ => True)
      (fun world => world.index.Existing present ∧
        ∀ kind, kind ∉ [TableKind.chunks, .links, .aliases] → reopens kind = true)
      (forEach (reopenHandle turn tables) [.chunks, .links, .aliases])
      (fun _ world => world.index.Existing present ∧
        ∀ kind, kind ∉ ([] : List TableKind) → reopens kind = true)
      (fun _ => ∃ kind, reopens kind = false) := by
    refine triple_forEach (fun rest (world : World) => world.index.Existing present ∧
      ∀ kind, kind ∉ rest → reopens kind = true) _ ?_
    rintro kind rest _inside world ⟨existing, before⟩
    obtain ⟨returned, failed, moments⟩ :=
      triple_reopenHandle_alone turn tables kind world existing
    refine ⟨?_, fun found => ⟨kind, failed found⟩, moments⟩
    intro value found
    obtain ⟨kept, open'⟩ := returned value found
    refine ⟨kept, ?_⟩
    intro other absent
    by_cases same : other = kind
    · rw [same]
      exact open'
    · refine before other ?_
      intro member
      rcases List.mem_cons.mp member with first | later
      · exact same first
      · exact absent later
  have every : ∀ kind, kind ∈ [TableKind.chunks, .links, .aliases] := by
    intro kind
    cases kind <;> decide
  rintro world ⟨existing, listed, contained⟩
  have all : handlesReopen faults turn present =
      [TableKind.chunks, .links, .aliases].all reopens := by
    unfold handlesReopen
    simp only [listed, Bool.not_false, Bool.true_and, reopens, contained]
  obtain ⟨returned, failed, moments⟩ :=
    each world ⟨existing, fun kind absent => absurd (every kind) absent⟩
  rw [all]
  refine ⟨?_, ?_, moments⟩
  · intro value found
    exact List.all_eq_true.mpr (fun kind _ => (returned value found).2 kind List.not_mem_nil)
  · intro found
    obtain ⟨kind, shut⟩ := failed found
    exact List.all_eq_false.mpr ⟨kind, every kind, by rw [shut]; decide⟩

theorem triple_rollbackEntry_alone (entry : TableKind × Option Nat) {raised : World → Prop} :
    Triple (alone faults) (fun _ => True) (fun world => world.index.Existing present)
      (rollbackEntry entry) (fun _ world => world.index.Existing present) raised := by
  have written : ∀ (operation : Table (Row entry.1) → Option (Unit × Table (Row entry.1))),
      Triple (alone faults) (fun _ => True) (fun world => world.index.Existing present)
        (onTable { operation := .rollback, kind := entry.1 } entry.1 .canonical operation)
        (fun _ world => world.index.Existing present)
        (fun world => world.index.Existing present) := by
    intro operation
    refine triple_onTable (steady_alone _ _) ?_ (fun _ existing _ => existing)
    intro world table value later existing _fine found _done
    exact ⟨existing.overwrite found later, trivial⟩
  unfold rollbackEntry
  refine triple_andThen (fun _ world => world.index.Existing present) (triple_attempt ?_) ?_
  · unfold rollbackTable
    split
    · exact written _
    · exact written _
  · intro _
    exact triple_ret () (fun _ existing => existing)

theorem triple_rollback_alone (entries : List (TableKind × Option Nat)) (raised : World → Prop) :
    Triple (alone faults) (fun _ => True) (fun world => world.index.Existing present)
      (forEach rollbackEntry entries) (fun _ world => world.index.Existing present) raised :=
  triple_forEach (fun _ (world : World) => world.index.Existing present) entries
    (fun entry _rest _inside => triple_rollbackEntry_alone entry)

/-! ### The commit and the rebuild -/

theorem triple_failureStats_alone {previous : Rows} (status : FullReindexStatus)
    (unfinished : status ≠ .completed) (progress : Progress) :
    Triple (alone faults) (fun _ => True)
      (fun world => world.index.Existing present ∧
        ∀ kind, world.index.rows kind .canonical = previous kind)
      (failureStats 1 status progress)
      (fun stats world => handlesReopen faults 1 present = true ∧ ReportsPreserved stats ∧
        ∀ kind, world.index.rows kind .canonical = previous kind)
      (fun _ => handlesReopen faults 1 present = false) := by
  have reports := triple_failureStats (canonicalRows_framed (alone faults) previous) 1 status progress
  have reopened : Triple (alone faults) (fun _ => True)
      (fun world => world.index.Existing present) (failureStats 1 status progress)
      (fun _ _ => handlesReopen faults 1 present = true)
      (fun _ => handlesReopen faults 1 present = false) := by
    unfold failureStats
    refine triple_andThen _ (triple_restoreHandles_alone 1) ?_
    intro _
    exact triple_ret _ (fun _ holds => holds)
  rintro world ⟨existing, rows⟩
  obtain ⟨returned, _failed, _moments⟩ := reports world rows
  obtain ⟨opened, shut, _moments⟩ := reopened world existing
  refine ⟨?_, shut, fun _ _ => trivial⟩
  intro stats found
  obtain ⟨⟨same, preserved⟩, later⟩ := returned stats found
  exact ⟨opened stats found, ⟨by rw [same]; exact unfinished, preserved⟩, later⟩

/-- The fault pattern decides how a commit ends. -/
theorem triple_commitRebuild_alone {previous generation : Rows} (progress : Progress) :
    Triple (alone faults) (fun _ => True)
      (fun world => Staged world.index previous generation ∧ world.index.Existing present)
      (commitRebuild progress)
      (fun stats world =>
        (∃ kinds, failedCommit (publishFails faults present) commitOrder = some kinds ∧
          handlesReopen faults 1 (fun kind => present kind || decide (kind ∈ kinds)) = true ∧
          ReportsPreserved stats ∧ ∀ kind, world.index.rows kind .canonical =
            rolledBack (alone faults) previous generation kinds kind) ∨
        (failedCommit (publishFails faults present) commitOrder = none ∧
          stats.status = .completed ∧ stats.previousIndexPreserved = false ∧
          ∀ kind, world.index.rows kind .canonical = generation kind))
      (fun _ => ∃ kinds, failedCommit (publishFails faults present) commitOrder = some kinds ∧
        handlesReopen faults 1 (fun kind => present kind || decide (kind ∈ kinds)) = false) := by
  have commit : Triple (alone faults) (fun _ : World × Committed => True)
      (fun pair => Committing.At previous generation [] pair ∧ CommitExisting present [] pair)
      (forEach commitTable commitOrder)
      (fun _ pair => Committing.At previous generation commitOrder pair ∧
        failedCommit (publishFails faults present) commitOrder = none)
      (fun pair => ∃ kinds, failedCommit (publishFails faults present) commitOrder = some kinds ∧
        Committing.At previous generation kinds pair ∧ CommitExisting present kinds pair) := by
    rintro pair ⟨committing, existing⟩
    obtain ⟨returned, failed, _moments⟩ :=
      @triple_commitTables (alone faults) _ _ pair committing
    obtain ⟨finished, stopped, _moments⟩ :=
      triple_commitTables_alone commitOrder [] (by decide) pair existing
    refine ⟨fun value found => ⟨returned value found, finished value found⟩, ?_, fun _ _ => trivial⟩
    intro found
    obtain ⟨kinds, published⟩ := failed found
    obtain ⟨done, stops, there⟩ := stopped found
    rw [List.nil_append] at there
    have same : kinds = done := published.2.symm.trans there.2
    rw [same] at published
    exact ⟨done, stops, published, there⟩
  refine triple_tryWith (fun _ pair => Committing.At previous generation commitOrder pair ∧
    failedCommit (publishFails faults present) commitOrder = none)
    (fun pair => ∃ kinds, failedCommit (publishFails faults present) commitOrder = some kinds ∧
      Committing.At previous generation kinds pair ∧ CommitExisting present kinds pair) ?_ ?_ ?_
  · refine commit.weaken ?_ (fun _ _ holds => holds) (fun _ holds => holds)
    rintro pair ⟨⟨staged, existing⟩, empty⟩
    refine ⟨⟨?_, by rw [empty]; rfl⟩, ?_, by rw [empty]; rfl⟩
    · rw [empty]
      exact staged.publishing
    · simpa using existing
  · rintro committed world ⟨kinds, stops, committing, existing⟩
    have failure : Triple (alone faults) (fun _ => True)
        (fun here => here = world)
        (andThen (forEach rollbackEntry committed.reverse) (fun _ => failureStats 1 .failed progress))
        (fun stats here => handlesReopen faults 1
            (fun kind => present kind || decide (kind ∈ kinds)) = true ∧ ReportsPreserved stats ∧
          ∀ kind, here.index.rows kind .canonical =
            rolledBack (alone faults) previous generation kinds kind)
        (fun _ => handlesReopen faults 1
          (fun kind => present kind || decide (kind ∈ kinds)) = false) := by
      refine triple_andThen (fun _ here =>
        here.index.Existing (fun kind => present kind || decide (kind ∈ kinds)) ∧
          ∀ kind, here.index.rows kind .canonical =
            rolledBack (alone faults) previous generation kinds kind) ?_ ?_
      · intro here same
        rw [same]
        obtain ⟨undone, _failed, _moments⟩ := @triple_rollback (alone faults) _ _ kinds
          committed (fun _ => False) world committing
        obtain ⟨kept, impossible, _moments⟩ := triple_rollback_alone committed.reverse
          (fun _ => False) world existing.1
        exact ⟨fun value found => ⟨kept value found, undone value found⟩,
          fun found => (impossible found).elim, fun _ _ => trivial⟩
      · intro _
        exact triple_failureStats_alone .failed (by decide) progress
    obtain ⟨returned, failed, moments⟩ := failure world rfl
    exact ⟨fun stats found => Or.inl ⟨kinds, stops, returned stats found⟩,
      fun found => ⟨kinds, stops, failed found⟩, moments⟩
  · rintro _ committed world ⟨⟨publishing, same⟩, finished⟩
    have rows : ∀ kind, world.index.rows kind .canonical = generation kind := by
      intro kind
      have member : kind ∈ committed.map (·.1) := by
        rw [same]
        cases kind <;> decide
      obtain ⟨entry, inside, equal⟩ := List.mem_map.mp member
      subst equal
      exact (publishing.published entry inside).2
    obtain ⟨returned, failed, _moments⟩ := @triple_finishRebuild (alone faults)
      previous _ progress (fun _ => False) world rows
    exact ⟨fun stats found => Or.inr ⟨finished, returned stats found⟩,
      fun found => (failed found).elim, fun _ _ => trivial⟩

/-- How a rebuild from `start` can end; `present` are the canonical tables there are. -/
theorem triple_rebuild_alone (env : Env) (surroundings : Surroundings) (notes : List Text)
    (start : World) (there : ∀ kind, (start.index.table kind .canonical).isSome = present kind) :
    Triple (alone faults) (fun _ => True) (fun world => world = start)
      (rebuild env surroundings notes)
      (fun stats world =>
        (newGeneration env surroundings notes (alone faults) start = none ∧
          ReportsPreserved stats ∧
          ∀ kind, world.index.rows kind .canonical = start.index.rows kind .canonical) ∨
        ∃ generation,
          newGeneration env surroundings notes (alone faults) start = some generation ∧
          ((∃ kinds, failedCommit (publishFails faults present) commitOrder = some kinds ∧
            handlesReopen faults 1 (fun kind => present kind || decide (kind ∈ kinds)) = true ∧
            ReportsPreserved stats ∧ ∀ kind, world.index.rows kind .canonical =
              rolledBack (alone faults) (start.index.generation .canonical) generation kinds kind) ∨
          (failedCommit (publishFails faults present) commitOrder = none ∧
            stats.status = .completed ∧ stats.previousIndexPreserved = false ∧
            ∀ kind, world.index.rows kind .canonical = generation kind)))
      (fun _ =>
        newGeneration env surroundings notes (alone faults) start = none ∨
        ∃ kinds, failedCommit (publishFails faults present) commitOrder = some kinds ∧
          handlesReopen faults 1 (fun kind => present kind || decide (kind ∈ kinds)) = false) := by
  have tables : StagingFrame (alone faults)
      (fun index => ∀ kind, index.table kind .canonical = start.index.table kind .canonical) := by
    constructor
    · intro index kind table same other
      rw [← same other]
      by_cases equal : other = kind
      · subst equal
        exact Index.table_setTable_side _ _ _ (by decide)
      · exact Index.table_setTable_kind _ _ _ _ equal
    · intro index kind handle same other
      rw [Index.table_setHandle]
      exact same other
    · intro name action member
      cases member
  have staging : Triple (alone faults) (fun _ : World × Progress => True)
      (fun pair => pair.1 = start ∧ pair.2 = {}) (stage env surroundings notes)
      (fun early pair => early.elim
        (∃ generation, newGeneration env surroundings notes (alone faults) start = some generation ∧
          Staged pair.1.index (start.index.generation .canonical) generation ∧
          pair.1.index.Existing present)
        (fun stats => newGeneration env surroundings notes (alone faults) start = none ∧
          ReportsPreserved stats ∧
          ∀ kind, pair.1.index.rows kind .canonical = start.index.rows kind .canonical))
      (fun pair => newGeneration env surroundings notes (alone faults) start = none ∧
        ∀ kind, pair.1.index.rows kind .canonical = start.index.rows kind .canonical) := by
    rintro ⟨world, progress⟩ ⟨same, empty⟩
    simp only at same empty
    subst same
    subst empty
    obtain ⟨built, failed, _moments⟩ :=
      @triple_staging (alone faults) env surroundings notes world _ rfl
    obtain ⟨kept, _failed, _moments⟩ :=
      triple_stage tables env surroundings notes (world, {}) (fun _ => rfl)
    refine ⟨?_, failed, fun _ _ => trivial⟩
    intro early found
    obtain ⟨rows, shape⟩ := built early found
    obtain ⟨same, onStaging, _reports⟩ := kept early found
    cases early with
    | some stats => exact ⟨shape.1, shape.2, rows⟩
    | none =>
        obtain ⟨generation, new, staged⟩ := shape
        refine ⟨generation, new, staged, ?_, ?_⟩
        · intro kind
          rw [same kind]
          exact there kind
        · intro kind
          obtain ⟨_handle, table, present⟩ := onStaging rfl kind
          rw [present]
          rfl
  refine triple_tryWith _ _ (staging.weaken ?_ (fun _ _ holds => holds) (fun _ holds => holds)) ?_ ?_
  · rintro pair holds
    exact holds
  · rintro progress world ⟨unbuilt, rows⟩
    obtain ⟨returned, _failed, _moments⟩ := triple_failureStats
      (canonicalRows_framed (alone faults) (start.index.generation .canonical)) 1 .failed progress
      world rows
    refine ⟨?_, fun _ => Or.inl unbuilt, fun _ _ => trivial⟩
    intro stats found
    obtain ⟨⟨same, preserved⟩, later⟩ := returned stats found
    exact Or.inl ⟨unbuilt, ⟨by rw [same]; decide, preserved⟩, later⟩
  · intro early progress
    cases early with
    | some stats => exact triple_ret stats (fun world holds => Or.inl holds)
    | none =>
        rintro world ⟨generation, new, staged, existing⟩
        obtain ⟨returned, failed, moments⟩ :=
          triple_commitRebuild_alone progress world ⟨staged, existing⟩
        exact ⟨fun stats found => Or.inr ⟨generation, new, returned stats found⟩,
          fun found => Or.inr (failed found), moments⟩

end Alone

/-! ### The truth of the report -/

/-- The canonical tables hold `rows`, in some order. -/
def Index.Holds (index : Index) (rows : Rows) : Prop :=
  ∀ kind, (index.rows kind .canonical).Perm (rows kind)

/-- The statistics that a rebuild returns say what became of the canonical tables. -/
def ReportsTruth (env : Env) (surroundings : Surroundings) (faults : Label → Bool)
    (start : World) : Prop :=
  ∀ stats, (fullReindex env surroundings (alone faults) start).value = some stats →
    (stats.previousIndexPreserved = true →
      (fullReindex env surroundings (alone faults) start).final.index.Holds
        (start.index.generation .canonical)) ∧
    (stats.status = .completed → ∃ generation,
      rebuildGeneration env surroundings (alone faults) start = some generation ∧
        (fullReindex env surroundings (alone faults) start).final.index.Holds generation)

def Index.present (index : Index) (kind : TableKind) : Bool :=
  (index.table kind .canonical).isSome

/-- When a commit fails and is reported, each table whose rollback fails was published with
the rows it had. -/
def RollbacksSuffice (env : Env) (surroundings : Surroundings) (faults : Label → Bool)
    (start : World) : Prop :=
  ∀ generation kinds, rebuildGeneration env surroundings (alone faults) start = some generation →
    failedCommit (publishFails faults start.index.present) commitOrder = some kinds →
    handlesReopen faults 1 (fun kind => start.index.present kind || decide (kind ∈ kinds)) = true →
    ∀ kind ∈ kinds, faults { operation := .rollback, kind } = true →
      (generation kind).Perm (start.index.rows kind .canonical)

theorem rolledBack_perm {faults : Label → Bool} {previous generation : Rows}
    {kinds : List TableKind} :
    (∀ kind, (rolledBack (alone faults) previous generation kinds kind).Perm (previous kind)) ↔
      ∀ kind ∈ kinds, faults { operation := .rollback, kind } = true →
        (generation kind).Perm (previous kind) := by
  unfold rolledBack
  constructor
  · intro back kind member broken
    have shown := back kind
    rw [if_pos ⟨member, broken⟩] at shown
    exact shown
  · intro suffice kind
    split
    case isTrue both => exact suffice kind both.1 both.2
    case isFalse => exact List.Perm.refl _

def staleLink : LinkRecord :=
  { fromNotePath := "b.md".toList
    fromNoteTitle := "b".toList
    linkType := .wikilink
    linkTarget := "a".toList
    linkTargetNormalized := "a".toList
    toNotePath := []
    isResolved := false
    aliasText := []
    heading := []
    blockRef := []
    context := []
    modifiedAt := [] }

/-- The link table still has the link of a note that is gone. -/
def linkedWorld : World :=
  { vault := smallVault
    index := Index.empty.setTable .links .canonical { past := [], rows := [staleLink] } }

/-- The aliases cannot be published and the links cannot be taken back. -/
def commitFaults : Label → Bool :=
  fun label => label = { operation := .publish, kind := .aliases } ||
    label = { operation := .rollback, kind := .links }

end VaultSearch
