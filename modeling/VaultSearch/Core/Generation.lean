/-
What a full rebuild does to the canonical tables, for readers and for its report.

`newGeneration` is what staging has built when it ends without an early return.  Under
any schedule each canonical table holds the previous or the new generation at every
moment, so a reader whose handle is not on a staging table sees one of them whole.  The
report about the previous generation is exact up to the rollbacks that fail.
-/

import VaultSearch.Core.NoteRecords
import VaultSearch.Core.Publishing

set_option autoImplicit false

namespace VaultSearch

open Fallible

/-! ### The two generations of a rebuild -/

/-- The staging half of a rebuild, run from `world`. -/
def stagingOutcome (env : Env) (surroundings : Surroundings) (notes : List Text)
    (schedule : Schedule Label OtherAction) (world : World) :
    Outcome (World × Progress) (Option FullReindexStats) :=
  stage env surroundings notes schedule (world, {})

def Index.generation (index : Index) (side : Side) : Rows :=
  fun kind => index.rows kind side

/-- The complete generation that staging has built, when it has. -/
def newGeneration (env : Env) (surroundings : Surroundings) (notes : List Text)
    (schedule : Schedule Label OtherAction) (world : World) : Option Rows :=
  match (stagingOutcome env surroundings notes schedule world).value with
  | some none =>
      some ((stagingOutcome env surroundings notes schedule world).final.1.index.generation
        .staging)
  | _ => none

/-- Each canonical table holds the previous generation or the new one. -/
def Index.Whole (index : Index) (previous : Rows) (generation : Option Rows) : Prop :=
  ∀ kind, index.rows kind .canonical = previous kind ∨
    ∃ rows, generation = some rows ∧ index.rows kind .canonical = rows kind

theorem Index.TwoGenerations.whole {index : Index} {previous generation : Rows}
    (two : index.TwoGenerations previous generation) : index.Whole previous (some generation) := by
  intro kind
  rcases two kind with old | new
  · exact Or.inl old
  · exact Or.inr ⟨generation, rfl, new⟩

section Rebuild

variable {schedule : Schedule Label OtherAction} {previous generation : Rows}

/-- Where staging ends without an early return. -/
structure Staged (index : Index) (previous generation : Rows) : Prop where
  previous : ∀ kind, index.rows kind .canonical = previous kind
  onStaging : index.OnStaging
  generation : index.generation .staging = generation

theorem Staged.publishing {index : Index} (staged : Staged index previous generation) :
    Publishing index previous generation [] := by
  refine ⟨?_, List.nodup_nil, ?_, fun kind _ => staged.previous kind⟩
  · intro kind
    obtain ⟨_handle, table, found⟩ := staged.onStaging kind
    refine ⟨table, found, ?_⟩
    rw [← staged.generation]
    exact (Index.rows_of_table found).symm
  · intro entry member
    cases member

/-- The rows that a failed commit leaves behind, with what it reports. -/
theorem triple_commitFailed (progress : Progress) (kinds : List TableKind)
    (committed : Committed) :
    Triple schedule (fun world => world.index.TwoGenerations previous generation)
      (fun world => Committing.At previous generation kinds (world, committed))
      (andThen (forEach rollbackEntry committed.reverse)
        (fun _ => failureStats 1 .failed progress))
      (fun stats world => ReportsPreserved stats ∧ ∀ kind, world.index.rows kind .canonical =
        rolledBack schedule previous generation kinds kind)
      (fun world => ∀ kind, world.index.rows kind .canonical =
        rolledBack schedule previous generation kinds kind) := by
  have two : ∀ world : World, (∀ kind, world.index.rows kind .canonical =
      rolledBack schedule previous generation kinds kind) →
      world.index.TwoGenerations previous generation := by
    intro world rows kind
    rw [rows kind]
    unfold rolledBack
    split
    · exact Or.inr rfl
    · exact Or.inl rfl
  refine triple_andThen _ (triple_rollback kinds committed _) ?_
  intro _
  have failure := triple_failureStats
    (canonicalRows_framed schedule (rolledBack schedule previous generation kinds)) 1 .failed
    progress
  intro start rows
  obtain ⟨returned, failed, moments⟩ := failure start rows
  refine ⟨?_, failed, fun moment member => two moment (moments moment member)⟩
  intro stats found
  obtain ⟨⟨same, preserved⟩, later⟩ := returned stats found
  exact ⟨⟨by rw [same]; decide, preserved⟩, later⟩

/-- The commit of a staged generation: published whole, or taken back as far as the
rollbacks succeed. -/
theorem triple_commitRebuild (progress : Progress) :
    Triple schedule (fun world => world.index.TwoGenerations previous generation)
      (fun world => Staged world.index previous generation) (commitRebuild progress)
      (fun stats world =>
        (ReportsPreserved stats ∧ ∃ kinds, ∀ kind, world.index.rows kind .canonical =
          rolledBack schedule previous generation kinds kind) ∨
        (stats.status = .completed ∧ stats.previousIndexPreserved = false ∧
          ∀ kind, world.index.rows kind .canonical = generation kind))
      (fun world => ∃ kinds, ∀ kind, world.index.rows kind .canonical =
        rolledBack schedule previous generation kinds kind) := by
  refine triple_tryWith (fun _ => Committing.At previous generation commitOrder)
    (fun pair => ∃ kinds, Committing.At previous generation kinds pair) ?_ ?_ ?_
  · refine triple_commitTables.weaken ?_ (fun _ _ holds => holds) (fun _ holds => holds)
    rintro pair ⟨staged, empty⟩
    refine ⟨?_, by rw [empty]; rfl⟩
    rw [empty]
    exact staged.publishing
  · rintro committed world ⟨kinds, committing⟩
    obtain ⟨returned, failed, moments⟩ :=
      @triple_commitFailed schedule _ _ progress kinds committed world committing
    exact ⟨fun stats found => Or.inl ⟨(returned stats found).1, kinds, (returned stats found).2⟩,
      fun found => ⟨kinds, failed found⟩, moments⟩
  · intro _ committed
    refine (triple_finishRebuild progress _).weaken ?_ ?_ (fun _ holds => holds)
    · rintro world ⟨publishing, same⟩ kind
      have member : kind ∈ committed.map (·.1) := by
        rw [same]
        cases kind <;> decide
      obtain ⟨entry, present, equal⟩ := List.mem_map.mp member
      subst equal
      exact (publishing.published entry present).2
    · intro stats world finished
      exact Or.inr finished

/-- Staging from one fixed world: it keeps the previous generation, and without an early
return it leaves the new one in the staging tables. -/
theorem triple_staging (env : Env) (surroundings : Surroundings) (notes : List Text)
    (start : World) :
    Triple schedule
      (fun pair : World × Progress => pair.1.index.Whole (start.index.generation .canonical)
        (newGeneration env surroundings notes schedule start))
      (fun pair => pair = (start, {})) (stage env surroundings notes)
      (fun early pair =>
        (∀ kind, pair.1.index.rows kind .canonical = start.index.generation .canonical kind) ∧
        match early with
        | some stats => newGeneration env surroundings notes schedule start = none ∧
            ReportsPreserved stats
        | none => ∃ generation,
            newGeneration env surroundings notes schedule start = some generation ∧
              Staged pair.1.index (start.index.generation .canonical) generation)
      (fun pair => newGeneration env surroundings notes schedule start = none ∧
        ∀ kind, pair.1.index.rows kind .canonical = start.index.generation .canonical kind) := by
  have framed := canonicalRows_framed schedule (start.index.generation .canonical)
  have staging := (triple_stage framed env surroundings notes).exactly (start, {}) (fun _ => rfl)
  intro pair same
  obtain ⟨returned, failed, moments⟩ := staging pair same
  refine ⟨?_, ?_, fun moment member kind => Or.inl (moments moment member kind)⟩
  swap
  · intro found
    obtain ⟨kept, value, _final⟩ := failed found
    refine ⟨?_, kept⟩
    unfold newGeneration stagingOutcome
    simp only [value]
  intro early found
  obtain ⟨⟨kept, onStaging, reports⟩, value, final⟩ := returned early found
  refine ⟨kept, ?_⟩
  cases early with
  | some stats =>
      refine ⟨?_, reports stats rfl⟩
      unfold newGeneration stagingOutcome
      simp only [value]
  | none =>
      refine ⟨_, ?_, kept, onStaging rfl, rfl⟩
      unfold newGeneration stagingOutcome
      simp only [value, final]

/-- At every moment of a rebuild each canonical table is whole. -/
theorem triple_rebuild (env : Env) (surroundings : Surroundings) (notes : List Text)
    (start : World) :
    Triple schedule
      (fun world => world.index.Whole (start.index.generation .canonical)
        (newGeneration env surroundings notes schedule start))
      (fun world => world = start) (rebuild env surroundings notes)
      (fun stats world => (stats.status = .completed →
        ∃ generation, newGeneration env surroundings notes schedule start = some generation ∧
          ∀ kind, world.index.rows kind .canonical = generation kind))
      (fun _ => True) := by
  have framed := canonicalRows_framed schedule (start.index.generation .canonical)
  have whole : ∀ world : World,
      (∀ kind, world.index.rows kind .canonical = start.index.generation .canonical kind) →
      world.index.Whole (start.index.generation .canonical)
        (newGeneration env surroundings notes schedule start) := fun _ rows kind => Or.inl (rows kind)
  refine triple_tryWith _ _ ((triple_staging env surroundings notes start).weaken ?_
    (fun _ _ holds => holds) (fun _ holds => holds)) ?_ ?_
  · rintro pair ⟨same, empty⟩
    exact Prod.ext same empty
  · rintro progress world ⟨_unbuilt, rows⟩
    obtain ⟨returned, _failed, moments⟩ :=
      triple_failureStats framed 1 .failed progress world rows
    refine ⟨?_, fun _ => trivial, fun moment member => whole moment (moments moment member)⟩
    intro stats found completed
    obtain ⟨⟨same, _preserved⟩, _later⟩ := returned stats found
    rw [completed] at same
    cases same
  · intro early progress
    cases early with
    | some stats =>
        refine triple_ret stats ?_
        rintro world ⟨_kept, _unbuilt, unfinished, _preserved⟩ completed
        exact absurd completed unfinished
    | none =>
        rintro world ⟨_kept, generation, built, staged⟩
        obtain ⟨returned, _failed, moments⟩ :=
          @triple_commitRebuild schedule _ _ progress world staged
        refine ⟨?_, fun _ => trivial, ?_⟩
        · intro stats found completed
          rcases returned stats found with ⟨⟨unfinished, _preserved⟩, _rows⟩ | ⟨_, _, rows⟩
          · exact absurd completed unfinished
          · exact ⟨generation, built, rows⟩
        · intro moment member
          rw [built]
          exact (moments moment member).whole

end Rebuild

/-! ### Readers -/

/-- The generation that one full rebuild builds, when its staging ends. -/
def rebuildGeneration (env : Env) (surroundings : Surroundings)
    (schedule : Schedule Label OtherAction) (start : World) : Option Rows :=
  match (scanNotes env schedule start).value with
  | none => none
  | some notes =>
      newGeneration env surroundings notes schedule (scanNotes env schedule start).final

/-- The worlds that one full rebuild passes through, other threads included. -/
def rebuildMoments (env : Env) (surroundings : Surroundings)
    (schedule : Schedule Label OtherAction) (start : World) : List World :=
  start :: (fullReindex env surroundings schedule start).passed

/-- A read that takes its handle at one moment and the rows at another sees the previous
or the new generation of the table. -/
def SeesWholeGeneration (env : Env) (surroundings : Surroundings)
    (schedule : Schedule Label OtherAction) (start : World) (kind : TableKind)
    (taken read : Nat) : Prop :=
  ∀ holder reader, (rebuildMoments env surroundings schedule start)[taken]? = some holder →
    (rebuildMoments env surroundings schedule start)[read]? = some reader →
      reader.index.rows kind (holder.index.side kind) = start.index.rows kind .canonical ∨
        ∃ rows, rebuildGeneration env surroundings schedule start = some rows ∧
          reader.index.rows kind (holder.index.side kind) = rows kind

theorem fullReindex_whole (env : Env) (surroundings : Surroundings)
    (schedule : Schedule Label OtherAction) (start : World) :
    ∀ moment ∈ rebuildMoments env surroundings schedule start,
      moment.index.Whole (start.index.generation .canonical)
        (rebuildGeneration env surroundings schedule start) := by
  have framed := canonicalRows_framed schedule (start.index.generation .canonical)
  have scanned : Triple schedule
      (fun world : World => ∀ kind,
        world.index.rows kind .canonical = start.index.generation .canonical kind)
      (fun world => ∀ kind,
        world.index.rows kind .canonical = start.index.generation .canonical kind)
      (scanNotes env)
      (fun _ world => ∀ kind,
        world.index.rows kind .canonical = start.index.generation .canonical kind)
      (fun _ => True) := by
    refine triple_step ?_ ?_ (fun _ _ _ => trivial)
    · intro name action member world rows
      exact ⟨framed.others name action member world rows,
        framed.others name action member world rows⟩
    · intro world notes later rows _fine found
      rw [← (Prod.mk.inj (Option.some.inj found)).2]
      exact ⟨rows, rows⟩
  have begun : ∀ kind, start.index.rows kind .canonical =
      start.index.generation .canonical kind := fun _ => rfl
  obtain ⟨returned, _failed, early⟩ := scanned start begun
  intro moment member
  rcases List.mem_cons.mp member with same | later
  · rw [same]
    exact fun kind => Or.inl rfl
  · have run : (fullReindex env surroundings schedule start).passed =
        (andThen (scanNotes env) (rebuild env surroundings) schedule start).passed := rfl
    rw [run] at later
    unfold andThen at later
    unfold rebuildGeneration
    cases found : (scanNotes env schedule start).value with
    | none =>
        simp only [found] at later
        exact fun kind => Or.inl (early moment later kind)
    | some notes =>
        simp only [found] at later
        rcases List.mem_append.mp later with first | second
        · exact fun kind => Or.inl (early moment first kind)
        · have rows := returned notes found
          have same : (scanNotes env schedule start).final.index.generation .canonical =
              start.index.generation .canonical := funext rows
          have rebuilt := (@triple_rebuild schedule env surroundings notes
            (scanNotes env schedule start).final _ rfl).2.2 moment second
          rw [same] at rebuilt
          exact rebuilt

/-- Everything arrives in the order in which it was asked for, and nothing interrupts. -/
def Surroundings.inOrder : Surroundings :=
  { reading := id
    arriving := id
    iterSet := id
    shutdownRequested := fun _ => false
    reading_perm := fun _ => List.Perm.refl _
    arriving_perm := fun _ => List.Perm.refl _
    iterSet_mem := fun _ _ => Iff.rfl }

/-- One note, `a.md`, that says `Hi`. -/
def smallVault : Vault :=
  { files := [("a.md".toList, { text := "Hi".toList, mtime := 1 })]
    distinct := by decide
    normal := by decide }

/-- The index still has an older chunk of the note. -/
def staleIndex : Index :=
  (Index.empty.setTable .chunks .canonical
    { past := [], rows := [{ respelledChunk with modifiedAt := [] }] }).setHandle .chunks
      (some .canonical)

def staleWorld : World :=
  { vault := smallVault, index := staleIndex }

end VaultSearch
