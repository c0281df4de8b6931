/-
The staging half of a rebuild leaves the canonical tables alone.

A fact about the index that survives changes of the staging tables and of the handles
holds at every moment of `stage`, and when `stage` ends without an early return every
handle is on a staging table.
-/

import VaultSearch.Core.Indexer

set_option autoImplicit false

namespace VaultSearch

open Fallible

/-! ### Facts that staging keeps -/

/-- Every handle is on its staging table. -/
def Index.OnStaging (index : Index) : Prop :=
  ∀ kind, index.handle kind = some .staging ∧ ∃ table, index.table kind .staging = some table

theorem Index.OnStaging.setTable {index : Index} (onStaging : index.OnStaging) (kind : TableKind)
    (table : Table (Row kind)) : (index.setTable kind .staging table).OnStaging := by
  intro other
  obtain ⟨handle, found, present⟩ := onStaging other
  refine ⟨by rw [Index.handle_setTable]; exact handle, ?_⟩
  by_cases same : other = kind
  · subst same
    exact ⟨table, Index.table_setTable_same _ _ _ _⟩
  · exact ⟨found, by rw [Index.table_setTable_kind _ _ _ _ same]; exact present⟩

/-- A thread without the write lock cannot move a handle off its staging table. -/
theorem Index.OnStaging.act {world : World} (onStaging : world.index.OnStaging)
    (action : OtherAction) : (Acts.act action world).index.OnStaging := by
  cases action with
  | acquire kind =>
      have same : world.index.acquire kind = world.index := by
        unfold Index.acquire
        rw [(onStaging kind).1]
      show (world.index.acquire kind).OnStaging
      rw [same]
      exact onStaging
  | write path file => exact onStaging
  | remove path => exact onStaging

/-- A fact about the index that concerns neither staging tables nor handles. -/
structure StagingFrame (schedule : Schedule Label OtherAction) (kept : Index → Prop) : Prop where
  staged : ∀ index kind table, kept index → kept (index.setTable kind .staging table)
  pointed : ∀ index kind handle, kept index → kept (index.setHandle kind handle)
  others : ∀ name, ∀ action ∈ schedule.others name, ∀ world : World,
    kept world.index → kept (Acts.act action world).index

section Keeping

variable {alpha beta item store frame : Type} {schedule : Schedule Label OtherAction}
  {kept : Index → Prop} {view : store → Index}

/-- At every moment `kept` holds, and the handles stay on the staging tables. -/
def KeepsStaging (schedule : Schedule Label OtherAction) (kept : Index → Prop)
    (view : store → Index) (body : Fallible Label OtherAction store alpha) : Prop :=
  Triple schedule (fun here => kept (view here))
    (fun here => kept (view here) ∧ (view here).OnStaging) body
    (fun _ here => kept (view here) ∧ (view here).OnStaging)
    (fun here => kept (view here) ∧ (view here).OnStaging)

theorem StagingFrame.steady (framed : StagingFrame schedule kept) :
    Steady schedule (fun world : World => kept world.index)
      (fun world : World => kept world.index ∧ world.index.OnStaging) := by
  rintro name action member world ⟨holds, onStaging⟩
  have later := framed.others name action member world holds
  exact ⟨⟨later, onStaging.act action⟩, later⟩

theorem keepsStaging_ret (value : alpha) : KeepsStaging schedule kept view (ret value) :=
  triple_ret value (fun _ holds => holds)

theorem keepsStaging_raise :
    KeepsStaging schedule kept view (raise : Fallible Label OtherAction store alpha) :=
  triple_raise (fun _ holds => holds)

theorem keepsStaging_look (seen : store → alpha) : KeepsStaging schedule kept view (look seen) :=
  triple_look (fun _ holds => holds)

theorem keepsStaging_andThen {first : Fallible Label OtherAction store alpha}
    {next : alpha → Fallible Label OtherAction store beta}
    (left : KeepsStaging schedule kept view first)
    (right : ∀ value, KeepsStaging schedule kept view (next value)) :
    KeepsStaging schedule kept view (andThen first next) :=
  triple_andThen _ left right

theorem keepsStaging_attempt {body : Fallible Label OtherAction store alpha}
    (inside : KeepsStaging schedule kept view body) :
    KeepsStaging schedule kept view (attempt body) :=
  triple_attempt inside

theorem keepsStaging_forEach {body : item → Fallible Label OtherAction store Unit}
    (items : List item) (each : ∀ entry, KeepsStaging schedule kept view (body entry)) :
    KeepsStaging schedule kept view (forEach body items) :=
  triple_forEach (fun _ here => kept (view here) ∧ (view here).OnStaging) items
    (fun entry _ _ => each entry)

theorem keepsStaging_lift {body : Program alpha}
    (inside : KeepsStaging schedule kept World.index body) :
    KeepsStaging schedule kept (fun pair : World × frame => pair.1.index) (lift body) :=
  triple_lift (fun _ => inside)

theorem keepsStaging_setLocals (change : frame → frame) :
    KeepsStaging schedule kept (fun pair : World × frame => pair.1.index)
      (setLocals change : Fallible Label OtherAction (World × frame) Unit) :=
  triple_setLocals (fun _ _ holds => holds)

/-- A step that does not touch the index. -/
theorem keepsStaging_step (framed : StagingFrame schedule kept) {name : Label}
    {effect : World → Option (alpha × World)}
    (aside : ∀ world value later, effect world = some (value, later) → later.index = world.index) :
    KeepsStaging schedule kept World.index (step name effect) := by
  refine triple_step framed.steady ?_ (fun _ holds _ => holds)
  rintro world value later holds _fine found
  rw [aside world value later found]
  exact ⟨holds, holds.1⟩

theorem keepsStaging_onTable (framed : StagingFrame schedule kept) (name : Label)
    (kind : TableKind) (operation : Table (Row kind) → Option (alpha × Table (Row kind))) :
    KeepsStaging schedule kept World.index (onTable name kind .staging operation) := by
  refine triple_onTable framed.steady ?_ (fun _ holds _ => holds)
  rintro world table value later ⟨holds, onStaging⟩ _fine _found _done
  have changed := framed.staged world.index kind later holds
  exact ⟨⟨changed, onStaging.setTable kind later⟩, changed⟩

theorem keepsStaging_peekTable (framed : StagingFrame schedule kept) (name : Label)
    (kind : TableKind) (side : Side) (seen : Table (Row kind) → Option alpha) :
    KeepsStaging schedule kept World.index (peekTable name kind side seen) := by
  refine triple_peekTable framed.steady ?_ (fun _ holds _ => holds)
  rintro world table value holds _fine _found _done
  exact ⟨holds, holds.1⟩

/-- The handle that the rebuild reuses is the staging one. -/
theorem keepsStaging_ensureTable {next : Side → Program alpha} (kind : TableKind)
    (rest : KeepsStaging schedule kept World.index (next .staging)) :
    KeepsStaging schedule kept World.index (andThen (ensureTable kind) next) := by
  refine triple_andThen (fun side world => side = .staging ∧ kept world.index ∧
    world.index.OnStaging) ?_ ?_
  · unfold ensureTable
    refine triple_andThen (fun handle world => handle = some .staging ∧ kept world.index ∧
      world.index.OnStaging) ?_ ?_
    · exact triple_look (fun world holds => ⟨(holds.2 kind).1, holds⟩)
    · intro handle
      cases handle with
      | some side =>
          refine triple_ret side ?_
          rintro world ⟨same, holds⟩
          exact ⟨Option.some.inj same, holds⟩
      | none =>
          rintro world ⟨impossible, _holds⟩
          cases impossible
  · rintro side world ⟨same, holds⟩
    rw [same]
    exact rest world holds

end Keeping

/-! ### The staging programs -/

section Programs

variable {schedule : Schedule Label OtherAction} {kept : Index → Prop}
  (framed : StagingFrame schedule kept) (env : Env)

include framed

theorem keepsStaging_indexLinks (links : List LinkRecord) :
    KeepsStaging schedule kept World.index (indexLinks links) := by
  unfold indexLinks
  split
  · exact keepsStaging_ret 0
  · refine keepsStaging_ensureTable .links (keepsStaging_andThen ?_ ?_)
    · exact keepsStaging_onTable framed _ .links _
    · intro _
      exact keepsStaging_ret _

theorem keepsStaging_indexAliases (turn : Nat) (path : Text) (aliases : List Text) :
    KeepsStaging schedule kept World.index (indexAliases env turn path aliases) := by
  unfold indexAliases
  split
  · exact keepsStaging_ret 0
  · refine keepsStaging_ensureTable .aliases ?_
    simp only
    split
    · exact keepsStaging_ret 0
    · refine keepsStaging_andThen (keepsStaging_onTable framed _ .aliases _) ?_
      intro _
      exact keepsStaging_ret _

theorem keepsStaging_applyLinkUpdate (turn : Nat) (update : LinkUpdate) :
    KeepsStaging schedule kept World.index (applyLinkUpdate .staging turn update) := by
  unfold applyLinkUpdate
  refine keepsStaging_andThen (keepsStaging_peekTable framed _ _ _ _) ?_
  intro orig
  cases orig with
  | none => exact keepsStaging_ret ()
  | some record =>
      refine keepsStaging_andThen (keepsStaging_onTable framed _ .links _) ?_
      intro _
      exact keepsStaging_onTable framed _ .links _

theorem keepsStaging_resolveLinkTargets (surroundings : Surroundings) :
    KeepsStaging schedule kept World.index (resolveLinkTargets env surroundings) := by
  unfold resolveLinkTargets
  refine keepsStaging_ensureTable .links ?_
  refine keepsStaging_ensureTable .aliases ?_
  refine keepsStaging_ensureTable .chunks ?_
  refine keepsStaging_andThen (keepsStaging_attempt (keepsStaging_peekTable framed _ _ _ _)) ?_
  intro paths
  split
  · exact keepsStaging_ret 0
  · refine keepsStaging_andThen (keepsStaging_attempt (keepsStaging_peekTable framed _ _ _ _)) ?_
    intro aliases
    refine keepsStaging_andThen (keepsStaging_attempt (keepsStaging_peekTable framed _ _ _ _)) ?_
    intro unresolved
    refine keepsStaging_andThen (keepsStaging_forEach _ ?_) ?_
    · intro entry
      refine keepsStaging_andThen
        (keepsStaging_attempt (keepsStaging_applyLinkUpdate framed entry.2 entry.1)) ?_
      intro _
      exact keepsStaging_ret ()
    · intro _
      exact keepsStaging_ret _

theorem keepsStaging_embedChunks (turn : Nat) (chunks : List ChunkRecord) :
    KeepsStaging schedule kept World.index (embedChunks env turn chunks) := by
  unfold embedChunks
  refine keepsStaging_andThen (keepsStaging_step framed ?_) ?_
  · intro world value later found
    obtain ⟨vectors, _present, same⟩ := Option.map_eq_some_iff.mp found
    rw [← (Prod.mk.inj same).2]
  · intro vectors
    split
    · exact keepsStaging_raise
    · exact keepsStaging_ret _

theorem keepsStaging_storeBatch :
    KeepsStaging schedule kept (fun pair : World × Progress => pair.1.index) (storeBatch env) := by
  unfold storeBatch
  refine keepsStaging_andThen (keepsStaging_look _) ?_
  intro progress
  refine keepsStaging_andThen (keepsStaging_lift ?_) ?_
  · unfold storeStagingBatch
    refine keepsStaging_andThen (keepsStaging_embedChunks framed env _ _) ?_
    intro records
    refine keepsStaging_andThen (keepsStaging_onTable framed _ .chunks _) ?_
    intro _
    exact keepsStaging_ret _
  · intro _
    exact keepsStaging_setLocals _

theorem keepsStaging_parseNotes (notes : List Text) :
    ∀ turn, KeepsStaging schedule kept World.index (parseNotes env turn notes) := by
  induction notes with
  | nil =>
      intro turn
      exact keepsStaging_ret []
  | cons path rest ih =>
      intro turn
      refine keepsStaging_andThen ?_ ?_
      · unfold parseStep
        refine keepsStaging_andThen (keepsStaging_attempt (keepsStaging_step framed ?_)) ?_
        · intro world value later found
          rw [← (Prod.mk.inj (Option.some.inj found)).2]
        · intro parsed
          exact keepsStaging_ret _
      · intro parsed
        refine keepsStaging_andThen (ih (turn + 1)) ?_
        intro results
        exact keepsStaging_ret _

theorem keepsStaging_stageResult (path : Text) (result : ParseResult) :
    KeepsStaging schedule kept (fun pair : World × Progress => pair.1.index)
      (stageResult env path result) := by
  unfold stageResult
  split
  · exact keepsStaging_setLocals _
  · refine keepsStaging_andThen (keepsStaging_setLocals _) ?_
    intro _
    refine keepsStaging_andThen (keepsStaging_look _) ?_
    intro progress
    split
    · exact keepsStaging_storeBatch framed env
    · exact keepsStaging_ret ()
  · exact keepsStaging_ret ()
  · exact keepsStaging_ret ()

theorem keepsStaging_stageResults (surroundings : Surroundings)
    (results : List (Text × ParseResult)) :
    ∀ turn, KeepsStaging schedule kept (fun pair : World × Progress => pair.1.index)
      (stageResults env surroundings turn results) := by
  induction results with
  | nil =>
      intro turn
      exact keepsStaging_ret false
  | cons head rest ih =>
      intro turn
      unfold stageResults
      split
      · exact keepsStaging_ret true
      · refine keepsStaging_andThen (keepsStaging_stageResult framed env head.1 head.2) ?_
        intro _
        exact ih (turn + 1)

theorem keepsStaging_storeLastBatch :
    KeepsStaging schedule kept (fun pair : World × Progress => pair.1.index)
      (storeLastBatch env) := by
  unfold storeLastBatch
  refine keepsStaging_andThen (keepsStaging_look _) ?_
  intro progress
  split
  · exact keepsStaging_ret ()
  · exact keepsStaging_storeBatch framed env

theorem keepsStaging_stageGraph (surroundings : Surroundings) :
    KeepsStaging schedule kept (fun pair : World × Progress => pair.1.index)
      (stageGraph env surroundings) := by
  unfold stageGraph
  refine keepsStaging_andThen (keepsStaging_look _) ?_
  intro progress
  refine keepsStaging_andThen (keepsStaging_forEach _ ?_) ?_
  · intro entry
    unfold stageAliases
    refine keepsStaging_andThen
      (keepsStaging_lift (keepsStaging_indexAliases framed env _ _ _)) ?_
    intro count
    exact keepsStaging_setLocals _
  · intro _
    refine keepsStaging_andThen (keepsStaging_lift (keepsStaging_indexLinks framed _)) ?_
    intro count
    refine keepsStaging_andThen (keepsStaging_setLocals _) ?_
    intro _
    refine keepsStaging_andThen
      (keepsStaging_lift (keepsStaging_resolveLinkTargets framed env surroundings)) ?_
    intro resolved
    exact keepsStaging_ret _

/-! ### Entering and leaving the staging tables -/

omit framed in
theorem table_act_staging (action : OtherAction) (world : World) (kind : TableKind) :
    (Acts.act action world).index.table kind .staging = world.index.table kind .staging := by
  cases action with
  | acquire other =>
      show (world.index.acquire other).table kind .staging = _
      unfold Index.acquire Index.openCanonical
      split
      · rfl
      · rw [Index.table_setHandle]
        by_cases same : kind = other
        · subst same
          exact Index.table_setTable_side _ _ _ (by decide)
        · exact Index.table_setTable_kind _ _ _ _ same
  | write path file => rfl
  | remove path => rfl

omit framed in
theorem handle_act_some (action : OtherAction) {world : World} {kind : TableKind} {side : Side}
    (opened : world.index.handle kind = some side) :
    (Acts.act action world).index.handle kind = some side := by
  cases action with
  | acquire other =>
      show (world.index.acquire other).handle kind = _
      unfold Index.acquire
      split
      · exact opened
      · rename_i closed
        have different : kind ≠ other := by
          intro same
          rw [same, closed] at opened
          cases opened
        unfold Index.openCanonical
        rw [Index.handle_setHandle_other _ _ different, Index.handle_setTable]
        exact opened
  | write path file => exact opened
  | remove path => exact opened

/-- Each table not in `rest` has a staging generation. -/
def Created (kept : Index → Prop) (rest : List TableKind) (world : World) : Prop :=
  kept world.index ∧ ∀ kind, kind ∉ rest → ∃ table, world.index.table kind .staging = some table

theorem Created.steady (rest : List TableKind) :
    Steady schedule (fun world => kept world.index) (Created kept rest) := by
  rintro name action member world ⟨holds, created⟩
  have later := framed.others name action member world holds
  refine ⟨⟨later, ?_⟩, later⟩
  intro kind absent
  rw [table_act_staging]
  exact created kind absent

theorem triple_resetStagingTables :
    Triple schedule (fun world => kept world.index) (fun world => kept world.index)
      resetStagingTables (fun _ => Created kept []) (fun world => kept world.index) := by
  unfold resetStagingTables
  refine triple_andThen (fun _ world => kept world.index) ?_ ?_
  · refine triple_step ?_ ?_ (fun _ holds _ => holds)
    · intro name action member world holds
      exact ⟨framed.others name action member world holds,
        framed.others name action member world holds⟩
    · intro world value later holds _fine found
      rw [← (Prod.mk.inj (Option.some.inj found)).2]
      exact ⟨holds, holds⟩
  · intro _
    refine (triple_forEach (Created kept) [.chunks, .links, .aliases] ?_).weaken ?_
      (fun _ _ created => created) (fun _ holds => holds)
    · rintro entry rest _inside
      refine triple_step (Created.steady framed _) ?_ (fun _ created _ => created.1)
      rintro world value later ⟨holds, created⟩ _fine found
      rw [← (Prod.mk.inj (Option.some.inj found)).2]
      have changed := framed.staged world.index entry Table.empty holds
      refine ⟨⟨changed, ?_⟩, changed⟩
      intro kind absent
      by_cases same : kind = entry
      · subst same
        exact ⟨_, Index.table_setTable_same _ _ _ _⟩
      · obtain ⟨table, found⟩ := created kind (by
          intro member
          rcases List.mem_cons.mp member with first | later
          · exact same first
          · exact absent later)
        exact ⟨table, by rw [← found]; exact Index.table_setTable_kind _ _ _ _ same⟩
    · intro world holds
      refine ⟨holds, ?_⟩
      intro kind absent
      cases kind <;> exact absurd (by decide) absent

/-- Each handle not in `rest` is on its staging table. -/
def Assigned (kept : Index → Prop) (rest : List TableKind) (world : World) : Prop :=
  Created kept [] world ∧ ∀ kind, kind ∉ rest → world.index.handle kind = some .staging

theorem Assigned.steady (rest : List TableKind) :
    Steady schedule (fun world => kept world.index) (Assigned kept rest) := by
  rintro name action member world ⟨created, assigned⟩
  obtain ⟨kept, later⟩ := Created.steady framed [] name action member world created
  refine ⟨⟨kept, ?_⟩, later⟩
  intro kind absent
  exact handle_act_some action (assigned kind absent)

theorem triple_assignStaging :
    Triple schedule (fun world => kept world.index) (Created kept [])
      (forEach (assignHandle 0 .staging) [.chunks, .links, .aliases])
      (fun _ world => kept world.index ∧ world.index.OnStaging)
      (fun world => kept world.index) := by
  refine (triple_forEach (Assigned kept) [.chunks, .links, .aliases] ?_).weaken ?_ ?_
    (fun _ holds => holds)
  · rintro entry rest _inside
    refine triple_assign (Assigned.steady framed _) ?_
    rintro world ⟨⟨holds, created⟩, assigned⟩
    have changed := framed.pointed world.index entry (some .staging) holds
    refine ⟨⟨⟨changed, ?_⟩, ?_⟩, changed⟩
    · intro kind absent
      simp only [Index.table_setHandle]
      exact created kind absent
    · intro kind absent
      by_cases same : kind = entry
      · subst same
        exact Index.handle_setHandle_same _ _ _
      · refine (Index.handle_setHandle_other _ _ same).trans (assigned kind ?_)
        intro member
        rcases List.mem_cons.mp member with first | later
        · exact same first
        · exact absent later
  · intro world created
    refine ⟨created, ?_⟩
    intro kind absent
    cases kind <;> exact absurd (by decide) absent
  · rintro _ world ⟨⟨holds, created⟩, assigned⟩
    exact ⟨holds, fun kind => ⟨assigned kind List.not_mem_nil, created kind List.not_mem_nil⟩⟩

theorem triple_restoreCanonicalHandles (turn : Nat) :
    Triple schedule (fun world => kept world.index) (fun world => kept world.index)
      (restoreCanonicalHandles turn) (fun _ world => kept world.index)
      (fun world => kept world.index) := by
  have steady : Steady schedule (fun world : World => kept world.index)
      (fun world => kept world.index) := by
    intro name action member world holds
    exact ⟨framed.others name action member world holds,
      framed.others name action member world holds⟩
  unfold restoreCanonicalHandles
  refine triple_andThen (fun _ world => kept world.index) ?_ ?_
  · refine triple_step steady ?_ (fun _ holds _ => holds)
    intro world value later holds _fine found
    rw [← (Prod.mk.inj (Option.some.inj found)).2]
    exact ⟨holds, holds⟩
  · intro tables
    refine triple_forEach (fun _ (world : World) => kept world.index) _ ?_
    rintro entry rest _inside
    unfold reopenHandle
    split
    · refine triple_step steady ?_ (fun _ holds _ => holds)
      intro world value later holds _fine found
      rw [← (Prod.mk.inj (Option.some.inj found)).2]
      exact ⟨framed.pointed _ _ _ holds, framed.pointed _ _ _ holds⟩
    · refine triple_assign steady ?_
      intro world holds
      exact ⟨framed.pointed _ _ _ holds, framed.pointed _ _ _ holds⟩

theorem triple_failureStats (turn : Nat) (status : FullReindexStatus) (progress : Progress) :
    Triple schedule (fun world => kept world.index) (fun world => kept world.index)
      (failureStats turn status progress)
      (fun stats world => (stats.status = status ∧ stats.previousIndexPreserved = true) ∧
        kept world.index)
      (fun world => kept world.index) := by
  unfold failureStats
  refine triple_andThen _ (triple_restoreCanonicalHandles framed turn) ?_
  intro _
  exact triple_ret _ (fun _ holds => ⟨⟨rfl, rfl⟩, holds⟩)

/-- What an early return reports. -/
def ReportsPreserved (stats : FullReindexStats) : Prop :=
  stats.status ≠ .completed ∧ stats.previousIndexPreserved = true

/-- The staging half of a rebuild: without an early return it leaves every handle on a
staging table, and whatever happens it keeps the fact. -/
theorem triple_stage (surroundings : Surroundings) (notes : List Text) :
    Triple schedule (fun pair : World × Progress => kept pair.1.index)
      (fun pair => kept pair.1.index) (stage env surroundings notes)
      (fun early pair => kept pair.1.index ∧ (early = none → pair.1.index.OnStaging) ∧
        ∀ stats, early = some stats → ReportsPreserved stats)
      (fun pair => kept pair.1.index) := by
  have weaken : ∀ {alpha : Type} {body : Staging alpha},
      KeepsStaging schedule kept (fun pair : World × Progress => pair.1.index) body →
      Triple schedule (fun pair : World × Progress => kept pair.1.index)
        (fun pair => kept pair.1.index ∧ pair.1.index.OnStaging) body
        (fun _ pair => kept pair.1.index ∧ pair.1.index.OnStaging)
        (fun pair => kept pair.1.index) := by
    intro alpha body keeps
    exact keeps.weaken (fun _ holds => holds) (fun _ _ holds => holds) (fun _ holds => holds.1)
  have early : ∀ status (progress : Progress), status ≠ .completed → Triple schedule
      (fun pair : World × Progress => kept pair.1.index)
      (fun pair => kept pair.1.index ∧ pair.1.index.OnStaging)
      (andThen (lift (failureStats 0 status progress)) (fun stats => ret (some stats)))
      (fun early pair => kept pair.1.index ∧ (early = none → pair.1.index.OnStaging) ∧
        ∀ stats, early = some stats → ReportsPreserved stats)
      (fun pair => kept pair.1.index) := by
    intro status progress unfinished
    refine triple_andThen (fun stats pair => ReportsPreserved stats ∧ kept pair.1.index) ?_ ?_
    · refine triple_lift (fun _ => (triple_failureStats framed 0 status progress).weaken
        (fun _ holds => holds.1) ?_ (fun _ holds => holds))
      rintro stats world ⟨⟨same, preserved⟩, holds⟩
      exact ⟨⟨by rw [same]; exact unfinished, preserved⟩, holds⟩
    · intro stats
      refine triple_ret _ ?_
      rintro pair ⟨reports, holds⟩
      refine ⟨holds, ?_, ?_⟩
      · intro impossible
        cases impossible
      · intro other same
        rw [← Option.some.inj same]
        exact reports
  unfold stage
  refine triple_andThen (fun _ pair => Created kept [] pair.1) ?_ ?_
  · exact triple_lift (fun _ => triple_resetStagingTables framed)
  intro _
  refine triple_andThen (fun _ pair => kept pair.1.index ∧ pair.1.index.OnStaging) ?_ ?_
  · exact triple_lift (fun _ => triple_assignStaging framed)
  intro _
  refine triple_andThen _ (weaken (keepsStaging_lift (keepsStaging_parseNotes framed env _ 0))) ?_
  intro results
  refine triple_andThen _ (weaken (keepsStaging_stageResults framed env surroundings _ 0)) ?_
  intro interrupted
  split
  · refine triple_andThen _ (weaken (keepsStaging_look _)) ?_
    intro progress
    exact early .interrupted progress (by decide)
  · refine triple_andThen _ (weaken (keepsStaging_storeLastBatch framed env)) ?_
    intro _
    refine triple_andThen _ (weaken (keepsStaging_look _)) ?_
    intro progress
    split
    · exact early .failed progress (by decide)
    · refine triple_andThen _ (weaken (keepsStaging_stageGraph framed env surroundings)) ?_
      intro _
      refine triple_ret none (fun pair holds => ⟨holds.1, fun _ => holds.2, ?_⟩)
      intro stats impossible
      cases impossible

end Programs

end VaultSearch
