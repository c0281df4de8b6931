/-
Publishing a staged generation, and taking it back.

At every moment of the commit and of its rollback each canonical table holds the
previous or the new generation, whichever steps fail and whatever threads without the
write lock do.
-/

import VaultSearch.Core.Staging

set_option autoImplicit false

namespace VaultSearch

open Fallible

/-! ### What other threads leave alone -/

theorem rows_act (action : OtherAction) (world : World) (kind : TableKind) (side : Side) :
    (Acts.act action world).index.rows kind side = world.index.rows kind side := by
  cases action with
  | acquire other =>
      show (world.index.acquire other).rows kind side = _
      unfold Index.acquire
      split
      · rfl
      · exact Index.rows_openCanonical _ _ _ _
  | write path file => rfl
  | remove path => rfl

theorem table_act_some (action : OtherAction) {world : World} {kind : TableKind} {side : Side}
    {table : Table (Row kind)} (found : world.index.table kind side = some table) :
    (Acts.act action world).index.table kind side = some table := by
  cases action with
  | acquire other =>
      show (world.index.acquire other).table kind side = _
      unfold Index.acquire
      split
      · exact found
      · unfold Index.openCanonical
        rw [Index.table_setHandle]
        by_cases same : kind = other
        · subst same
          cases side with
          | canonical =>
              have present : (world.index.lanes kind).canonical = some table := found
              rw [Index.table_setTable_same, present]
              rfl
          | staging => exact (Index.table_setTable_side _ _ _ (by decide)).trans found
        · exact (Index.table_setTable_kind _ _ _ _ same).trans found
  | write path file => exact found
  | remove path => exact found

/-- The rows of the canonical tables are a fact that staging keeps, under any schedule. -/
theorem canonicalRows_framed (schedule : Schedule Label OtherAction) (rows : Rows) :
    StagingFrame schedule (fun index => ∀ kind, index.rows kind .canonical = rows kind) := by
  constructor
  · intro index kind table holds other
    rw [← holds other]
    by_cases same : other = kind
    · subst same
      exact Index.rows_congr (Index.table_setTable_side _ _ _ (by decide))
    · exact Index.rows_congr (Index.table_setTable_kind _ _ _ _ same)
  · intro index kind handle holds other
    rw [Index.rows_setHandle]
    exact holds other
  · intro name action _member world holds kind
    rw [rows_act]
    exact holds kind

/-! ### The invariant of the commit -/

/-- A published table that can be taken back to its previous rows. -/
def Revertible (index : Index) (previous : Rows) (entry : TableKind × Option Nat) : Prop :=
  ∃ current, index.table entry.1 .canonical = some current ∧
    match entry.2 with
    | some version => ∃ past : Table (Row entry.1), past.Extends current ∧
        version = past.version ∧ past.rows = previous entry.1
    | none => previous entry.1 = []

/-- The tables of `committed` hold the new generation and can be taken back, the others
hold the previous one. -/
structure Publishing (index : Index) (previous generation : Rows) (committed : Committed) :
    Prop where
  staged : ∀ kind, ∃ table, index.table kind .staging = some table ∧
    table.rows = generation kind
  distinct : (committed.map (·.1)).Nodup
  published : ∀ entry ∈ committed, Revertible index previous entry ∧
    index.rows entry.1 .canonical = generation entry.1
  rest : ∀ kind, kind ∉ committed.map (·.1) → index.rows kind .canonical = previous kind

/-- Every canonical table holds one of the two generations. -/
def Index.TwoGenerations (index : Index) (previous generation : Rows) : Prop :=
  ∀ kind, index.rows kind .canonical = previous kind ∨
    index.rows kind .canonical = generation kind

theorem Revertible.act {world : World} {previous : Rows} {entry : TableKind × Option Nat}
    (revertible : Revertible world.index previous entry) (action : OtherAction) :
    Revertible (Acts.act action world).index previous entry := by
  obtain ⟨current, found, shape⟩ := revertible
  exact ⟨current, table_act_some action found, shape⟩

theorem Publishing.act {world : World} {previous generation : Rows} {committed : Committed}
    (publishing : Publishing world.index previous generation committed) (action : OtherAction) :
    Publishing (Acts.act action world).index previous generation committed := by
  refine ⟨?_, publishing.distinct, ?_, ?_⟩
  · intro kind
    obtain ⟨table, found, rows⟩ := publishing.staged kind
    exact ⟨table, table_act_some action found, rows⟩
  · intro entry member
    obtain ⟨revertible, rows⟩ := publishing.published entry member
    exact ⟨revertible.act action, (rows_act action world _ _).trans rows⟩
  · intro kind absent
    exact (rows_act action world _ _).trans (publishing.rest kind absent)

theorem Publishing.twoGenerations {index : Index} {previous generation : Rows}
    {committed : Committed} (publishing : Publishing index previous generation committed) :
    index.TwoGenerations previous generation := by
  intro kind
  by_cases member : kind ∈ committed.map (·.1)
  · obtain ⟨entry, present, same⟩ := List.mem_map.mp member
    subst same
    exact Or.inr (publishing.published entry present).2
  · exact Or.inl (publishing.rest kind member)

theorem Index.TwoGenerations.act {world : World} {previous generation : Rows}
    (two : world.index.TwoGenerations previous generation) (action : OtherAction) :
    (Acts.act action world).index.TwoGenerations previous generation := by
  intro kind
  rw [rows_act]
  exact two kind

/-- Publishing one more table. -/
theorem Publishing.publish {index : Index} {previous generation : Rows} {committed : Committed}
    (publishing : Publishing index previous generation committed) {kind : TableKind}
    (fresh : kind ∉ committed.map (·.1)) (version : Option Nat) (later : Table (Row kind))
    (rows : later.rows = generation kind)
    (revertible : match version with
      | some version => ∃ past : Table (Row kind), past.Extends later ∧
          version = past.version ∧ past.rows = previous kind
      | none => previous kind = []) :
    Publishing (index.setTable kind .canonical later) previous generation
      (committed ++ [(kind, version)]) := by
  refine ⟨?_, ?_, ?_, ?_⟩
  · intro other
    obtain ⟨table, found, same⟩ := publishing.staged other
    refine ⟨table, ?_, same⟩
    by_cases equal : other = kind
    · subst equal
      rw [Index.table_setTable_side _ _ _ (by decide), found]
    · rw [Index.table_setTable_kind _ _ _ _ equal, found]
  · rw [List.map_append]
    refine List.Nodup.append publishing.distinct (List.nodup_singleton _) ?_
    intro other member single
    rw [List.mem_singleton.mp single] at member
    exact fresh member
  · intro entry member
    rcases List.mem_append.mp member with earlier | last
    · have different : entry.1 ≠ kind := by
        intro same
        exact fresh (List.mem_map.mpr ⟨entry, earlier, same⟩)
      obtain ⟨⟨current, found, shape⟩, shown⟩ := publishing.published entry earlier
      refine ⟨⟨current, ?_, shape⟩, ?_⟩
      · rw [Index.table_setTable_kind _ _ _ _ different, found]
      · rw [← shown]
        exact Index.rows_congr (Index.table_setTable_kind _ _ _ _ different)
    · rw [List.mem_singleton.mp last]
      refine ⟨⟨later, Index.table_setTable_same _ _ _ _, revertible⟩, ?_⟩
      rw [Index.rows_setTable_same, rows]
  · intro other absent
    rw [List.map_append] at absent
    have different : other ≠ kind := by
      intro same
      exact absent (List.mem_append_right _ (by rw [same]; exact List.mem_singleton.mpr rfl))
    rw [Index.rows_congr (Index.table_setTable_kind _ _ _ _ different)]
    exact publishing.rest other (fun member => absent (List.mem_append_left _ member))

/-! ### The commit -/

section Commit

variable {schedule : Schedule Label OtherAction} {previous generation : Rows}

theorem Publishing.steady (committed : Committed) :
    Steady schedule (fun world : World => world.index.TwoGenerations previous generation)
      (fun world : World => Publishing world.index previous generation committed) := by
  intro name action _member world publishing
  exact ⟨publishing.act action, (publishing.act action).twoGenerations⟩

/-- A step that reads keeps what is known. -/
theorem triple_stay {alpha : Type} {name : Label} {effect : World → Option (alpha × World)}
    {known : World → Prop} {after : alpha → World → Prop} {always : World → Prop}
    (steady : Steady schedule always known) (always_of : ∀ world, known world → always world)
    (reads : ∀ world value later, known world → effect world = some (value, later) →
      later = world ∧ after value world) :
    Triple schedule always known (step name effect) after known := by
  refine triple_step steady ?_ (fun _ holds _ => holds)
  intro world value later holds _fine found
  obtain ⟨same, ended⟩ := reads world value later holds found
  rw [same]
  exact ⟨ended, always_of world holds⟩

theorem triple_replaceTableFromStaging (kind : TableKind) (committed : Committed)
    (fresh : kind ∉ committed.map (·.1)) :
    Triple schedule (fun world => world.index.TwoGenerations previous generation)
      (fun world => Publishing world.index previous generation committed)
      (replaceTableFromStaging kind)
      (fun version world => Publishing world.index previous generation
        (committed ++ [(kind, version)]))
      (fun world => Publishing world.index previous generation committed) := by
  have whole : ∀ world : World, Publishing world.index previous generation committed →
      world.index.TwoGenerations previous generation := fun _ publishing =>
    publishing.twoGenerations
  unfold replaceTableFromStaging
  refine triple_andThen (fun _ world => Publishing world.index previous generation committed)
    ?_ ?_
  · refine triple_stay (Publishing.steady committed) whole ?_
    intro world existing later publishing found
    exact ⟨(Prod.mk.inj (Option.some.inj found)).2.symm, publishing⟩
  intro existing
  refine triple_andThen (fun reader world => reader = generation kind ∧
    Publishing world.index previous generation committed) ?_ ?_
  · refine triple_peekTable (Publishing.steady committed) ?_ (fun _ publishing _ => publishing)
    intro world table reader publishing _fine found same
    obtain ⟨staged, present, rows⟩ := publishing.staged kind
    rw [found] at present
    rw [Option.some.inj present] at same
    exact ⟨⟨(Option.some.inj same).symm.trans rows, publishing⟩, whole world publishing⟩
  intro reader
  split
  · refine triple_andThen (fun version world => (reader = generation kind ∧
      Publishing world.index previous generation committed) ∧
        ∃ past, world.index.table kind .canonical = some past ∧ version = past.version) ?_ ?_
    · refine triple_peekTable ?_ ?_ (fun _ known _ => known.2)
      · rintro name action _member world ⟨same, publishing⟩
        exact ⟨⟨same, publishing.act action⟩, whole _ (publishing.act action)⟩
      · rintro world past version known _fine found same
        exact ⟨⟨known, past, found, (Option.some.inj same).symm⟩, whole world known.2⟩
    · intro version
      refine triple_andThen (fun _ world => Publishing world.index previous generation
        (committed ++ [(kind, some version)])) ?_ ?_
      · refine triple_onTable ?_ ?_ (fun _ known _ => known.1.2)
        · rintro name action _member world ⟨⟨same, publishing⟩, past, found, version⟩
          exact ⟨⟨⟨same, publishing.act action⟩, past, table_act_some action found, version⟩,
            whole _ (publishing.act action)⟩
        · rintro world table value later ⟨⟨same, publishing⟩, past, found, number⟩ _fine present done
          rw [found] at present
          rw [← Option.some.inj present] at done
          rw [← (Prod.mk.inj (Option.some.inj done)).2]
          have rows : past.rows = previous kind := by
            rw [← publishing.rest kind fresh, Index.rows_of_table found]
          have published := publishing.publish fresh (some version) (past.commit reader) same
            ⟨past, Table.extends_commit past reader, number, rows⟩
          exact ⟨published, published.twoGenerations⟩
      · intro _
        exact triple_ret _ (fun _ published => published)
  · refine triple_andThen (fun _ world => Publishing world.index previous generation
        (committed ++ [(kind, none)])) ?_ ?_
    · refine triple_step ?_ ?_ (fun _ known _ => known.2)
      · rintro name action _member world ⟨same, publishing⟩
        exact ⟨⟨same, publishing.act action⟩, whole _ (publishing.act action)⟩
      · rintro world value later ⟨same, publishing⟩ _fine found
        cases absent : world.index.table kind .canonical with
        | some table => simp [absent] at found
        | none =>
            simp only [absent, Option.some.injEq, Prod.mk.injEq] at found
            rw [← found.2]
            have empty : previous kind = [] := by
              rw [← publishing.rest kind fresh]
              unfold Index.rows
              rw [absent]
            have published := publishing.publish fresh none { past := [], rows := reader } same empty
            exact ⟨published, published.twoGenerations⟩
    · intro _
      exact triple_ret _ (fun _ published => published)

/-- The commit after the tables in `kinds`. -/
def Committing.At (previous generation : Rows) (kinds : List TableKind)
    (pair : World × Committed) : Prop :=
  Publishing pair.1.index previous generation pair.2 ∧ pair.2.map (·.1) = kinds

theorem triple_commitTable (kind : TableKind) (kinds : List TableKind) (fresh : kind ∉ kinds) :
    Triple schedule
      (fun pair : World × Committed => pair.1.index.TwoGenerations previous generation)
      (Committing.At previous generation kinds) (commitTable kind)
      (fun _ => Committing.At previous generation (kinds ++ [kind]))
      (Committing.At previous generation kinds) := by
  unfold commitTable
  refine triple_andThen (fun version pair =>
    Publishing pair.1.index previous generation (pair.2 ++ [(kind, version)]) ∧
      pair.2.map (·.1) = kinds) ?_ ?_
  · refine triple_lift ?_
    rintro committed world ⟨publishing, same⟩
    have absent : kind ∉ committed.map (·.1) := by
      rw [same]
      exact fresh
    obtain ⟨returned, failed, moments⟩ :=
      @triple_replaceTableFromStaging schedule _ _ kind committed absent world publishing
    exact ⟨fun version found => ⟨returned version found, same⟩,
      fun found => ⟨failed found, same⟩, moments⟩
  · intro version
    refine triple_setLocals ?_
    rintro world committed ⟨publishing, same⟩
    exact ⟨publishing, by rw [List.map_append, same]; rfl⟩

def commitOrder : List TableKind :=
  [.links, .aliases, .chunks]

/-- The commit ends with all three tables published or stops after some of them. -/
theorem triple_commitTables :
    Triple schedule
      (fun pair : World × Committed => pair.1.index.TwoGenerations previous generation)
      (Committing.At previous generation []) (forEach commitTable commitOrder)
      (fun _ => Committing.At previous generation commitOrder)
      (fun pair => ∃ kinds, Committing.At previous generation kinds pair) := by
  have step : ∀ kind kinds, kind ∉ kinds → Triple schedule
      (fun pair : World × Committed => pair.1.index.TwoGenerations previous generation)
      (Committing.At previous generation kinds) (commitTable kind)
      (fun _ => Committing.At previous generation (kinds ++ [kind]))
      (fun pair => ∃ kinds, Committing.At previous generation kinds pair) := by
    intro kind kinds fresh
    exact (triple_commitTable kind kinds fresh).weaken (fun _ holds => holds)
      (fun _ _ holds => holds) (fun _ holds => ⟨kinds, holds⟩)
  refine triple_andThen _ (step .links [] (by decide)) ?_
  intro _
  refine triple_andThen _ (step .aliases [.links] (by decide)) ?_
  intro _
  refine triple_andThen _ (step .chunks [.links, .aliases] (by decide)) ?_
  intro _
  exact triple_ret () (fun _ holds => holds)

/-! ### The rollback -/

/-- The rows after the rollback of `kinds`: a table whose rollback fails keeps the new
generation. -/
def rolledBack (schedule : Schedule Label OtherAction) (previous generation : Rows)
    (kinds : List TableKind) : Rows :=
  fun kind =>
    if kind ∈ kinds ∧ schedule.faults { operation := .rollback, kind } = true then generation kind
    else previous kind

/-- The entries of `rest` can still be taken back, the other tables are as they will be. -/
structure RollingBack (schedule : Schedule Label OtherAction) (previous generation : Rows)
    (kinds : List TableKind) (rest : Committed) (world : World) : Prop where
  distinct : (rest.map (·.1)).Nodup
  pending : ∀ entry ∈ rest, Revertible world.index previous entry ∧
    world.index.rows entry.1 .canonical = generation entry.1 ∧ entry.1 ∈ kinds
  done : ∀ kind, kind ∉ rest.map (·.1) →
    world.index.rows kind .canonical = rolledBack schedule previous generation kinds kind

theorem RollingBack.twoGenerations {kinds : List TableKind} {rest : Committed} {world : World}
    (rolling : RollingBack schedule previous generation kinds rest world) :
    world.index.TwoGenerations previous generation := by
  intro kind
  by_cases member : kind ∈ rest.map (·.1)
  · obtain ⟨entry, present, same⟩ := List.mem_map.mp member
    subst same
    exact Or.inr (rolling.pending entry present).2.1
  · rw [rolling.done kind member]
    unfold rolledBack
    split
    · exact Or.inr rfl
    · exact Or.inl rfl

theorem RollingBack.act {kinds : List TableKind} {rest : Committed} {world : World}
    (rolling : RollingBack schedule previous generation kinds rest world) (action : OtherAction) :
    RollingBack schedule previous generation kinds rest (Acts.act action world) := by
  refine ⟨rolling.distinct, ?_, ?_⟩
  · intro entry member
    obtain ⟨revertible, rows, inside⟩ := rolling.pending entry member
    exact ⟨revertible.act action, (rows_act action world _ _).trans rows, inside⟩
  · intro kind absent
    exact (rows_act action world _ _).trans (rolling.done kind absent)

theorem RollingBack.steady {kinds : List TableKind} {rest : Committed} :
    Steady schedule (fun world : World => world.index.TwoGenerations previous generation)
      (RollingBack schedule previous generation kinds rest) := by
  intro name action _member world rolling
  exact ⟨rolling.act action, (rolling.act action).twoGenerations⟩

/-- The first entry is taken back. -/
theorem RollingBack.revert {kinds : List TableKind} {entry : TableKind × Option Nat}
    {rest : Committed} {world : World}
    (rolling : RollingBack schedule previous generation kinds (entry :: rest) world)
    (fine : schedule.faults { operation := .rollback, kind := entry.1 } = false)
    (later : Table (Row entry.1)) (rows : later.rows = previous entry.1) :
    RollingBack schedule previous generation kinds rest
      { world with index := world.index.setTable entry.1 .canonical later } := by
  have distinct := List.nodup_cons.mp rolling.distinct
  refine ⟨distinct.2, ?_, ?_⟩
  · intro other member
    have different : other.1 ≠ entry.1 := by
      intro same
      exact distinct.1 (List.mem_map.mpr ⟨other, member, same⟩)
    obtain ⟨⟨current, found, shape⟩, shown, inside⟩ :=
      rolling.pending other (List.mem_cons_of_mem _ member)
    refine ⟨⟨current, ?_, shape⟩, ?_, inside⟩
    · exact (Index.table_setTable_kind _ _ _ _ different).trans found
    · exact (Index.rows_congr (Index.table_setTable_kind _ _ _ _ different)).trans shown
  · intro kind absent
    by_cases same : kind = entry.1
    · subst same
      unfold rolledBack
      rw [if_neg (by rw [fine]; exact fun both => Bool.false_ne_true both.2)]
      exact (Index.rows_setTable_same _ _ _ _).trans rows
    · refine (Index.rows_congr (Index.table_setTable_kind _ _ _ _ same)).trans
        (rolling.done kind ?_)
      intro member
      rcases List.mem_cons.mp member with first | inside
      · exact same first
      · exact absent inside

/-- The first entry keeps the new generation. -/
theorem RollingBack.skip {kinds : List TableKind} {entry : TableKind × Option Nat}
    {rest : Committed} {world : World}
    (rolling : RollingBack schedule previous generation kinds (entry :: rest) world)
    (fault : schedule.faults { operation := .rollback, kind := entry.1 } = true) :
    RollingBack schedule previous generation kinds rest world := by
  have distinct := List.nodup_cons.mp rolling.distinct
  obtain ⟨_revertible, shown, inside⟩ := rolling.pending entry List.mem_cons_self
  refine ⟨distinct.2, fun other member =>
    rolling.pending other (List.mem_cons_of_mem _ member), ?_⟩
  intro kind absent
  by_cases same : kind = entry.1
  · subst same
    unfold rolledBack
    rw [if_pos ⟨inside, fault⟩]
    exact shown
  · refine rolling.done kind ?_
    intro member
    rcases List.mem_cons.mp member with first | later
    · exact same first
    · exact absent later

theorem triple_rollbackEntry (kinds : List TableKind) (entry : TableKind × Option Nat)
    (rest : Committed) {raised : World → Prop} :
    Triple schedule (fun world => world.index.TwoGenerations previous generation)
      (RollingBack schedule previous generation kinds (entry :: rest)) (rollbackEntry entry)
      (fun _ => RollingBack schedule previous generation kinds rest) raised := by
  unfold rollbackEntry
  refine triple_andThen (fun _ => RollingBack schedule previous generation kinds rest) ?_ ?_
  · refine triple_attempt ?_
    unfold rollbackTable
    obtain ⟨kind, version⟩ := entry
    cases version with
    | some version =>
        refine triple_onTable RollingBack.steady ?_ ?_
        · rintro world table value later rolling fine found done
          obtain ⟨⟨current, present, past, kept, number, rows⟩, _shown, _inside⟩ :=
            rolling.pending _ List.mem_cons_self
          rw [found] at present
          simp only at kept number rows
          rw [Option.some.inj present, number, Table.restore_of_extends kept] at done
          rw [← (Prod.mk.inj (Option.some.inj done)).2]
          have reverted := rolling.revert fine (current.commit past.rows) rows
          exact ⟨reverted, reverted.twoGenerations⟩
        · rintro world rolling reason
          obtain ⟨⟨current, present, past, kept, number, rows⟩, _shown, _inside⟩ :=
            rolling.pending _ List.mem_cons_self
          rcases reason with fault | absent | ⟨table, found, impossible⟩
          · exact rolling.skip fault
          · rw [absent] at present
            cases present
          · rw [found] at present
            simp only at kept number
            rw [Option.some.inj present, number, Table.restore_of_extends kept] at impossible
            cases impossible
    | none =>
        refine triple_onTable RollingBack.steady ?_ ?_
        · rintro world table value later rolling fine found done
          obtain ⟨⟨current, present, empty⟩, _shown, _inside⟩ :=
            rolling.pending _ List.mem_cons_self
          rw [← (Prod.mk.inj (Option.some.inj done)).2]
          have reverted := rolling.revert fine (table.commit []) empty.symm
          exact ⟨reverted, reverted.twoGenerations⟩
        · rintro world rolling reason
          obtain ⟨⟨current, present, _empty⟩, _shown, _inside⟩ :=
            rolling.pending _ List.mem_cons_self
          rcases reason with fault | absent | ⟨table, _found, impossible⟩
          · exact rolling.skip fault
          · rw [absent] at present
            cases present
          · cases impossible
  · intro _
    exact triple_ret () (fun _ rolling => rolling)

theorem triple_rollback (kinds : List TableKind) (committed : Committed) (raised : World → Prop) :
    Triple schedule (fun world => world.index.TwoGenerations previous generation)
      (fun world => Committing.At previous generation kinds (world, committed))
      (forEach rollbackEntry committed.reverse)
      (fun _ world => ∀ kind, world.index.rows kind .canonical =
        rolledBack schedule previous generation kinds kind) raised := by
  refine (triple_forEach (RollingBack schedule previous generation kinds) committed.reverse
    (fun entry rest _inside => triple_rollbackEntry kinds entry rest)).weaken ?_ ?_
      (fun _ holds => holds)
  · rintro world ⟨publishing, same⟩
    refine ⟨?_, ?_, ?_⟩
    · rw [List.map_reverse]
      exact List.nodup_reverse.mpr publishing.distinct
    · intro entry member
      have present := List.mem_reverse.mp member
      obtain ⟨revertible, rows⟩ := publishing.published entry present
      exact ⟨revertible, rows, by rw [← same]; exact List.mem_map.mpr ⟨entry, present, rfl⟩⟩
    · intro kind absent
      have outside : kind ∉ kinds := by
        rw [← same]
        intro member
        exact absent (by rw [List.map_reverse]; exact List.mem_reverse.mpr member)
      unfold rolledBack
      rw [if_neg (fun both => outside both.1)]
      exact publishing.rest kind (by rw [same]; exact outside)
  · intro _ world rolling kind
    exact rolling.done kind List.not_mem_nil

/-! ### After the commit -/

theorem triple_finishRebuild (progress : Progress) (raised : World → Prop) :
    Triple schedule (fun world => world.index.TwoGenerations previous generation)
      (fun world => ∀ kind, world.index.rows kind .canonical = generation kind)
      (finishRebuild progress)
      (fun stats world => stats.status = .completed ∧ stats.previousIndexPreserved = false ∧
        ∀ kind, world.index.rows kind .canonical = generation kind) raised := by
  have framed := canonicalRows_framed schedule generation
  have whole : ∀ world : World, (∀ kind, world.index.rows kind .canonical = generation kind) →
      world.index.TwoGenerations previous generation := fun _ rows kind => Or.inr (rows kind)
  have steady : Steady schedule
      (fun world : World => world.index.TwoGenerations previous generation)
      (fun world => ∀ kind, world.index.rows kind .canonical = generation kind) := by
    intro name action member world rows
    have later := framed.others name action member world rows
    exact ⟨later, whole _ later⟩
  unfold finishRebuild
  refine triple_andThen (fun _ world => ∀ kind, world.index.rows kind .canonical = generation kind)
    ?_ ?_
  · refine triple_forEach
      (fun _ (world : World) => ∀ kind, world.index.rows kind .canonical = generation kind) _ ?_
    rintro entry rest _inside
    refine triple_assign steady ?_
    intro world rows
    have later := framed.pointed world.index entry (some .canonical) rows
    exact ⟨later, whole { world with index := world.index.setHandle entry (some .canonical) } later⟩
  intro _
  refine triple_andThen (fun _ world => ∀ kind, world.index.rows kind .canonical = generation kind)
    ?_ ?_
  · refine triple_attempt (triple_onTable steady ?_ (fun _ rows _ => rows))
    intro world table value later rows _fine found done
    have same : later.rows = table.rows := by
      rw [← (Prod.mk.inj (Option.some.inj done)).2]
      rfl
    have kept : ∀ kind, (world.index.setTable .chunks .canonical later).rows kind .canonical =
        generation kind := by
      intro kind
      rw [← rows kind]
      by_cases equal : kind = .chunks
      · subst equal
        rw [Index.rows_setTable_same, same, Index.rows_of_table found]
      · exact Index.rows_congr (Index.table_setTable_kind _ _ _ _ equal)
    exact ⟨kept, fun kind => Or.inr (kept kind)⟩
  intro _
  refine triple_andThen (fun _ world => ∀ kind, world.index.rows kind .canonical = generation kind)
    ?_ ?_
  · refine triple_assign steady ?_
    intro world rows
    exact ⟨rows, whole world rows⟩
  intro _
  exact triple_ret _ (fun _ rows => ⟨rfl, rfl, rows⟩)

end Commit

end VaultSearch
