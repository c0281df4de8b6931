/-
Replacing the rows of one note, as a transaction over three tables.

`Index.Shows` says what the handles of the indexer show.  While the replacement runs,
`Applying` ties every snapshot taken so far to the rows from before the call, so that
restoring the snapshots brings them back from any point of it.
-/

import VaultSearch.Core.Indexer

set_option autoImplicit false

namespace VaultSearch

open Fallible

/-! ### What the handles show -/

/-- Through its handles the indexer sees `rows`, each table on the given side. -/
structure Index.Shows (index : Index) (sides : TableKind → Side) (rows : Rows) : Prop where
  facing : ∀ kind, (index.handle kind).getD .canonical = sides kind
  opened : ∀ kind, (index.handle kind).isSome = true →
    ∃ table, index.table kind (sides kind) = some table
  rows : ∀ kind, index.rows kind (sides kind) = rows kind

theorem Index.Shows.handle_none {index : Index} {sides : TableKind → Side} {rows : Rows}
    (shows : index.Shows sides rows) {kind : TableKind} (closed : index.handle kind = none) :
    sides kind = .canonical := by
  have facing := shows.facing kind
  rw [closed] at facing
  exact facing.symm

theorem Index.Shows.handle_some {index : Index} {sides : TableKind → Side} {rows : Rows}
    (shows : index.Shows sides rows) {kind : TableKind} {side : Side}
    (opened : index.handle kind = some side) : side = sides kind := by
  have facing := shows.facing kind
  rw [opened] at facing
  exact facing

/-- Opening a handle changes nothing that is shown. -/
theorem Index.Shows.openCanonical {index : Index} {sides : TableKind → Side} {rows : Rows}
    (shows : index.Shows sides rows) {kind : TableKind} (closed : index.handle kind = none) :
    (index.openCanonical kind).Shows sides rows := by
  have side := shows.handle_none closed
  constructor
  · intro other
    unfold Index.openCanonical
    by_cases same : other = kind
    · subst same
      rw [Index.handle_setHandle_same, side]
      rfl
    · rw [Index.handle_setHandle_other _ _ same, Index.handle_setTable]
      exact shows.facing other
  · intro other opened
    unfold Index.openCanonical at opened ⊢
    rw [Index.table_setHandle]
    by_cases same : other = kind
    · subst same
      rw [side]
      exact ⟨_, Index.table_setTable_same _ _ _ _⟩
    · rw [Index.handle_setHandle_other _ _ same, Index.handle_setTable] at opened
      obtain ⟨table, found⟩ := shows.opened other opened
      exact ⟨table, by rw [Index.table_setTable_kind _ _ _ _ same, found]⟩
  · intro other
    rw [Index.rows_openCanonical]
    exact shows.rows other

/-- An operation through a handle changes what its own table shows. -/
theorem Index.Shows.setTable {index : Index} {sides : TableKind → Side} {rows : Rows}
    (shows : index.Shows sides rows) (kind : TableKind) (table : Table (Row kind)) :
    (index.setTable kind (sides kind) table).Shows sides
      (Function.update rows kind table.rows) := by
  constructor
  · intro other
    rw [Index.handle_setTable]
    exact shows.facing other
  · intro other opened
    rw [Index.handle_setTable] at opened
    by_cases same : other = kind
    · subst same
      exact ⟨_, Index.table_setTable_same _ _ _ _⟩
    · obtain ⟨found, present⟩ := shows.opened other opened
      exact ⟨found, by rw [Index.table_setTable_kind _ _ _ _ same, present]⟩
  · intro other
    by_cases same : other = kind
    · subst same
      rw [Index.rows_setTable_same, Function.update_self]
    · rw [Index.rows_congr (Index.table_setTable_kind index _ _ _ same),
        Function.update_of_ne same]
      exact shows.rows other

/-! ### The transaction -/

/-- Every table with a snapshot can be brought back to the rows from before, and every
other table still shows them. -/
structure Applying (index : Index) (sides : TableKind → Side) (before now : Rows)
    (snapshots : List Snapshot) : Prop where
  shows : index.Shows sides now
  distinct : (snapshots.map (·.kind)).Nodup
  guarded : ∀ snapshot ∈ snapshots, snapshot.side = sides snapshot.kind ∧
    ∃ past current : Table (Row snapshot.kind),
      index.table snapshot.kind (sides snapshot.kind) = some current ∧ past.Extends current ∧
        snapshot.version = past.version ∧ past.rows = before snapshot.kind
  untouched : ∀ kind, kind ∉ snapshots.map (·.kind) → now kind = before kind

theorem Applying.start {index : Index} {sides : TableKind → Side} {before : Rows}
    (shows : index.Shows sides before) : Applying index sides before before [] :=
  { shows
    distinct := List.nodup_nil
    guarded := by intro snapshot member; cases member
    untouched := fun _ _ => rfl }

theorem Applying.openCanonical {index : Index} {sides : TableKind → Side} {before now : Rows}
    {snapshots : List Snapshot} (applying : Applying index sides before now snapshots)
    {kind : TableKind} (closed : index.handle kind = none)
    (fresh : kind ∉ snapshots.map (·.kind)) :
    Applying (index.openCanonical kind) sides before now snapshots := by
  refine { applying with shows := applying.shows.openCanonical closed, guarded := ?_ }
  intro snapshot member
  obtain ⟨side, past, current, found, kept⟩ := applying.guarded snapshot member
  have other : snapshot.kind ≠ kind := by
    intro same
    exact fresh (List.mem_map.mpr ⟨snapshot, member, same⟩)
  refine ⟨side, past, current, ?_, kept⟩
  unfold Index.openCanonical
  rw [Index.table_setHandle, Index.table_setTable_kind _ _ _ _ other, found]

theorem Applying.snapshot {index : Index} {sides : TableKind → Side} {before now : Rows}
    {snapshots : List Snapshot} (applying : Applying index sides before now snapshots)
    {kind : TableKind} (fresh : kind ∉ snapshots.map (·.kind)) {table : Table (Row kind)}
    (found : index.table kind (sides kind) = some table) :
    Applying index sides before now (snapshots ++ [⟨kind, sides kind, table.version⟩]) := by
  have same : table.rows = before kind := by
    rw [← applying.untouched kind fresh, ← applying.shows.rows kind, Index.rows_of_table found]
  refine ⟨applying.shows, ?_, ?_, ?_⟩
  · rw [List.map_append]
    refine List.Nodup.append applying.distinct (List.nodup_singleton _) ?_
    intro other member single
    rw [List.mem_singleton.mp single] at member
    exact fresh member
  · intro snapshot member
    rcases List.mem_append.mp member with earlier | last
    · exact applying.guarded snapshot earlier
    · rw [List.mem_singleton.mp last]
      exact ⟨rfl, table, table, found, Table.Extends.refl table, rfl, same⟩
  · intro other absent
    refine applying.untouched other ?_
    intro member
    exact absent (by rw [List.map_append]; exact List.mem_append_left _ member)

/-- A table with a snapshot may move on to a later version. -/
theorem Applying.setTable {index : Index} {sides : TableKind → Side} {before now : Rows}
    {snapshots : List Snapshot} (applying : Applying index sides before now snapshots)
    {kind : TableKind} (taken : kind ∈ snapshots.map (·.kind)) {table later : Table (Row kind)}
    (found : index.table kind (sides kind) = some table) (extend : table.Extends later) :
    Applying (index.setTable kind (sides kind) later) sides before
      (Function.update now kind later.rows) snapshots := by
  refine ⟨applying.shows.setTable kind later, applying.distinct, ?_, ?_⟩
  · intro snapshot member
    obtain ⟨side, past, current, present, kept, rest⟩ := applying.guarded snapshot member
    by_cases same : snapshot.kind = kind
    · subst same
      rw [found] at present
      rw [← Option.some.inj present] at kept
      exact ⟨side, past, later, Index.table_setTable_same _ _ _ _, kept.trans extend, rest⟩
    · exact ⟨side, past, current,
        by rw [Index.table_setTable_kind _ _ _ _ same, present], kept, rest⟩
  · intro other absent
    have different : other ≠ kind := by
      intro same
      exact absent (by rw [same]; exact taken)
    rw [Function.update_of_ne different]
    exact applying.untouched other absent

/-- Restoring the first snapshot brings its table back for good. -/
theorem Applying.restore {index : Index} {sides : TableKind → Side} {before now : Rows}
    {snapshot : Snapshot} {rest : List Snapshot}
    (applying : Applying index sides before now (snapshot :: rest)) :
    ∃ table later : Table (Row snapshot.kind),
      index.table snapshot.kind snapshot.side = some table ∧
        table.restore snapshot.version = some later ∧
          Applying (index.setTable snapshot.kind snapshot.side later) sides before
            (Function.update now snapshot.kind (before snapshot.kind)) rest := by
  obtain ⟨side, past, current, found, kept, version, rows⟩ :=
    applying.guarded snapshot List.mem_cons_self
  have distinct := List.nodup_cons.mp applying.distinct
  rw [side]
  refine ⟨current, current.commit past.rows, found, ?_, ?_⟩
  · rw [version]
    exact Table.restore_of_extends kept
  · have shows := applying.shows.setTable snapshot.kind (current.commit past.rows)
    rw [Table.commit_rows, rows] at shows
    rw [rows]
    refine ⟨shows, distinct.2, ?_, ?_⟩
    · intro other member
      have different : other.kind ≠ snapshot.kind := by
        intro same
        exact distinct.1 (List.mem_map.mpr ⟨other, member, same⟩)
      obtain ⟨otherSide, otherPast, otherCurrent, present, remaining⟩ :=
        applying.guarded other (List.mem_cons_of_mem _ member)
      exact ⟨otherSide, otherPast, otherCurrent,
        by rw [Index.table_setTable_kind _ _ _ _ different, present], remaining⟩
    · intro kind absent
      by_cases same : kind = snapshot.kind
      · subst same
        rw [Function.update_self]
      · rw [Function.update_of_ne same]
        refine applying.untouched kind ?_
        intro member
        rcases List.mem_cons.mp member with first | later
        · exact same first
        · exact absent later

theorem Applying.reverse {index : Index} {sides : TableKind → Side} {before now : Rows}
    {snapshots : List Snapshot} (applying : Applying index sides before now snapshots) :
    Applying index sides before now snapshots.reverse := by
  refine ⟨applying.shows, ?_, ?_, ?_⟩
  · rw [List.map_reverse]
    exact List.nodup_reverse.mpr applying.distinct
  · intro snapshot member
    exact applying.guarded snapshot (List.mem_reverse.mp member)
  · intro kind absent
    refine applying.untouched kind ?_
    intro member
    exact absent (by rw [List.map_reverse]; exact List.mem_reverse.mpr member)

/-! ### Undisturbed runs -/

/-- Other threads leave the index alone and keep a fact about the vault. -/
structure Undisturbed (schedule : Schedule Label OtherAction) (fact : Vault → Prop) : Prop where
  index : ∀ name, ∀ action ∈ schedule.others name, ∀ world : World,
    (Acts.act action world).index = world.index
  vault : ∀ name, ∀ action ∈ schedule.others name, ∀ world : World,
    fact world.vault → fact (Acts.act action world).vault

theorem Undisturbed.steady {schedule : Schedule Label OtherAction} {fact : Vault → Prop}
    (undisturbed : Undisturbed schedule fact) {before : World → Prop}
    (stable : ∀ world other : World, other.index = world.index →
      (fact world.vault → fact other.vault) → before world → before other) :
    Steady schedule (fun _ => True) before := by
  intro name action member world holds
  exact ⟨stable world _ (undisturbed.index name action member world)
    (undisturbed.vault name action member world) holds, trivial⟩

/-- A step of the schedule fails. -/
def HasFault (schedule : Schedule Label OtherAction) : Prop :=
  ∃ name, schedule.faults name = true

/-- The transaction with its snapshots, of the tables `kinds`, at the rows `now`. -/
structure Progressing (fact : Vault → Prop) (sides : TableKind → Side) (before now : Rows)
    (kinds : List TableKind) (pair : World × List Snapshot) : Prop where
  applying : Applying pair.1.index sides before now pair.2
  taken : pair.2.map (·.kind) = kinds
  vault : fact pair.1.vault

theorem Progressing.stable {fact : Vault → Prop} {sides : TableKind → Side} {before now : Rows}
    {kinds : List TableKind} {snapshots : List Snapshot} (world other : World)
    (sameIndex : other.index = world.index) (keep : fact world.vault → fact other.vault)
    (progressing : Progressing fact sides before now kinds (world, snapshots)) :
    Progressing fact sides before now kinds (other, snapshots) := by
  refine ⟨?_, progressing.taken, keep progressing.vault⟩
  simp only [sameIndex]
  exact progressing.applying

/-- The transaction after an exception. -/
def Broken (schedule : Schedule Label OtherAction) (fact : Vault → Prop)
    (sides : TableKind → Side) (before : Rows) (pair : World × List Snapshot) : Prop :=
  HasFault schedule ∧ ∃ now kinds, Progressing fact sides before now kinds pair

section Triples

variable {schedule : Schedule Label OtherAction} {fact : Vault → Prop}
  {sides : TableKind → Side} {before now : Rows} {kinds : List TableKind} {kind : TableKind}

/-- The transaction with an open handle for one table. -/
def Opened (fact : Vault → Prop) (sides : TableKind → Side) (before now : Rows)
    (kinds : List TableKind) (kind : TableKind) (pair : World × List Snapshot) : Prop :=
  (pair.1.index.handle kind).isSome = true ∧ Progressing fact sides before now kinds pair

theorem Opened.stable {snapshots : List Snapshot} (world other : World)
    (sameIndex : other.index = world.index) (keep : fact world.vault → fact other.vault)
    (opened : Opened fact sides before now kinds kind (world, snapshots)) :
    Opened fact sides before now kinds kind (other, snapshots) := by
  refine ⟨?_, opened.2.stable world other sameIndex keep⟩
  simp only [sameIndex]
  exact opened.1

theorem triple_ensureTable (undisturbed : Undisturbed schedule fact) (fresh : kind ∉ kinds)
    (snapshots : List Snapshot) :
    Triple schedule (fun _ => True)
      (fun world => Progressing fact sides before now kinds (world, snapshots))
      (ensureTable kind)
      (fun side world => side = sides kind ∧
        Opened fact sides before now kinds kind (world, snapshots))
      (fun world => Broken schedule fact sides before (world, snapshots)) := by
  unfold ensureTable
  refine triple_andThen (fun handle world => world.index.handle kind = handle ∧
    Progressing fact sides before now kinds (world, snapshots)) ?_ ?_
  · exact triple_look (fun world progressing => ⟨rfl, progressing⟩)
  · intro handle
    cases handle with
    | some side =>
        refine triple_ret side ?_
        rintro world ⟨opened, progressing⟩
        refine ⟨progressing.applying.shows.handle_some opened, ?_, progressing⟩
        simp only [opened, Option.isSome_some]
    | none =>
        refine triple_step (undisturbed.steady ?_) ?_ ?_
        · rintro world other sameIndex keep ⟨closed, progressing⟩
          rw [sameIndex]
          exact ⟨closed, progressing.stable world other sameIndex keep⟩
        · rintro world side later ⟨closed, progressing⟩ _fine done
          simp only [Option.some.injEq, Prod.mk.injEq] at done
          rw [← done.1, ← done.2]
          have absent : kind ∉ snapshots.map (·.kind) := by
            rw [progressing.taken]
            exact fresh
          refine ⟨⟨(progressing.applying.shows.handle_none closed).symm, ?_, ?_⟩, trivial⟩
          · unfold Index.openCanonical
            simp only [Index.handle_setHandle_same, Option.isSome_some]
          · exact ⟨progressing.applying.openCanonical closed absent, progressing.taken,
              progressing.vault⟩
        · rintro world ⟨_closed, progressing⟩ reason
          rcases reason with fault | impossible
          · exact ⟨⟨_, fault⟩, now, kinds, progressing⟩
          · cases impossible

/-- An operation on a table with a snapshot. -/
theorem triple_guarded (undisturbed : Undisturbed schedule fact) (taken : kind ∈ kinds)
    {name : Label} {operation : Table (Row kind) → Option (Unit × Table (Row kind))}
    {next : List (Row kind)}
    (works : ∀ table, table.rows = now kind →
      ∃ later, operation table = some ((), later) ∧ table.Extends later ∧ later.rows = next)
    (snapshots : List Snapshot) :
    Triple schedule (fun _ => True)
      (fun world => Opened fact sides before now kinds kind (world, snapshots))
      (onTable name kind (sides kind) operation)
      (fun _ world => Opened fact sides before (Function.update now kind next) kinds kind
        (world, snapshots))
      (fun world => Broken schedule fact sides before (world, snapshots)) := by
  refine triple_onTable (undisturbed.steady Opened.stable) ?_ ?_
  · rintro world table value later ⟨opened, progressing⟩ _fine found done
    have shown : table.rows = now kind := by
      rw [← progressing.applying.shows.rows kind, Index.rows_of_table found]
    obtain ⟨expected, same, extend, rows⟩ := works table shown
    rw [done] at same
    rw [← (Prod.mk.inj (Option.some.inj same)).2] at extend rows
    refine ⟨⟨?_, ?_, progressing.taken, progressing.vault⟩, trivial⟩
    · simp only [Index.handle_setTable]
      exact opened
    · rw [← rows]
      exact progressing.applying.setTable (by rw [progressing.taken]; exact taken) found extend
  · rintro world ⟨opened, progressing⟩ reason
    rcases reason with fault | absent | ⟨table, found, impossible⟩
    · exact ⟨⟨_, fault⟩, now, kinds, progressing⟩
    · obtain ⟨table, present⟩ := progressing.applying.shows.opened kind opened
      rw [absent] at present
      cases present
    · have shown : table.rows = now kind := by
        rw [← progressing.applying.shows.rows kind, Index.rows_of_table found]
      obtain ⟨expected, same, _rest⟩ := works table shown
      rw [impossible] at same
      cases same

/-- An open handle is reused. -/
theorem triple_ensureTable_opened (snapshots : List Snapshot) :
    Triple schedule (fun _ => True)
      (fun world => Opened fact sides before now kinds kind (world, snapshots))
      (ensureTable kind)
      (fun side world => side = sides kind ∧
        Opened fact sides before now kinds kind (world, snapshots))
      (fun world => Broken schedule fact sides before (world, snapshots)) := by
  unfold ensureTable
  refine triple_andThen (fun handle world => world.index.handle kind = handle ∧
    Opened fact sides before now kinds kind (world, snapshots)) ?_ ?_
  · exact triple_look (fun world opened => ⟨rfl, opened⟩)
  · intro handle
    cases handle with
    | some side =>
        refine triple_ret side ?_
        rintro world ⟨found, opened⟩
        exact ⟨opened.2.applying.shows.handle_some found, opened⟩
    | none =>
        rintro world ⟨closed, opened, _progressing⟩
        rw [closed] at opened
        cases opened

theorem delete_ownerFilter (kind : TableKind) (path : Text) (table : Table (Row kind)) :
    ∃ later, (Sql.parse (ownerFilter kind path)).map (fun read =>
        ((), table.delete (fun row => read.holds (Row.columns kind row)))) = some ((), later) ∧
      table.Extends later ∧
      later.rows = table.rows.filter (fun row => Row.owner kind row ≠ path) := by
  obtain ⟨filter, parsed, selects⟩ := parse_ownerFilter kind path
  refine ⟨_, by rw [parsed]; rfl, Table.extends_delete table _, ?_⟩
  rw [Table.delete_rows]
  refine List.filter_congr ?_
  intro row _member
  rw [selects row]
  exact decide_not.symm

theorem triple_deleteNoteRows (undisturbed : Undisturbed schedule fact) (fresh : kind ∉ kinds)
    (path : Text) :
    Triple schedule (fun _ => True) (Opened fact sides before now kinds kind)
      (deleteNoteRows kind (sides kind) path)
      (fun _ => Opened fact sides before
        (Function.update now kind ((now kind).filter (fun row => Row.owner kind row ≠ path)))
        (kinds ++ [kind]) kind)
      (Broken schedule fact sides before) := by
  unfold deleteNoteRows
  refine triple_andThen (fun version pair => Opened fact sides before now kinds kind pair ∧
    ∃ table, pair.1.index.table kind (sides kind) = some table ∧ table.version = version) ?_ ?_
  · refine triple_lift ?_
    intro snapshots
    refine triple_peekTable (undisturbed.steady Opened.stable) ?_ ?_
    · rintro world table version opened _fine found same
      exact ⟨⟨opened, table, found, Option.some.inj same⟩, trivial⟩
    · rintro world ⟨opened, progressing⟩ reason
      rcases reason with fault | absent | ⟨table, _found, impossible⟩
      · exact ⟨⟨_, fault⟩, now, kinds, progressing⟩
      · obtain ⟨table, present⟩ := progressing.applying.shows.opened kind opened
        rw [absent] at present
        cases present
      · cases impossible
  · intro version
    refine triple_andThen (fun _ => Opened fact sides before now (kinds ++ [kind]) kind) ?_ ?_
    · refine triple_setLocals ?_
      rintro world snapshots ⟨⟨opened, progressing⟩, table, found, same⟩
      have absent : kind ∉ snapshots.map (·.kind) := by
        rw [progressing.taken]
        exact fresh
      refine ⟨opened, ?_, ?_, progressing.vault⟩
      · rw [← same]
        exact progressing.applying.snapshot absent found
      · rw [List.map_append, progressing.taken]
        rfl
    · intro _
      refine triple_lift ?_
      intro snapshots
      refine triple_guarded undisturbed (by simp) ?_ snapshots
      intro table shown
      rw [← shown]
      exact delete_ownerFilter kind path table

theorem triple_addRows (undisturbed : Undisturbed schedule fact) (taken : kind ∈ kinds)
    (name : Label) (rows : List (Row kind)) (snapshots : List Snapshot) :
    Triple schedule (fun _ => True)
      (fun world => Opened fact sides before now kinds kind (world, snapshots))
      (addRows name kind (sides kind) rows)
      (fun _ world => Opened fact sides before (Function.update now kind (now kind ++ rows)) kinds
        kind (world, snapshots))
      (fun world => Broken schedule fact sides before (world, snapshots)) := by
  refine triple_guarded undisturbed taken ?_ snapshots
  intro table shown
  exact ⟨table.add rows, rfl, Table.extends_add table rows, by rw [Table.add_rows, shown]⟩

theorem triple_addNoteRows (undisturbed : Undisturbed schedule fact) (taken : kind ∈ kinds)
    (rows : List (Row kind)) (snapshots : List Snapshot) :
    Triple schedule (fun _ => True)
      (fun world => Opened fact sides before now kinds kind (world, snapshots))
      (addNoteRows kind (sides kind) rows)
      (fun _ world => Opened fact sides before (Function.update now kind (now kind ++ rows)) kinds
        kind (world, snapshots))
      (fun world => Broken schedule fact sides before (world, snapshots)) := by
  unfold addNoteRows
  split
  · rename_i empty
    refine triple_ret () ?_
    intro world opened
    rw [List.isEmpty_iff.mp empty, List.append_nil, Function.update_eq_self]
    exact opened
  · exact triple_addRows undisturbed taken _ rows snapshots

theorem triple_indexAliases (undisturbed : Undisturbed schedule fact) (env : Env) (turn : Nat)
    (path : Text) (aliases : List Text) (taken : .aliases ∈ kinds) {records : List (Row .aliases)}
    (made : aliasRecords env path aliases = records) (snapshots : List Snapshot) :
    Triple schedule (fun _ => True)
      (fun world => Opened fact sides before now kinds .aliases (world, snapshots))
      (indexAliases env turn path aliases)
      (fun count world => count = records.length ∧
        Opened fact sides before (Function.update now .aliases (now .aliases ++ records))
          kinds .aliases (world, snapshots))
      (fun world => Broken schedule fact sides before (world, snapshots)) := by
  have unchanged : ∀ world, records = [] →
      Opened fact sides before now kinds .aliases (world, snapshots) →
      0 = records.length ∧ Opened fact sides before
        (Function.update now .aliases (now .aliases ++ records)) kinds .aliases
        (world, snapshots) := by
    intro world empty opened
    rw [empty, List.append_nil, Function.update_eq_self]
    exact ⟨rfl, opened⟩
  unfold indexAliases
  split
  · rename_i empty
    refine triple_ret 0 (fun world opened => unchanged world ?_ opened)
    rw [← made, List.isEmpty_iff.mp empty]
    rfl
  · refine triple_andThen _ (triple_ensureTable_opened snapshots) ?_
    intro side
    simp only
    split
    · rename_i empty
      refine triple_ret 0 ?_
      rintro world ⟨_same, opened⟩
      exact unchanged world (made ▸ List.isEmpty_iff.mp empty) opened
    · refine triple_andThen (fun _ world => Opened fact sides before
        (Function.update now .aliases (now .aliases ++ records)) kinds .aliases
        (world, snapshots)) ?_ ?_
      · rintro world ⟨same, opened⟩
        rw [same, made]
        exact triple_addRows undisturbed taken _ records snapshots world opened
      · intro _
        exact triple_ret _ (fun world opened => ⟨congrArg List.length made, opened⟩)

theorem Applying.restored {index : Index} (applying : Applying index sides before now []) :
    index.Shows sides before := by
  have same : now = before := funext (fun kind => applying.untouched kind List.not_mem_nil)
  rw [← same]
  exact applying.shows

/-- Restoring every snapshot brings the rows from before back. -/
theorem triple_restoreSnapshots (undisturbed : Undisturbed schedule fact)
    (restores : ∀ kind, schedule.faults { operation := .restoreVersion, kind } = false)
    (snapshots : List Snapshot) (raised : World → Prop) :
    Triple schedule (fun _ => True)
      (fun world => (∃ now, Applying world.index sides before now snapshots) ∧ fact world.vault)
      (forEach restoreSnapshot snapshots)
      (fun _ world => world.index.Shows sides before ∧ fact world.vault) raised := by
  refine (triple_forEach (fun rest (world : World) =>
    (∃ now, Applying world.index sides before now rest) ∧ fact world.vault) snapshots ?_).weaken
    (fun _ holds => holds) ?_ (fun _ raised => raised)
  · rintro snapshot rest _inside
    unfold restoreSnapshot
    refine triple_andThen (fun _ (world : World) =>
      (∃ now, Applying world.index sides before now rest) ∧ fact world.vault) ?_ ?_
    · refine triple_attempt ?_
      refine triple_onTable (undisturbed.steady ?_) ?_ ?_
      · rintro world other sameIndex keep ⟨applying, vault⟩
        rw [sameIndex]
        exact ⟨applying, keep vault⟩
      · rintro world table value later ⟨⟨now, applying⟩, vault⟩ _fine found done
        obtain ⟨restored, expected, present, back, applied⟩ := applying.restore
        rw [found] at present
        rw [Option.some.inj present, back] at done
        rw [← (Prod.mk.inj (Option.some.inj done)).2]
        exact ⟨⟨⟨_, applied⟩, vault⟩, trivial⟩
      · rintro world ⟨⟨now, applying⟩, vault⟩ reason
        obtain ⟨restored, expected, present, back, _applied⟩ := applying.restore
        rcases reason with fault | absent | ⟨table, found, impossible⟩
        · rw [restores] at fault
          cases fault
        · rw [absent] at present
          cases present
        · rw [found] at present
          rw [Option.some.inj present, back] at impossible
          cases impossible
    · intro _
      exact triple_ret () (fun _ holds => holds)
  · rintro _ world ⟨⟨now, applying⟩, vault⟩
    exact ⟨applying.restored, vault⟩

/-- The rows a note is given. -/
def noteRows (env : Env) (path : Text) (chunks : List ChunkWithVector) (links : List LinkRecord)
    (aliases : List Text) : Rows
  | .chunks => chunks
  | .links => links
  | .aliases => aliasRecords env path aliases

/-- Every table without the rows of a note, followed by the rows it is given. -/
def Rows.replace (rows : Rows) (path : Text) (records : Rows) : Rows :=
  fun kind => (rows kind).filter (fun row => Row.owner kind row ≠ path) ++ records kind

/-- The rows after the tables in `kinds` were replaced. -/
def Rows.replaceIn (rows : Rows) (path : Text) (records : Rows) (kinds : List TableKind) : Rows :=
  fun kind => if kind ∈ kinds then rows.replace path records kind else rows kind

/-- Deleting the rows of a note from one more table and adding the new ones. -/
theorem update_replaceIn (rows : Rows) (path : Text) (records : Rows) (fresh : kind ∉ kinds) :
    let current := rows.replaceIn path records kinds
    let deleted := Function.update current kind
      ((current kind).filter (fun row => Row.owner kind row ≠ path))
    Function.update deleted kind (deleted kind ++ records kind) =
      rows.replaceIn path records (kinds ++ [kind]) := by
  intro current deleted
  have untouched : current kind = rows kind := if_neg fresh
  funext other
  by_cases same : other = kind
  · subst same
    simp only [deleted, Function.update_self, Rows.replaceIn, List.mem_append,
      List.mem_singleton, or_true, if_true, untouched]
    rfl
  · simp only [deleted, Function.update_of_ne same]
    simp only [current, Rows.replaceIn, List.mem_append, List.mem_singleton, same, or_false]

/-- One table of the transaction: delete the rows of the note, then add the new ones. -/
theorem triple_replaceKind {beta : Type} (undisturbed : Undisturbed schedule fact) (path : Text)
    (records : Rows) (kinds : List TableKind) (kind : TableKind) (fresh : kind ∉ kinds)
    {next : Unit → Snapshotting beta} {after : beta → World × List Snapshot → Prop}
    (nextTriple : ∀ done, Triple schedule (fun _ => True)
      (Opened fact sides before (before.replaceIn path records (kinds ++ [kind]))
        (kinds ++ [kind]) kind)
      (next done) after (Broken schedule fact sides before)) :
    Triple schedule (fun _ => True)
      (Opened fact sides before (before.replaceIn path records kinds) kinds kind)
      (andThen (deleteNoteRows kind (sides kind) path) (fun _ =>
        andThen (lift (addNoteRows kind (sides kind) (records kind))) next))
      after (Broken schedule fact sides before) := by
  refine triple_andThen _ (triple_deleteNoteRows undisturbed fresh path) ?_
  intro _
  refine triple_andThen _ (triple_lift (fun snapshots =>
    triple_addNoteRows undisturbed (by simp) (records kind) snapshots)) ?_
  intro done
  rw [update_replaceIn before path records fresh]
  exact nextTriple done

/-- Open the next table of the transaction. -/
theorem triple_openNext {beta : Type} (undisturbed : Undisturbed schedule fact)
    (kinds : List TableKind) (last kind : TableKind) (fresh : kind ∉ kinds)
    {next : Side → Snapshotting beta} {after : beta → World × List Snapshot → Prop}
    (nextTriple : Triple schedule (fun _ => True) (Opened fact sides before now kinds kind)
      (next (sides kind)) after (Broken schedule fact sides before)) :
    Triple schedule (fun _ => True) (Opened fact sides before now kinds last)
      (andThen (lift (ensureTable kind)) next) after (Broken schedule fact sides before) := by
  refine triple_andThen (fun side pair => side = sides kind ∧
    Opened fact sides before now kinds kind pair) ?_ ?_
  · exact triple_lift (fun snapshots => (triple_ensureTable undisturbed fresh snapshots).weaken
      (fun _ opened => opened.2) (fun _ _ opened => opened) (fun _ broken => broken))
  · rintro side pair ⟨same, opened⟩
    rw [same]
    exact nextTriple pair opened

/-- The `try` block, with the tables it has replaced. -/
theorem triple_replaceNoteRows (undisturbed : Undisturbed schedule fact) (env : Env) (path : Text)
    (chunks : List ChunkWithVector) (links : List LinkRecord) (aliases : List Text) :
    Triple schedule (fun _ => True) (Opened fact sides before before [] .chunks)
      (replaceNoteRows env (sides .chunks) path chunks links aliases)
      (fun result pair =>
        result = (sides .chunks, links.length, (aliasRecords env path aliases).length) ∧
        Opened fact sides before
          (before.replaceIn path (noteRows env path chunks links aliases)
            [.chunks, .links, .aliases]) [.chunks, .links, .aliases] .aliases pair)
      (Broken schedule fact sides before) := by
  let records := noteRows env path chunks links aliases
  have body : Triple schedule (fun _ => True)
      (Opened fact sides before (before.replaceIn path records []) [] .chunks)
      (replaceNoteRows env (sides .chunks) path chunks links aliases)
      (fun result pair =>
        result = (sides .chunks, links.length, (records .aliases).length) ∧
        Opened fact sides before (before.replaceIn path records [.chunks, .links, .aliases])
          [.chunks, .links, .aliases] .aliases pair)
      (Broken schedule fact sides before) := by
    refine triple_replaceKind undisturbed path records [] .chunks (by decide) ?_
    intro _
    refine triple_openNext undisturbed [.chunks] .chunks .links (by decide) ?_
    refine triple_replaceKind undisturbed path records [.chunks] .links (by decide) ?_
    intro _
    refine triple_openNext undisturbed [.chunks, .links] .links .aliases (by decide) ?_
    refine triple_andThen _ (triple_deleteNoteRows undisturbed (by decide) path) ?_
    intro _
    have taken : TableKind.aliases ∈ [TableKind.chunks, .links] ++ [.aliases] := by decide
    have fresh : TableKind.aliases ∉ [TableKind.chunks, .links] := by decide
    have final := update_replaceIn before path records fresh
    refine triple_andThen (fun count pair => count = (records .aliases).length ∧
      Opened fact sides before (before.replaceIn path records ([.chunks, .links] ++ [.aliases]))
        ([.chunks, .links] ++ [.aliases]) .aliases pair) ?_ ?_
    · rw [← final]
      exact triple_lift (fun snapshots =>
        triple_indexAliases undisturbed env 0 path aliases taken rfl snapshots)
    · intro count
      refine triple_ret _ ?_
      rintro pair ⟨same, opened⟩
      rw [same]
      exact ⟨rfl, opened⟩
  exact body

/-- All or nothing: `_apply_note_records` returns with the rows replaced, or a step has
failed and the rows are those from before. -/
theorem triple_applyNoteRecords (undisturbed : Undisturbed schedule fact)
    (restores : ∀ kind, schedule.faults { operation := .restoreVersion, kind } = false)
    (env : Env) (path : Text) (chunks : List ChunkWithVector) (links : List LinkRecord)
    (aliases : List Text) :
    Triple schedule (fun _ => True)
      (fun world => world.index.Shows sides before ∧ fact world.vault)
      (applyNoteRecords env path chunks links aliases)
      (fun result world =>
        result = (sides .chunks, links.length, (aliasRecords env path aliases).length) ∧
        world.index.Shows sides (before.replace path (noteRows env path chunks links aliases)) ∧
        fact world.vault)
      (fun world => HasFault schedule ∧ world.index.Shows sides before ∧ fact world.vault) := by
  unfold applyNoteRecords
  refine triple_andThen (fun side world => side = sides .chunks ∧
    Opened fact sides before before [] .chunks (world, [])) ?_ ?_
  · have opening : Triple schedule (fun _ => True)
        (fun world => Progressing fact sides before before [] (world, []))
        (ensureTable .chunks)
        (fun side world => side = sides .chunks ∧
          Opened fact sides before before [] .chunks (world, []))
        (fun world => Broken schedule fact sides before (world, [])) :=
      triple_ensureTable undisturbed List.not_mem_nil []
    refine opening.weaken ?_ ?_ ?_
    · rintro world ⟨shows, vault⟩
      exact ⟨Applying.start shows, rfl, vault⟩
    · rintro side world opened
      exact opened
    · rintro world ⟨fault, now, kinds, progressing⟩
      exact ⟨fault, progressing.applying.restored, progressing.vault⟩
  · intro side
    refine triple_tryWith (fun result pair =>
      result = (sides .chunks, links.length, (aliasRecords env path aliases).length) ∧
        Opened fact sides before
          (before.replaceIn path (noteRows env path chunks links aliases)
            [.chunks, .links, .aliases]) [.chunks, .links, .aliases] .aliases pair)
      (Broken schedule fact sides before) ?_ ?_ ?_
    · rintro pair ⟨⟨same, opened⟩, empty⟩
      rw [same]
      refine triple_replaceNoteRows undisturbed env path chunks links aliases pair ?_
      have shape : pair = (pair.1, []) := Prod.ext rfl empty
      rw [shape]
      exact opened
    · intro snapshots
      refine triple_andThen (fun _ world => HasFault schedule ∧
        world.index.Shows sides before ∧ fact world.vault) ?_ ?_
      · rintro world ⟨fault, now, kinds, progressing⟩
        have restored := triple_restoreSnapshots undisturbed restores snapshots.reverse
          (fun _ => False) world ⟨⟨now, progressing.applying.reverse⟩, progressing.vault⟩
        exact ⟨fun value found => ⟨fault, restored.1 value found⟩,
          fun found => (restored.2.1 found).elim, restored.2.2⟩
      · intro _
        exact triple_raise (fun _ holds => holds)
    · intro result snapshots
      refine triple_ret result ?_
      rintro world ⟨same, _opened, progressing⟩
      refine ⟨same, ?_, progressing.vault⟩
      have whole : before.replaceIn path (noteRows env path chunks links aliases)
          [.chunks, .links, .aliases] =
            before.replace path (noteRows env path chunks links aliases) := by
        funext kind
        cases kind <;> rfl
      rw [← whole]
      exact progressing.applying.shows

end Triples

/-! ### All or nothing -/

/-- The side a handle refers to; a handle that is not open yet will refer to the
canonical one. -/
def Index.side (index : Index) (kind : TableKind) : Side :=
  (index.handle kind).getD .canonical

/-- The rows of the three tables as the indexer sees them. -/
def Index.shown (index : Index) : Rows :=
  fun kind => index.rows kind (index.side kind)

/-- Open handles refer to tables that exist. -/
def Index.Ready (index : Index) : Prop :=
  ∀ kind, (index.handle kind).isSome = true → (index.table kind (index.side kind)).isSome = true

theorem Index.Ready.shows {index : Index} (ready : index.Ready) :
    index.Shows index.side index.shown :=
  { facing := fun _ => rfl
    opened := fun kind opened => Option.isSome_iff_exists.mp (ready kind opened)
    rows := fun _ => rfl }

theorem Index.empty_ready : Index.empty.Ready := by
  intro kind opened
  cases opened

theorem Index.Shows.shown_eq {index : Index} {sides : TableKind → Side} {rows : Rows}
    (shows : index.Shows sides rows) : index.shown = rows := by
  funext kind
  unfold Index.shown Index.side
  rw [shows.facing kind]
  exact shows.rows kind

theorem Index.Shows.ready {index : Index} {sides : TableKind → Side} {rows : Rows}
    (shows : index.Shows sides rows) : index.Ready := by
  intro kind opened
  obtain ⟨table, found⟩ := shows.opened kind opened
  unfold Index.side
  rw [shows.facing kind, found]
  rfl

/-- No other thread acts. -/
def alone (faults : Label → Bool) : Schedule Label OtherAction :=
  { faults, others := fun _ => [] }

theorem undisturbed_alone (faults : Label → Bool) (fact : Vault → Prop) :
    Undisturbed (alone faults) fact :=
  { index := by intro name action member; cases member
    vault := by intro name action member; cases member }

/-- Replacing the rows of a note by `records` either left `before` as it was or changed
exactly the rows of this note. -/
def AllOrNothing (path : Text) (records before : Rows) (outcome : Outcome World (Side × Nat × Nat)) :
    Prop :=
  (outcome.value = none → outcome.final.index.shown = before) ∧
  (outcome.value.isSome = true → ∀ kind,
    (outcome.final.index.shown kind).filter (fun row => Row.owner kind row ≠ path) =
        (before kind).filter (fun row => Row.owner kind row ≠ path) ∧
      (outcome.final.index.shown kind).filter (fun row => Row.owner kind row = path) =
        records kind)

theorem replace_others (rows : Rows) (path : Text) (records : Rows) (kind : TableKind)
    (own : ∀ row ∈ records kind, Row.owner kind row = path) :
    (rows.replace path records kind).filter (fun row => Row.owner kind row ≠ path) =
      (rows kind).filter (fun row => Row.owner kind row ≠ path) := by
  have none : (records kind).filter (fun row => Row.owner kind row ≠ path) = [] := by
    rw [List.filter_eq_nil_iff]
    intro row member
    simp [own row member]
  unfold Rows.replace
  rw [List.filter_append, none, List.append_nil, List.filter_filter]
  simp only [Bool.and_self]

/-- The rows under the path are those of `records` that carry it. -/
theorem replace_own (rows : Rows) (path : Text) (records : Rows) (kind : TableKind) :
    (rows.replace path records kind).filter (fun row => Row.owner kind row = path) =
      (records kind).filter (fun row => Row.owner kind row = path) := by
  have none : ((rows kind).filter (fun row => Row.owner kind row ≠ path)).filter
      (fun row => Row.owner kind row = path) = [] := by
    rw [List.filter_eq_nil_iff]
    intro row member
    have different := of_decide_eq_true (List.mem_filter.mp member).2
    simpa using different
  unfold Rows.replace
  rw [List.filter_append, none, List.nil_append]

/-- The rows of one note after the rows of another one, or its own, are replaced. -/
theorem filter_replace (rows : Rows) {path : Text} {records : Rows}
    (own : ∀ kind, ∀ row ∈ records kind, Row.owner kind row = path) (kind : TableKind) (note : Text) :
    (rows.replace path records kind).filter (fun row => Row.owner kind row = note) =
      if note = path then records kind
      else (rows kind).filter (fun row => Row.owner kind row = note) := by
  by_cases same : note = path
  · rw [if_pos same, same, replace_own]
    exact List.filter_eq_self.mpr (fun row member => decide_eq_true (own kind row member))
  · rw [if_neg same]
    have none : (records kind).filter (fun row => Row.owner kind row = note) = [] := by
      rw [List.filter_eq_nil_iff]
      intro row member found
      exact same ((of_decide_eq_true found).symm.trans (own kind row member))
    unfold Rows.replace
    rw [List.filter_append, none, List.append_nil, List.filter_filter]
    refine List.filter_congr ?_
    intro row _member
    by_cases owned : Row.owner kind row = note
    · simp [owned, same]
    · simp [owned]

theorem aliasRecords_owner (env : Env) (path : Text) (aliases : List Text) :
    ∀ row ∈ aliasRecords env path aliases, row.notePath = path := by
  intro row member
  obtain ⟨name, _present, same⟩ := List.mem_map.mp member
  rw [← same]

theorem noteRows_owner (env : Env) (path : Text) {chunks : List ChunkWithVector}
    {links : List LinkRecord} (aliases : List Text)
    (ownChunks : ∀ chunk ∈ chunks, chunk.notePath = path)
    (ownLinks : ∀ link ∈ links, link.fromNotePath = path) (kind : TableKind) :
    ∀ row ∈ noteRows env path chunks links aliases kind, Row.owner kind row = path := by
  cases kind with
  | chunks => exact ownChunks
  | links => exact ownLinks
  | aliases => exact aliasRecords_owner env path aliases

/-- Replacing the rows of a note is all or nothing, for every failing step, exactly when
each new chunk and link row carries the path the call was given. -/
theorem applyNoteRecords_allOrNothing_iff (env : Env) (path : Text)
    (chunks : List ChunkWithVector) (links : List LinkRecord) (aliases : List Text)
    (world : World) (ready : world.index.Ready) :
    (∀ faults : Label → Bool, (∀ kind, faults { operation := .restoreVersion, kind } = false) →
      AllOrNothing path (noteRows env path chunks links aliases) world.index.shown
        (applyNoteRecords env path chunks links aliases (alone faults) world)) ↔
      (∀ chunk ∈ chunks, chunk.notePath = path) ∧ (∀ link ∈ links, link.fromNotePath = path) := by
  have outcome := fun (faults : Label → Bool)
      (restores : ∀ kind, faults { operation := .restoreVersion, kind } = false) =>
    triple_applyNoteRecords (undisturbed_alone faults (fun _ => True)) restores env path chunks
      links aliases world ⟨ready.shows, trivial⟩
  constructor
  · intro holds
    obtain ⟨returned, failed, _moments⟩ := outcome (fun _ => false) (fun _ => rfl)
    have atomic := holds (fun _ => false) (fun _ => rfl)
    cases found : (applyNoteRecords env path chunks links aliases (alone (fun _ => false))
        world).value with
    | none =>
        obtain ⟨⟨name, fault⟩, _rest⟩ := failed found
        cases fault
    | some result =>
        obtain ⟨_result, shows, _vault⟩ := returned result found
        have exact := fun kind => (atomic.2 (by rw [found]; rfl) kind).2
        simp only [shows.shown_eq, replace_own] at exact
        refine ⟨?_, ?_⟩
        · intro chunk member
          have kept : chunk ∈ (noteRows env path chunks links aliases .chunks) := member
          rw [← exact .chunks] at kept
          exact of_decide_eq_true (List.mem_filter.mp kept).2
        · intro link member
          have kept : link ∈ (noteRows env path chunks links aliases .links) := member
          rw [← exact .links] at kept
          exact of_decide_eq_true (List.mem_filter.mp kept).2
  · rintro ⟨ownChunks, ownLinks⟩ faults restores
    obtain ⟨returned, failed, _moments⟩ := outcome faults restores
    refine ⟨fun found => (failed found).2.1.shown_eq, ?_⟩
    intro found kind
    obtain ⟨result, shape⟩ := Option.isSome_iff_exists.mp found
    obtain ⟨_result, shows, _vault⟩ := returned result shape
    have own := noteRows_owner env path aliases ownChunks ownLinks kind
    rw [shows.shown_eq, replace_others _ _ _ _ own, replace_own]
    exact ⟨rfl, List.filter_eq_self.mpr (fun row member => decide_eq_true (own row member))⟩

/-- The chunk that parsing `./a.md` gives carries the path `a.md`. -/
def respelledChunk : ChunkWithVector :=
  { toChunkRecord := makeChunk "Hi".toList []
      (extractFileMetadata Env.plain "./a.md".toList { text := "Hi".toList, mtime := 1 }) [] {}
    vector := [] }

/-- Under another spelling of the path the call returns and no row is under the path it
was given. -/
theorem applyNoteRecords_respelled :
    ¬AllOrNothing "./a.md".toList
      (noteRows Env.plain "./a.md".toList [respelledChunk] [] []) Index.empty.shown
      (applyNoteRecords Env.plain "./a.md".toList [respelledChunk] [] [] (alone (fun _ => false))
        { vault := Vault.empty, index := Index.empty }) := by
  intro holds
  have rows := (holds.2 (by decide +kernel) .chunks).2
  revert rows
  decide +kernel

theorem applyNoteRecords_allOrNothing_plain :
    Index.empty.Ready ∧
      ((∀ faults : Label → Bool, (∀ kind, faults { operation := .restoreVersion, kind } = false) →
        AllOrNothing "a.md".toList (noteRows Env.plain "a.md".toList [respelledChunk] [] [])
          Index.empty.shown
          (applyNoteRecords Env.plain "a.md".toList [respelledChunk] [] [] (alone faults)
            { vault := Vault.empty, index := Index.empty })) ↔
        (∀ chunk ∈ [respelledChunk], chunk.notePath = "a.md".toList) ∧
          (∀ link ∈ ([] : List LinkRecord), link.fromNotePath = "a.md".toList)) :=
  ⟨Index.empty_ready, applyNoteRecords_allOrNothing_iff Env.plain _ _ _ _ _ Index.empty_ready⟩

end VaultSearch
