/-
A full rebuild in which no step fails.

Other threads may edit notes meanwhile, so a note is parsed with a content that `reads`
says it may have.  Staging collects the records of the parsed notes, resolves their links
and publishes the tables; `Rebuilt` says what a completed rebuild leaves in them, and that
it is only kept from completing by a note that does not parse or by a shutdown.
-/

import VaultSearch.Core.Incremental
import VaultSearch.Core.Resolution

set_option autoImplicit false

namespace VaultSearch

open Fallible

/-! ### What is built -/

/-- The results that go into the index. -/
def indexedResults (results : List (Text × ParseResult)) : List (Text × ParseResult) :=
  results.filter (fun entry => entry.2.status = .success)

def builtChunks (results : List (Text × ParseResult)) : List ChunkRecord :=
  (indexedResults results).flatMap (fun entry => entry.2.chunks)

def builtLinks (results : List (Text × ParseResult)) : List LinkRecord :=
  (indexedResults results).flatMap (fun entry => entry.2.links)

def builtAliases (env : Env) (results : List (Text × ParseResult)) : List AliasRecord :=
  (indexedResults results).flatMap (fun entry => aliasRecords env entry.1 entry.2.aliases)

/-- The map from link targets to notes. -/
def builtPathMap (env : Env) (surroundings : Surroundings) (results : List (Text × ParseResult)) :
    List (Text × Text) :=
  buildPathMap env (surroundings.iterSet ((builtChunks results).map ChunkRecord.notePath))
    (builtAliases env results)

/-- The rows of a rebuild, from the results in the order of their arrival; `fits` is what is
known of a chunk and its vector. -/
structure Built (env : Env) (surroundings : Surroundings) (fits : ChunkWithVector → Prop)
    (results : List (Text × ParseResult)) (rows : Rows) : Prop where
  chunks : (rows .chunks).map ChunkWithVector.toChunkRecord = builtChunks results
  fitting : ∀ row ∈ rows .chunks, fits row
  links : (rows .links).Perm
    (resolveLinks (builtPathMap env surroundings results) (builtLinks results))
  aliases : rows .aliases = builtAliases env results

/-- The model gives each chunk one vector, and one that fits. -/
def EmbedsAs (env : Env) (fits : ChunkWithVector → Prop) : Prop :=
  ∀ chunks : List ChunkRecord, ∃ vectors,
    env.embedCorpus (chunks.map (fun chunk => chunk.text)) = some vectors ∧
      vectors.length = chunks.length ∧
      ∀ row ∈ List.zipWith (fun chunk vector => ({ toChunkRecord := chunk, vector } :
        ChunkWithVector)) chunks vectors, fits row

/-- The result of a note that was read with a content it may have. -/
def ReadAs (env : Env) (reads : Text → Option File → Prop) (entry : Text × ParseResult) : Prop :=
  ∃ content, reads entry.1 content ∧
    entry.2 = truncateChunks env (contentParse env entry.1 content)

/-! ### Steps on the staging tables -/

/-- No step fails, and other threads leave the index alone. -/
structure Calm (schedule : Schedule Label OtherAction) (fact : Vault → Prop) : Prop
    extends Undisturbed schedule fact where
  noFault : ∀ name, schedule.faults name = false

/-- Every handle is on its staging table, which holds `rows`. -/
def Building (fact : Vault → Prop) (rows : Rows) (world : World) : Prop :=
  world.index.Shows (fun _ => .staging) rows ∧ fact world.vault

section Staging

variable {schedule : Schedule Label OtherAction} {fact : Vault → Prop} {alpha beta : Type}
  (calm : Calm schedule fact) {rows : Rows}

include calm

theorem Calm.faulty {name : Label} {known : Prop} (fault : schedule.faults name = true) : known := by
  rw [calm.noFault name] at fault
  cases fault

theorem Calm.building : Steady schedule (fun _ => True) (Building fact rows) := by
  refine calm.steady ?_
  rintro world other same keep ⟨shows, vault⟩
  exact ⟨by rw [same]; exact shows, keep vault⟩

omit calm in
theorem Building.table {world : World} (building : Building fact rows world) (kind : TableKind) :
    ∃ table, world.index.table kind .staging = some table ∧ table.rows = rows kind := by
  have opened : (world.index.handle kind).isSome = true := by
    cases found : world.index.handle kind with
    | none => cases building.1.handle_none found
    | some side => rfl
  obtain ⟨table, found⟩ := building.1.opened kind opened
  refine ⟨table, found, ?_⟩
  rw [← building.1.rows kind, Index.rows_of_table found]

/-- An operation that always succeeds. -/
theorem triple_building_onTable (name : Label) (kind : TableKind)
    {operation : Table (Row kind) → Option (alpha × Table (Row kind))} {value : alpha}
    {changed : List (Row kind)}
    (total : ∀ table, table.rows = rows kind →
      ∃ later, operation table = some (value, later) ∧ later.rows = changed) :
    Triple schedule (fun _ => True) (Building fact rows) (onTable name kind .staging operation)
      (fun result world => result = value ∧
        Building fact (Function.update rows kind changed) world) (fun _ => False) := by
  refine triple_onTable calm.building ?_ ?_
  · rintro world table result later building _fine found done
    obtain ⟨expected, present, same⟩ := building.table kind
    rw [found] at present
    rw [← Option.some.inj present] at same
    obtain ⟨made, operated, rowsMade⟩ := total table same
    rw [done] at operated
    obtain ⟨sameValue, sameTable⟩ := Prod.mk.inj (Option.some.inj operated)
    rw [← sameTable] at rowsMade
    refine ⟨⟨sameValue, ?_, building.2⟩, trivial⟩
    have shows := building.1.setTable kind later
    rw [rowsMade] at shows
    exact shows
  · rintro world building (fault | absent | ⟨table, found, impossible⟩)
    · exact calm.faulty fault
    · obtain ⟨table, present, _same⟩ := building.table kind
      rw [absent] at present
      cases present
    · obtain ⟨expected, present, same⟩ := building.table kind
      rw [found] at present
      rw [← Option.some.inj present] at same
      obtain ⟨made, operated, _rows⟩ := total table same
      rw [impossible] at operated
      cases operated

theorem triple_building_peekTable (name : Label) (kind : TableKind)
    {view : Table (Row kind) → Option alpha} {value : alpha}
    (total : ∀ table, table.rows = rows kind → view table = some value) :
    Triple schedule (fun _ => True) (Building fact rows) (peekTable name kind .staging view)
      (fun result world => result = value ∧ Building fact rows world) (fun _ => False) := by
  refine triple_peekTable calm.building ?_ ?_
  · rintro world table result building _fine found done
    obtain ⟨expected, present, same⟩ := building.table kind
    rw [found] at present
    rw [← Option.some.inj present] at same
    rw [total table same] at done
    exact ⟨⟨(Option.some.inj done).symm, building⟩, trivial⟩
  · rintro world building (fault | absent | ⟨table, found, impossible⟩)
    · exact calm.faulty fault
    · obtain ⟨table, present, _same⟩ := building.table kind
      rw [absent] at present
      cases present
    · obtain ⟨expected, present, same⟩ := building.table kind
      rw [found] at present
      rw [← Option.some.inj present] at same
      rw [total table same] at impossible
      cases impossible

omit calm in
/-- The handle that a rebuild reuses is the staging one. -/
theorem triple_building_ensureTable {next : Side → Program beta} {after : beta → World → Prop}
    {raised : World → Prop} (kind : TableKind)
    (rest : Triple schedule (fun _ => True) (Building fact rows) (next .staging) after raised) :
    Triple schedule (fun _ => True) (Building fact rows) (andThen (ensureTable kind) next) after
      raised := by
  refine triple_andThen (fun side world => side = .staging ∧ Building fact rows world) ?_ ?_
  · unfold ensureTable
    refine triple_andThen (fun handle world => world.index.handle kind = handle ∧
      Building fact rows world) (triple_look (fun world building => ⟨rfl, building⟩)) ?_
    intro handle
    cases handle with
    | some side =>
        refine triple_ret side ?_
        rintro world ⟨opened, building⟩
        exact ⟨building.1.handle_some opened, building⟩
    | none =>
        rintro world ⟨closed, building⟩
        cases building.1.handle_none closed
  · intro side
    exact triple_given (fun same => by rw [same]; exact rest)

theorem triple_building_addRows (name : Label) (kind : TableKind) (added : List (Row kind)) :
    Triple schedule (fun _ => True) (Building fact rows) (addRows name kind .staging added)
      (fun _ world => Building fact (Function.update rows kind (rows kind ++ added)) world)
      (fun _ => False) := by
  have total : ∀ table : Table (Row kind), table.rows = rows kind →
      ∃ later, some ((), table.add added) = some ((), later) ∧
        later.rows = rows kind ++ added := by
    intro table same
    exact ⟨_, rfl, by rw [Table.add_rows, same]⟩
  exact (triple_building_onTable calm name kind total).weaken (fun _ holds => holds)
    (fun _ _ holds => holds.2) (fun _ holds => holds)

end Staging

end VaultSearch
