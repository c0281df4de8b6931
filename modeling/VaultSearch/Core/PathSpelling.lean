/-
Runs of `reindex_note` calls, and what the spelling of their paths does to the tables.

A run knows the content that was last parsed for each note.  When every call spells its
path as the parsers do, the tables hold exactly the rows of these contents; the delete
filter and the alias rows use the spelling of the caller, so another spelling leaves
rows behind.
-/

import VaultSearch.Core.Incremental

set_option autoImplicit false

namespace VaultSearch

open Fallible

/-! ### Runs -/

/-- A call, and the vault as it is when the call is made. -/
structure Moment where
  vault : Vault
  call : Call

/-- The world, and for each note the content that was last parsed. -/
structure Indexing where
  world : World
  parsed : List (Text × Option File) := []

def Indexing.step (env : Env) (state : Indexing) (moment : Moment) : Indexing :=
  let outcome := reindexNote env moment.call (alone (fun _ => false))
    { state.world with vault := moment.vault }
  let path := moment.call.path
  match outcome.value with
  | none => { state with world := outcome.final }
  | some result =>
      if result.status.applied then
        { world := outcome.final
          parsed := (PurePath.normalPath path, outcome.final.vault.read path) :: state.parsed }
      else { state with world := outcome.final }

def Indexing.run (env : Env) (start : Indexing) (moments : List Moment) : Indexing :=
  moments.foldl (Indexing.step env) start

/-- The rows that the last parsed content of a note gives it. -/
def Indexing.expected (env : Env) (state : Indexing) (note : Text) : Rows :=
  fun kind =>
    match state.parsed.lookup note with
    | none => []
    | some content => contentRows env note content kind

/-- Every note has exactly the rows of its last parsed content, each once. -/
def Indexing.Exact (env : Env) (state : Indexing) : Prop :=
  ∀ kind note, (state.world.index.shown kind).filter (fun row => Row.owner kind row = note) =
    state.expected env note kind

/-! ### One call -/

/-- Nothing else runs: the call sees the vault, and keeps nothing but its index. -/
theorem reading_alone (env : Env) (call : Call) :
    Reading env (alone (fun _ => false)) call (fun content vault => vault.read call.path = content)
      (fun _ => True) where
  undisturbed := fun _ => undisturbed_alone _ _
  kept := undisturbed_alone _ _
  sees := fun _ _ => rfl
  identified := fun _ _ _ _ _ _ => trivial

/-- A call with a path in normal spelling keeps every note exact. -/
theorem Indexing.step_exact {env : Env} {state : Indexing} (ready : state.world.index.Ready)
    (holds : state.Exact env) (moment : Moment) (spelled : IsNormalPath moment.call.path) :
    (state.step env moment).world.index.Ready ∧ (state.step env moment).Exact env := by
  obtain ⟨returned, failed, _moments⟩ := triple_reindexNote
    (reading_alone env moment.call) (fun _ => rfl)
    { state.world with vault := moment.vault } ⟨ready.shows, trivial⟩
  have unchanged : ∀ world : World, world.index.Shows state.world.index.side
      state.world.index.shown → world.index.Ready ∧
        ({ state with world } : Indexing).Exact env := by
    intro world shows
    refine ⟨shows.ready, ?_⟩
    intro kind note
    rw [shows.shown_eq]
    exact holds kind note
  unfold Indexing.step
  simp only
  split
  case h_1 none =>
    exact unchanged _ (failed none).2.1
  case h_2 result found =>
    obtain ⟨answered, _vault⟩ := returned result found
    split
    case isFalse skipped =>
      exact unchanged _ (answered.kept (Bool.eq_false_iff.mpr skipped))
    case isTrue applied =>
      obtain ⟨content, read, shows⟩ := answered.replaced applied
      refine ⟨shows.ready, ?_⟩
      intro kind note
      rw [shows.shown_eq, filter_replace _ (contentRows_owner env spelled content)]
      unfold Indexing.expected
      rw [List.lookup_cons, read, spelled]
      by_cases same : note = moment.call.path
      · rw [if_pos same, same, beq_self_eq_true]
      · rw [if_neg same, beq_eq_false_iff_ne.mpr same]
        exact holds kind note

/-- After every call of a run that spells its paths as the parsers do, the tables hold
exactly the rows of what was last parsed. -/
theorem run_exact (env : Env) (start : Indexing) (ready : start.world.index.Ready)
    (holds : start.Exact env) (moments : List Moment)
    (spelled : ∀ moment ∈ moments, IsNormalPath moment.call.path) :
    (Indexing.run env start moments).Exact env := by
  unfold Indexing.run
  induction moments generalizing start with
  | nil => exact holds
  | cons moment rest ih =>
      obtain ⟨stillReady, stillExact⟩ :=
        Indexing.step_exact ready holds moment (spelled moment List.mem_cons_self)
      exact ih _ stillReady stillExact (fun later member =>
        spelled later (List.mem_cons_of_mem _ member))

/-! ### Two spellings -/

/-- Nothing is indexed yet. -/
def Indexing.blank : Indexing :=
  { world := { vault := Vault.empty, index := Index.empty } }

def plainCall (path : Text) : Moment :=
  { vault :=
      { files := [("a.md".toList, { text := "Hi".toList, mtime := 1 })]
        distinct := List.nodup_singleton _
        normal := List.forall_mem_singleton.mpr rfl }
    call := { path, autoGenerateId := false, now := 0, fresh := { uuid := [], mtime := 0 } } }

/-- A second call with another spelling of the path leaves a duplicate row. -/
theorem run_respelled :
    ¬(Indexing.run Env.plain .blank
      [plainCall "./a.md".toList, plainCall "./a.md".toList]).Exact Env.plain := by
  intro holds
  have rows := congrArg List.length (holds .chunks "a.md".toList)
  revert rows
  decide +kernel

theorem run_exact_plain :
    (Indexing.run Env.plain .blank [plainCall "a.md".toList, plainCall "a.md".toList]).Exact
      Env.plain := by
  refine run_exact Env.plain .blank Index.empty_ready ?_ _ (by decide)
  intro kind note
  cases kind <;> rfl

end VaultSearch
