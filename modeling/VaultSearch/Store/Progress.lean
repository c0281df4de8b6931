/-
Agents that wait for each other: when one of them can go on, and when all of them can finish.
-/

import Mathlib.Data.Finset.Max
import Mathlib.Order.WithBot
import VaultSearch.Store.Transitions

set_option autoImplicit false

namespace VaultSearch

namespace Progress

section Waiting

variable {agent standing : Type} [LinearOrder standing]

/-- Where every agent that is stuck waits for one which, if it is stuck too, stands higher, some
agent is not stuck. -/
theorem exists_free {agents : Finset agent} {stuck : agent → Prop} (rank : agent → standing)
    (some : agents.Nonempty)
    (waits : ∀ waiting ∈ agents, stuck waiting →
      ∃ other ∈ agents, stuck other → rank waiting < rank other) :
    ∃ free ∈ agents, ¬ stuck free := by
  obtain ⟨last, member, highest⟩ := agents.exists_max_image rank some
  by_cases isStuck : stuck last
  · obtain ⟨other, isOther, higher⟩ := waits last member isStuck
    refine ⟨other, isOther, ?_⟩
    intro alsoStuck
    exact absurd (higher alsoStuck) (not_lt_of_ge (highest other isOther))
  · exact ⟨last, member, isStuck⟩

end Waiting

section Draining

variable {state event : Type} {step : state → event → Option state} {invariant : state → Prop}
  {allowed : event → Prop} (work : state → Nat)

/-- Where some allowed event reduces the work as long as there is any, allowed events bring it to
an end. -/
theorem drains
    (advances : ∀ current, invariant current → 0 < work current →
      ∃ next after, allowed next ∧ step current next = some after ∧ invariant after ∧
        work after < work current)
    {current : state} (holds : invariant current) :
    ∃ events final, (∀ next ∈ events, allowed next) ∧
      Transitions.run step current events = some final ∧ invariant final ∧ work final = 0 := by
  induction left : work current using Nat.strongRecOn generalizing current with
  | ind amount ih =>
      by_cases finished : amount = 0
      · refine ⟨[], current, ?_, rfl, holds, left.trans finished⟩
        intro next member
        cases member
      · obtain ⟨next, after, isAllowed, taken, alsoHolds, less⟩ :=
          advances current holds (by omega)
        obtain ⟨events, final, allAllowed, ran, finalHolds, done⟩ :=
          ih (work after) (by omega) alsoHolds rfl
        refine ⟨next :: events, final, ?_, ?_, finalHolds, done⟩
        · intro other member
          rcases List.mem_cons.mp member with same | later
          · rw [same]
            exact isAllowed
          · exact allAllowed other later
        · unfold Transitions.run
          rw [taken]
          exact ran

end Draining

end Progress

end VaultSearch
