/-
Grouping by first fit.

The items are taken in order.  An item that is alike to none of the heads chosen so far becomes
a head itself; every other item goes to the first head that it is alike to.
-/

import Mathlib.Data.List.Nodup
import Mathlib.Data.List.Pairwise

set_option autoImplicit false

namespace VaultSearch.FirstFit

variable {element : Type} (alike : element → element → Bool)

/-- The heads among further items, when some have been chosen already. -/
def headsAfter : List element → List element → List element
  | _, [] => []
  | chosen, item :: rest =>
      if chosen.any (fun head => alike head item) then headsAfter chosen rest
      else item :: headsAfter (chosen ++ [item]) rest

def heads (items : List element) : List element :=
  headsAfter alike [] items

def headOf (heads : List element) (item : element) : Option element :=
  heads.find? (fun head => alike head item)

/-- The items of a head, without the head itself. -/
def followers [DecidableEq element] (heads items : List element) (head : element) :
    List element :=
  items.filter (fun other => other ≠ head && headOf alike heads other = some head)

/-- No two of the items are alike. -/
def Apart (items : List element) : Prop :=
  items.Pairwise (fun left right => alike left right = false)

variable {alike}

theorem headsAfter_taken {chosen later : List element} {item : element}
    (taken : chosen.any (fun head => alike head item) = true) :
    headsAfter alike chosen (item :: later) = headsAfter alike chosen later := by
  rw [headsAfter, if_pos taken]

theorem headsAfter_free {chosen later : List element} {item : element}
    (free : chosen.any (fun head => alike head item) = false) :
    headsAfter alike chosen (item :: later) =
      item :: headsAfter alike (chosen ++ [item]) later := by
  rw [headsAfter, free, if_neg Bool.false_ne_true]

theorem mem_headsAfter {chosen items : List element} {head : element}
    (isHead : head ∈ headsAfter alike chosen items) : head ∈ items := by
  induction items generalizing chosen with
  | nil => cases isHead
  | cons item rest ih =>
      cases taken : chosen.any (fun head => alike head item) with
      | true =>
          rw [headsAfter_taken taken] at isHead
          exact List.mem_cons_of_mem _ (ih isHead)
      | false =>
          rw [headsAfter_free taken] at isHead
          rcases List.mem_cons.mp isHead with same | later
          · rw [same]
            exact List.mem_cons_self
          · exact List.mem_cons_of_mem _ (ih later)

theorem mem_heads {items : List element} {head : element} (isHead : head ∈ heads alike items) :
    head ∈ items :=
  mem_headsAfter isHead

theorem headsAfter_nodup {items : List element} (distinct : items.Nodup) :
    ∀ chosen, (headsAfter alike chosen items).Nodup := by
  induction items with
  | nil =>
      intro chosen
      exact List.nodup_nil
  | cons item rest ih =>
      intro chosen
      obtain ⟨fresh, distinct⟩ := List.nodup_cons.mp distinct
      cases taken : chosen.any (fun head => alike head item) with
      | true =>
          rw [headsAfter_taken taken]
          exact ih distinct chosen
      | false =>
          rw [headsAfter_free taken]
          apply List.nodup_cons.mpr
          exact ⟨fun isHead => fresh (mem_headsAfter isHead), ih distinct _⟩

theorem Apart.append {chosen : List element} {item : element} (apart : Apart alike chosen)
    (free : chosen.any (fun head => alike head item) = false) : Apart alike (chosen ++ [item]) := by
  apply List.pairwise_append.mpr
  refine ⟨apart, List.pairwise_singleton _ _, ?_⟩
  intro head isChosen other isItem
  rw [List.mem_singleton.mp isItem]
  exact Bool.eq_false_iff.mpr (List.any_eq_false.mp free head isChosen)

/-- A head is alike to no head before it. -/
theorem apart_headsAfter (items : List element) :
    ∀ chosen, Apart alike chosen → Apart alike (chosen ++ headsAfter alike chosen items) := by
  induction items with
  | nil =>
      intro chosen apart
      have nothing : headsAfter alike chosen [] = [] := rfl
      rw [nothing, List.append_nil]
      exact apart
  | cons item rest ih =>
      intro chosen apart
      cases taken : chosen.any (fun head => alike head item) with
      | true =>
          rw [headsAfter_taken taken]
          exact ih chosen apart
      | false =>
          have whole := ih (chosen ++ [item]) (apart.append taken)
          rw [List.append_assoc] at whole
          rw [headsAfter_free taken]
          exact whole

theorem heads_apart (items : List element) : Apart alike (heads alike items) :=
  apart_headsAfter items [] List.Pairwise.nil

/-- An item that is no head is alike to one. -/
theorem covered_headsAfter {items : List element} {item : element} (member : item ∈ items) :
    ∀ chosen, item ∈ headsAfter alike chosen items ∨
      ∃ head ∈ chosen ++ headsAfter alike chosen items, alike head item = true := by
  induction items with
  | nil => cases member
  | cons first rest ih =>
      intro chosen
      cases taken : chosen.any (fun head => alike head first) with
      | true =>
          rw [headsAfter_taken taken]
          rcases List.mem_cons.mp member with same | later
          · obtain ⟨head, isChosen, alikeThem⟩ := List.any_eq_true.mp taken
            rw [same]
            exact Or.inr ⟨head, List.mem_append_left _ isChosen, alikeThem⟩
          · exact ih later chosen
      | false =>
          rw [headsAfter_free taken]
          rcases List.mem_cons.mp member with same | later
          · rw [same]
            exact Or.inl List.mem_cons_self
          · rcases ih later (chosen ++ [first]) with isHead | ⟨head, isHead, alikeThem⟩
            · exact Or.inl (List.mem_cons_of_mem _ isHead)
            · rw [List.append_assoc] at isHead
              exact Or.inr ⟨head, isHead, alikeThem⟩

theorem headOf_some {heads : List element} {head item : element}
    (found : headOf alike heads item = some head) :
    head ∈ heads ∧ alike head item = true := by
  unfold headOf at found
  have alikeThem := List.find?_some found
  exact ⟨List.mem_of_find?_eq_some found, alikeThem⟩

theorem headOf_append_of_some {front back : List element} {head item : element}
    (found : headOf alike front item = some head) :
    headOf alike (front ++ back) item = some head := by
  unfold headOf at *
  rw [List.find?_append, found]
  rfl

theorem headOf_eq_none {heads : List element} {item : element} :
    headOf alike heads item = none ↔ heads.any (fun head => alike head item) = false := by
  unfold headOf
  rw [List.find?_eq_none, List.any_eq_false]

/-! ### A symmetric relation -/

section Symmetric

variable (symmetric : ∀ left right, alike left right = alike right left)
include symmetric

/-- No head is alike to another. -/
theorem heads_not_alike {items : List element} {head other : element}
    (isHead : head ∈ heads alike items) (isOther : other ∈ heads alike items)
    (differ : head ≠ other) : alike head other = false := by
  have swapped : Std.Symm (fun left right => alike left right = false) :=
    { symm := fun left right apart => by rw [symmetric right left, apart] }
  exact List.Pairwise.forall (heads_apart items) isHead isOther differ

omit symmetric in
/-- An item that is no head follows one. -/
theorem head_or_followed {items : List element} {item : element} (member : item ∈ items) :
    item ∈ heads alike items ∨ ∃ head, headOf alike (heads alike items) item = some head := by
  rcases covered_headsAfter member [] with isHead | ⟨head, isHead, alikeThem⟩
  · exact Or.inl isHead
  · right
    apply Option.isSome_iff_exists.mp
    unfold headOf
    rw [List.find?_isSome]
    exact ⟨head, isHead, alikeThem⟩

variable [DecidableEq element]

omit symmetric in
theorem mem_followers {heads items : List element} {head other : element} :
    other ∈ followers alike heads items head ↔
      other ∈ items ∧ other ≠ head ∧ headOf alike heads other = some head := by
  unfold followers
  rw [List.mem_filter, Bool.and_eq_true, decide_eq_true_eq, decide_eq_true_eq]

/-- A follower is no head. -/
theorem follower_not_head {items : List element} {head other : element}
    (follows : other ∈ followers alike (heads alike items) items head) :
    other ∉ heads alike items := by
  intro isHead
  obtain ⟨_member, differ, found⟩ := mem_followers.mp follows
  obtain ⟨isHead', alikeThem⟩ := headOf_some found
  rw [heads_not_alike symmetric isHead' isHead differ.symm] at alikeThem
  cases alikeThem

/-! ### Classes -/

variable (alike) in
/-- The class of a head, unless the head is alone. -/
def classOf (heads items : List element) (head : element) : Option (element × List element) :=
  if (followers alike heads items head).isEmpty then none
  else some (head, followers alike heads items head)

variable (alike) in
def classes (items : List element) : List (element × List element) :=
  (heads alike items).filterMap (classOf alike (heads alike items) items)

omit symmetric in
theorem classOf_eq_some {heads items : List element} {head : element}
    {found : element × List element} :
    classOf alike heads items head = some found ↔
      found = (head, followers alike heads items head) ∧
        followers alike heads items head ≠ [] := by
  unfold classOf
  cases someone : followers alike heads items head with
  | nil => simp
  | cons first others => simp [eq_comm]

omit symmetric in
theorem mem_classes {items : List element} {found : element × List element} :
    found ∈ classes alike items ↔
      found.1 ∈ heads alike items ∧
        found.2 = followers alike (heads alike items) items found.1 ∧ found.2 ≠ [] := by
  unfold classes
  rw [List.mem_filterMap]
  constructor
  · rintro ⟨head, isHead, isClass⟩
    obtain ⟨same, someone⟩ := classOf_eq_some.mp isClass
    rw [same]
    exact ⟨isHead, rfl, someone⟩
  · rintro ⟨isHead, same, someone⟩
    refine ⟨found.1, isHead, classOf_eq_some.mpr ⟨Prod.ext rfl same, ?_⟩⟩
    rw [← same]
    exact someone

/-! ### One pass with marks -/

variable (alike) in
/-- Each item that is not marked takes the later items that are alike to it and not marked. -/
def pass (marked : List element) : List element → List (element × List element)
  | [] => []
  | item :: later =>
      if marked.contains item then pass marked later
      else
        let taken := later.filter (fun other => !marked.contains other && alike item other)
        let others := pass (item :: taken ++ marked) later
        if taken.isEmpty then others else (item, taken) :: others

/-- What is marked when some heads are chosen and some items are still to come. -/
structure Marked (alike : element → element → Bool) (chosen marked later : List element) :
    Prop where
  taken : ∀ other ∈ later,
    marked.contains other = chosen.any (fun head => alike head other)
  fresh : ∀ head ∈ chosen, head ∉ later
  apart : Apart alike chosen

omit symmetric in
theorem Marked.skip {chosen marked later : List element} {item : element}
    (state : Marked alike chosen marked (item :: later)) : Marked alike chosen marked later := by
  constructor
  · intro other member
    exact state.taken other (List.mem_cons_of_mem _ member)
  · intro head isChosen member
    exact state.fresh head isChosen (List.mem_cons_of_mem _ member)
  · exact state.apart

omit symmetric in
theorem Marked.take {chosen marked later : List element} {item : element}
    (state : Marked alike chosen marked (item :: later)) (distinct : (item :: later).Nodup)
    (free : chosen.any (fun head => alike head item) = false) :
    Marked alike (chosen ++ [item])
      (item :: later.filter (fun other => !marked.contains other && alike item other) ++ marked)
      later := by
  obtain ⟨first, _distinct⟩ := List.nodup_cons.mp distinct
  constructor
  · intro other member
    have differ : other ≠ item := by
      intro same
      rw [same] at member
      exact first member
    rw [List.any_append, ← state.taken other (List.mem_cons_of_mem _ member), Bool.eq_iff_iff]
    simp [differ, member]
    tauto
  · intro head isChosen member
    rcases List.mem_append.mp isChosen with earlier | isItem
    · exact state.fresh head earlier (List.mem_cons_of_mem _ member)
    · rw [List.mem_singleton.mp isItem] at member
      exact first member
  · exact state.apart.append free

omit symmetric in
/-- An item that goes to another head does not change the class of this one. -/
theorem classOf_cons {heads later : List element} {item head : element}
    (elsewhere : headOf alike heads item ≠ some head) :
    classOf alike heads (item :: later) head = classOf alike heads later head := by
  have same : followers alike heads (item :: later) head = followers alike heads later head := by
    unfold followers
    apply List.filter_cons_of_neg
    simp [elsewhere]
  unfold classOf
  rw [same]

omit symmetric in
/-- What an item takes is what follows it. -/
theorem taken_eq_followers {chosen marked later : List element} {item : element}
    (state : Marked alike chosen marked (item :: later)) (distinct : (item :: later).Nodup)
    {heads : List element} (fresh : item ∉ heads) :
    later.filter (fun other => !marked.contains other && alike item other) =
      followers alike (chosen ++ item :: heads) (item :: later) item := by
  unfold followers
  rw [List.filter_cons_of_neg (by simp)]
  apply List.filter_congr
  intro other member
  have differ : other ≠ item := by
    intro same
    rw [same] at member
    exact (List.nodup_cons.mp distinct).1 member
  rw [state.taken other (List.mem_cons_of_mem _ member), decide_eq_true differ, Bool.true_and]
  cases early : headOf alike chosen other with
  | some head =>
      have isChosen : head ∈ chosen := (headOf_some early).1
      have otherwise : head ≠ item := by
        intro same
        exact state.fresh head isChosen (by rw [same]; exact List.mem_cons_self)
      have any : chosen.any (fun head => alike head other) = true :=
        List.any_eq_true.mpr ⟨head, headOf_some early⟩
      rw [any, headOf_append_of_some early]
      simp [otherwise]
  | none =>
      rw [headOf_eq_none.mp early, Bool.not_false, Bool.true_and]
      unfold headOf at early ⊢
      rw [List.find?_append, early, Option.none_or, List.find?_cons]
      cases alikeThem : alike item other with
      | true => simp
      | false =>
          have later : heads.find? (fun head => alike head other) ≠ some item := by
            intro found
            exact fresh (List.mem_of_find?_eq_some found)
          simp [later]

/-- The pass makes the classes of the heads. -/
theorem pass_eq {later : List element} (distinct : later.Nodup) :
    ∀ chosen marked, Marked alike chosen marked later →
      pass alike marked later =
        (headsAfter alike chosen later).filterMap
          (classOf alike (chosen ++ headsAfter alike chosen later) later) := by
  induction later with
  | nil =>
      intro chosen marked _state
      rfl
  | cons item later ih =>
      intro chosen marked state
      obtain ⟨first, others⟩ := List.nodup_cons.mp distinct
      have atItem := state.taken item List.mem_cons_self
      unfold pass
      cases taken : chosen.any (fun head => alike head item) with
      | true =>
          rw [headsAfter_taken taken, atItem, taken, if_pos rfl,
            ih others chosen marked state.skip]
          apply List.filterMap_congr
          intro head isHead
          obtain ⟨earlier, isChosen, alikeThem⟩ := List.any_eq_true.mp taken
          symm
          apply classOf_cons
          intro found
          obtain ⟨first', found'⟩ : ∃ first', headOf alike chosen item = some first' := by
            apply Option.isSome_iff_exists.mp
            unfold headOf
            rw [List.find?_isSome]
            exact ⟨earlier, isChosen, alikeThem⟩
          rw [headOf_append_of_some found'] at found
          have isChosen' := (headOf_some found').1
          rw [Option.some.inj found] at isChosen'
          exact state.fresh head isChosen' (List.mem_cons_of_mem _ (mem_headsAfter isHead))
      | false =>
          rw [headsAfter_free taken, atItem, taken, if_neg Bool.false_ne_true]
          dsimp only
          have next := state.take distinct taken
          have unlisted : item ∉ headsAfter alike (chosen ++ [item]) later :=
            fun isHead => first (mem_headsAfter isHead)
          rw [ih others _ _ next, taken_eq_followers state distinct unlisted,
            List.append_assoc, List.singleton_append]
          have whole := apart_headsAfter later _ next.apart
          have unchanged : ∀ head ∈ headsAfter alike (chosen ++ [item]) later,
              classOf alike (chosen ++ item :: headsAfter alike (chosen ++ [item]) later)
                (item :: later) head =
              classOf alike (chosen ++ item :: headsAfter alike (chosen ++ [item]) later)
                later head := by
            intro head isHead
            apply classOf_cons
            intro found
            have alikeThem := (headOf_some found).2
            have apart := (List.pairwise_append.mp whole).2.2 item
              (List.mem_append_right _ (List.mem_singleton_self item)) head isHead
            rw [symmetric, apart] at alikeThem
            cases alikeThem
          rw [List.filterMap_cons, List.filterMap_congr unchanged]
          unfold classOf
          split
          · rfl
          · rfl

/-- One pass over distinct items makes their classes. -/
theorem pass_eq_classes {items : List element} (distinct : items.Nodup) :
    pass alike [] items = classes alike items := by
  have start : Marked alike [] [] items := by
    constructor
    · intro other _member
      rfl
    · intro head impossible
      cases impossible
    · exact List.Pairwise.nil
  exact pass_eq symmetric distinct [] [] start

/-- An item is in the classes of no two heads. -/
theorem classes_disjoint {items : List element} (distinct : items.Nodup) :
    (classes alike items).Pairwise
      (fun left right => List.Disjoint (left.1 :: left.2) (right.1 :: right.2)) := by
  unfold classes
  rw [List.pairwise_filterMap]
  apply List.Pairwise.imp_of_mem _ (headsAfter_nodup distinct [])
  intro first second isFirst isSecond differ left isLeft right isRight
  obtain ⟨sameLeft, _someone⟩ := classOf_eq_some.mp isLeft
  obtain ⟨sameRight, _someone'⟩ := classOf_eq_some.mp isRight
  rw [sameLeft, sameRight]
  intro item inLeft inRight
  rcases List.mem_cons.mp inLeft with isFirst' | follows
  · rcases List.mem_cons.mp inRight with isSecond' | follows'
    · exact differ (isFirst'.symm.trans isSecond')
    · rw [isFirst'] at follows'
      exact follower_not_head symmetric follows' isFirst
  · rcases List.mem_cons.mp inRight with isSecond' | follows'
    · rw [isSecond'] at follows
      exact follower_not_head symmetric follows isSecond
    · have found := (mem_followers.mp follows).2.2
      have found' := (mem_followers.mp follows').2.2
      rw [found] at found'
      exact differ (Option.some.inj found')

omit symmetric in
/-- One item alone has no class. -/
theorem classes_of_few {items : List element} (few : items.length < 2) :
    classes alike items = [] := by
  apply List.eq_nil_iff_forall_not_mem.mpr
  intro found isClass
  obtain ⟨isHead, same, someone⟩ := mem_classes.mp isClass
  obtain ⟨other, follows⟩ := List.exists_mem_of_ne_nil _ someone
  rw [same] at follows
  obtain ⟨member, differ, _found⟩ := mem_followers.mp follows
  have isItem := mem_heads isHead
  cases items with
  | nil => cases member
  | cons only rest =>
      have empty : rest = [] := by
        apply List.length_eq_zero_iff.mp
        rw [List.length_cons] at few
        omega
      rw [empty, List.mem_singleton] at member isItem
      exact differ (member.trans isItem.symm)

/-- Every item is in a class, but for heads that stay alone. -/
theorem in_class_iff {items : List element} {item : element} (member : item ∈ items) :
    (∃ found ∈ classes alike items, item ∈ found.1 :: found.2) ↔
      (item ∈ heads alike items → followers alike (heads alike items) items item ≠ []) := by
  constructor
  · rintro ⟨found, isClass, inClass⟩ isHead
    obtain ⟨_isHead, same, someone⟩ := mem_classes.mp isClass
    rcases List.mem_cons.mp inClass with isFirst | follows
    · rw [isFirst, ← same]
      exact someone
    · rw [same] at follows
      exact absurd isHead (follower_not_head symmetric follows)
  · intro attended
    by_cases isHead : item ∈ heads alike items
    · refine ⟨(item, _), mem_classes.mpr ⟨isHead, rfl, attended isHead⟩, List.mem_cons_self⟩
    · rcases head_or_followed member with isHead' | ⟨head, found⟩
      · exact absurd isHead' isHead
      · have among : head ∈ heads alike items := (headOf_some found).1
        have differ : item ≠ head := by
          intro same
          rw [same] at isHead
          exact isHead among
        have follows := mem_followers.mpr ⟨member, differ, found⟩
        refine ⟨(head, _), mem_classes.mpr ⟨among, rfl, List.ne_nil_of_mem follows⟩, ?_⟩
        exact List.mem_cons_of_mem _ follows

end Symmetric

end VaultSearch.FirstFit
