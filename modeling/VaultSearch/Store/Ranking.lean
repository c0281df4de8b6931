/-
Lists that are sorted and cut: which items are among the first few, when each item has a
standing in a linear order, and how values come back into their places when each carries its
position.
-/

import Mathlib.Data.List.Nodup
import Mathlib.Data.Prod.Lex
import Mathlib.Order.Lattice

set_option autoImplicit false

namespace VaultSearch.Ranking

variable {item standing : Type} [LinearOrder standing] (place : item → standing)

/-- `sorted(items, key=place)` -/
def sortBy (items : List item) : List item :=
  items.mergeSort (fun left right => place left ≤ place right)

theorem sortBy_perm (items : List item) : (sortBy place items).Perm items :=
  List.mergeSort_perm items _

theorem sortBy_ordered (items : List item) :
    (sortBy place items).Pairwise (fun left right => place left ≤ place right) := by
  have ordered := @List.pairwise_mergeSort item (fun left right => place left ≤ place right)
    (fun left middle right first second =>
      decide_eq_true (le_trans (of_decide_eq_true first) (of_decide_eq_true second)))
    (fun left right => by
      rw [Bool.or_eq_true, decide_eq_true_eq, decide_eq_true_eq]
      exact le_total _ _) items
  exact ordered.imp of_decide_eq_true

variable {place}

/-- Without ties every item stands strictly before the later ones. -/
theorem strict_of_ordered {items : List item}
    (ordered : items.Pairwise (fun left right => place left ≤ place right))
    (distinct : (items.map place).Nodup) :
    items.Pairwise (fun left right => place left < place right) := by
  rw [List.nodup_iff_pairwise_ne, List.pairwise_map] at distinct
  exact (ordered.and distinct).imp (fun both => lt_of_le_of_ne both.1 both.2)

/-- An item is among the first `count` exactly when fewer than `count` stand before it. -/
theorem mem_take_iff {items : List item}
    (strict : items.Pairwise (fun left right => place left < place right)) {chosen : item}
    (member : chosen ∈ items) (count : Nat) :
    chosen ∈ items.take count ↔ items.countP (fun other => place other < place chosen) < count := by
  induction items generalizing count with
  | nil => cases member
  | cons head tail ih =>
      obtain ⟨first, strictTail⟩ := List.pairwise_cons.mp strict
      cases count with
      | zero =>
          constructor
          · intro inside
            cases inside
          · intro few
            exact absurd few (Nat.not_lt_zero _)
      | succ count =>
          rw [List.take_succ_cons, List.mem_cons]
          cases List.mem_cons.mp member with
          | inl same =>
              have none : (head :: tail).countP (fun other => place other < place chosen) = 0 := by
                rw [List.countP_eq_zero, same]
                intro other inside
                rw [decide_eq_true_eq, not_lt]
                cases List.mem_cons.mp inside with
                | inl isHead => rw [isHead]
                | inr later => exact le_of_lt (first other later)
              rw [none]
              constructor
              · intro _inside
                exact Nat.succ_pos count
              · intro _few
                exact Or.inl same
          | inr later =>
              have before := first chosen later
              have apart : chosen ≠ head := by
                intro same
                rw [same] at before
                exact lt_irrefl _ before
              rw [List.countP_cons, decide_eq_true before, if_pos rfl, Nat.succ_lt_succ_iff,
                ← ih strictTail later, or_iff_right apart]

/-- What is cut off stands behind what is kept. -/
theorem le_of_take_drop {items : List item}
    (ordered : items.Pairwise (fun left right => place left ≤ place right)) {count : Nat}
    {kept left : item} (inside : kept ∈ items.take count) (outside : left ∈ items.drop count) :
    place kept ≤ place left := by
  rw [← List.take_append_drop count items] at ordered
  exact (List.pairwise_append.mp ordered).2.2 kept inside left outside

/-! ### Ties -/

section Ties

variable (place) (position : item → Nat)

/-- Sorting leaves items of one standing in their order. -/
theorem filter_sortBy (items : List item) (shared : standing) :
    (sortBy place items).filter (fun chosen => place chosen = shared) =
      items.filter (fun chosen => place chosen = shared) := by
  have alike : (items.filter (fun chosen => place chosen = shared)).Pairwise
      (fun left right => (decide (place left ≤ place right)) = true) := by
    rw [List.pairwise_iff_forall_sublist]
    intro left right inside
    have both : ∀ chosen ∈ [left, right], place chosen = shared := by
      intro chosen member
      exact of_decide_eq_true (List.mem_filter.mp (inside.subset member)).2
    apply decide_eq_true
    rw [both left List.mem_cons_self, both right (List.mem_cons_of_mem _ List.mem_cons_self)]
  have kept := @List.sublist_mergeSort item (fun left right => place left ≤ place right) items
    (fun left middle right first second =>
      decide_eq_true (le_trans (of_decide_eq_true first) (of_decide_eq_true second)))
    (fun left right => by
      rw [Bool.or_eq_true, decide_eq_true_eq, decide_eq_true_eq]
      exact le_total _ _) _ alike List.filter_sublist
  have filtered := kept.filter (fun chosen => place chosen = shared)
  rw [List.filter_filter] at filtered
  simp only [Bool.and_self] at filtered
  have sizes := ((sortBy_perm place items).filter (fun chosen => place chosen = shared)).length_eq
  exact (filtered.eq_of_length sizes.symm).symm

/-- The standing together with the position is strict behind a sort. -/
theorem sortBy_strict {items : List item}
    (increasing : items.Pairwise (fun left right => position left < position right)) :
    (sortBy place items).Pairwise (fun left right =>
      toLex (place left, position left) < toLex (place right, position right)) := by
  rw [List.pairwise_iff_forall_sublist]
  intro left right inside
  rw [Prod.Lex.toLex_lt_toLex]
  have ordered := List.pairwise_iff_forall_sublist.mp (sortBy_ordered place items) inside
  rcases lt_or_eq_of_le ordered with less | same
  · exact Or.inl less
  · right
    have tied := inside.filter (fun chosen => place chosen = place right)
    rw [filter_sortBy place items] at tied
    simp only [List.filter_cons, same, decide_true, if_true, List.filter_nil] at tied
    exact ⟨same, List.pairwise_iff_forall_sublist.mp increasing (tied.trans List.filter_sublist)⟩

variable {place}

/-- What is cut off has as many before it as the cut keeps. -/
theorem many_before {arranged : List item}
    (ordered : arranged.Pairwise (fun left right => place left ≤ place right)) {count : Nat}
    {chosen : item} (member : chosen ∈ arranged) (outside : chosen ∉ arranged.take count) :
    count ≤ (arranged.take count).countP (fun other => place other ≤ place chosen) := by
  rw [← List.take_append_drop count arranged] at member
  have behind := (List.mem_append.mp member).resolve_left outside
  have all : (arranged.take count).countP (fun other => place other ≤ place chosen) =
      (arranged.take count).length := by
    rw [List.countP_eq_length]
    intro kept inside
    exact decide_eq_true (le_of_take_drop ordered inside behind)
  have longer := List.length_pos_of_mem behind
  rw [List.length_drop] at longer
  rw [all, List.length_take]
  omega

/-- Where as many as the cut keeps stand no farther back, all that is kept does. -/
theorem le_of_many {listing : List item}
    (ordered : listing.Pairwise (fun left right => place left ≤ place right)) {count : Nat}
    {kept chosen : item} (inside : kept ∈ listing.take count)
    (many : count ≤ listing.countP (fun other => place other ≤ place chosen)) :
    place kept ≤ place chosen := by
  by_contra farther
  have later : (listing.drop count).countP (fun other => place other ≤ place chosen) = 0 := by
    rw [List.countP_eq_zero]
    intro other dropped below
    exact farther (le_trans (le_of_take_drop ordered inside dropped) (of_decide_eq_true below))
  have short : (listing.take count).countP (fun other => place other ≤ place chosen) <
      (listing.take count).length := by
    apply lt_of_le_of_ne List.countP_le_length
    intro all
    rw [List.countP_eq_length] at all
    exact farther (of_decide_eq_true (all kept inside))
  have bound : (listing.take count).length ≤ count := List.length_take_le count listing
  rw [← List.take_append_drop count listing, List.countP_append, later] at many
  omega

variable (place)

/-- The first few of an arrangement by standing. -/
def CutOf (wanted : List item) (count : Nat) (cut : List item) : Prop :=
  ∃ arranged : List item, arranged.Perm wanted ∧
    arranged.Pairwise (fun left right => place left ≤ place right) ∧ arranged.take count = cut

variable {place} {position}

theorem ordered_of_strict {listing : List item}
    (strict : listing.Pairwise (fun left right =>
      toLex (place left, position left) < toLex (place right, position right))) :
    listing.Pairwise (fun left right => place left ≤ place right) := by
  apply strict.imp
  intro left right before
  rw [Prod.Lex.toLex_lt_toLex] at before
  rcases before with less | same
  · exact le_of_lt less
  · exact le_of_eq same.1

theorem nodup_of_strict {listing : List item}
    (strict : listing.Pairwise (fun left right =>
      toLex (place left, position left) < toLex (place right, position right))) :
    listing.Nodup := by
  apply strict.imp
  intro left right before same
  rw [same] at before
  exact lt_irrefl _ before

/-- A listing without ties is cut as what is wanted would be exactly when nothing before the cut
is unwanted, and nothing wanted that is not listed belongs before it. -/
theorem cutOf_take_iff [DecidableEq item] {listing wanted : List item}
    (strict : listing.Pairwise (fun left right =>
      toLex (place left, position left) < toLex (place right, position right)))
    (distinct : wanted.Nodup) (count : Nat) :
    CutOf place wanted count (listing.take count) ↔
      (∀ chosen ∈ listing, chosen ∈ wanted ∨
        count ≤ listing.countP (fun other =>
          toLex (place other, position other) < toLex (place chosen, position chosen))) ∧
      (∀ chosen ∈ wanted, chosen ∈ listing ∨
        count ≤ listing.countP (fun other => place other ≤ place chosen)) := by
  have ordered := ordered_of_strict strict
  constructor
  · intro isCut
    obtain ⟨arranged, same, sorted, cut⟩ := isCut
    constructor
    · intro chosen member
      by_cases few : listing.countP (fun other => toLex (place other, position other) <
          toLex (place chosen, position chosen)) < count
      · left
        have inside := (mem_take_iff strict member count).mpr few
        rw [← cut] at inside
        exact same.subset (List.mem_of_mem_take inside)
      · exact Or.inr (Nat.le_of_not_lt few)
    · intro chosen member
      by_cases inListing : chosen ∈ listing
      · exact Or.inl inListing
      · right
        have outside : chosen ∉ arranged.take count := by
          rw [cut]
          exact fun inside => inListing (List.mem_of_mem_take inside)
        have many := many_before sorted (same.symm.subset member) outside
        rw [cut] at many
        exact many.trans (List.take_sublist _ _).countP_le
  · intro conditions
    obtain ⟨noneAstray, noneMissed⟩ := conditions
    have keptWanted : listing.take count ⊆ wanted := by
      intro chosen inside
      have member := List.mem_of_mem_take inside
      have few := (mem_take_iff strict member count).mp inside
      exact (noneAstray chosen member).resolve_right (Nat.not_le_of_lt few)
    have listed : (listing.take count).Nodup :=
      (nodup_of_strict strict).sublist (List.take_sublist _ _)
    have outside : ∀ chosen ∈ wanted, chosen ∉ listing.take count →
        chosen ∈ listing.drop count ∨
          count ≤ listing.countP (fun other => place other ≤ place chosen) := by
      intro chosen isWanted notKept
      rcases noneMissed chosen isWanted with inListing | many
      · rw [← List.take_append_drop count listing] at inListing
        exact Or.inl ((List.mem_append.mp inListing).resolve_left notKept)
      · exact Or.inr many
    have others : ∀ chosen, chosen ∈ sortBy place (wanted.filter (· ∉ listing.take count)) ↔
        chosen ∈ wanted ∧ chosen ∉ listing.take count := by
      intro chosen
      rw [(sortBy_perm place _).mem_iff, List.mem_filter, decide_eq_true_eq]
    refine ⟨listing.take count ++ sortBy place (wanted.filter (· ∉ listing.take count)), ?_, ?_, ?_⟩
    · rw [List.perm_ext_iff_of_nodup _ distinct]
      · intro chosen
        rw [List.mem_append, others]
        by_cases kept : chosen ∈ listing.take count
        · exact iff_of_true (Or.inl kept) (keptWanted kept)
        · rw [or_iff_right kept, and_iff_left kept]
      · apply List.Nodup.append listed
        · exact (sortBy_perm place _).nodup_iff.mpr (distinct.filter _)
        · intro chosen kept member
          exact ((others chosen).mp member).2 kept
    · rw [List.pairwise_append]
      refine ⟨ordered.sublist (List.take_sublist _ _), sortBy_ordered place _, ?_⟩
      intro left inside right member
      obtain ⟨isWanted, notKept⟩ := (others right).mp member
      rcases outside right isWanted notKept with dropped | many
      · exact le_of_take_drop ordered inside dropped
      · exact le_of_many ordered inside many
    · by_cases full : (listing.take count).length = count
      · exact List.take_left' full
      · have short : listing.length < count := by
          rw [List.length_take] at full
          omega
        have none : sortBy place (wanted.filter (· ∉ listing.take count)) = [] := by
          rw [List.eq_nil_iff_forall_not_mem]
          intro chosen member
          obtain ⟨isWanted, notKept⟩ := (others chosen).mp member
          rcases outside chosen isWanted notKept with dropped | many
          · rw [List.drop_eq_nil_of_le (Nat.le_of_lt short)] at dropped
            cases dropped
          · have bound : listing.countP (fun other => place other ≤ place chosen) ≤
                listing.length := List.countP_le_length
            omega
        rw [none, List.append_nil, List.take_take, Nat.min_self]

end Ties

/-! ### Back into place -/

section Placed

variable {value : Type}

/-- The values of a list with their positions. -/
def indexed (values : List value) : List (Nat × value) :=
  values.zipIdx.map Prod.swap

theorem indexed_positions (values : List value) :
    (indexed values).map Prod.fst = List.range values.length := by
  unfold indexed
  rw [List.map_map, List.range_eq_range', ← List.zipIdx_map_snd 0 values]
  rfl

theorem length_indexed (values : List value) : (indexed values).length = values.length := by
  unfold indexed
  rw [List.length_map, List.length_zipIdx]

theorem mem_indexed {values : List value} {position : Nat} {item : value} :
    (position, item) ∈ indexed values ↔ values[position]? = some item := by
  unfold indexed
  rw [List.mem_map]
  constructor
  · intro found
    obtain ⟨entry, inside, same⟩ := found
    have back : entry = (item, position) := congrArg Prod.swap same
    rw [back] at inside
    exact List.mem_zipIdx_iff_getElem?.mp inside
  · intro here
    exact ⟨(item, position), List.mem_zipIdx_iff_getElem?.mpr here, rfl⟩

/-- Each value is written at its position. -/
def placeAll (start : List value) (placed : List (Nat × value)) : List value :=
  placed.foldl (fun values entry => values.set entry.1 entry.2) start

theorem length_placeAll (placed : List (Nat × value)) (start : List value) :
    (placeAll start placed).length = start.length := by
  induction placed generalizing start with
  | nil => rfl
  | cons head tail ih => exact (ih (start.set head.1 head.2)).trans (List.length_set ..)

/-- A position that is not written keeps its value. -/
theorem getElem?_placeAll_other {placed : List (Nat × value)} {position : Nat}
    (absent : position ∉ placed.map Prod.fst) (start : List value) :
    (placeAll start placed)[position]? = start[position]? := by
  induction placed generalizing start with
  | nil => rfl
  | cons head tail ih =>
      rw [List.map_cons, List.mem_cons, not_or] at absent
      exact (ih absent.2 (start.set head.1 head.2)).trans
        (List.getElem?_set_ne (Ne.symm absent.1))

/-- A position that is written once holds the value that was written. -/
theorem getElem?_placeAll {placed : List (Nat × value)} (distinct : (placed.map Prod.fst).Nodup)
    {position : Nat} {item : value} (member : (position, item) ∈ placed) (start : List value)
    (inside : position < start.length) : (placeAll start placed)[position]? = some item := by
  induction placed generalizing start with
  | nil => cases member
  | cons head tail ih =>
      rw [List.map_cons, List.nodup_cons] at distinct
      cases List.mem_cons.mp member with
      | inl same =>
          rw [← same] at distinct ⊢
          exact (getElem?_placeAll_other distinct.1 (start.set position item)).trans
            (List.getElem?_set_self inside)
      | inr later =>
          apply ih distinct.2 later (start.set head.1 head.2)
          rw [List.length_set]
          exact inside

/-- In whatever order the indexed values are written, they are back in their places. -/
theorem placeAll_indexed {values start : List value} {placed : List (Nat × value)}
    (order : placed.Perm (indexed values)) (size : start.length = values.length) :
    placeAll start placed = values := by
  have distinct : (placed.map Prod.fst).Nodup := by
    rw [(order.map Prod.fst).nodup_iff, indexed_positions]
    exact List.nodup_range
  apply List.ext_getElem?
  intro position
  by_cases inside : position < values.length
  · have here := List.getElem?_eq_getElem inside
    rw [here]
    apply getElem?_placeAll distinct
    · rw [order.mem_iff]
      exact mem_indexed.mpr here
    · rw [size]
      exact inside
  · rw [List.getElem?_eq_none (Nat.not_lt.mp inside), List.getElem?_eq_none]
    rw [length_placeAll, size]
    exact Nat.not_lt.mp inside

end Placed

end VaultSearch.Ranking
