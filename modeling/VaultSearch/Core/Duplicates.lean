/-
The grouping of duplicates, `search_duplicates` of `core/searcher.py`.

The mean vectors and their similarity matrix are left to the vector library: a similarity of
two notes is an entry of the matrix.
-/

import VaultSearch.Graph.FirstFit
import VaultSearch.Text.Basic

set_option autoImplicit false

namespace VaultSearch

/-- `_NoteEmbedding` without its vectors -/
structure DuplicateNote where
  notePath : Text
  noteTitle : Text
  folder : Text
  deriving DecidableEq

structure DuplicateGroup (score : Type) where
  notes : List DuplicateNote
  count : Nat
  avgSimilarity : score

/-- `notes_list`, which comes out of a dictionary with the paths as keys, and
`similarity_matrix`. -/
structure ComparedNotes (score : Type) where
  notes : List DuplicateNote
  distinct : (notes.map DuplicateNote.notePath).Nodup
  similarity : DuplicateNote → DuplicateNote → score
  symmetric : ∀ left right, similarity left right = similarity right left

namespace ComparedNotes

variable {score : Type} [LE score] [DecidableLE score]
variable (compared : ComparedNotes score) (threshold : score)
  (average : List score → score)

/-- `score >= threshold` -/
def alike (note other : DuplicateNote) : Bool :=
  threshold ≤ compared.similarity note other

/-- The later notes that are similar and not processed, with their scores. -/
def similarNotes (processed : List DuplicateNote) (note : DuplicateNote)
    (later : List DuplicateNote) : List (DuplicateNote × score) :=
  (later.filter (fun other =>
    !processed.contains other && compared.alike threshold note other)).map
      (fun other => (other, compared.similarity note other))

def duplicateGroup (note : DuplicateNote) (similar : List (DuplicateNote × score)) :
    DuplicateGroup score :=
  { notes := note :: similar.map Prod.fst
    count := (note :: similar.map Prod.fst).length
    avgSimilarity := average (similar.map Prod.snd) }

/-- `for i in range(len(notes_list))`, from a note on. -/
def groupsFrom (processed : List DuplicateNote) :
    List DuplicateNote → List (DuplicateGroup score)
  | [] => []
  | note :: later =>
      if processed.contains note then groupsFrom processed later
      else
        let similar := compared.similarNotes threshold processed note later
        let groups := groupsFrom (note :: similar.map Prod.fst ++ processed) later
        if similar.isEmpty then groups else duplicateGroup average note similar :: groups

/-- `search_duplicates`, once the notes are compared. -/
def searchDuplicates : List (DuplicateGroup score) :=
  if compared.notes.length < 2 then []
  else
    (compared.groupsFrom threshold average [] compared.notes).mergeSort
      (fun left right => right.avgSimilarity ≤ left.avgSimilarity)

/-! ### The groups are the classes of a first fit -/

/-- The group of a head and what follows it. -/
def classGroup (found : DuplicateNote × List DuplicateNote) : DuplicateGroup score :=
  duplicateGroup average found.1
    (found.2.map (fun other => (other, compared.similarity found.1 other)))

variable {compared threshold average}

omit [LE score] [DecidableLE score] in
@[simp] theorem classGroup_notes (found : DuplicateNote × List DuplicateNote) :
    (compared.classGroup average found).notes = found.1 :: found.2 := by
  unfold classGroup duplicateGroup
  dsimp only
  rw [List.map_map]
  exact congrArg _ (List.map_id _)

theorem alike_symmetric (left right : DuplicateNote) :
    compared.alike threshold left right = compared.alike threshold right left := by
  unfold alike
  rw [compared.symmetric left right]

omit [LE score] [DecidableLE score] in
theorem notes_nodup : compared.notes.Nodup :=
  List.Nodup.of_map _ compared.distinct

theorem groupsFrom_eq (later : List DuplicateNote) :
    ∀ processed, compared.groupsFrom threshold average processed later =
      (FirstFit.pass (compared.alike threshold) processed later).map
        (compared.classGroup average) := by
  induction later with
  | nil =>
      intro processed
      rfl
  | cons note later ih =>
      intro processed
      unfold groupsFrom FirstFit.pass
      split
      · exact ih processed
      · have firsts : (compared.similarNotes threshold processed note later).map Prod.fst =
            later.filter (fun other =>
              !processed.contains other && compared.alike threshold note other) := by
          unfold similarNotes
          rw [List.map_map]
          exact List.map_id _
        have empty : (compared.similarNotes threshold processed note later).isEmpty =
            (later.filter (fun other =>
              !processed.contains other && compared.alike threshold note other)).isEmpty := by
          unfold similarNotes
          exact List.isEmpty_map
        dsimp only
        rw [firsts, empty, ih]
        split
        · rfl
        · rfl

/-- The list that is returned has the classes of the first fit, sorted. -/
theorem searchDuplicates_perm :
    (compared.searchDuplicates threshold average).Perm
      ((FirstFit.classes (compared.alike threshold) compared.notes).map
        (compared.classGroup average)) := by
  have symmetric : ∀ left right, compared.alike threshold left right =
      compared.alike threshold right left := alike_symmetric
  unfold searchDuplicates
  by_cases few : compared.notes.length < 2
  · rw [if_pos few, FirstFit.classes_of_few few, List.map_nil]
  · rw [if_neg few, ← FirstFit.pass_eq_classes symmetric notes_nodup, ← groupsFrom_eq]
    exact List.mergeSort_perm _ _

/-! ### Completeness -/

/-- What the groups are for. -/
structure CompleteGroups (compared : ComparedNotes score) (threshold : score)
    (groups : List (DuplicateGroup score)) : Prop where
  disjoint : groups.Pairwise (fun left right => List.Disjoint left.notes right.notes)
  plural : ∀ group ∈ groups, 2 ≤ group.notes.length
  similar : ∀ group ∈ groups, ∃ first later, group.notes = first :: later ∧
    ∀ other ∈ later, threshold ≤ compared.similarity first other
  complete : ∀ note ∈ compared.notes,
    (∃ other ∈ compared.notes, other ≠ note ∧ threshold ≤ compared.similarity note other) →
      groups.countP (fun group => group.notes.contains note) = 1

/-- Every head that has a similar note is the first head that is similar to some other note.
A head is a note that is similar to no head before it. -/
def HeadsFollowed (compared : ComparedNotes score) (threshold : score) : Prop :=
  let heads := FirstFit.heads (compared.alike threshold) compared.notes
  ∀ head ∈ heads,
    (∃ other ∈ compared.notes, other ≠ head ∧ threshold ≤ compared.similarity head other) →
      ∃ other ∈ compared.notes, other ≠ head ∧
        FirstFit.headOf (compared.alike threshold) heads other = some head

omit [DecidableLE score] in
theorem CompleteGroups.of_perm {groups others : List (DuplicateGroup score)}
    (same : groups.Perm others) (complete : CompleteGroups compared threshold groups) :
    CompleteGroups compared threshold others := by
  constructor
  · exact (same.pairwise_iff (fun apart => List.disjoint_symm apart)).mp complete.disjoint
  · intro group member
    exact complete.plural group (same.mem_iff.mpr member)
  · intro group member
    exact complete.similar group (same.mem_iff.mpr member)
  · intro note member similar
    rw [← same.countP_eq]
    exact complete.complete note member similar

omit [LE score] [DecidableLE score] in
/-- Of disjoint groups, exactly one holds a note if some group does. -/
theorem countP_eq_one_iff {groups : List (DuplicateGroup score)} {note : DuplicateNote}
    (disjoint : groups.Pairwise (fun left right => List.Disjoint left.notes right.notes)) :
    groups.countP (fun group => group.notes.contains note) = 1 ↔
      ∃ group ∈ groups, note ∈ group.notes := by
  induction groups with
  | nil => simp
  | cons first others ih =>
      obtain ⟨apart, disjoint⟩ := List.pairwise_cons.mp disjoint
      by_cases inFirst : note ∈ first.notes
      · have nowhere : others.countP (fun group => group.notes.contains note) = 0 := by
          rw [List.countP_eq_zero]
          intro group member present
          exact apart group member inFirst (List.contains_iff_mem.mp present)
        rw [List.countP_cons, nowhere, if_pos (List.contains_iff_mem.mpr inFirst)]
        exact iff_of_true rfl ⟨first, List.mem_cons_self, inFirst⟩
      · rw [List.countP_cons, if_neg (fun present => inFirst (List.contains_iff_mem.mp present)),
          Nat.add_zero, ih disjoint, List.exists_mem_cons_iff]
        exact (or_iff_right inFirst).symm

theorem classes_complete_iff :
    CompleteGroups compared threshold
        ((FirstFit.classes (compared.alike threshold) compared.notes).map
          (compared.classGroup average)) ↔
      HeadsFollowed compared threshold := by
  have symmetric : ∀ left right, compared.alike threshold left right =
      compared.alike threshold right left := alike_symmetric
  have disjoint : ((FirstFit.classes (compared.alike threshold) compared.notes).map
      (compared.classGroup average)).Pairwise
        (fun left right => List.Disjoint left.notes right.notes) := by
    rw [List.pairwise_map]
    simp only [classGroup_notes]
    exact FirstFit.classes_disjoint symmetric notes_nodup
  have counted : ∀ note ∈ compared.notes,
      (((FirstFit.classes (compared.alike threshold) compared.notes).map
        (compared.classGroup average)).countP (fun group => group.notes.contains note) = 1 ↔
      (note ∈ FirstFit.heads (compared.alike threshold) compared.notes →
        FirstFit.followers (compared.alike threshold)
          (FirstFit.heads (compared.alike threshold) compared.notes) compared.notes note ≠ [])) := by
    intro note member
    rw [countP_eq_one_iff disjoint, ← FirstFit.in_class_iff symmetric member]
    constructor
    · rintro ⟨group, isGroup, inGroup⟩
      obtain ⟨found, isClass, same⟩ := List.mem_map.mp isGroup
      rw [← same, classGroup_notes] at inGroup
      exact ⟨found, isClass, inGroup⟩
    · rintro ⟨found, isClass, inClass⟩
      refine ⟨_, List.mem_map_of_mem isClass, ?_⟩
      rw [classGroup_notes]
      exact inClass
  constructor
  · intro complete head isHead similar
    have member := FirstFit.mem_heads isHead
    have attended := (counted head member).mp (complete.complete head member similar) isHead
    obtain ⟨other, follows⟩ := List.exists_mem_of_ne_nil _ attended
    exact ⟨other, FirstFit.mem_followers.mp follows⟩
  · intro followed
    constructor
    · exact disjoint
    · intro group member
      obtain ⟨found, isClass, same⟩ := List.mem_map.mp member
      obtain ⟨_isHead, _same, someone⟩ := FirstFit.mem_classes.mp isClass
      rw [← same, classGroup_notes, List.length_cons]
      exact Nat.succ_le_succ (List.length_pos_iff.mpr someone)
    · intro group member
      obtain ⟨found, isClass, same⟩ := List.mem_map.mp member
      obtain ⟨_isHead, same', _someone⟩ := FirstFit.mem_classes.mp isClass
      refine ⟨found.1, found.2, by rw [← same, classGroup_notes], ?_⟩
      intro other follows
      rw [same'] at follows
      have alikeThem := (FirstFit.headOf_some (FirstFit.mem_followers.mp follows).2.2).2
      exact of_decide_eq_true alikeThem
    · intro note member similar
      apply (counted note member).mpr
      intro isHead
      obtain ⟨other, follows⟩ := followed note isHead similar
      exact List.ne_nil_of_mem (FirstFit.mem_followers.mpr follows)

/-- The groups are complete exactly if every head that has a similar note is followed. -/
theorem completeGroups_iff (compared : ComparedNotes score) (threshold : score)
    (average : List score → score) :
    CompleteGroups compared threshold (compared.searchDuplicates threshold average) ↔
      HeadsFollowed compared threshold := by
  rw [← classes_complete_iff]
  constructor
  · exact CompleteGroups.of_perm searchDuplicates_perm
  · exact CompleteGroups.of_perm searchDuplicates_perm.symm

/-! ### A chain of similar notes -/

def namedNote (name : Text) : DuplicateNote :=
  { notePath := name, noteTitle := name, folder := [] }

/-- Three notes in a row, in per cent: the one in the middle is similar to its neighbours, which
are not similar to each other. -/
def chainSimilarity (note other : DuplicateNote) : Nat :=
  let middle := namedNote "b.md".toList
  if note = other then 100 else if note = middle ∨ other = middle then 95 else 40

def chainNotes : ComparedNotes Nat :=
  { notes := ["a.md".toList, "b.md".toList, "c.md".toList].map namedNote
    distinct := by decide
    similarity := chainSimilarity
    symmetric := by
      intro left right
      unfold chainSimilarity
      simp only [eq_comm, or_comm] }

/-- The last note of the chain is similar to the middle one and in no group. -/
theorem chain_incomplete :
    ¬ CompleteGroups chainNotes 90
      (chainNotes.searchDuplicates 90 (fun scores => scores.sum / scores.length)) := by
  intro complete
  have grouped := (CompleteGroups.of_perm searchDuplicates_perm complete).complete
    (namedNote "c.md".toList) (by decide) ⟨namedNote "b.md".toList, by decide⟩
  exact absurd grouped (by decide)

end ComparedNotes

end VaultSearch
