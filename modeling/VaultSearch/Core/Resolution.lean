/-
Link resolution as a function on rows.

`_resolve_link_targets` reads, deletes and adds one row after the other.  When the keys of
the internal links are distinct, the rows that are left are those that were there, each
chosen one with its target.
-/

import VaultSearch.Core.Indexer
import VaultSearch.Parsers.Records
import VaultSearch.Store.Rewrite

set_option autoImplicit false

namespace VaultSearch

/-! ### Keys -/

/-- The columns by which a link is read, deleted and added back. -/
def LinkRecord.key (link : LinkRecord) : Text × LinkType × Text :=
  (link.fromNotePath, link.linkType, link.linkTarget)

def LinkUpdate.key (update : LinkUpdate) : Text × LinkType × Text :=
  (update.fromNotePath, update.linkType, update.linkTarget)

/-- A link that resolution looks at. -/
def LinkRecord.unresolved (link : LinkRecord) : Bool :=
  !link.isResolved && link.internal

/-- The filter of an update selects the links with its key and no others. -/
theorem parse_linkUpdateFilter (update : LinkUpdate) :
    ∃ filter, Sql.parse update.filter = some filter ∧
      ∀ link : LinkRecord, filter.holds link.columns = decide (link.key = update.key) := by
  let wanted : List (Text × Text) := [("from_note_path".toList, update.fromNotePath),
    ("link_type".toList, update.linkType.label), ("link_target".toList, update.linkTarget)]
  have shape : update.filter = Sql.equalities wanted := by
    unfold LinkUpdate.filter
    simp only [escapeSqlString_eq]
    simp [wanted, Sql.equalities, Sql.equality, Text.join]
  have names : ∀ pair ∈ wanted, Sql.IsName pair.1 := by
    intro pair member
    have listed : pair.1 ∈ wanted.map (·.1) := List.mem_map.mpr ⟨pair, member, rfl⟩
    revert listed
    generalize pair.1 = name
    have known : ∀ name ∈ ["from_note_path".toList, "link_type".toList, "link_target".toList],
        Sql.IsName name := by decide
    exact known name
  have read := Sql.parse_equalities wanted (List.cons_ne_nil _ _) names
  refine ⟨_, shape ▸ read, ?_⟩
  intro link
  rw [Bool.eq_iff_iff, decide_eq_true_iff, Sql.holds_equalities]
  have path : link.columns "from_note_path".toList = some (.text link.fromNotePath) := rfl
  have type : link.columns "link_type".toList = some (.text link.linkType.label) := rfl
  have target : link.columns "link_target".toList = some (.text link.linkTarget) := rfl
  simp only [wanted, List.forall_mem_cons, List.not_mem_nil, false_imp_iff, implies_true,
    and_true, path, type, target, Option.some.injEq, Sql.Literal.text.injEq]
  unfold LinkRecord.key LinkUpdate.key
  rw [Prod.mk.injEq, Prod.mk.injEq]
  constructor
  · rintro ⟨samePath, sameType, sameTarget⟩
    exact ⟨samePath, LinkType.label_injective sameType, sameTarget⟩
  · rintro ⟨samePath, sameType, sameTarget⟩
    exact ⟨samePath, congrArg LinkType.label sameType, sameTarget⟩

theorem parse_unresolvedFilter :
    ∃ filter, Sql.parse unresolvedFilter = some filter ∧
      ∀ link : LinkRecord, filter.holds link.columns = link.unresolved := by
  refine ⟨[[⟨"is_resolved".toList, false, .bool false⟩,
    ⟨"link_type".toList, true, .text "external".toList⟩]], by decide, ?_⟩
  intro link
  have resolved : link.columns "is_resolved".toList = some (.bool link.isResolved) := rfl
  have type : link.columns "link_type".toList = some (.text link.linkType.label) := rfl
  unfold Sql.Filter.holds LinkRecord.unresolved LinkRecord.internal
  simp only [List.any_cons, List.any_nil, List.all_cons, List.all_nil, Bool.or_false,
    Bool.and_true, Sql.Comparison.holds, resolved, type]
  cases link.isResolved <;> cases link.linkType <;> decide

/-! ### The lookup map -/

/-- A note is entered under its normalized stem and under its normalized path. -/
def namedBy (env : Env) (target path : Text) : Bool :=
  target = normalizeLinkTarget env (PurePath.stem path) || target = normalizeLinkTarget env path

theorem lookup_addPath (pathMap : List (Text × Text)) (key path target : Text) :
    (addPath pathMap key path).lookup target =
      (pathMap.lookup target).or (if target = key then some path else none) := by
  unfold addPath
  by_cases known : (pathMap.lookup key).isSome = true
  · rw [if_pos known]
    by_cases same : target = key
    · obtain ⟨value, found⟩ := Option.isSome_iff_exists.mp known
      rw [same, found, Option.some_or]
    · rw [if_neg same, Option.or_none]
  · rw [if_neg known, List.lookup_append]
    by_cases same : target = key
    · rw [same, List.lookup_cons, beq_self_eq_true, if_pos rfl]
    · rw [List.lookup_cons, beq_eq_false_iff_ne.mpr same, if_neg same]
      rfl

/-- The first enumerated note that is named so. -/
theorem lookup_addNames (env : Env) (target : Text) (paths : List Text) :
    ∀ pathMap, (paths.foldl (fun pathMap path =>
      addPath (addPath pathMap (normalizeLinkTarget env (PurePath.stem path)) path)
        (normalizeLinkTarget env path) path) pathMap).lookup target =
      (pathMap.lookup target).or (paths.find? (namedBy env target)) := by
  induction paths with
  | nil =>
      intro pathMap
      rw [List.foldl_nil, List.find?_nil, Option.or_none]
  | cons head tail ih =>
      intro pathMap
      rw [List.foldl_cons, ih, lookup_addPath, lookup_addPath, Option.or_assoc, Option.or_assoc,
        List.find?_cons]
      congr 1
      by_cases stem : target = normalizeLinkTarget env (PurePath.stem head)
      · simp [namedBy, ← stem]
      · by_cases full : target = normalizeLinkTarget env head
        · rw [if_neg stem, if_pos full]
          simp [namedBy, ← full]
        · simp [namedBy, stem, full]

theorem lookup_addAliases (target : Text) (aliases : List AliasRecord) :
    ∀ pathMap, (aliases.foldl (fun pathMap row =>
      addPath pathMap row.aliasNormalized row.notePath) pathMap).lookup target =
      (pathMap.lookup target).or
        ((aliases.find? (fun row => target = row.aliasNormalized)).map AliasRecord.notePath) := by
  induction aliases with
  | nil =>
      intro pathMap
      rw [List.foldl_nil, List.find?_nil, Option.map_none, Option.or_none]
  | cons head tail ih =>
      intro pathMap
      rw [List.foldl_cons, ih, lookup_addPath, Option.or_assoc, List.find?_cons]
      congr 1
      by_cases same : target = head.aliasNormalized
      · simp [same]
      · simp [same]

/-- A target leads to the first note named so, else to the first note with the alias. -/
theorem lookup_buildPathMap (env : Env) (paths : List Text) (aliases : List AliasRecord)
    (target : Text) :
    (buildPathMap env paths aliases).lookup target =
      (paths.find? (namedBy env target)).or
        ((aliases.find? (fun row => target = row.aliasNormalized)).map AliasRecord.notePath) := by
  unfold buildPathMap
  rw [lookup_addAliases, lookup_addNames]
  rfl

/-! ### Targets -/

/-- A link with its target, when the map knows one. -/
def resolveLink (pathMap : List (Text × Text)) (link : LinkRecord) : LinkRecord :=
  match linkUpdate pathMap link with
  | none => link
  | some update => { link with toNotePath := update.toNotePath, isResolved := true }

/-- The links that one resolution looks at. -/
def chosenLinks (links : List LinkRecord) : List LinkRecord :=
  (links.filter LinkRecord.unresolved).take unresolvedLimit

def resolveLinks (pathMap : List (Text × Text)) (links : List LinkRecord) : List LinkRecord :=
  links.map (fun link => if link ∈ chosenLinks links then resolveLink pathMap link else link)

def LinkUpdate.rewriting (update : LinkUpdate) :
    Rewrite.Update LinkRecord (Text × LinkType × Text) :=
  { key := update.key
    change := fun link => { link with toNotePath := update.toNotePath, isResolved := true } }

/-- No two internal links have the same key. -/
def DistinctLinks (links : List LinkRecord) : Prop :=
  ((links.filter LinkRecord.internal).map LinkRecord.key).Nodup

theorem DistinctLinks.eq {links : List LinkRecord} (distinct : DistinctLinks links)
    {link other : LinkRecord} (member : link ∈ links) (otherMember : other ∈ links)
    (internal : other.internal = true) (same : link.key = other.key) : link = other := by
  have sameType : link.linkType = other.linkType := (Prod.mk.inj (Prod.mk.inj same).2).1
  have alike : link.internal = true := by
    unfold LinkRecord.internal at internal ⊢
    rw [sameType]
    exact internal
  exact List.inj_on_of_nodup_map distinct (List.mem_filter.mpr ⟨member, alike⟩)
    (List.mem_filter.mpr ⟨otherMember, internal⟩) same

theorem DistinctLinks.once {links : List LinkRecord} (distinct : DistinctLinks links)
    {wanted : LinkRecord} (internal : wanted.internal = true) :
    (links.filter (fun link => link.key = wanted.key)).length ≤ 1 := by
  have alike : links.filter (fun link => link.key = wanted.key) =
      (links.filter LinkRecord.internal).filter (fun link => link.key = wanted.key) := by
    rw [List.filter_filter]
    refine List.filter_congr ?_
    intro link _member
    by_cases same : link.key = wanted.key
    · have sameType : link.linkType = wanted.linkType := (Prod.mk.inj (Prod.mk.inj same).2).1
      unfold LinkRecord.internal at internal ⊢
      rw [sameType, internal, Bool.and_true]
    · simp [same]
  have constant : ((links.filter LinkRecord.internal).filter
      (fun link => link.key = wanted.key)).map LinkRecord.key =
        List.replicate (((links.filter LinkRecord.internal).filter
          (fun link => link.key = wanted.key)).map LinkRecord.key).length wanted.key := by
    refine List.eq_replicate_of_mem ?_
    intro key member
    obtain ⟨link, present, same⟩ := List.mem_map.mp member
    rw [← same]
    exact of_decide_eq_true (List.mem_filter.mp present).2
  have nodup : (((links.filter LinkRecord.internal).filter
      (fun link => link.key = wanted.key)).map LinkRecord.key).Nodup :=
    List.Nodup.sublist (List.filter_sublist.map LinkRecord.key) distinct
  rw [constant, List.nodup_replicate, List.length_map] at nodup
  rw [alike]
  exact nodup

theorem mem_chosenLinks {links : List LinkRecord} {link : LinkRecord}
    (member : link ∈ chosenLinks links) : link ∈ links ∧ link.internal = true := by
  obtain ⟨present, unresolved⟩ := List.mem_filter.mp (List.mem_of_mem_take member)
  exact ⟨present, (Bool.and_eq_true_iff.mp unresolved).2⟩

theorem linkUpdate_key {pathMap : List (Text × Text)} {link : LinkRecord} {update : LinkUpdate}
    (found : linkUpdate pathMap link = some update) : update.key = link.key := by
  unfold linkUpdate at found
  split at found
  · cases found
  · split at found
    · cases found
    · rw [← Option.some.inj found]
      rfl

/-- Rewriting the chosen links one after the other resolves each of them. -/
theorem rewriteEach_resolveLinks (pathMap : List (Text × Text)) {links : List LinkRecord}
    (distinct : DistinctLinks links) :
    (Rewrite.rewriteEach LinkRecord.key
      (((chosenLinks links).filterMap (linkUpdate pathMap)).map LinkUpdate.rewriting) links).Perm
        (resolveLinks pathMap links) := by
  let updates := ((chosenLinks links).filterMap (linkUpdate pathMap)).map LinkUpdate.rewriting
  have origin : ∀ update ∈ updates, ∃ link ∈ chosenLinks links, ∃ found,
      linkUpdate pathMap link = some found ∧ found.rewriting = update := by
    intro update member
    obtain ⟨found, present, same⟩ := List.mem_map.mp member
    obtain ⟨link, chosen, made⟩ := List.mem_filterMap.mp present
    exact ⟨link, chosen, found, made, same⟩
  have keeps : ∀ update ∈ updates, ∀ link, LinkRecord.key (update.change link) = link.key := by
    intro update member link
    obtain ⟨_link, _chosen, found, _made, same⟩ := origin update member
    rw [← same]
    rfl
  have once : ∀ update ∈ updates,
      (links.filter (fun link => link.key = update.key)).length ≤ 1 := by
    intro update member
    obtain ⟨link, chosen, found, made, same⟩ := origin update member
    rw [← same, show found.rewriting.key = link.key from linkUpdate_key made]
    exact distinct.once (mem_chosenLinks chosen).2
  have distinctKeys : (updates.map Rewrite.Update.key).Nodup := by
    have apart : (chosenLinks links).Pairwise (fun link other => link.key ≠ other.key) := by
      have inside : (chosenLinks links).Sublist (links.filter LinkRecord.internal) := by
        refine (List.take_sublist _ _).trans ?_
        refine List.monotone_filter_right links ?_
        intro link unresolved
        exact (Bool.and_eq_true_iff.mp unresolved).2
      exact List.pairwise_map.mp (List.Pairwise.sublist (inside.map LinkRecord.key) distinct)
    have made : ((chosenLinks links).filterMap (linkUpdate pathMap)).Pairwise
        (fun update other => update.key ≠ other.key) := by
      refine List.Pairwise.filterMap _ ?_ apart
      intro link other differ update found later foundLater same
      rw [linkUpdate_key found, linkUpdate_key foundLater] at same
      exact differ same
    rw [List.map_map]
    exact List.pairwise_map.mpr made
  refine (Rewrite.rewriteEach_perm LinkRecord.key updates links keeps once).trans ?_
  refine List.Perm.of_eq (List.map_congr_left ?_)
  intro link member
  have matched : ∀ update ∈ updates, link.key = update.key → link ∈ chosenLinks links ∧
      ∃ found, linkUpdate pathMap link = some found := by
    intro update present hit
    obtain ⟨other, chosen, found, made, same⟩ := origin update present
    obtain ⟨inside, internal⟩ := mem_chosenLinks chosen
    have equal : link = other := by
      refine distinct.eq member inside internal ?_
      rw [hit, ← same]
      exact linkUpdate_key made
    rw [equal]
    exact ⟨chosen, found, made⟩
  split
  case isTrue chosen =>
    unfold resolveLink
    split
    case h_1 none =>
      refine Rewrite.settle_absent LinkRecord.key ?_
      intro update present hit
      obtain ⟨_chosen, found, made⟩ := matched update present hit
      rw [none] at made
      cases made
    case h_2 update found =>
      have present : update.rewriting ∈ updates :=
        List.mem_map.mpr ⟨update, List.mem_filterMap.mpr ⟨link, chosen, found⟩, rfl⟩
      exact Rewrite.settle_present LinkRecord.key distinctKeys keeps present
        (linkUpdate_key found).symm
  case isFalse skipped =>
    refine Rewrite.settle_absent LinkRecord.key ?_
    intro update present hit
    exact skipped (matched update present hit).1

end VaultSearch
