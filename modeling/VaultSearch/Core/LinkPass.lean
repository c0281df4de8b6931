/-
The resolution pass over the staging tables, in a run without a table fault.

`resolveLinkTargets` is a scan and then one read, one delete and one add for each link that
is found.  On the rows it is `passedLinks`, from which it follows what every run keeps of the
link table and which links it resolves.
-/

import VaultSearch.Core.Rebuild

set_option autoImplicit false

namespace VaultSearch

open Fallible

/-! ### The pass on rows -/

/-- The notes of an index, as the chunk table lists them. -/
def noteOwners (rows : Rows) : List Text :=
  (rows .chunks).map (Row.owner .chunks)

/-- The lookup map of one pass; a pass over an index without chunks builds none. -/
def passMap (env : Env) (surroundings : Surroundings) (rows : Rows) : List (Text × Text) :=
  if (noteOwners rows).isEmpty then []
  else buildPathMap env (surroundings.iterSet (noteOwners rows)) (rows .aliases)

def passUpdates (pathMap : List (Text × Text)) (links : List LinkRecord) : List LinkUpdate :=
  (chosenLinks links).filterMap (linkUpdate pathMap)

/-- The link rows when the first row with the key of an update is read, all rows with the key
are deleted and the changed row is added. -/
def LinkUpdate.applied (update : LinkUpdate) (links : List LinkRecord) : List LinkRecord :=
  Rewrite.rewriteAt LinkRecord.key update.key update.rewriting.change links

def applyUpdates (updates : List LinkUpdate) (links : List LinkRecord) : List LinkRecord :=
  updates.foldl (fun links update => update.applied links) links

/-- The link rows behind one pass, in scan order. -/
def passedLinks (pathMap : List (Text × Text)) (links : List LinkRecord) : List LinkRecord :=
  applyUpdates (passUpdates pathMap links) links

theorem LinkUpdate.applied_none {update : LinkUpdate} {links : List LinkRecord}
    (absent : (links.filter (fun link => link.key = update.key)).head? = none) :
    update.applied links = links := by
  rw [applied, Rewrite.rewriteAt, absent]

theorem LinkUpdate.applied_some {update : LinkUpdate} {links : List LinkRecord}
    {record : LinkRecord}
    (found : (links.filter (fun link => link.key = update.key)).head? = some record) :
    update.applied links = links.filter (fun link => link.key ≠ update.key) ++
      [{ record with toNotePath := update.toNotePath, isResolved := true }] := by
  rw [applied, Rewrite.rewriteAt, found]
  rfl

theorem applyUpdates_eq (updates : List LinkUpdate) (links : List LinkRecord) :
    applyUpdates updates links =
      Rewrite.rewriteEach LinkRecord.key (updates.map LinkUpdate.rewriting) links := by
  rw [Rewrite.rewriteEach, List.foldl_map]
  rfl

theorem linkUpdate_nil (link : LinkRecord) : linkUpdate [] link = none := rfl

theorem passedLinks_nil (links : List LinkRecord) : passedLinks [] links = links := by
  have none : passUpdates [] links = [] := by
    unfold passUpdates
    rw [List.filterMap_eq_nil_iff]
    intro link _chosen
    exact linkUpdate_nil link
  rw [passedLinks, none]
  rfl

/-- Rows with other links. -/
def Rows.withLinks (rows : Rows) (links : List LinkRecord) : Rows :=
  Function.update rows .links links

theorem Rows.withLinks_self (rows : Rows) : rows.withLinks (rows .links) = rows :=
  Function.update_eq_self _ _

theorem Rows.withLinks_withLinks (rows : Rows) (first second : List LinkRecord) :
    (rows.withLinks first).withLinks second = rows.withLinks second :=
  Function.update_idem _ _ _

@[simp] theorem Rows.withLinks_links (rows : Rows) (links : List LinkRecord) :
    rows.withLinks links .links = links :=
  Function.update_self _ _ _

section Pass

variable {schedule : Schedule Label OtherAction} {fact : Vault → Prop} (calm : Calm schedule fact)

include calm

theorem triple_building_deleteLinks {rows : Rows} (name : Label) {update : LinkUpdate}
    {filter : Sql.Filter} (parsed : Sql.parse update.filter = some filter)
    (selects : ∀ link : LinkRecord, filter.holds link.columns = decide (link.key = update.key)) :
    Triple schedule (fun _ => True) (Building fact rows)
      (deleteWhere name .links .staging update.filter)
      (fun _ world => Building fact (rows.withLinks
        ((rows .links).filter (fun link => LinkRecord.key link ≠ update.key))) world)
      (fun _ => False) := by
  have total : ∀ table : Table (Row .links), table.rows = rows .links → ∃ later,
      ((Sql.parse update.filter).map (fun read =>
        ((), table.delete (fun row => read.holds (Row.columns .links row))))) = some ((), later) ∧
        later.rows = (rows .links).filter (fun link => LinkRecord.key link ≠ update.key) := by
    intro table same
    rw [parsed, Option.map_some]
    refine ⟨_, rfl, ?_⟩
    rw [Table.delete_rows, same]
    apply List.filter_congr
    intro link _member
    rw [decide_not]
    exact congrArg not (selects link)
  exact (triple_building_onTable calm name .links total).weaken (fun _ holds => holds)
    (fun _ _ holds => holds.2) (fun _ holds => holds)

/-- Read, delete and add of one update. -/
theorem triple_applyLinkUpdate {rows : Rows} (turn : Nat) (update : LinkUpdate) :
    Triple schedule (fun _ => True) (Building fact rows) (applyLinkUpdate .staging turn update)
      (fun _ world => Building fact (rows.withLinks (update.applied (rows .links))) world)
      (fun _ => False) := by
  obtain ⟨filter, parsed, selects⟩ := parse_linkUpdateFilter update
  unfold applyLinkUpdate
  apply triple_andThen (fun orig world =>
    orig = ((rows .links).filter (fun link => LinkRecord.key link = update.key)).head? ∧
      Building fact rows world)
  · apply triple_building_peekTable calm
    intro table same
    rw [selectWhere, parsed, Option.map_some, Option.map_some, same]
    apply congrArg (fun kept => some (List.head? kept))
    apply List.filter_congr
    intro link _member
    exact selects link
  · intro orig
    apply triple_given
    intro found
    cases orig with
    | none =>
        apply triple_ret
        intro world building
        rw [LinkUpdate.applied_none found.symm, Rows.withLinks_self]
        exact building
    | some record =>
        rw [LinkUpdate.applied_some found.symm]
        apply triple_andThen (fun _ world => Building fact (rows.withLinks
          ((rows .links).filter (fun link => LinkRecord.key link ≠ update.key))) world)
        · exact triple_building_deleteLinks calm _ parsed selects
        · intro _
          have added := @triple_building_addRows schedule fact calm
            (rows.withLinks ((rows .links).filter (fun link => LinkRecord.key link ≠ update.key)))
            { operation := .addLink, kind := .links, turn } .links
            [{ record with toNotePath := update.toNotePath, isResolved := true }]
          rw [Rows.withLinks_links] at added
          apply added.weaken (fun _ holds => holds) _ (fun _ holds => holds)
          intro _value world building
          rw [← Rows.withLinks_withLinks rows
            ((rows .links).filter (fun link => LinkRecord.key link ≠ update.key))]
          exact building

/-- One update of the loop; its failure would be caught. -/
def passBody (entry : LinkUpdate × Nat) : Program Unit := do
  let _ ← attempt (applyLinkUpdate .staging entry.2 entry.1)

/-- The updates of one pass, one after the other. -/
theorem triple_applyLinkUpdates (updates : List (LinkUpdate × Nat)) :
    ∀ rows : Rows, Triple schedule (fun _ => True) (Building fact rows)
      (forEach passBody updates)
      (fun _ world => Building fact
        (rows.withLinks (applyUpdates (updates.map Prod.fst) (rows .links))) world)
      (fun _ => False) := by
  induction updates with
  | nil =>
      intro rows
      apply triple_ret
      intro world building
      have same : rows.withLinks (applyUpdates [] (rows .links)) = rows := Rows.withLinks_self rows
      rw [List.map_nil, same]
      exact building
  | cons head tail ih =>
      intro rows
      obtain ⟨update, turn⟩ := head
      have later := ih (rows.withLinks (update.applied (rows .links)))
      rw [Rows.withLinks_withLinks, Rows.withLinks_links] at later
      apply triple_andThen (fun _ world => Building fact
        (rows.withLinks (update.applied (rows .links))) world)
      · unfold passBody
        apply triple_andThen (fun _ world => Building fact
          (rows.withLinks (update.applied (rows .links))) world)
        · apply triple_attempt
          exact (triple_applyLinkUpdate calm turn update).weaken (fun _ holds => holds)
            (fun _ _ holds => holds) (fun _ impossible => impossible.elim)
        · intro _
          exact triple_ret () (fun _ holds => holds)
      · intro _
        exact later

/-- What is read inside a `try`. -/
theorem triple_peek {rows : Rows} {alpha : Type} {name : Label} {kind : TableKind}
    {view : Table (Row kind) → Option alpha} {value : alpha}
    (total : ∀ table, table.rows = rows kind → view table = some value) :
    Triple schedule (fun _ => True) (Building fact rows)
      (attempt (peekTable name kind .staging view))
      (fun result world => result = some value ∧ Building fact rows world) (fun _ => False) := by
  apply triple_attempt
  exact (triple_building_peekTable calm name kind total).weaken (fun _ holds => holds)
    (fun _ _ holds => ⟨congrArg some holds.1, holds.2⟩) (fun _ impossible => impossible.elim)

/-- A pass in which no step fails returns, and leaves everything but the links as it was. -/
theorem triple_resolveLinkTargets (env : Env) (surroundings : Surroundings) (rows : Rows) :
    Triple schedule (fun _ => True) (Building fact rows) (resolveLinkTargets env surroundings)
      (fun _ world => Building fact
        (rows.withLinks (passedLinks (passMap env surroundings rows) (rows .links))) world)
      (fun _ => False) := by
  unfold resolveLinkTargets
  apply triple_building_ensureTable .links
  apply triple_building_ensureTable .aliases
  apply triple_building_ensureTable .chunks
  apply triple_andThen (fun paths world =>
    paths = some (noteOwners rows) ∧ Building fact rows world)
  · apply triple_peek calm
    intro table same
    rw [same]
    rfl
  · intro paths
    apply triple_given
    intro pathsSame
    rw [pathsSame, Option.getD_some]
    by_cases empty : (noteOwners rows).isEmpty = true
    · rw [if_pos empty]
      apply triple_ret
      intro world building
      have none : rows.withLinks (passedLinks (passMap env surroundings rows) (rows .links)) =
          rows := by
        rw [passMap, if_pos empty]
        exact (congrArg rows.withLinks (passedLinks_nil (rows .links))).trans
          (Rows.withLinks_self rows)
      rw [none]
      exact building
    · rw [if_neg empty]
      apply triple_andThen (fun aliases world =>
        aliases = some (rows .aliases) ∧ Building fact rows world)
      · apply triple_peek calm
        intro table same
        rw [same]
      · intro aliases
        apply triple_given
        intro aliasesSame
        rw [aliasesSame, Option.getD_some]
        apply triple_andThen (fun unresolved world =>
          unresolved = some (chosenLinks (rows .links)) ∧ Building fact rows world)
        · apply triple_peek calm
          intro table same
          obtain ⟨filter, parsed, selects⟩ := parse_unresolvedFilter
          rw [selectWhere, parsed, Option.map_some, Option.map_some, same]
          apply congrArg (fun kept => some (List.take unresolvedLimit kept))
          apply List.filter_congr
          intro link _member
          exact selects link
        · intro unresolved
          apply triple_given
          intro unresolvedSame
          rw [unresolvedSame, Option.getD_some]
          have passed := triple_applyLinkUpdates calm
            (passUpdates (passMap env surroundings rows) (rows .links)).zipIdx rows
          rw [List.zipIdx_map_fst] at passed
          rw [passMap, if_neg empty] at passed ⊢
          apply triple_andThen _ passed
          intro _
          exact triple_ret _ (fun _ building => building)

end Pass

/-- The link table behind a pass. -/
def linksAfter (env : Env) (surroundings : Surroundings) (schedule : Schedule Label OtherAction)
    (world : World) : List LinkRecord :=
  (resolveLinkTargets env surroundings schedule world).final.index.rows .links .staging

theorem linksAfter_eq {schedule : Schedule Label OtherAction} {fact : Vault → Prop}
    (calm : Calm schedule fact) (env : Env) (surroundings : Surroundings) {rows : Rows}
    {world : World} (building : Building fact rows world) :
    linksAfter env surroundings schedule world =
      passedLinks (passMap env surroundings rows) (rows .links) := by
  obtain ⟨returned, failed, _moments⟩ :=
    triple_resolveLinkTargets calm env surroundings rows world building
  cases ended : (resolveLinkTargets env surroundings schedule world).value with
  | none => exact (failed ended).elim
  | some count => exact (returned count ended).1.rows .links

/-! ### Tables of parsed notes -/

/-- The results of notes that were read and parsed, one for each path. -/
structure ParsedNotes (env : Env) (results : List (Text × ParseResult)) : Prop where
  distinct : (results.map Prod.fst).Nodup
  normal : ∀ entry ∈ results, IsNormalPath entry.1
  parsed : ∀ entry ∈ results, ∃ content,
    entry.2 = truncateChunks env (contentParse env entry.1 content)

/-- Staging tables that hold the records of these notes. -/
structure StagedNotes (env : Env) (results : List (Text × ParseResult)) (rows : Rows) : Prop where
  chunks : ((rows .chunks).map ChunkWithVector.toChunkRecord).Perm (builtChunks results)
  links : (rows .links).Perm (builtLinks results)
  aliases : (rows .aliases).Perm (builtAliases env results)

section Parsed

variable {env : Env} {results : List (Text × ParseResult)} (parsed : ParsedNotes env results)

include parsed

theorem ParsedNotes.fresh {entry : Text × ParseResult} (member : entry ∈ results) :
    FreshLinks entry.1 entry.2.links := by
  obtain ⟨content, made⟩ := parsed.parsed entry member
  have fresh := (contentParse_of env entry.1 content).2
  rw [parsed.normal entry member] at fresh
  rw [made]
  exact fresh

theorem ParsedNotes.chunk_path {entry : Text × ParseResult} (member : entry ∈ results) :
    ∀ chunk ∈ entry.2.chunks, chunk.notePath = entry.1 := by
  intro chunk inside
  obtain ⟨content, made⟩ := parsed.parsed entry member
  have owned := (contentParse_of env entry.1 content).1
  rw [made] at inside
  rw [owned chunk (List.mem_of_mem_take inside)]
  exact parsed.normal entry member

/-- No two internal links of different notes, or of one note, have the same key. -/
theorem ParsedNotes.distinctLinks : DistinctLinks (builtLinks results) := by
  have paths : (indexedResults results).Pairwise (fun entry other => entry.1 ≠ other.1) :=
    (List.pairwise_map.mp parsed.distinct).sublist List.filter_sublist
  have inside : ∀ entry ∈ indexedResults results, FreshLinks entry.1 entry.2.links :=
    fun entry member => parsed.fresh (List.mem_filter.mp member).1
  unfold DistinctLinks builtLinks
  rw [List.filter_flatMap, List.map_flatMap, List.nodup_flatMap]
  constructor
  · intro entry member
    have keys : (entry.2.links.filter LinkRecord.internal).map LinkRecord.key =
        ((entry.2.links.filter LinkRecord.internal).map
          (fun link => (link.linkType, link.linkTarget))).map (fun pair => (entry.1, pair)) := by
      rw [List.map_map]
      apply List.map_congr_left
      intro link kept
      have owner := (inside entry member).owner link (List.mem_filter.mp kept).1
      rw [LinkRecord.key, owner]
      rfl
    rw [keys]
    exact (inside entry member).distinct.map (fun left right same => (Prod.mk.inj same).2)
  · apply List.Pairwise.imp_of_mem _ paths
    intro entry other member otherMember differ key left right
    obtain ⟨link, kept, same⟩ := List.mem_map.mp left
    obtain ⟨second, keptSecond, sameSecond⟩ := List.mem_map.mp right
    have owner := (inside entry member).owner link (List.mem_filter.mp kept).1
    have ownerSecond := (inside other otherMember).owner second (List.mem_filter.mp keptSecond).1
    rw [← sameSecond] at same
    apply differ
    rw [← owner, ← ownerSecond]
    exact (Prod.mk.inj same).1

end Parsed

/-! ### What a pass keeps -/

/-- A link without what resolution writes. -/
def LinkRecord.bare (link : LinkRecord) : LinkRecord :=
  { link with toNotePath := [], isResolved := false }

/-- An external, a resolved or an unresolvable link. -/
def LinkRecord.leftAlone (pathMap : List (Text × Text)) (link : LinkRecord) : Bool :=
  !link.unresolved || (pathMap.lookup link.linkTargetNormalized).isNone

/-- No link is lost or invented, and every link that can be resolved is. -/
structure PassKeeps (pathMap : List (Text × Text)) (before after : List LinkRecord) : Prop where
  sameLinks : (after.map LinkRecord.bare).Perm (before.map LinkRecord.bare)
  untouched : (before.filter (LinkRecord.leftAlone pathMap)).Subperm after
  resolved : ∀ link ∈ after, link.internal = true →
    (pathMap.lookup link.linkTargetNormalized).isSome = true → link.isResolved = true

/-- The links that one scan leaves out. -/
def unscannedLinks (links : List LinkRecord) : List LinkRecord :=
  (links.filter LinkRecord.unresolved).drop unresolvedLimit

theorem passedLinks_perm (pathMap : List (Text × Text)) {links : List LinkRecord}
    (distinct : DistinctLinks links) :
    (passedLinks pathMap links).Perm (resolveLinks pathMap links) := by
  rw [passedLinks, applyUpdates_eq]
  exact rewriteEach_resolveLinks pathMap distinct

theorem resolveLink_bare (pathMap : List (Text × Text)) (link : LinkRecord) :
    (resolveLink pathMap link).bare = link.bare := by
  unfold resolveLink
  cases linkUpdate pathMap link with
  | none => rfl
  | some update => rfl

theorem linkUpdate_of_unknown {pathMap : List (Text × Text)} {link : LinkRecord}
    (unknown : (pathMap.lookup link.linkTargetNormalized).isNone = true) :
    linkUpdate pathMap link = none := by
  rw [Option.isNone_iff_eq_none] at unknown
  rw [linkUpdate, unknown]

theorem resolveLinks_bare (pathMap : List (Text × Text)) (links : List LinkRecord) :
    (resolveLinks pathMap links).map LinkRecord.bare = links.map LinkRecord.bare := by
  unfold resolveLinks
  rw [List.map_map]
  apply List.map_congr_left
  intro link _member
  rw [Function.comp_apply]
  by_cases chosen : link ∈ chosenLinks links
  · rw [if_pos chosen, resolveLink_bare]
  · rw [if_neg chosen]

/-- A link that is left alone stands in the table as before. -/
theorem resolveLinks_leftAlone (pathMap : List (Text × Text)) (links : List LinkRecord) :
    (links.filter (LinkRecord.leftAlone pathMap)).Sublist (resolveLinks pathMap links) := by
  have fixed : ∀ link ∈ links.filter (LinkRecord.leftAlone pathMap),
      (if link ∈ chosenLinks links then resolveLink pathMap link else link) = link := by
    intro link member
    have alone := (List.mem_filter.mp member).2
    by_cases chosen : link ∈ chosenLinks links
    · rw [if_pos chosen]
      have unresolved := (List.mem_filter.mp (List.mem_of_mem_take chosen)).2
      rw [LinkRecord.leftAlone, unresolved, Bool.not_true, Bool.false_or] at alone
      rw [resolveLink, linkUpdate_of_unknown alone]
    · rw [if_neg chosen]
  have image := (List.filter_sublist (l := links) (p := LinkRecord.leftAlone pathMap)).map
    (fun link => if link ∈ chosenLinks links then resolveLink pathMap link else link)
  rw [List.map_congr_left fixed, List.map_id'] at image
  exact image

/-- The map leads to notes, whose paths are not empty. -/
def NamesNotes (pathMap : List (Text × Text)) : Prop :=
  ∀ target path, pathMap.lookup target = some path → path ≠ []

theorem linkUpdate_of_known {pathMap : List (Text × Text)} (names : NamesNotes pathMap)
    {link : LinkRecord} {path : Text}
    (known : pathMap.lookup link.linkTargetNormalized = some path) :
    linkUpdate pathMap link = some
      { fromNotePath := link.fromNotePath
        linkType := link.linkType
        linkTarget := link.linkTarget
        toNotePath := path } := by
  have filled : ¬path.isEmpty = true := by
    rw [List.isEmpty_iff]
    exact names _ path known
  rw [linkUpdate, known]
  simp only
  rw [if_neg filled]

theorem DistinctLinks.nodup {links : List LinkRecord} (distinct : DistinctLinks links) :
    (links.filter LinkRecord.unresolved).Nodup := by
  have internal : (links.filter LinkRecord.internal).Nodup := List.Nodup.of_map _ distinct
  apply List.Nodup.sublist _ internal
  apply List.monotone_filter_right
  intro link unresolved
  exact (Bool.and_eq_true_iff.mp unresolved).2

theorem unscanned_notChosen {links : List LinkRecord} (distinct : DistinctLinks links)
    {link : LinkRecord} (unscanned : link ∈ unscannedLinks links) : link ∉ chosenLinks links := by
  have nodup := distinct.nodup
  rw [← List.take_append_drop unresolvedLimit (links.filter LinkRecord.unresolved)] at nodup
  intro chosen
  exact (List.nodup_append.mp nodup).2.2 link chosen link unscanned rfl

/-- What is chosen is resolved, so the links that stay unresolved with a known target are those
that the scan left out. -/
theorem resolveLinks_resolved_iff {pathMap : List (Text × Text)} (names : NamesNotes pathMap)
    {links : List LinkRecord} (distinct : DistinctLinks links) :
    (∀ link ∈ resolveLinks pathMap links, link.internal = true →
      (pathMap.lookup link.linkTargetNormalized).isSome = true → link.isResolved = true) ↔
    ∀ link ∈ unscannedLinks links, pathMap.lookup link.linkTargetNormalized = none := by
  constructor
  · intro resolved link unscanned
    have member := List.mem_filter.mp (List.mem_of_mem_drop unscanned)
    obtain ⟨open', internal⟩ := Bool.and_eq_true_iff.mp member.2
    have kept : link ∈ resolveLinks pathMap links :=
      List.mem_map.mpr ⟨link, member.1, if_neg (unscanned_notChosen distinct unscanned)⟩
    cases known : pathMap.lookup link.linkTargetNormalized with
    | none => rfl
    | some path =>
        have settled := resolved link kept internal (by rw [known]; rfl)
        rw [settled] at open'
        cases open'
  · intro unknown found member internal known
    obtain ⟨link, present, same⟩ := List.mem_map.mp member
    by_cases chosen : link ∈ chosenLinks links
    · rw [if_pos chosen] at same
      cases target : pathMap.lookup link.linkTargetNormalized with
      | some path =>
          rw [← same, resolveLink, linkUpdate_of_known names target]
      | none =>
          have still : resolveLink pathMap link = link := by
            rw [resolveLink, linkUpdate_of_unknown (by rw [target]; rfl)]
          rw [← same, still, target] at known
          cases known
    · rw [if_neg chosen] at same
      subst same
      cases open' : link.isResolved with
      | true => rfl
      | false =>
          have unresolved : link ∈ links.filter LinkRecord.unresolved := by
            rw [List.mem_filter, LinkRecord.unresolved, open', internal]
            exact ⟨present, rfl⟩
          rw [← List.take_append_drop unresolvedLimit (links.filter LinkRecord.unresolved)]
            at unresolved
          rcases List.mem_append.mp unresolved with scanned | left
          · exact absurd scanned chosen
          · rw [unknown link left] at known
            cases known

/-- A pass over distinct links keeps them all; it resolves all it can exactly when the scan
leaves out none with a known target. -/
theorem passKeeps_iff {pathMap : List (Text × Text)} (names : NamesNotes pathMap)
    {links : List LinkRecord} (distinct : DistinctLinks links) :
    PassKeeps pathMap links (passedLinks pathMap links) ↔
      ∀ link ∈ unscannedLinks links, pathMap.lookup link.linkTargetNormalized = none := by
  have passed := passedLinks_perm pathMap distinct
  rw [← resolveLinks_resolved_iff names distinct]
  constructor
  · intro keeps link member
    exact keeps.resolved link (passed.mem_iff.mpr member)
  · intro resolved
    constructor
    · rw [← resolveLinks_bare pathMap links]
      exact passed.map LinkRecord.bare
    · exact (resolveLinks_leftAlone pathMap links).subperm.trans passed.symm.subperm
    · intro link member
      exact resolved link (passed.mem_iff.mp member)

/-! ### The pass over parsed notes -/

/-- Every indexed note and every note with an alias has a path. -/
structure NamedRows (rows : Rows) : Prop where
  chunks : ∀ path ∈ noteOwners rows, path ≠ []
  aliases : ∀ row ∈ rows .aliases, AliasRecord.notePath row ≠ []

theorem lookup_passMap (env : Env) (surroundings : Surroundings) (rows : Rows) (target : Text) :
    (passMap env surroundings rows).lookup target =
      if (noteOwners rows).isEmpty then none
      else ((surroundings.iterSet (noteOwners rows)).find? (namedBy env target)).or
          (((rows .aliases).find? (fun row => target = AliasRecord.aliasNormalized row)).map
            AliasRecord.notePath) := by
  unfold passMap
  by_cases empty : (noteOwners rows).isEmpty = true
  · rw [if_pos empty, if_pos empty]
    rfl
  · rw [if_neg empty, if_neg empty]
    exact lookup_buildPathMap env _ (rows .aliases) target

theorem passMap_names (env : Env) (surroundings : Surroundings) {rows : Rows}
    (named : NamedRows rows) : NamesNotes (passMap env surroundings rows) := by
  intro target path known
  rw [lookup_passMap] at known
  by_cases empty : (noteOwners rows).isEmpty = true
  · rw [if_pos empty] at known
    cases known
  · rw [if_neg empty] at known
    cases found : (surroundings.iterSet (noteOwners rows)).find? (namedBy env target) with
    | some first =>
        rw [found, Option.some_or] at known
        rw [← Option.some.inj known]
        exact named.chunks first
          ((surroundings.iterSet_mem _ _).mp (List.mem_of_find?_eq_some found))
    | none =>
        rw [found, Option.none_or] at known
        obtain ⟨row, chosen, same⟩ := Option.map_eq_some_iff.mp known
        rw [← same]
        exact named.aliases row (List.mem_of_find?_eq_some chosen)

theorem normalPath_ne_nil {path : Text} (normal : IsNormalPath path) : path ≠ [] := by
  intro empty
  rw [empty] at normal
  exact absurd normal (by decide)

theorem StagedNotes.named {env : Env} {results : List (Text × ParseResult)} {rows : Rows}
    (staged : StagedNotes env results rows) (parsed : ParsedNotes env results) :
    NamedRows rows := by
  constructor
  · intro path member
    obtain ⟨row, present, same⟩ := List.mem_map.mp member
    have built : ChunkWithVector.toChunkRecord row ∈ builtChunks results :=
      staged.chunks.mem_iff.mp (List.mem_map.mpr ⟨row, present, rfl⟩)
    obtain ⟨entry, indexed, inside⟩ := List.mem_flatMap.mp built
    have listed : entry ∈ results := (List.mem_filter.mp indexed).1
    have owner : path = entry.1 := same.symm.trans (parsed.chunk_path listed _ inside)
    rw [owner]
    exact normalPath_ne_nil (parsed.normal entry listed)
  · intro row member
    obtain ⟨entry, indexed, inside⟩ := List.mem_flatMap.mp (staged.aliases.mem_iff.mp member)
    obtain ⟨_name, _present, same⟩ := List.mem_map.mp inside
    rw [← same]
    exact normalPath_ne_nil (parsed.normal entry (List.mem_filter.mp indexed).1)

theorem StagedNotes.distinctLinks {env : Env} {results : List (Text × ParseResult)} {rows : Rows}
    (staged : StagedNotes env results rows) (parsed : ParsedNotes env results) :
    DistinctLinks (rows .links) := by
  have built := parsed.distinctLinks
  unfold DistinctLinks at built ⊢
  exact ((staged.links.filter LinkRecord.internal).map LinkRecord.key).nodup_iff.mpr built

/-- The pass over the links of parsed notes loses and invents none; it leaves a link with a known
target unresolved exactly when the scan does not reach it. -/
theorem resolveLinkTargets_keeps_iff {env : Env} {results : List (Text × ParseResult)} {rows : Rows}
    (parsed : ParsedNotes env results) (staged : StagedNotes env results rows)
    (surroundings : Surroundings) {schedule : Schedule Label OtherAction} {fact : Vault → Prop}
    (calm : Calm schedule fact) {world : World} (building : Building fact rows world) :
    PassKeeps (passMap env surroundings rows) (rows .links)
        (linksAfter env surroundings schedule world) ↔
      ∀ link ∈ unscannedLinks (rows .links),
        (passMap env surroundings rows).lookup link.linkTargetNormalized = none := by
  rw [linksAfter_eq calm env surroundings building]
  exact passKeeps_iff (passMap_names env surroundings (staged.named parsed))
    (staged.distinctLinks parsed)

/-! ### Passes in a world of their own -/

/-- No step fails and no other thread runs. -/
def quietSchedule : Schedule Label OtherAction :=
  { faults := fun _ => false, others := fun _ => [] }

theorem quietSchedule_calm (fact : Vault → Prop) : Calm quietSchedule fact := by
  constructor
  · constructor
    · intro name action member
      cases member
    · intro name action member
      cases member
  · intro name
    rfl

/-- A rebuild with these rows in its staging tables. -/
def stagingWorld (rows : Rows) : World :=
  { vault := Vault.empty
    index := { lanes := fun kind =>
      { staging := some { past := [], rows := rows kind }, handle := some .staging } } }

theorem stagingWorld_building (rows : Rows) :
    Building (fun _ => True) rows (stagingWorld rows) := by
  constructor
  · constructor
    · intro kind
      rfl
    · intro kind _opened
      exact ⟨_, rfl⟩
    · intro kind
      rfl
  · trivial

/-- Notes are read, arrive and are enumerated in the order given. -/
def orderlySurroundings : Surroundings :=
  { reading := fun notes => notes
    arriving := fun results => results
    iterSet := fun items => items
    shutdownRequested := fun _ => false
    reading_perm := fun notes => List.Perm.refl notes
    arriving_perm := fun results => List.Perm.refl results
    iterSet_mem := fun _ _ => Iff.rfl }

/-- The rows of parsed notes, with empty vectors. -/
def stagedRows (env : Env) (results : List (Text × ParseResult)) : Rows
  | .chunks => (builtChunks results).map (fun chunk => { toChunkRecord := chunk, vector := [] })
  | .links => builtLinks results
  | .aliases => builtAliases env results

theorem stagedRows_staged (env : Env) (results : List (Text × ParseResult)) :
    StagedNotes env results (stagedRows env results) := by
  constructor
  · have back : ((stagedRows env results .chunks).map ChunkWithVector.toChunkRecord) =
        builtChunks results := by
      unfold stagedRows
      exact (List.map_map ..).trans (List.map_id _)
    rw [back]
  · exact List.Perm.refl _
  · exact List.Perm.refl _

/-! ### More notes than one scan takes -/

/-- A note that links to `hub`. -/
def hubFile : File :=
  { text := "[[hub]]".toList, mtime := 0 }

/-- `hub.md`, `ahub.md`, `aahub.md` and so on. -/
def hubPath (index : Nat) : Text :=
  List.replicate index 'a' ++ "hub.md".toList

theorem hubPath_parts (index : Nat) : PurePath.parts (hubPath index) = [hubPath index] := by
  apply PurePath.parts_component
  · unfold hubPath
    rw [List.mem_append, List.mem_replicate]
    rintro (⟨_, same⟩ | inside)
    · exact absurd same (by decide)
    · exact absurd inside (by decide)
  · unfold hubPath
    simp
  · unfold hubPath
    intro same
    have long := congrArg List.length same
    rw [List.length_append] at long
    exact absurd long (by simp)

theorem hubPath_normal (index : Nat) : IsNormalPath (hubPath index) := by
  unfold IsNormalPath PurePath.normalPath
  rw [hubPath_parts]
  rfl

theorem hubPath_injective {left right : Nat} (same : hubPath left = hubPath right) :
    left = right := by
  have long := congrArg List.length same
  unfold hubPath at long
  rw [List.length_append, List.length_append, List.length_replicate, List.length_replicate] at long
  exact Nat.add_right_cancel long

theorem hubPath_format (index : Nat) : formatOf Env.plain (hubPath index) = some .markdown := by
  have suffix : PurePath.suffix (hubPath index) = ".md".toList := by
    unfold PurePath.suffix PurePath.name
    rw [hubPath_parts]
    have backwards : (hubPath index).reverse = "dm.buh".toList ++ List.replicate index 'a' := by
      unfold hubPath
      rw [List.reverse_append, List.reverse_replicate]
      rfl
    unfold PurePath.splitext
    rw [List.getLast?_singleton, Option.getD_some, backwards]
    rfl
  unfold formatOf
  rw [suffix]
  rfl

theorem hubFile_links : extractAllLinks Env.plain "[[hub]]".toList true =
    { wikilinks := [{ raw := "[[hub]]".toList
                      target := "hub".toList
                      aliasText := none
                      heading := none
                      blockRef := none }] } := rfl

theorem hubFile_sections : splitByHeaders Env.plain.config.headerLevels "[[hub]]".toList =
    [{ headers := [], content := "[[hub]]".toList }] := rfl

theorem hubFile_frontmatter : parseFrontmatter Env.plain hubFile.readText =
    .ok ([], "[[hub]]".toList) := rfl

theorem hubFile_chunks (metadata : FileMetadata) (tags : List Text) (fields : FrontmatterFields) :
    sectionChunks Env.plain "[[hub]]".toList metadata tags fields =
      [makeChunk "[[hub]]".toList [] metadata (Text.join ", ".toList tags) fields] := by
  unfold sectionChunks
  rw [hubFile_sections]
  rfl

/-- What the parser makes of the note under any Markdown path. -/
theorem hubFile_parsed {path : Text} (markdown : formatOf Env.plain path = some .markdown) :
    ∃ chunk link, parseFileResult Env.plain path hubFile =
        { status := .success, chunks := [chunk], links := [link], aliases := [] } ∧
      link.linkTargetNormalized = "hub".toList ∧ link.unresolved = true := by
  have records : ∃ title fields, parseNote Env.plain path hubFile = .ok
      { chunks := sectionChunks Env.plain "[[hub]]".toList
          (titled (extractFileMetadata Env.plain path hubFile) title) [] fields
        links := noteLinks Env.plain
          ⟨extractFileMetadata Env.plain path hubFile, title, "[[hub]]".toList⟩
        aliases := [] } := by
    unfold parseNote
    rw [hubFile_frontmatter]
    exact ⟨_, _, rfl⟩
  obtain ⟨title, fields, made⟩ := records
  unfold parseFileResult
  rw [markdown]
  simp only [parseWith]
  rw [made]
  simp only [hubFile_chunks, noteLinks, hubFile_links]
  exact ⟨_, _, rfl, rfl, rfl⟩

/-- The result of one of these notes in a rebuild. -/
def hubEntry (index : Nat) : Text × ParseResult :=
  (hubPath index, truncateChunks Env.plain (contentParse Env.plain (hubPath index) (some hubFile)))

theorem hubEntry_result (index : Nat) :
    ∃ chunk link, (hubEntry index).2 =
        { status := .success, chunks := [chunk], links := [link], aliases := [] } ∧
      link.linkTargetNormalized = "hub".toList ∧ link.unresolved = true := by
  obtain ⟨chunk, link, parsed, target, unresolved⟩ := hubFile_parsed (hubPath_format index)
  exists chunk, link
  constructor
  · unfold hubEntry contentParse
    simp only [parsed]
    rfl
  · exact ⟨target, unresolved⟩

theorem hubEntries_parsed (count : Nat) :
    ParsedNotes Env.plain ((List.range count).map hubEntry) := by
  constructor
  · rw [List.map_map]
    exact List.nodup_range.map (fun left right same => hubPath_injective same)
  · intro entry member
    obtain ⟨index, _inside, same⟩ := List.mem_map.mp member
    rw [← same]
    exact hubPath_normal index
  · intro entry member
    obtain ⟨index, _inside, same⟩ := List.mem_map.mp member
    rw [← same]
    exact ⟨some hubFile, rfl⟩

theorem hubEntries_indexed (indices : List Nat) :
    indexedResults (indices.map hubEntry) = indices.map hubEntry := by
  unfold indexedResults
  rw [List.filter_eq_self]
  intro entry member
  obtain ⟨index, _inside, same⟩ := List.mem_map.mp member
  obtain ⟨chunk, link, result, _target, _unresolved⟩ := hubEntry_result index
  rw [← same, result]
  rfl

/-- One unresolved link to `hub` for each note. -/
theorem hubEntries_links (indices : List Nat) :
    (builtLinks (indices.map hubEntry)).length = indices.length ∧
      ∀ link ∈ builtLinks (indices.map hubEntry),
        link.linkTargetNormalized = "hub".toList ∧ link.unresolved = true := by
  unfold builtLinks
  rw [hubEntries_indexed]
  induction indices with
  | nil =>
      constructor
      · rfl
      · intro link member
        cases member
  | cons head tail ih =>
      obtain ⟨chunk, link, result, target, unresolved⟩ := hubEntry_result head
      rw [List.map_cons, List.flatMap_cons, result]
      constructor
      · rw [List.length_append, ih.1, List.length_cons, Nat.add_comm]
        rfl
      · intro other member
        rcases List.mem_append.mp member with here | later
        · rw [List.mem_singleton.mp here]
          exact ⟨target, unresolved⟩
        · exact ih.2 other later

/-- `hub` is the name of the first of these notes. -/
theorem hubEntries_known {count : Nat} (some : 0 < count) :
    ((passMap Env.plain orderlySurroundings
      (stagedRows Env.plain ((List.range count).map hubEntry))).lookup "hub".toList).isSome =
        true := by
  obtain ⟨chunk, link, result, _target, _unresolved⟩ := hubEntry_result 0
  have listed : hubEntry 0 ∈ (List.range count).map hubEntry :=
    List.mem_map.mpr ⟨0, List.mem_range.mpr some, rfl⟩
  have inside : chunk ∈ (hubEntry 0).2.chunks := by
    rw [result]
    exact List.mem_singleton_self chunk
  have path : chunk.notePath = hubPath 0 := (hubEntries_parsed count).chunk_path listed chunk inside
  have owned : hubPath 0 ∈ noteOwners
      (stagedRows Env.plain ((List.range count).map hubEntry)) := by
    rw [← path]
    have built : chunk ∈ builtChunks ((List.range count).map hubEntry) := by
      unfold builtChunks
      rw [hubEntries_indexed]
      exact List.mem_flatMap.mpr ⟨hubEntry 0, listed, inside⟩
    exact List.mem_map.mpr ⟨{ toChunkRecord := chunk, vector := [] },
      List.mem_map.mpr ⟨chunk, built, rfl⟩, rfl⟩
  have named := List.find?_isSome.mpr ⟨hubPath 0,
    (orderlySurroundings.iterSet_mem _ _).mpr owned,
    show namedBy Env.plain "hub".toList (hubPath 0) = true by decide⟩
  have filled := List.ne_nil_of_mem owned
  rw [lookup_passMap, if_neg (fun empty => filled (List.isEmpty_iff.mp empty)), Option.isSome_or,
    Bool.or_eq_true]
  exact Or.inl named

theorem resolveLinkTargets_keeps_hub :
    PassKeeps
      (passMap Env.plain orderlySurroundings (stagedRows Env.plain ((List.range 1).map hubEntry)))
      (builtLinks ((List.range 1).map hubEntry))
      (linksAfter Env.plain orderlySurroundings quietSchedule
        (stagingWorld (stagedRows Env.plain ((List.range 1).map hubEntry)))) := by
  apply (resolveLinkTargets_keeps_iff (hubEntries_parsed 1) (stagedRows_staged _ _)
    orderlySurroundings (quietSchedule_calm (fun _ => True)) (stagingWorld_building _)).mpr
  intro link member
  have short : ((builtLinks ((List.range 1).map hubEntry)).filter LinkRecord.unresolved).length ≤
      unresolvedLimit := by
    apply (List.length_filter_le _ _).trans
    rw [(hubEntries_links (List.range 1)).1]
    decide
  have none : unscannedLinks (builtLinks ((List.range 1).map hubEntry)) = [] :=
    List.drop_of_length_le short
  have inside : link ∈ unscannedLinks (builtLinks ((List.range 1).map hubEntry)) := member
  rw [none] at inside
  cases inside

/-- One more note than a scan takes: a link to an indexed note stays unresolved. -/
theorem resolveLinkTargets_leavesLink :
    ¬∀ (env : Env) (results : List (Text × ParseResult)) (rows : Rows),
      ParsedNotes env results → StagedNotes env results rows →
      ∀ (surroundings : Surroundings) (schedule : Schedule Label OtherAction)
        (fact : Vault → Prop) (world : World), Calm schedule fact → Building fact rows world →
        PassKeeps (passMap env surroundings rows) (rows .links)
          (linksAfter env surroundings schedule world) := by
  intro holds
  have entries := hubEntries_parsed (unresolvedLimit + 1)
  have staged := stagedRows_staged Env.plain ((List.range (unresolvedLimit + 1)).map hubEntry)
  have building := stagingWorld_building
    (stagedRows Env.plain ((List.range (unresolvedLimit + 1)).map hubEntry))
  have keeps := holds _ _ _ entries staged orderlySurroundings quietSchedule (fun _ => True) _
    (quietSchedule_calm _) building
  rw [linksAfter_eq (quietSchedule_calm _) _ _ building] at keeps
  have unknown := (passKeeps_iff (passMap_names _ _ (staged.named entries))
    (staged.distinctLinks entries)).mp keeps
  obtain ⟨count, links⟩ := hubEntries_links (List.range (unresolvedLimit + 1))
  have all : (builtLinks ((List.range (unresolvedLimit + 1)).map hubEntry)).filter
      LinkRecord.unresolved = builtLinks ((List.range (unresolvedLimit + 1)).map hubEntry) := by
    rw [List.filter_eq_self]
    exact fun link member => (links link member).2
  have left : (unscannedLinks (builtLinks
      ((List.range (unresolvedLimit + 1)).map hubEntry))).length = 1 := by
    rw [unscannedLinks, all, List.length_drop, count, List.length_range, Nat.add_sub_cancel_left]
  obtain ⟨link, only⟩ := List.length_eq_one_iff.mp left
  have member : link ∈ unscannedLinks (builtLinks
      ((List.range (unresolvedLimit + 1)).map hubEntry)) := by
    rw [only]
    exact List.mem_singleton_self link
  have target := (links link (List.mem_filter.mp (List.mem_of_mem_drop member)).1).1
  have none := unknown link member
  have known := hubEntries_known (Nat.succ_pos unresolvedLimit)
  rw [target] at none
  rw [none] at known
  cases known

end VaultSearch
