/-
The order in which link targets are resolved.

The documented order is a relation between a target and the note it leads to: exact
normalized path, normalized stem, normalized alias.  The code keeps one map with two keys
for each note, filled in the order in which a set is enumerated, so the order is met, and the
outcome independent of every enumeration, exactly where no two notes compete for a target.
-/

import VaultSearch.Core.LinkPass

set_option autoImplicit false

namespace VaultSearch

/-! ### The documented order -/

def HasPath (env : Env) (rows : Rows) (target path : Text) : Prop :=
  path ∈ noteOwners rows ∧ target = normalizeLinkTarget env path

def HasStem (env : Env) (rows : Rows) (target path : Text) : Prop :=
  path ∈ noteOwners rows ∧ target = normalizeLinkTarget env (PurePath.stem path)

def HasAlias (rows : Rows) (target path : Text) : Prop :=
  ∃ row ∈ rows .aliases, target = AliasRecord.aliasNormalized row ∧
    AliasRecord.notePath row = path

/-- Exact normalized path, then normalized note stem, then normalized frontmatter alias. -/
inductive DocumentedTarget (env : Env) (rows : Rows) (target : Text) : Option Text → Prop
  | byPath (path : Text) (found : HasPath env rows target path) :
      DocumentedTarget env rows target (some path)
  | byStem (path : Text) (noPath : ∀ other, ¬HasPath env rows target other)
      (found : HasStem env rows target path) : DocumentedTarget env rows target (some path)
  | byAlias (path : Text) (noPath : ∀ other, ¬HasPath env rows target other)
      (noStem : ∀ other, ¬HasStem env rows target other)
      (found : HasAlias rows target path) : DocumentedTarget env rows target (some path)
  | nothing (noPath : ∀ other, ¬HasPath env rows target other)
      (noStem : ∀ other, ¬HasStem env rows target other)
      (noAlias : ∀ other, ¬HasAlias rows target other) : DocumentedTarget env rows target none

/-- A link that leads to a note, or to none yet. -/
def LinkRecord.leadTo (link : LinkRecord) : Option Text → LinkRecord
  | none => link
  | some path => { link with toNotePath := path, isResolved := true }

/-- What becomes of one link: an unresolved internal one leads where the documents say. -/
def DocumentedLink (env : Env) (rows : Rows) (link resolved : LinkRecord) : Prop :=
  if link.unresolved = true then
    ∃ target, DocumentedTarget env rows link.linkTargetNormalized target ∧
      resolved = link.leadTo target
  else resolved = link

/-- The same notes, aliases and links, enumerated in any order. -/
structure SameIndex (rows other : Rows) : Prop where
  notes : ∀ path, path ∈ noteOwners rows ↔ path ∈ noteOwners other
  aliases : (rows .aliases).Perm (other .aliases)
  links : (rows .links).Perm (other .links)

/-- A link table that one pass over the index can leave. -/
def PassOutcome (env : Env) (rows : Rows) (after : List LinkRecord) : Prop :=
  ∃ (other : Rows) (surroundings : Surroundings) (schedule : Schedule Label OtherAction)
    (fact : Vault → Prop) (world : World), SameIndex rows other ∧ Calm schedule fact ∧
      Building fact other world ∧ after = linksAfter env surroundings schedule world

/-- Resolution follows the documented order and does not depend on any enumeration. -/
structure ResolvesAsDocumented (env : Env) (rows : Rows) : Prop where
  ordered : ∀ after, PassOutcome env rows after →
    ∃ resolved, after.Perm resolved ∧
      List.Forall₂ (DocumentedLink env rows) (rows .links) resolved
  stable : ∀ after other, PassOutcome env rows after → PassOutcome env rows other →
    after.Perm other

/-! ### The condition -/

/-- No two notes compete for a target. -/
structure ClearTarget (env : Env) (rows : Rows) (target : Text) : Prop where
  oneNote : ∀ path ∈ noteOwners rows, ∀ other ∈ noteOwners rows,
    namedBy env target path = true → namedBy env target other = true → path = other
  oneAlias : (∀ path ∈ noteOwners rows, namedBy env target path = false) →
    ∀ path other, HasAlias rows target path → HasAlias rows target other → path = other
  indexed : (∀ path ∈ noteOwners rows, namedBy env target path = false) →
    ∀ path, HasAlias rows target path → noteOwners rows ≠ []

theorem namedBy_iff (env : Env) {rows : Rows} {target path : Text}
    (listed : path ∈ noteOwners rows) :
    namedBy env target path = true ↔
      HasStem env rows target path ∨ HasPath env rows target path := by
  unfold namedBy HasStem HasPath
  rw [Bool.or_eq_true, decide_eq_true_iff, decide_eq_true_iff]
  constructor
  · rintro (stem | full)
    · exact Or.inl ⟨listed, stem⟩
    · exact Or.inr ⟨listed, full⟩
  · rintro (stem | full)
    · exact Or.inl stem.2
    · exact Or.inr full.2

theorem unnamed_iff (env : Env) (rows : Rows) (target : Text) :
    (∀ path ∈ noteOwners rows, namedBy env target path = false) ↔
      (∀ other, ¬HasPath env rows target other) ∧ ∀ other, ¬HasStem env rows target other := by
  constructor
  · intro unnamed
    constructor
    · intro other found
      have named := (namedBy_iff env found.1).mpr (Or.inr found)
      rw [unnamed other found.1] at named
      cases named
    · intro other found
      have named := (namedBy_iff env found.1).mpr (Or.inl found)
      rw [unnamed other found.1] at named
      cases named
  · intro none path listed
    cases named : namedBy env target path with
    | false => rfl
    | true =>
        rcases (namedBy_iff env listed).mp named with stem | full
        · exact absurd stem (none.2 path)
        · exact absurd full (none.1 path)

/-! ### The lookup -/

section Lookup

variable {env : Env} {rows other : Rows} {target : Text} (same : SameIndex rows other)
  (surroundings : Surroundings)

include same

/-- A note with the name is found, whichever it is. -/
theorem lookup_of_named {path : Text} (listed : path ∈ noteOwners rows)
    (named : namedBy env target path = true) :
    ∃ found ∈ noteOwners rows, namedBy env target found = true ∧
      (passMap env surroundings other).lookup target = some found := by
  have present : path ∈ noteOwners other := (same.notes path).mp listed
  have filled : ¬(noteOwners other).isEmpty = true := by
    intro empty
    exact List.ne_nil_of_mem present (List.isEmpty_iff.mp empty)
  have enumerated : path ∈ surroundings.iterSet (noteOwners other) :=
    (surroundings.iterSet_mem _ _).mpr present
  rw [lookup_passMap, if_neg filled]
  cases first : (surroundings.iterSet (noteOwners other)).find? (namedBy env target) with
  | none =>
      have unnamed := List.find?_eq_none.mp first path enumerated
      exact absurd named unnamed
  | some found =>
      have member := (surroundings.iterSet_mem _ _).mp (List.mem_of_find?_eq_some first)
      exact ⟨found, (same.notes found).mpr member, List.find?_some first, rfl⟩

theorem find_of_unnamed (unnamed : ∀ path ∈ noteOwners rows, namedBy env target path = false) :
    (surroundings.iterSet (noteOwners other)).find? (namedBy env target) = none := by
  rw [List.find?_eq_none]
  intro path enumerated
  have listed := (same.notes path).mpr ((surroundings.iterSet_mem _ _).mp enumerated)
  rw [unnamed path listed]
  exact Bool.false_ne_true

/-- Without a note of the name, an alias row with the target is used. -/
theorem lookup_of_alias (unnamed : ∀ path ∈ noteOwners rows, namedBy env target path = false)
    {path : Text} (known : HasAlias rows target path) (filled : noteOwners rows ≠ []) :
    ∃ found, HasAlias rows target found ∧
      (passMap env surroundings other).lookup target = some found := by
  obtain ⟨some, listed⟩ := List.exists_mem_of_ne_nil _ filled
  have open' : ¬(noteOwners other).isEmpty = true := by
    intro empty
    exact List.ne_nil_of_mem ((same.notes some).mp listed) (List.isEmpty_iff.mp empty)
  obtain ⟨row, present, matched, _owner⟩ := known
  rw [lookup_passMap, if_neg open', find_of_unnamed same surroundings unnamed, Option.none_or]
  cases first : (other .aliases).find? (fun row => target = AliasRecord.aliasNormalized row) with
  | none =>
      have absent := List.find?_eq_none.mp first row (same.aliases.mem_iff.mp present)
      exact absurd (decide_eq_true matched) absent
  | some chosen =>
      have inside := same.aliases.mem_iff.mpr (List.mem_of_find?_eq_some first)
      have hit : decide (target = AliasRecord.aliasNormalized chosen) = true :=
        (List.find?_eq_some_iff_append.mp first).1
      exact ⟨AliasRecord.notePath chosen, ⟨chosen, inside, of_decide_eq_true hit, rfl⟩, rfl⟩

theorem lookup_of_unknown (unnamed : ∀ path ∈ noteOwners rows, namedBy env target path = false)
    (unknown : ∀ path, ¬HasAlias rows target path) :
    (passMap env surroundings other).lookup target = none := by
  rw [lookup_passMap, find_of_unnamed same surroundings unnamed, Option.none_or]
  cases first : (other .aliases).find? (fun row => target = AliasRecord.aliasNormalized row) with
  | none => exact ite_self _
  | some chosen =>
      have inside := same.aliases.mem_iff.mpr (List.mem_of_find?_eq_some first)
      have hit : decide (target = AliasRecord.aliasNormalized chosen) = true :=
        (List.find?_eq_some_iff_append.mp first).1
      exact absurd ⟨chosen, inside, of_decide_eq_true hit, rfl⟩
        (unknown (AliasRecord.notePath chosen))

end Lookup

/-- For a clear target every enumeration finds what the documents say. -/
theorem ClearTarget.lookup {env : Env} {rows : Rows} {target : Text}
    (clear : ClearTarget env rows target) :
    ∃ found, DocumentedTarget env rows target found ∧
      ∀ (other : Rows) (surroundings : Surroundings), SameIndex rows other →
        (passMap env surroundings other).lookup target = found := by
  by_cases unnamed : ∀ path ∈ noteOwners rows, namedBy env target path = false
  · obtain ⟨noPath, noStem⟩ := (unnamed_iff env rows target).mp unnamed
    by_cases known : ∃ path, HasAlias rows target path
    · obtain ⟨path, hasAlias⟩ := known
      exists some path
      constructor
      · exact .byAlias path noPath noStem hasAlias
      · intro other surroundings same
        obtain ⟨found, isAlias, looked⟩ := lookup_of_alias same surroundings unnamed hasAlias
          (clear.indexed unnamed path hasAlias)
        rw [looked, clear.oneAlias unnamed found path isAlias hasAlias]
    · have unknown : ∀ path, ¬HasAlias rows target path := fun path found => known ⟨path, found⟩
      exact ⟨none, .nothing noPath noStem unknown, fun other surroundings same =>
        lookup_of_unknown same surroundings unnamed unknown⟩
  · obtain ⟨path, listed, named⟩ : ∃ path ∈ noteOwners rows, namedBy env target path = true := by
      simpa using unnamed
    exists some path
    constructor
    · by_cases exact' : HasPath env rows target path
      · exact .byPath path exact'
      · have noPath : ∀ other, ¬HasPath env rows target other := by
          intro other found
          have same := clear.oneNote path listed other found.1 named
            ((namedBy_iff env found.1).mpr (Or.inr found))
          rw [← same] at found
          exact exact' found
        exact .byStem path noPath (((namedBy_iff env listed).mp named).resolve_right exact')
    · intro other surroundings same
      obtain ⟨found, inside, alike, looked⟩ := lookup_of_named same surroundings listed named
      rw [looked, clear.oneNote found inside path listed alike named]

/-! ### The table behind a pass -/

/-- What the parsers promise of an index, and that one scan takes all its unresolved links. -/
structure Resolvable (rows : Rows) : Prop where
  distinct : DistinctLinks (rows .links)
  named : NamedRows rows
  scanned : ((rows .links).filter LinkRecord.unresolved).length ≤ unresolvedLimit

/-- One link behind a pass with this map. -/
def settledLink (pathMap : List (Text × Text)) (link : LinkRecord) : LinkRecord :=
  if link.unresolved = true then link.leadTo (pathMap.lookup link.linkTargetNormalized) else link

theorem resolveLink_eq {pathMap : List (Text × Text)} (names : NamesNotes pathMap)
    (link : LinkRecord) :
    resolveLink pathMap link = link.leadTo (pathMap.lookup link.linkTargetNormalized) := by
  cases known : pathMap.lookup link.linkTargetNormalized with
  | none =>
      rw [resolveLink, linkUpdate_of_unknown (by rw [known]; rfl)]
      rfl
  | some path =>
      rw [resolveLink, linkUpdate_of_known names known]
      rfl

theorem resolveLinks_eq {pathMap : List (Text × Text)} (names : NamesNotes pathMap)
    {links : List LinkRecord}
    (scanned : (links.filter LinkRecord.unresolved).length ≤ unresolvedLimit) :
    resolveLinks pathMap links = links.map (settledLink pathMap) := by
  unfold resolveLinks
  apply List.map_congr_left
  intro link member
  have chosen : link ∈ chosenLinks links ↔ link.unresolved = true := by
    unfold chosenLinks
    rw [List.take_of_length_le scanned, List.mem_filter]
    exact and_iff_right member
  unfold settledLink
  by_cases unresolved : link.unresolved = true
  · rw [if_pos (chosen.mpr unresolved), if_pos unresolved, resolveLink_eq names]
  · rw [if_neg (fun listed => unresolved (chosen.mp listed)), if_neg unresolved]

section Outcome

variable {rows other : Rows} (resolvable : Resolvable rows) (same : SameIndex rows other)

include resolvable same

theorem Resolvable.transfer : Resolvable other := by
  constructor
  · have distinct := resolvable.distinct
    unfold DistinctLinks at distinct ⊢
    exact ((same.links.filter LinkRecord.internal).map LinkRecord.key).nodup_iff.mp distinct
  · constructor
    · intro path listed
      exact resolvable.named.chunks path ((same.notes path).mpr listed)
    · intro row listed
      exact resolvable.named.aliases row (same.aliases.mem_iff.mpr listed)
  · rw [← (same.links.filter LinkRecord.unresolved).length_eq]
    exact resolvable.scanned

theorem linksAfter_perm (env : Env) (surroundings : Surroundings) {schedule : Schedule Label OtherAction}
    {fact : Vault → Prop} (calm : Calm schedule fact) {world : World}
    (building : Building fact other world) :
    (linksAfter env surroundings schedule world).Perm
      ((rows .links).map (settledLink (passMap env surroundings other))) := by
  have sound := resolvable.transfer same
  rw [linksAfter_eq calm env surroundings building]
  apply (passedLinks_perm _ sound.distinct).trans
  rw [resolveLinks_eq (passMap_names env surroundings sound.named) sound.scanned]
  exact (same.links.map _).symm

end Outcome

/-! ### Where the order is met -/

theorem SameIndex.refl (rows : Rows) : SameIndex rows rows :=
  ⟨fun _ => Iff.rfl, List.Perm.refl _, List.Perm.refl _⟩

theorem documentedLink_of_target {env : Env} {rows : Rows} {link : LinkRecord}
    {pathMap : List (Text × Text)} (documented : link.unresolved = true →
      DocumentedTarget env rows link.linkTargetNormalized
        (pathMap.lookup link.linkTargetNormalized)) :
    DocumentedLink env rows link (settledLink pathMap link) := by
  unfold DocumentedLink settledLink
  by_cases unresolved : link.unresolved = true
  · rw [if_pos unresolved, if_pos unresolved]
    exact ⟨_, documented unresolved, rfl⟩
  · rw [if_neg unresolved, if_neg unresolved]

theorem resolvesAsDocumented_of_clear {env : Env} {rows : Rows} (resolvable : Resolvable rows)
    (clear : ∀ link ∈ rows .links, LinkRecord.unresolved link = true →
      ClearTarget env rows (LinkRecord.linkTargetNormalized link)) :
    ResolvesAsDocumented env rows := by
  let plain := passMap env orderlySurroundings rows
  have alike : ∀ (other : Rows) (surroundings : Surroundings), SameIndex rows other →
      (rows .links).map (settledLink (passMap env surroundings other)) =
        (rows .links).map (settledLink plain) := by
    intro other surroundings same
    apply List.map_congr_left
    intro link member
    unfold settledLink
    by_cases unresolved : LinkRecord.unresolved link = true
    · obtain ⟨found, _documented, looked⟩ := (clear link member unresolved).lookup
      rw [if_pos unresolved, if_pos unresolved, looked other surroundings same,
        looked rows orderlySurroundings (SameIndex.refl rows)]
    · rw [if_neg unresolved, if_neg unresolved]
  have settled : ∀ after, PassOutcome env rows after →
      after.Perm ((rows .links).map (settledLink plain)) := by
    intro after outcome
    obtain ⟨other, surroundings, schedule, fact, world, same, calm, building, ended⟩ := outcome
    rw [ended, ← alike other surroundings same]
    exact linksAfter_perm resolvable same env surroundings calm building
  constructor
  · intro after outcome
    exists (rows .links).map (settledLink plain), settled after outcome
    apply List.forall₂_map_right_iff.mpr
    apply List.forall₂_same.mpr
    intro link member
    apply documentedLink_of_target
    intro unresolved
    obtain ⟨found, documented, looked⟩ := (clear link member unresolved).lookup
    rw [looked rows orderlySurroundings (SameIndex.refl rows)]
    exact documented
  · intro after other first second
    exact (settled after first).trans (settled other second).symm

/-! ### Where it is not -/

/-- Every set is enumerated with one note first. -/
def startingWith (path : Text) : Surroundings :=
  { orderlySurroundings with
    iterSet := fun items =>
      if path ∈ items then path :: items.filter (fun item => item ≠ path) else items
    iterSet_mem := by
      intro items item
      by_cases listed : path ∈ items
      · rw [if_pos listed, List.mem_cons, List.mem_filter]
        by_cases same : item = path
        · rw [same]
          exact iff_of_true (Or.inl rfl) listed
        · simp [same]
      · rw [if_neg listed] }

theorem lookup_startingWith (env : Env) {rows : Rows} {target path : Text}
    (listed : path ∈ noteOwners rows) (named : namedBy env target path = true) :
    (passMap env (startingWith path) rows).lookup target = some path := by
  have filled : ¬(noteOwners rows).isEmpty = true := by
    intro empty
    exact List.ne_nil_of_mem listed (List.isEmpty_iff.mp empty)
  have enumerated : (startingWith path).iterSet (noteOwners rows) =
      path :: (noteOwners rows).filter (fun item => item ≠ path) := if_pos listed
  rw [lookup_passMap, if_neg filled, enumerated, List.find?_cons_of_pos named]
  rfl

/-- The outcome of a pass in a world of its own. -/
theorem passOutcome_quiet (env : Env) {rows other : Rows} (same : SameIndex rows other)
    (surroundings : Surroundings) :
    PassOutcome env rows (linksAfter env surroundings quietSchedule (stagingWorld other)) :=
  ⟨other, surroundings, quietSchedule, fun _ => True, stagingWorld other, same,
    quietSchedule_calm _, stagingWorld_building other, rfl⟩

theorem settledLink_key (pathMap : List (Text × Text)) (link : LinkRecord) :
    (settledLink pathMap link).key = link.key := by
  unfold settledLink
  by_cases unresolved : link.unresolved = true
  · rw [if_pos unresolved]
    cases pathMap.lookup link.linkTargetNormalized <;> rfl
  · rw [if_neg unresolved]

/-- Among links with distinct keys a link is found behind a pass by its key. -/
theorem settledLink_unique {links : List LinkRecord} (distinct : DistinctLinks links)
    {pathMap : List (Text × Text)} {link row : LinkRecord} (member : link ∈ links)
    (unresolved : link.unresolved = true) (found : row ∈ links.map (settledLink pathMap))
    (same : row.key = link.key) :
    row = link.leadTo (pathMap.lookup link.linkTargetNormalized) := by
  obtain ⟨other, present, made⟩ := List.mem_map.mp found
  rw [← made, settledLink_key] at same
  have equal := distinct.eq present member (Bool.and_eq_true_iff.mp unresolved).2 same
  rw [← made, equal, settledLink, if_pos unresolved]

/-- In a stable resolution a link leads to the same note whatever the enumeration. -/
theorem ResolvesAsDocumented.lookup_eq {env : Env} {rows : Rows} (resolvable : Resolvable rows)
    (documented : ResolvesAsDocumented env rows) {link : LinkRecord} (member : link ∈ rows .links)
    (unresolved : link.unresolved = true) {first second : Rows} (same : SameIndex rows first)
    (alike : SameIndex rows second) (one two : Surroundings) :
    link.leadTo ((passMap env one first).lookup link.linkTargetNormalized) =
      link.leadTo ((passMap env two second).lookup link.linkTargetNormalized) := by
  have firstTable := linksAfter_perm resolvable same env one (quietSchedule_calm _)
    (stagingWorld_building first)
  have secondTable := linksAfter_perm resolvable alike env two (quietSchedule_calm _)
    (stagingWorld_building second)
  have stable := documented.stable _ _ (passOutcome_quiet env same one)
    (passOutcome_quiet env alike two)
  have moved := (firstTable.symm.trans stable).trans secondTable
  have listed := moved.mem_iff.mp (List.mem_map.mpr ⟨link, member, rfl⟩)
  have settled := settledLink_unique resolvable.distinct member unresolved listed
    (settledLink_key _ link)
  rw [settledLink, if_pos unresolved] at settled
  exact settled

theorem mem_of_forall₂ {left right : Type} {relation : left → right → Prop} {firsts : List left}
    {seconds : List right} (related : List.Forall₂ relation firsts seconds) {first : left}
    (member : first ∈ firsts) : ∃ second ∈ seconds, relation first second := by
  induction related with
  | nil => cases member
  | cons here _there ih =>
      rcases List.mem_cons.mp member with same | inside
      · rw [same]
        exact ⟨_, List.mem_cons_self, here⟩
      · obtain ⟨second, present, holds⟩ := ih inside
        exact ⟨second, List.mem_cons_of_mem _ present, holds⟩

/-- A documented resolution gives each link a documented target. -/
theorem ResolvesAsDocumented.target {env : Env} {rows : Rows} (resolvable : Resolvable rows)
    (documented : ResolvesAsDocumented env rows) {link : LinkRecord} (member : link ∈ rows .links)
    (unresolved : link.unresolved = true) (surroundings : Surroundings) :
    ∃ target, DocumentedTarget env rows link.linkTargetNormalized target ∧
      link.leadTo ((passMap env surroundings rows).lookup link.linkTargetNormalized) =
        link.leadTo target := by
  have same := SameIndex.refl rows
  obtain ⟨resolved, perm, each⟩ :=
    documented.ordered _ (passOutcome_quiet env same surroundings)
  have table := linksAfter_perm resolvable same env surroundings (quietSchedule_calm _)
    (stagingWorld_building rows)
  obtain ⟨row, present, fits⟩ := mem_of_forall₂ each member
  rw [DocumentedLink, if_pos unresolved] at fits
  obtain ⟨target, documentedTarget, made⟩ := fits
  have sameKey : row.key = link.key := by
    rw [made]
    cases target <;> rfl
  have found := table.mem_iff.mp (perm.mem_iff.mpr present)
  have settled := settledLink_unique resolvable.distinct member unresolved found sameKey
  exact ⟨target, documentedTarget, settled.symm.trans made⟩

def frontAlias (row : AliasRecord) (aliases : List AliasRecord) : List AliasRecord :=
  row :: aliases.erase row

theorem frontAlias_perm {row : AliasRecord} {aliases : List AliasRecord}
    (present : row ∈ aliases) : aliases.Perm (frontAlias row aliases) :=
  List.perm_cons_erase present

theorem find_frontAlias (row : AliasRecord) (aliases : List AliasRecord) :
    (frontAlias row aliases).find? (fun other => row.aliasNormalized = other.aliasNormalized) =
      some row :=
  List.find?_cons_of_pos (decide_eq_true rfl)

/-- The same index with one alias row first. -/
def aliasFirst (rows : Rows) (row : AliasRecord) : Rows :=
  Function.update rows .aliases (frontAlias row (rows .aliases))

theorem aliasFirst_same {rows : Rows} {row : AliasRecord} (present : row ∈ rows .aliases) :
    SameIndex rows (aliasFirst rows row) := by
  have chunks : aliasFirst rows row .chunks = rows .chunks :=
    Function.update_of_ne (by decide) _ _
  have links : aliasFirst rows row .links = rows .links := Function.update_of_ne (by decide) _ _
  have aliases : aliasFirst rows row .aliases = frontAlias row (rows .aliases) :=
    Function.update_self _ _ _
  constructor
  · intro path
    rw [noteOwners, noteOwners, chunks]
  · rw [aliases]
    exact frontAlias_perm present
  · rw [links]

theorem lookup_aliasFirst {env : Env} {rows : Rows} {row : AliasRecord}
    (present : row ∈ rows .aliases) (filled : noteOwners rows ≠ [])
    (unnamed : ∀ path ∈ noteOwners rows, namedBy env row.aliasNormalized path = false) :
    (passMap env orderlySurroundings (aliasFirst rows row)).lookup row.aliasNormalized =
      some row.notePath := by
  have same := aliasFirst_same present
  have aliases : aliasFirst rows row .aliases = frontAlias row (rows .aliases) :=
    Function.update_self _ _ _
  obtain ⟨path, listed⟩ := List.exists_mem_of_ne_nil _ filled
  have open' : ¬(noteOwners (aliasFirst rows row)).isEmpty = true := by
    intro empty
    exact List.ne_nil_of_mem ((same.notes path).mp listed) (List.isEmpty_iff.mp empty)
  rw [lookup_passMap, if_neg open', find_of_unnamed same orderlySurroundings unnamed,
    Option.none_or, aliases]
  exact congrArg (Option.map AliasRecord.notePath) (find_frontAlias row (rows .aliases))

theorem clear_of_resolvesAsDocumented {env : Env} {rows : Rows} (resolvable : Resolvable rows)
    (documented : ResolvesAsDocumented env rows) :
    ∀ link ∈ rows .links, LinkRecord.unresolved link = true →
      ClearTarget env rows (LinkRecord.linkTargetNormalized link) := by
  intro link member unresolved
  have sameTarget : ∀ path other : Text, LinkRecord.leadTo link (some path) =
      LinkRecord.leadTo link (some other) → path = other :=
    fun _ _ equal => congrArg LinkRecord.toNotePath equal
  -- without notes the pass ends before it looks at the aliases
  have indexed : (∀ path ∈ noteOwners rows,
      namedBy env (LinkRecord.linkTargetNormalized link) path = false) →
        ∀ path, HasAlias rows (LinkRecord.linkTargetNormalized link) path → noteOwners rows ≠ [] := by
    intro _unnamed path known empty
    obtain ⟨target, documentedTarget, led⟩ :=
      documented.target resolvable member unresolved orderlySurroundings
    have absent : (passMap env orderlySurroundings rows).lookup
        (LinkRecord.linkTargetNormalized link) = none := by
      rw [lookup_passMap, if_pos (by rw [empty]; rfl)]
    rw [absent] at led
    cases documentedTarget with
    | nothing _ _ noAlias => exact noAlias path known
    | byPath _ _ | byStem _ _ _ | byAlias _ _ _ _ =>
        have marked : LinkRecord.isResolved link = true := congrArg LinkRecord.isResolved led
        have unmarked := (Bool.and_eq_true_iff.mp unresolved).1
        rw [marked] at unmarked
        cases unmarked
  constructor
  · intro path listed other otherListed named otherNamed
    have equal := documented.lookup_eq resolvable member unresolved (SameIndex.refl rows)
      (SameIndex.refl rows) (startingWith path) (startingWith other)
    rw [lookup_startingWith env listed named, lookup_startingWith env otherListed otherNamed]
      at equal
    exact sameTarget path other equal
  · intro unnamed path other known otherKnown
    have filled := indexed unnamed path known
    obtain ⟨row, present, matched, owner⟩ := known
    obtain ⟨second, secondPresent, secondMatched, secondOwner⟩ := otherKnown
    have equal := documented.lookup_eq resolvable member unresolved (aliasFirst_same present)
      (aliasFirst_same secondPresent) orderlySurroundings orderlySurroundings
    have first := lookup_aliasFirst present filled (matched ▸ unnamed)
    have later := lookup_aliasFirst secondPresent filled (secondMatched ▸ unnamed)
    rw [← matched] at first
    rw [← secondMatched] at later
    rw [first, later] at equal
    rw [← owner, ← secondOwner]
    exact sameTarget _ _ equal
  · exact indexed

/-- Resolution follows the documented order, whatever the enumeration, exactly where every
unresolved link has a clear target. -/
theorem resolvesAsDocumented_iff (env : Env) {rows : Rows} (resolvable : Resolvable rows) :
    ResolvesAsDocumented env rows ↔
      ∀ link ∈ rows .links, LinkRecord.unresolved link = true →
        ClearTarget env rows (LinkRecord.linkTargetNormalized link) :=
  ⟨clear_of_resolvesAsDocumented resolvable, resolvesAsDocumented_of_clear resolvable⟩

/-- The staging tables of parsed notes are such an index. -/
theorem StagedNotes.resolvable {env : Env} {results : List (Text × ParseResult)} {rows : Rows}
    (staged : StagedNotes env results rows) (parsed : ParsedNotes env results)
    (scanned : ((rows .links).filter LinkRecord.unresolved).length ≤ unresolvedLimit) :
    Resolvable rows :=
  ⟨staged.distinctLinks parsed, staged.named parsed, scanned⟩

/-- One chunk for each path, and one link to `x`. -/
def linkToX (paths : List Text) : Rows
  | .chunks => paths.map (fun path =>
      { toChunkRecord := makeChunk "text".toList [] ⟨path, [], [], []⟩ [] {}, vector := [] })
  | .links => [(LinkSource.mk ⟨"note.md".toList, [], [], []⟩ [] "[[x]]".toList).row .wikilink
      "x".toList "x".toList "[[x]]".toList]
  | .aliases => []

theorem noteOwners_linkToX (paths : List Text) : noteOwners (linkToX paths) = paths := by
  unfold noteOwners linkToX
  exact (List.map_map ..).trans (List.map_id _)

theorem linkToX_resolvable {paths : List Text} (named : ∀ path ∈ paths, path ≠ []) :
    Resolvable (linkToX paths) := by
  constructor
  · exact List.nodup_singleton _
  · constructor
    · rw [noteOwners_linkToX]
      exact named
    · intro row member
      cases member
  · apply (List.length_filter_le _ _).trans
    exact Nat.le_of_ble_eq_true rfl

theorem resolvesAsDocumented_oneNote :
    ResolvesAsDocumented Env.plain (linkToX ["x.md".toList]) := by
  apply (resolvesAsDocumented_iff Env.plain (linkToX_resolvable (by decide))).mpr
  intro link _member _unresolved
  have only : ∀ path ∈ noteOwners (linkToX ["x.md".toList]), path = "x.md".toList := by
    rw [noteOwners_linkToX]
    intro path listed
    exact List.mem_singleton.mp listed
  constructor
  · intro path listed other otherListed _named _otherNamed
    rw [only path listed, only other otherListed]
  · intro _unnamed path other known
    obtain ⟨row, impossible, _⟩ := known
    cases impossible
  · intro _unnamed path known
    obtain ⟨row, impossible, _⟩ := known
    cases impossible

/-- A note in a folder takes a link away from the note whose path is the target. -/
theorem resolvesAsDocumented_twoNotes :
    ¬∀ (env : Env) (rows : Rows), Resolvable rows → ResolvesAsDocumented env rows := by
  intro holds
  have resolvable : Resolvable (linkToX ["a/x.md".toList, "x.md".toList]) :=
    linkToX_resolvable (by decide)
  have clear := clear_of_resolvesAsDocumented resolvable (holds Env.plain _ resolvable) _
    (List.mem_singleton_self _) rfl
  have same := clear.oneNote "a/x.md".toList (by rw [noteOwners_linkToX]; decide)
    "x.md".toList (by rw [noteOwners_linkToX]; decide) (by decide) (by decide)
  exact absurd same (by decide)

end VaultSearch
