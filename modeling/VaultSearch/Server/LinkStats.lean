/-
`link_stats` of `server/search_tools.py`: the counts over the link table.

Every external row that the parsers write is marked as resolved.  The numerator of the
resolution rate counts these rows, its denominator leaves them out.
-/

import Mathlib.Algebra.Field.Rat
import Mathlib.Algebra.Order.Field.Basic
import Mathlib.Algebra.Order.Ring.Rat
import Mathlib.Tactic.FieldSimp
import Mathlib.Tactic.Linarith
import Mathlib.Tactic.Positivity
import VaultSearch.Core.LinkPass
import VaultSearch.Store.OrderedDict

set_option autoImplicit false

namespace VaultSearch

structure BacklinkRank where
  path : Text
  backlinks : Nat
  deriving DecidableEq

structure OutlinkRank where
  path : Text
  outlinks : Nat
  deriving DecidableEq

structure LinkStats where
  totalLinks : Nat
  totalResolved : Nat
  totalBroken : Nat
  totalExternal : Nat
  resolutionRate : Rat
  uniqueSources : Nat
  uniqueTargets : Nat
  mostReferenced : List BacklinkRank
  mostOutlinks : List OutlinkRank

/-- `.limit(100000)` -/
def linkReadLimit : Nat := 100000

def isExternal (link : LinkRecord) : Bool :=
  link.linkType = .external

def isBroken (link : LinkRecord) : Bool :=
  !link.isResolved && !isExternal link

/-- `rounded` is `round(rate, 1)`. -/
def linkStats (rounded : Rat → Rat) (limit : Int) (table : List LinkRecord) : LinkStats :=
  let limit := (max 1 (min limit 200)).toNat
  let allLinks := table.take linkReadLimit
  let totalLinks := allLinks.length
  let totalResolved := allLinks.countP LinkRecord.isResolved
  let totalExternal := allLinks.countP isExternal
  let backlinkCount := OrderedDict.tally
    ((allLinks.map LinkRecord.toNotePath).filter (fun target => !target.isEmpty))
  let outlinkCount := OrderedDict.tally (allLinks.map LinkRecord.fromNotePath)
  let backlinkRanking := backlinkCount.map (fun entry => BacklinkRank.mk entry.1 entry.2)
  let outlinkRanking := outlinkCount.map (fun entry => OutlinkRank.mk entry.1 entry.2)
  let nonExternal := totalLinks - totalExternal
  { totalLinks
    totalResolved
    totalBroken := allLinks.countP isBroken
    totalExternal
    resolutionRate := rounded ((totalResolved : Rat) / (max nonExternal 1 : Nat) * 100)
    uniqueSources := outlinkCount.length
    uniqueTargets := backlinkCount.length
    mostReferenced := (backlinkRanking.mergeSort (fun left right =>
      right.backlinks ≤ left.backlinks)).take limit
    mostOutlinks := (outlinkRanking.mergeSort (fun left right =>
      right.outlinks ≤ left.outlinks)).take limit }

/-! ### Rankings -/

/-- A ranked note stands with the number of rows that lead to it. -/
theorem linkStats_mostReferenced (rounded : Rat → Rat) (limit : Int) (table : List LinkRecord) :
    ∀ rank ∈ (linkStats rounded limit table).mostReferenced,
      rank.backlinks = (((table.take linkReadLimit).map LinkRecord.toNotePath).filter
        (fun target => !target.isEmpty)).count rank.path := by
  intro rank member
  have ranked := List.mem_mergeSort.mp (List.mem_of_mem_take member)
  obtain ⟨entry, counted, same⟩ := List.mem_map.mp ranked
  rw [← same]
  exact OrderedDict.tally_entry counted

theorem linkStats_mostOutlinks (rounded : Rat → Rat) (limit : Int) (table : List LinkRecord) :
    ∀ rank ∈ (linkStats rounded limit table).mostOutlinks,
      rank.outlinks = ((table.take linkReadLimit).map LinkRecord.fromNotePath).count rank.path := by
  intro rank member
  have ranked := List.mem_mergeSort.mp (List.mem_of_mem_take member)
  obtain ⟨entry, counted, same⟩ := List.mem_map.mp ranked
  rw [← same]
  exact OrderedDict.tally_entry counted

/-! ### Tables -/

/-- The link tables that arise when notes are parsed, when the resolution pass runs and when
rows are deleted; a scan may give the rows in any order. -/
inductive LinkTable (env : Env) : List LinkRecord → Prop
  | empty : LinkTable env []
  | parsed {rows : List LinkRecord} (earlier : LinkTable env rows) (path : Text) (file : File) :
      LinkTable env (rows ++ (parseFileResult env path file).links)
  | resolved {rows : List LinkRecord} (earlier : LinkTable env rows)
      (pathMap : List (Text × Text)) : LinkTable env (passedLinks pathMap rows)
  | deleted {rows left : List LinkRecord} (earlier : LinkTable env rows)
      (kept : left.Sublist rows) : LinkTable env left
  | scanned {rows order : List LinkRecord} (earlier : LinkTable env rows)
      (same : order.Perm rows) : LinkTable env order

theorem isExternal_eq (link : LinkRecord) : isExternal link = !link.internal := by
  unfold isExternal LinkRecord.internal
  simp

/-- Every external row is marked as resolved. -/
def ExternalResolved (links : List LinkRecord) : Prop :=
  ∀ link ∈ links, isExternal link = true → link.isResolved = true

theorem ExternalResolved.mono {links others : List LinkRecord} (settled : ExternalResolved links)
    (inside : ∀ link ∈ others, link ∈ links) : ExternalResolved others :=
  fun link member external => settled link (inside link member) external

theorem externalResolved_parsed (env : Env) (path : Text) (file : File) :
    ExternalResolved (parseFileResult env path file).links := by
  intro link member external
  apply (parseFileResult_of env path file).2.external link member
  rw [isExternal_eq, Bool.not_eq_eq_eq_not, Bool.not_true] at external
  exact external

/-- An update marks the row it writes. -/
theorem ExternalResolved.applied {links : List LinkRecord} (settled : ExternalResolved links)
    (update : LinkUpdate) : ExternalResolved (update.applied links) := by
  cases found : (links.filter (fun link => link.key = update.key)).head? with
  | none =>
      rw [LinkUpdate.applied_none found]
      exact settled
  | some record =>
      rw [LinkUpdate.applied_some found]
      intro link member external
      cases List.mem_append.mp member with
      | inl kept => exact settled link (List.mem_of_mem_filter kept) external
      | inr added => rw [List.mem_singleton.mp added]

theorem ExternalResolved.passed {links : List LinkRecord} (settled : ExternalResolved links)
    (pathMap : List (Text × Text)) : ExternalResolved (passedLinks pathMap links) := by
  unfold passedLinks applyUpdates
  generalize passUpdates pathMap links = updates
  induction updates generalizing links with
  | nil => exact settled
  | cons update rest ih => exact ih (settled.applied update)

theorem LinkTable.externalResolved {env : Env} {table : List LinkRecord}
    (made : LinkTable env table) : ExternalResolved table := by
  induction made with
  | empty =>
      intro link member
      cases member
  | parsed earlier path file ih =>
      intro link member
      cases List.mem_append.mp member with
      | inl old => exact ih link old
      | inr new => exact externalResolved_parsed env path file link new
  | resolved earlier pathMap ih => exact ih.passed pathMap
  | deleted earlier kept ih => exact ih.mono (fun _ member => kept.subset member)
  | scanned earlier same ih => exact ih.mono (fun _ member => same.mem_iff.mp member)

theorem linkTable_built {env : Env} {results : List (Text × ParseResult)}
    (parsed : ParsedNotes env results) : LinkTable env (builtLinks results) := by
  have each : ∀ entries : List (Text × ParseResult), (∀ entry ∈ entries, entry ∈ results) →
      ∀ rows, LinkTable env rows →
        LinkTable env (rows ++ entries.flatMap (fun entry => entry.2.links)) := by
    intro entries
    induction entries with
    | nil =>
        intro _listed rows made
        rw [List.flatMap_nil, List.append_nil]
        exact made
    | cons entry rest ih =>
        intro listed rows made
        rw [List.flatMap_cons, ← List.append_assoc]
        apply ih (fun other member => listed other (List.mem_cons_of_mem _ member))
        obtain ⟨content, same⟩ := parsed.parsed entry (listed entry List.mem_cons_self)
        rw [same]
        cases content with
        | some file => exact made.parsed entry.1 file
        | none =>
            have none : (truncateChunks env (contentParse env entry.1 none)).links = [] := by
              unfold truncateChunks contentParse
              cases formatOf env entry.1 with
              | none => rfl
              | some format => rfl
            rw [none, List.append_nil]
            exact made
  have built := each (indexedResults results) (fun _ member => List.mem_of_mem_filter member)
    [] .empty
  rw [List.nil_append] at built
  exact built

/-- What a rebuild leaves in its link table. -/
theorem linkTable_linksAfter {env : Env} {results : List (Text × ParseResult)} {rows : Rows}
    (parsed : ParsedNotes env results) (staged : StagedNotes env results rows)
    (surroundings : Surroundings) {schedule : Schedule Label OtherAction} {fact : Vault → Prop}
    (calm : Calm schedule fact) {world : World} (building : Building fact rows world) :
    LinkTable env (linksAfter env surroundings schedule world) := by
  rw [linksAfter_eq calm env surroundings building]
  exact ((linkTable_built parsed).scanned staged.links).resolved _

/-! ### The rate -/

/-- 100 times the share of the internal links that are resolved. -/
def internalRate (links : List LinkRecord) : Rat :=
  let internal := links.filter LinkRecord.internal
  if internal.isEmpty then 0
  else 100 * (internal.countP LinkRecord.isResolved : Rat) / internal.length

/-- A rate over the internal links. -/
structure RateLaw (rate : Rat) (links : List LinkRecord) : Prop where
  share : rate = internalRate links
  nonneg : 0 ≤ rate
  atMost : rate ≤ 100
  full : rate = 100 → ∀ link ∈ links, link.internal = true → link.isResolved = true

/-- The rate before rounding. -/
def unroundedRate (limit : Int) (table : List LinkRecord) : Rat :=
  (linkStats id limit table).resolutionRate

section Rate

variable {links : List LinkRecord}

theorem countP_resolved (settled : ExternalResolved links) :
    links.countP LinkRecord.isResolved =
      (links.filter LinkRecord.internal).countP LinkRecord.isResolved +
        links.countP isExternal := by
  induction links with
  | nil => rfl
  | cons head tail ih =>
      have rest := ih (settled.mono (fun _ member => List.mem_cons_of_mem _ member))
      have here := settled head List.mem_cons_self
      rw [isExternal_eq] at here
      rw [List.countP_cons, List.countP_cons, rest, isExternal_eq]
      cases kind : head.internal with
      | true =>
          rw [List.filter_cons_of_pos kind, List.countP_cons]
          simp only [Bool.not_true, Bool.false_eq_true, if_false]
          omega
      | false =>
          rw [List.filter_cons_of_neg (by rw [kind]; exact Bool.false_ne_true)]
          rw [kind] at here
          rw [here rfl, Bool.not_false, if_pos rfl]
          omega

theorem length_internal :
    links.length - links.countP isExternal = (links.filter LinkRecord.internal).length := by
  have split := List.length_eq_countP_add_countP LinkRecord.internal (l := links)
  have external : links.countP (fun link => !link.internal) = links.countP isExternal := by
    apply List.countP_congr
    intro link _member
    rw [isExternal_eq]
  rw [← List.countP_eq_length_filter]
  simp only [decide_not, Bool.decide_eq_true] at split
  omega

/-- Each external link counts as one more resolved link. -/
theorem unroundedRate_eq {table : List LinkRecord} (limit : Int)
    (settled : ExternalResolved (table.take linkReadLimit)) :
    unroundedRate limit table =
      (((table.take linkReadLimit).filter LinkRecord.internal).countP LinkRecord.isResolved +
        (table.take linkReadLimit).countP isExternal : Nat) /
      (max ((table.take linkReadLimit).filter LinkRecord.internal).length 1 : Nat) * 100 := by
  rw [← countP_resolved settled, ← length_internal]
  rfl

/-- `max(non_external, 1)` does nothing to the share of the internal links. -/
theorem internalRate_eq (links : List LinkRecord) :
    internalRate links = ((links.filter LinkRecord.internal).countP LinkRecord.isResolved : Nat) /
      (max (links.filter LinkRecord.internal).length 1 : Nat) * 100 := by
  unfold internalRate
  dsimp only
  generalize links.filter LinkRecord.internal = internal
  cases internal with
  | nil => simp
  | cons head tail =>
      have filled : max (head :: tail).length 1 = (head :: tail).length :=
        Nat.max_eq_left (Nat.succ_pos _)
      rw [filled, if_neg (by simp), div_mul_eq_mul_div, mul_comm]

theorem internalRate_bounds (links : List LinkRecord) :
    0 ≤ internalRate links ∧ internalRate links ≤ 100 := by
  have counted : (links.filter LinkRecord.internal).countP LinkRecord.isResolved ≤
      max (links.filter LinkRecord.internal).length 1 :=
    List.countP_le_length.trans (Nat.le_max_left _ _)
  have positive : (0 : Rat) < (max (links.filter LinkRecord.internal).length 1 : Nat) :=
    Nat.cast_pos.mpr (Nat.lt_of_lt_of_le Nat.one_pos (Nat.le_max_right _ _))
  rw [internalRate_eq]
  constructor
  · positivity
  · have share : ((links.filter LinkRecord.internal).countP LinkRecord.isResolved : Rat) /
        (max (links.filter LinkRecord.internal).length 1 : Nat) ≤ 1 := by
      rw [div_le_one positive]
      exact Nat.cast_le.mpr counted
    linarith

theorem internalRate_full (full : internalRate links = 100) :
    ∀ link ∈ links, link.internal = true → link.isResolved = true := by
  intro link member internal
  have inside : link ∈ links.filter LinkRecord.internal := List.mem_filter.mpr ⟨member, internal⟩
  have filled : 0 < (links.filter LinkRecord.internal).length := List.length_pos_of_mem inside
  have nonzero : ((links.filter LinkRecord.internal).length : Rat) ≠ 0 :=
    Nat.cast_ne_zero.mpr (Nat.pos_iff_ne_zero.mp filled)
  rw [internalRate_eq, Nat.max_eq_left filled] at full
  have share : ((links.filter LinkRecord.internal).countP LinkRecord.isResolved : Rat) /
      (links.filter LinkRecord.internal).length = 1 := by linarith
  rw [div_eq_one_iff_eq nonzero, Nat.cast_inj, List.countP_eq_length] at share
  exact share link inside

theorem rateLaw_internalRate (links : List LinkRecord) : RateLaw (internalRate links) links :=
  { share := rfl
    nonneg := (internalRate_bounds links).1
    atMost := (internalRate_bounds links).2
    full := internalRate_full }

end Rate

/-- Two shares of one whole are equal when their parts are. -/
theorem share_inj {left right whole : Nat} (positive : 0 < whole) :
    (left : Rat) / whole * 100 = right / whole * 100 ↔ left = right := by
  have nonzero : (whole : Rat) ≠ 0 := Nat.cast_ne_zero.mpr (Nat.pos_iff_ne_zero.mp positive)
  rw [mul_left_inj' (by norm_num : (100 : Rat) ≠ 0), div_left_inj' nonzero, Nat.cast_inj]

section Tables

variable {env : Env} {table : List LinkRecord}

theorem LinkTable.readResolved (made : LinkTable env table) :
    ExternalResolved (table.take linkReadLimit) :=
  made.externalResolved.mono (fun _ member => List.mem_of_mem_take member)

theorem unroundedRate_law_iff (made : LinkTable env table) (limit : Int) :
    RateLaw (unroundedRate limit table) (table.take linkReadLimit) ↔
      ∀ link ∈ table.take linkReadLimit, link.internal = true := by
  have whole : 0 < max ((table.take linkReadLimit).filter LinkRecord.internal).length 1 :=
    Nat.lt_of_lt_of_le Nat.one_pos (Nat.le_max_right _ _)
  have none : (table.take linkReadLimit).countP isExternal = 0 ↔
      ∀ link ∈ table.take linkReadLimit, link.internal = true := by
    rw [List.countP_eq_zero]
    simp only [isExternal_eq, Bool.not_eq_true', Bool.not_eq_false]
  have same : unroundedRate limit table = internalRate (table.take linkReadLimit) ↔
      (table.take linkReadLimit).countP isExternal = 0 := by
    rw [unroundedRate_eq limit made.readResolved, internalRate_eq, share_inj whole]
    omega
  rw [← none, ← same]
  constructor
  · intro law
    exact law.share
  · intro share
    rw [share]
    exact rateLaw_internalRate _

/-- Two tables with the same internal links have the same rate exactly when they have equally
many external links. -/
theorem unroundedRate_eq_iff {other : List LinkRecord} (made : LinkTable env table)
    (otherMade : LinkTable env other) (limit : Int)
    (same : ((table.take linkReadLimit).filter LinkRecord.internal).Perm
      ((other.take linkReadLimit).filter LinkRecord.internal)) :
    unroundedRate limit table = unroundedRate limit other ↔
      (table.take linkReadLimit).countP isExternal =
        (other.take linkReadLimit).countP isExternal := by
  have whole : 0 < max ((other.take linkReadLimit).filter LinkRecord.internal).length 1 :=
    Nat.lt_of_lt_of_le Nat.one_pos (Nat.le_max_right _ _)
  rw [unroundedRate_eq limit made.readResolved, unroundedRate_eq limit otherMade.readResolved,
    same.length_eq, same.countP_eq, share_inj whole]
  omega

end Tables

/-- The rate is one over the internal links exactly when no external link is read, and external
links leave it as it is exactly when none comes or goes. -/
theorem linkStats_rate_iff (env : Env) (limit : Int) :
    (∀ table, LinkTable env table →
      (RateLaw (unroundedRate limit table) (table.take linkReadLimit) ↔
        ∀ link ∈ table.take linkReadLimit, link.internal = true)) ∧
    (∀ table other, LinkTable env table → LinkTable env other →
      ((table.take linkReadLimit).filter LinkRecord.internal).Perm
        ((other.take linkReadLimit).filter LinkRecord.internal) →
      (unroundedRate limit table = unroundedRate limit other ↔
        (table.take linkReadLimit).countP isExternal =
          (other.take linkReadLimit).countP isExternal)) := by
  constructor
  · intro table made
    exact unroundedRate_law_iff made limit
  · intro table other made otherMade same
    exact unroundedRate_eq_iff made otherMade limit same

/-- The links of `a.md` when the note holds this text. -/
def parsedLinks (text : Text) : List LinkRecord :=
  (parseFileResult Env.plain "a.md".toList { text, mtime := 0 }).links

theorem parsedLinks_table (text : Text) : LinkTable Env.plain (parsedLinks text) :=
  LinkTable.empty.parsed _ _

def linkedText : Text := "[[hub]]".toList

theorem linkStats_rate_linked :
    RateLaw (unroundedRate 50 (parsedLinks linkedText))
      ((parsedLinks linkedText).take linkReadLimit) := by
  apply ((linkStats_rate_iff Env.plain 50).1 _ (parsedLinks_table linkedText)).mpr
  intro link member
  have internal : (parsedLinks linkedText).all LinkRecord.internal = true := rfl
  exact List.all_eq_true.mp internal link (List.mem_of_mem_take member)

def citingText : Text := "[a](http://a.io) [b](http://b.io)".toList

/-- Two external links and no internal one: the rate is 200. -/
theorem linkStats_rate_citing :
    ¬∀ (env : Env) (limit : Int) (table : List LinkRecord), LinkTable env table →
      RateLaw (unroundedRate limit table) (table.take linkReadLimit) := by
  intro holds
  have made := parsedLinks_table citingText
  have bounded := (holds Env.plain 50 _ made).atMost
  have read : (parsedLinks citingText).take linkReadLimit = parsedLinks citingText := by
    apply List.take_of_length_le
    have two : (parsedLinks citingText).length = 2 := rfl
    rw [two]
    decide
  have external : (parsedLinks citingText).countP isExternal = 2 := rfl
  have internal : (parsedLinks citingText).filter LinkRecord.internal = [] := rfl
  rw [unroundedRate_eq 50 made.readResolved, read, external, internal] at bounded
  norm_num at bounded

end VaultSearch
