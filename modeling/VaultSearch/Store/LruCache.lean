/-
A cache of bounded size that evicts the least recently used entry.

Its entries stand in the order of their last use.  The main result is that it holds the most
recently used keys and no others: `recency` lists the keys of a history by their last use,
and the cache is a prefix of that list.
-/

import Mathlib.Data.List.Nodup
import VaultSearch.Store.OrderedDict

set_option autoImplicit false

namespace VaultSearch

structure LruCache (key value : Type) where
  maxSize : Nat
  positive : 0 < maxSize
  /-- the least recently used entry first -/
  entries : List (key × value)
  distinct : (entries.map Prod.fst).Nodup
  bounded : entries.length ≤ maxSize

namespace LruCache

variable {key value : Type}

def empty (maxSize : Nat) (positive : 0 < maxSize) : LruCache key value :=
  { maxSize, positive, entries := [], distinct := List.nodup_nil, bounded := Nat.zero_le _ }

def keys (cache : LruCache key value) : List key :=
  cache.entries.map Prod.fst

/-- `while len(cache) >= max_size: cache.popitem(last=False)` -/
def evicted (cache : LruCache key value) : List (key × value) :=
  cache.entries.drop (cache.entries.length + 1 - cache.maxSize)

theorem distinct_insert (cache : LruCache key value) {name : key} (assigned : value)
    (absent : name ∉ cache.keys) :
    ((cache.evicted ++ [(name, assigned)]).map Prod.fst).Nodup := by
  rw [List.map_append, List.map_singleton, List.nodup_append]
  unfold evicted
  rw [List.map_drop]
  apply And.intro (cache.distinct.sublist (List.drop_sublist _ _))
  apply And.intro (List.nodup_singleton _)
  intro first member second isLast same
  have isName : first = name := same.trans (List.mem_singleton.mp isLast)
  rw [isName] at member
  exact absent (List.mem_of_mem_drop member)

def insert (cache : LruCache key value) (name : key) (assigned : value)
    (absent : name ∉ cache.keys) : LruCache key value :=
  { maxSize := cache.maxSize
    positive := cache.positive
    entries := cache.evicted ++ [(name, assigned)]
    distinct := cache.distinct_insert assigned absent
    bounded := by
      have positive := cache.positive
      unfold evicted
      rw [List.length_append, List.length_drop, List.length_singleton]
      omega }

variable [DecidableEq key]

def find (cache : LruCache key value) (name : key) : Option value :=
  cache.entries.lookup name

/-- The entries under other keys. -/
def others (cache : LruCache key value) (name : key) : List (key × value) :=
  cache.entries.filter (fun entry => entry.1 ≠ name)

theorem others_keys (cache : LruCache key value) (name : key) :
    (cache.others name).map Prod.fst = cache.keys.filter (· ≠ name) := by
  unfold others keys
  rw [List.filter_map]
  rfl

theorem distinct_renew (cache : LruCache key value) (name : key) (assigned : value) :
    ((cache.others name ++ [(name, assigned)]).map Prod.fst).Nodup := by
  rw [List.map_append, others_keys, List.map_singleton, List.nodup_append]
  apply And.intro (cache.distinct.filter _)
  apply And.intro (List.nodup_singleton _)
  intro first kept second isLast same
  rw [List.mem_filter, decide_eq_true_iff] at kept
  rw [List.mem_singleton.mp isLast] at same
  exact kept.2 same

theorem others_length (cache : LruCache key value) {name : key} (present : name ∈ cache.keys) :
    (cache.others name).length + 1 = cache.entries.length := by
  have shorter : (cache.others name).length = cache.keys.length - 1 := by
    have distinct : cache.keys.Nodup := cache.distinct
    rw [← List.length_map Prod.fst, others_keys, ← List.length_erase_of_mem present,
      distinct.erase_eq_filter]
    congr 1
    apply List.filter_congr
    intro entry _member
    rw [Bool.eq_iff_iff, decide_eq_true_iff, bne_iff_ne]
  have filled := List.length_pos_of_mem present
  have same : cache.keys.length = cache.entries.length := List.length_map _
  omega

/-- The entry of a key that is present becomes the last one. -/
def renew (cache : LruCache key value) (name : key) (assigned : value)
    (present : name ∈ cache.keys) : LruCache key value :=
  { maxSize := cache.maxSize
    positive := cache.positive
    entries := cache.others name ++ [(name, assigned)]
    distinct := cache.distinct_renew name assigned
    bounded := by
      rw [List.length_append, List.length_singleton, cache.others_length present]
      exact cache.bounded }

/-- The value of a key and the cache with its entry as the most recent one. -/
def get (cache : LruCache key value) (name : key) : Option value × LruCache key value :=
  match cache.find name with
  | none => (none, cache)
  | some found =>
      if present : name ∈ cache.keys then (some found, cache.renew name found present)
      else (some found, cache)

def set (cache : LruCache key value) (name : key) (assigned : value) : LruCache key value :=
  if present : name ∈ cache.keys then cache.renew name assigned present
  else cache.insert name assigned present

/-! ### What is found -/

theorem mem_keys_iff (cache : LruCache key value) (name : key) :
    name ∈ cache.keys ↔ (cache.find name).isSome = true := by
  unfold keys find
  rw [OrderedDict.lookup_isSome, List.mem_map]

theorem get_none {cache : LruCache key value} {name : key} (missing : cache.find name = none) :
    cache.get name = (none, cache) := by
  unfold get
  rw [missing]

theorem get_some {cache : LruCache key value} {name : key} {found : value}
    (hit : cache.find name = some found) :
    ∃ present, cache.get name = (some found, cache.renew name found present) := by
  have present : name ∈ cache.keys := by
    rw [mem_keys_iff, hit]
    rfl
  apply Exists.intro present
  unfold get
  rw [hit]
  dsimp only
  rw [dif_pos present]

/-- What is in the cache after a use was there before, or is the entry used. -/
theorem mem_renew {cache : LruCache key value} {name : key} {assigned : value}
    {present : name ∈ cache.keys} {entry : key × value}
    (member : entry ∈ (cache.renew name assigned present).entries) :
    entry ∈ cache.entries ∨ entry = (name, assigned) := by
  rcases List.mem_append.mp member with kept | last
  · exact Or.inl (List.mem_filter.mp kept).1
  · exact Or.inr (List.mem_singleton.mp last)

theorem mem_set {cache : LruCache key value} {name : key} {assigned : value}
    {entry : key × value} (member : entry ∈ (cache.set name assigned).entries) :
    entry ∈ cache.entries ∨ entry = (name, assigned) := by
  unfold set at member
  split at member
  · exact mem_renew member
  · rcases List.mem_append.mp member with kept | last
    · exact Or.inl (List.mem_of_mem_drop kept)
    · exact Or.inr (List.mem_singleton.mp last)

theorem set_maxSize (cache : LruCache key value) (name : key) (assigned : value) :
    (cache.set name assigned).maxSize = cache.maxSize := by
  unfold set
  split
  · rfl
  · rfl

theorem find_renew {cache : LruCache key value} {name : key} {assigned : value}
    {present : name ∈ cache.keys} (other : key) :
    (cache.renew name assigned present).find other =
      if other = name then some assigned else cache.find other := by
  have kept := OrderedDict.lookup_filter cache.entries (fun stored => stored ≠ name) other
  unfold find renew others
  dsimp only at kept ⊢
  rw [OrderedDict.lookup_append, OrderedDict.lookup_singleton, kept]
  by_cases same : other = name
  · simp [same]
  · simp [same]

/-- What is found behind an insertion is new, or was found before. -/
theorem find_insert {cache : LruCache key value} {name : key} {assigned : value}
    (absent : name ∉ cache.keys) {other : key} {found : value}
    (has : (cache.insert name assigned absent).find other = some found) :
    (other = name ∧ found = assigned) ∨ cache.find other = some found := by
  have member := OrderedDict.mem_of_lookup has
  rcases List.mem_append.mp member with kept | last
  · exact Or.inr (OrderedDict.lookup_of_mem cache.distinct (List.mem_of_mem_drop kept))
  · left
    obtain ⟨sameKey, sameValue⟩ := Prod.mk.inj (List.mem_singleton.mp last)
    exact ⟨sameKey, sameValue⟩

/-! ### Recency -/

/-- The keys of a history, newest first, each where it was used last. -/
def recency : List key → List key
  | [] => []
  | name :: earlier => name :: (recency earlier).filter (· ≠ name)

theorem recency_nodup (uses : List key) : (recency uses).Nodup := by
  induction uses with
  | nil => exact List.nodup_nil
  | cons name earlier ih =>
      apply List.nodup_cons.mpr
      apply And.intro _ (ih.filter _)
      intro inside
      exact of_decide_eq_true (List.mem_filter.mp inside).2 rfl

/-- The cache holds the keys used last. -/
def Recent (cache : LruCache key value) (uses : List key) : Prop :=
  cache.keys.reverse = (recency uses).take cache.maxSize

theorem recent_empty (maxSize : Nat) (positive : 0 < maxSize) :
    (empty maxSize positive : LruCache key value).Recent [] :=
  List.take_nil.symm

/-- Without one of its first elements a list is shorter by it. -/
theorem take_filter_mem {items : List key} {name : key} {count : Nat} (distinct : items.Nodup)
    (inside : name ∈ items.take (count + 1)) :
    (items.take (count + 1)).filter (· ≠ name) = (items.filter (· ≠ name)).take count := by
  induction items generalizing count with
  | nil => cases inside
  | cons head tail ih =>
      rw [List.nodup_cons] at distinct
      rw [List.take_succ_cons] at inside ⊢
      by_cases same : head = name
      · have apart : ∀ entry ∈ tail, decide (entry ≠ name) = true := by
          intro entry member
          rw [decide_eq_true_iff, ← same]
          intro equal
          exact distinct.1 (equal ▸ member)
        rw [List.filter_cons_of_neg (by simp [same]), List.filter_cons_of_neg (by simp [same]),
          List.filter_eq_self.mpr apart,
          List.filter_eq_self.mpr (fun entry member => apart entry (List.mem_of_mem_take member))]
      · rw [List.filter_cons_of_pos (by simp [same]), List.filter_cons_of_pos (by simp [same])]
        have later := (List.mem_cons.mp inside).resolve_left (fun equal => same equal.symm)
        cases count with
        | zero => cases later
        | succ count => rw [List.take_succ_cons, ih distinct.2 later]

theorem take_filter_notMem {items : List key} {name : key} {count : Nat}
    (outside : name ∉ items.take (count + 1)) :
    items.take count = (items.filter (· ≠ name)).take count := by
  induction items generalizing count with
  | nil => rfl
  | cons head tail ih =>
      rw [List.take_succ_cons, List.mem_cons, not_or] at outside
      rw [List.filter_cons_of_pos (by simpa using fun same : head = name => outside.1 same.symm)]
      cases count with
      | zero => rfl
      | succ count => rw [List.take_succ_cons, List.take_succ_cons, ih outside.2]

theorem Recent.renew {cache : LruCache key value} {uses : List key} (recent : cache.Recent uses)
    {name : key} (assigned : value) (present : name ∈ cache.keys) :
    (cache.renew name assigned present).Recent (name :: uses) := by
  have shape : (cache.renew name assigned present).keys.reverse =
      name :: cache.keys.reverse.filter (· ≠ name) := by
    unfold LruCache.renew keys
    dsimp only
    rw [List.map_append, others_keys, List.map_singleton, List.reverse_append,
      List.reverse_singleton, List.filter_reverse]
    rfl
  obtain ⟨count, size⟩ := Nat.exists_eq_succ_of_ne_zero (Nat.ne_of_gt cache.positive)
  have inside : name ∈ (recency uses).take (count + 1) := by
    have held := List.mem_reverse.mpr present
    unfold Recent at recent
    rw [recent, size] at held
    exact held
  unfold Recent at recent ⊢
  rw [shape, recent, size, take_filter_mem (recency_nodup uses) inside]
  change _ = (name :: (recency uses).filter (· ≠ name)).take cache.maxSize
  rw [size, List.take_succ_cons]

theorem Recent.insert {cache : LruCache key value} {uses : List key} (recent : cache.Recent uses)
    {name : key} (assigned : value) (absent : name ∉ cache.keys) :
    (cache.insert name assigned absent).Recent (name :: uses) := by
  obtain ⟨count, size⟩ := Nat.exists_eq_succ_of_ne_zero (Nat.ne_of_gt cache.positive)
  have bounded := cache.bounded
  have shape : (cache.insert name assigned absent).keys.reverse =
      name :: cache.keys.reverse.take count := by
    unfold LruCache.insert keys evicted
    dsimp only
    rw [List.map_append, List.map_drop, List.map_singleton, List.reverse_append,
      List.reverse_singleton, List.reverse_drop, List.length_map]
    rw [List.singleton_append, List.cons_inj_right, List.take_eq_take_iff, List.length_reverse,
      List.length_map]
    omega
  have outside : name ∉ (recency uses).take (count + 1) := by
    intro inside
    unfold Recent at recent
    rw [← Nat.succ_eq_add_one, ← size, ← recent] at inside
    exact absent (List.mem_reverse.mp inside)
  unfold Recent at recent ⊢
  rw [shape, recent, size, List.take_take, Nat.min_eq_left (Nat.le_succ count),
    take_filter_notMem outside]
  change _ = (name :: (recency uses).filter (· ≠ name)).take cache.maxSize
  rw [size, List.take_succ_cons]

theorem Recent.set {cache : LruCache key value} {uses : List key} (recent : cache.Recent uses)
    (name : key) (assigned : value) : (cache.set name assigned).Recent (name :: uses) := by
  unfold LruCache.set
  split
  · exact recent.renew assigned _
  · exact recent.insert assigned _

end LruCache

end VaultSearch
