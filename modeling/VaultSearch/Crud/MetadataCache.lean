/-
`get_note_metadata` of `crud/read.py` and the cache of `crud/cache.py` it answers from.

Entries are keyed by the resolved path, the mtime and the size of a file; what is stored also
shows the spelling of the path that the caller gave.  A call is answered as without the cache
exactly when the entry it finds, if any, has this spelling and the frontmatter the file has
now.
-/

import VaultSearch.Crud.Containment
import VaultSearch.Crud.CatalogScan
import VaultSearch.Store.LruCache

set_option autoImplicit false

namespace VaultSearch

open Symlinks

structure NoteMetadata where
  path : Text
  frontmatter : Mapping
  tags : List Text
  title : Text
  folder : Text
  modifiedAt : Text
  sizeBytes : Nat

structure CacheKey where
  /-- `str(file_path)` -/
  path : Location Text
  mtimeNs : Nat
  size : Nat
  deriving DecidableEq

/-! ### The cache -/

structure MetadataCache where
  stored : LruCache CacheKey NoteMetadata
  hits : Nat := 0
  misses : Nat := 0

namespace MetadataCache

def get (cache : MetadataCache) (key : CacheKey) : Option NoteMetadata × MetadataCache :=
  let (found, stored) := cache.stored.get key
  match found with
  | none => (none, { cache with stored, misses := cache.misses + 1 })
  | some metadata => (some metadata, { cache with stored, hits := cache.hits + 1 })

def set (cache : MetadataCache) (key : CacheKey) (metadata : NoteMetadata) : MetadataCache :=
  { cache with stored := cache.stored.set key metadata }

/-- The empty cache of the same size. -/
def clear (cache : MetadataCache) : MetadataCache :=
  { stored := LruCache.empty cache.stored.maxSize cache.stored.positive }

end MetadataCache

/-! ### The metadata of a file -/

/-- A vault between two changes. -/
structure VaultMoment extends LinkedVault where
  status : Location Text → FileStatus
  /-- the text that is read, `none` where opening or decoding it fails -/
  text : Location Text → Option Text

namespace VaultMoment

variable (vault : VaultMoment) (env : Env)

/-- `get_folder` -/
def getFolder (filePath : Location Text) : Except PyError Text :=
  let parent := vault.tree.realpath (enters filePath.dropLast)
  if vault.vaultRoot.isPrefixOf parent then
    .ok (Text.join "/".toList (parent.drop vault.vaultRoot.length))
  else .error .valueError

/-- The mapping that `read_frontmatter_only` returns. -/
def readFrontmatter (filePath : Location Text) : Except PyError Mapping :=
  match vault.text filePath with
  | none => .ok []
  | some text => (readFrontmatterOnly env text).map Prod.fst

/-- `Path(file_path).stem` -/
def stemOf (filePath : Location Text) : Text :=
  (PurePath.splitext (filePath.getLast?.getD [])).1

def metadataTitle (frontmatter : Mapping) (stem : Text) : Except PyError Text :=
  match frontmatter.get "title".toList with
  | none => .ok stem
  | some (.str title) => .ok title
  | some value => if value.truthy then pyStr env value else .ok stem

/-- What `get_note_metadata` puts together from the frontmatter it has read. -/
def describe (key : CacheKey) (relativePath : Text) (frontmatter : Mapping) :
    Except PyError NoteMetadata := do
  let tags ← extractTags env frontmatter
  let title ← metadataTitle env frontmatter (stemOf key.path)
  let folder ← vault.getFolder key.path
  return {
    path := relativePath
    frontmatter
    tags
    title
    folder
    modifiedAt := env.isoformat key.mtimeNs
    sizeBytes := key.size }

def loadMetadata (key : CacheKey) (relativePath : Text) : Except PyError NoteMetadata := do
  let frontmatter ← vault.readFrontmatter env key.path
  vault.describe env key relativePath frontmatter

/-- The checks in front of the cache, and the key. -/
def cacheKey (relativePath : Text) : Except PyError CacheKey := do
  validateReadableText env relativePath
  let filePath ← vault.resolvePath env relativePath
  if vault.fileExists filePath then
    return { path := filePath
             mtimeNs := (vault.status filePath).mtimeNs
             size := (vault.status filePath).size }
  else .error .osError

end VaultMoment

/-- A call at some moment of a vault whose `VAULT_PATH` stays the same. -/
structure MetadataRequest (root : Location Text) where
  vault : VaultMoment
  rooted : vault.root = root
  path : Text

section Calls

variable {root : Location Text} (env : Env)

def getNoteMetadata (cache : MetadataCache) (request : MetadataRequest root) :
    Except PyError NoteMetadata × MetadataCache :=
  match request.vault.cacheKey env request.path with
  | .error error => (.error error, cache)
  | .ok key =>
      match cache.get key with
      | (some cached, cache) => (.ok cached, cache)
      | (none, cache) =>
          match request.vault.loadMetadata env key request.path with
          | .error error => (.error error, cache)
          | .ok metadata => (.ok metadata, cache.set key metadata)

/-- The cache after a history of calls. -/
def serve (cache : MetadataCache) (history : List (MetadataRequest root)) : MetadataCache :=
  history.foldl (fun cache request => (getNoteMetadata env cache request).2) cache

/-- The key of a call that is answered with metadata. -/
def usedKey (cache : MetadataCache) (request : MetadataRequest root) : Option CacheKey :=
  match request.vault.cacheKey env request.path, (getNoteMetadata env cache request).1 with
  | .ok key, .ok _ => some key
  | _, _ => none

/-- The keys used by a history, newest first. -/
def usedKeys : MetadataCache → List (MetadataRequest root) → List CacheKey → List CacheKey
  | _, [], used => used
  | cache, request :: later, used =>
      usedKeys (getNoteMetadata env cache request).2 later
        ((usedKey env cache request).toList ++ used)

end Calls

/-! ### The folder of a resolved file -/

namespace VaultMoment

variable {vault other : VaultMoment} {env : Env}

theorem cacheKey_ok {relativePath : Text} {key : CacheKey}
    (checked : vault.cacheKey env relativePath = .ok key) :
    vault.resolvePath env relativePath = .ok key.path ∧ vault.fileExists key.path = true := by
  unfold cacheKey at checked
  obtain ⟨_readable, _validated, afterCheck⟩ := bind_ok checked
  obtain ⟨filePath, resolved, afterPath⟩ := bind_ok afterCheck
  split at afterPath
  · rename_i present
    rw [← Except.ok.inj afterPath]
    exact ⟨resolved, present⟩
  · cases afterPath

/-- The folder of an existing file is read off its path. -/
theorem getFolder_eq {relativePath : Text} {key : CacheKey}
    (checked : vault.cacheKey env relativePath = .ok key) :
    vault.getFolder key.path =
      if vault.root.isPrefixOf key.path.dropLast then
        .ok (Text.join "/".toList (key.path.dropLast.drop vault.root.length))
      else .error .valueError := by
  obtain ⟨resolved, present⟩ := cacheKey_ok checked
  obtain ⟨reached, landed⟩ := Option.isSome_iff_exists.mp present
  have same := (LinkedVault.resolveInternalPath_lands (LinkedVault.resolvePath_ok resolved) landed).1
  have real : vault.tree.IsReal key.path := by
    rw [← same]
    exact FileTree.walk_isReal FileTree.isReal_nil landed
  have parentReal : vault.tree.IsReal key.path.dropLast := by
    obtain ⟨back, shape⟩ := List.dropLast_prefix key.path
    rw [← shape] at real
    exact real.front
  unfold getFolder
  rw [FileTree.realpath_real parentReal, LinkedVault.vaultRoot_eq]

theorem describe_congr (key : CacheKey) (relativePath : Text) (frontmatter : Mapping)
    (sameFolder : vault.getFolder key.path = other.getFolder key.path) :
    vault.describe env key relativePath frontmatter =
      other.describe env key relativePath frontmatter := by
  unfold describe
  rw [sameFolder]

theorem describe_fields {key : CacheKey} {relativePath : Text} {frontmatter : Mapping}
    {metadata : NoteMetadata}
    (made : vault.describe env key relativePath frontmatter = .ok metadata) :
    metadata.path = relativePath ∧ metadata.frontmatter = frontmatter := by
  unfold describe at made
  obtain ⟨_tags, _extracted, afterTags⟩ := bind_ok made
  obtain ⟨_title, _titled, afterTitle⟩ := bind_ok afterTags
  obtain ⟨_folder, _found, afterFolder⟩ := bind_ok afterTitle
  rw [← Except.ok.inj afterFolder]
  exact ⟨rfl, rfl⟩

end VaultMoment

/-! ### What the entries of the cache show -/

section Calls

variable {root : Location Text} {env : Env}

/-- The entry was put together by an earlier call. -/
def Described (root : Location Text) (env : Env) (entry : CacheKey × NoteMetadata) : Prop :=
  ∃ earlier : MetadataRequest root, ∃ spelling, earlier.vault.cacheKey env spelling = .ok entry.1 ∧
    earlier.vault.describe env entry.1 entry.2.path entry.2.frontmatter = .ok entry.2

def MetadataCache.Sound (root : Location Text) (env : Env) (cache : MetadataCache) : Prop :=
  ∀ entry ∈ cache.stored.entries, Described root env entry

/-- The same metadata are put together for this entry at any moment that has its key. -/
theorem Described.now {entry : CacheKey × NoteMetadata} (described : Described root env entry)
    {request : MetadataRequest root} {spelling : Text}
    (checked : request.vault.cacheKey env spelling = .ok entry.1) :
    request.vault.describe env entry.1 entry.2.path entry.2.frontmatter = .ok entry.2 := by
  obtain ⟨earlier, _spelling, before, made⟩ := described
  rw [← made]
  apply VaultMoment.describe_congr
  rw [VaultMoment.getFolder_eq checked, VaultMoment.getFolder_eq before, request.rooted,
    earlier.rooted]

theorem loadMetadata_described {key : CacheKey} {metadata : NoteMetadata}
    {request : MetadataRequest root} (checked : request.vault.cacheKey env request.path = .ok key)
    (loaded : request.vault.loadMetadata env key request.path = .ok metadata) :
    Described root env (key, metadata) := by
  unfold VaultMoment.loadMetadata at loaded
  obtain ⟨frontmatter, _read, made⟩ := bind_ok loaded
  have fields := VaultMoment.describe_fields made
  apply Exists.intro request
  apply Exists.intro request.path
  apply And.intro checked
  dsimp only
  rw [fields.1, fields.2]
  exact made

/-- The entry that a call finds has its spelling and the frontmatter of the file. -/
def EntryFits (env : Env) (cache : MetadataCache) (request : MetadataRequest root) : Prop :=
  ∀ key entry, request.vault.cacheKey env request.path = .ok key →
    cache.stored.find key = some entry →
      entry.path = request.path ∧
        request.vault.readFrontmatter env key.path = .ok entry.frontmatter

theorem loadMetadata_eq_iff {key : CacheKey} {entry : NoteMetadata}
    {request : MetadataRequest root} (described : Described root env (key, entry))
    (checked : request.vault.cacheKey env request.path = .ok key) :
    request.vault.loadMetadata env key request.path = .ok entry ↔
      entry.path = request.path ∧
        request.vault.readFrontmatter env key.path = .ok entry.frontmatter := by
  unfold VaultMoment.loadMetadata
  constructor
  · intro loaded
    obtain ⟨frontmatter, read, made⟩ := bind_ok loaded
    have fields := VaultMoment.describe_fields made
    rw [fields.2]
    exact ⟨fields.1, read⟩
  · rintro ⟨sameSpelling, read⟩
    rw [read, ← sameSpelling]
    exact described.now checked

/-! ### One call -/

theorem getNoteMetadata_rejected {cache : MetadataCache} {request : MetadataRequest root}
    {error : PyError} (failed : request.vault.cacheKey env request.path = .error error) :
    getNoteMetadata env cache request = (.error error, cache) := by
  unfold getNoteMetadata
  rw [failed]

theorem getNoteMetadata_hit {cache : MetadataCache} {request : MetadataRequest root}
    {key : CacheKey} {entry : NoteMetadata}
    (checked : request.vault.cacheKey env request.path = .ok key)
    (found : cache.stored.find key = some entry) :
    ∃ present, getNoteMetadata env cache request =
      (.ok entry, { stored := cache.stored.renew key entry present
                    hits := cache.hits + 1
                    misses := cache.misses }) := by
  obtain ⟨present, got⟩ := LruCache.get_some found
  apply Exists.intro present
  unfold getNoteMetadata MetadataCache.get
  rw [checked]
  dsimp only
  rw [got]

/-- What a miss leaves in the cache. -/
def storeLoaded (stored : LruCache CacheKey NoteMetadata) (key : CacheKey) :
    Except PyError NoteMetadata → LruCache CacheKey NoteMetadata
  | .error _ => stored
  | .ok metadata => stored.set key metadata

theorem getNoteMetadata_miss {cache : MetadataCache} {request : MetadataRequest root}
    {key : CacheKey} (checked : request.vault.cacheKey env request.path = .ok key)
    (missing : cache.stored.find key = none) :
    (getNoteMetadata env cache request).1 = request.vault.loadMetadata env key request.path ∧
      (getNoteMetadata env cache request).2.stored =
        storeLoaded cache.stored key (request.vault.loadMetadata env key request.path) := by
  unfold getNoteMetadata MetadataCache.get
  rw [checked]
  dsimp only
  rw [LruCache.get_none missing]
  dsimp only
  cases request.vault.loadMetadata env key request.path with
  | error error => exact ⟨rfl, rfl⟩
  | ok metadata => exact ⟨rfl, rfl⟩

/-- With the empty cache the metadata are loaded. -/
theorem getNoteMetadata_clear {cache : MetadataCache} {request : MetadataRequest root}
    {key : CacheKey} (checked : request.vault.cacheKey env request.path = .ok key) :
    (getNoteMetadata env cache.clear request).1 =
      request.vault.loadMetadata env key request.path :=
  (getNoteMetadata_miss checked rfl).1

theorem sound_entry {cache : MetadataCache} (sound : cache.Sound root env) {key : CacheKey}
    {entry : NoteMetadata} (found : cache.stored.find key = some entry) :
    Described root env (key, entry) :=
  sound _ (OrderedDict.mem_of_lookup found)

/-- A call is answered as without the cache exactly when the entry it finds fits. -/
theorem getNoteMetadata_transparent_iff {cache : MetadataCache} (sound : cache.Sound root env)
    (request : MetadataRequest root) :
    (getNoteMetadata env cache request).1 = (getNoteMetadata env cache.clear request).1 ↔
      EntryFits env cache request := by
  cases checked : request.vault.cacheKey env request.path with
  | error error =>
      rw [getNoteMetadata_rejected checked, getNoteMetadata_rejected checked]
      constructor
      · intro _same key entry impossible
        rw [checked] at impossible
        cases impossible
      · intro _fits
        rfl
  | ok key =>
      rw [getNoteMetadata_clear checked]
      cases found : cache.stored.find key with
      | none =>
          rw [(getNoteMetadata_miss checked found).1]
          constructor
          · intro _same other entry sameKey hit
            rw [checked] at sameKey
            rw [← Except.ok.inj sameKey, found] at hit
            cases hit
          · intro _fits
            rfl
      | some entry =>
          obtain ⟨_present, answered⟩ := getNoteMetadata_hit checked found
          rw [answered]
          have described := sound_entry sound found
          constructor
          · intro same other stored sameKey hit
            rw [checked] at sameKey
            rw [← Except.ok.inj sameKey] at hit ⊢
            rw [found] at hit
            rw [← Option.some.inj hit]
            exact (loadMetadata_eq_iff described checked).mp same.symm
          · intro fits
            exact ((loadMetadata_eq_iff described checked).mpr (fits key entry checked found)).symm

theorem sound_clear (cache : MetadataCache) : cache.clear.Sound root env := by
  intro entry member
  cases member

theorem getNoteMetadata_sound {cache : MetadataCache} (sound : cache.Sound root env)
    (request : MetadataRequest root) :
    (getNoteMetadata env cache request).2.Sound root env := by
  cases checked : request.vault.cacheKey env request.path with
  | error error =>
      rw [getNoteMetadata_rejected checked]
      exact sound
  | ok key =>
      cases found : cache.stored.find key with
      | some entry =>
          obtain ⟨present, answered⟩ := getNoteMetadata_hit checked found
          rw [answered]
          intro other member
          have renewed : other ∈ (cache.stored.renew key entry present).entries := member
          rcases LruCache.mem_renew renewed with kept | same
          · exact sound other kept
          · rw [same]
            exact sound_entry sound found
      | none =>
          intro other member
          rw [(getNoteMetadata_miss checked found).2] at member
          cases loaded : request.vault.loadMetadata env key request.path with
          | error error =>
              rw [loaded] at member
              exact sound other member
          | ok metadata =>
              rw [loaded] at member
              rcases LruCache.mem_set member with kept | same
              · exact sound other kept
              · rw [same]
                exact loadMetadata_described checked loaded

/-- A call makes its key the most recent one if it is answered, and changes nothing else. -/
theorem getNoteMetadata_recent {cache : MetadataCache} {used : List CacheKey}
    (recent : cache.stored.Recent used) (request : MetadataRequest root) :
    (getNoteMetadata env cache request).2.stored.Recent
      ((usedKey env cache request).toList ++ used) := by
  unfold usedKey
  cases checked : request.vault.cacheKey env request.path with
  | error error =>
      rw [getNoteMetadata_rejected checked]
      exact recent
  | ok key =>
      cases found : cache.stored.find key with
      | some entry =>
          obtain ⟨present, answered⟩ := getNoteMetadata_hit checked found
          rw [answered]
          exact recent.renew entry present
      | none =>
          have missed := getNoteMetadata_miss checked found
          rw [missed.1, missed.2]
          cases request.vault.loadMetadata env key request.path with
          | error error => exact recent
          | ok metadata => exact recent.set key metadata

theorem getNoteMetadata_maxSize (cache : MetadataCache) (request : MetadataRequest root) :
    (getNoteMetadata env cache request).2.stored.maxSize = cache.stored.maxSize := by
  cases checked : request.vault.cacheKey env request.path with
  | error error => rw [getNoteMetadata_rejected checked]
  | ok key =>
      cases found : cache.stored.find key with
      | some entry =>
          obtain ⟨_present, answered⟩ := getNoteMetadata_hit checked found
          rw [answered]
          rfl
      | none =>
          rw [(getNoteMetadata_miss checked found).2]
          cases request.vault.loadMetadata env key request.path with
          | error error => rfl
          | ok metadata => exact LruCache.set_maxSize _ _ _

/-! ### Histories -/

theorem serve_sound (history : List (MetadataRequest root)) :
    ∀ {cache : MetadataCache}, cache.Sound root env → (serve env cache history).Sound root env := by
  induction history with
  | nil =>
      intro cache sound
      exact sound
  | cons request later ih =>
      intro cache sound
      exact ih (getNoteMetadata_sound sound request)

theorem serve_recent (history : List (MetadataRequest root)) :
    ∀ {cache : MetadataCache} {used : List CacheKey}, cache.stored.Recent used →
      (serve env cache history).stored.Recent (usedKeys env cache history used) := by
  induction history with
  | nil =>
      intro cache used recent
      exact recent
  | cons request later ih =>
      intro cache used recent
      exact ih (getNoteMetadata_recent recent request)

theorem serve_maxSize (history : List (MetadataRequest root)) :
    ∀ cache : MetadataCache, (serve env cache history).stored.maxSize = cache.stored.maxSize := by
  induction history with
  | nil =>
      intro cache
      rfl
  | cons request later ih =>
      intro cache
      exact (ih _).trans (getNoteMetadata_maxSize cache request)

end Calls

/-- Over every history from the empty cache: the cache holds the keys used last, at most
`max_size` of them, and all calls are answered as without the cache exactly when each of them
finds no entry or one that fits. -/
theorem metadataCache_history {root : Location Text} (env : Env) (initial : MetadataCache)
    (history : List (MetadataRequest root)) :
    let served := serve env initial.clear history
    served.stored.entries.length ≤ initial.stored.maxSize ∧
      served.stored.keys.reverse =
        (LruCache.recency (usedKeys env initial.clear history [])).take initial.stored.maxSize ∧
      ((∀ earlier request later, history = earlier ++ request :: later →
          (getNoteMetadata env (serve env initial.clear earlier) request).1 =
            (getNoteMetadata env (serve env initial.clear earlier).clear request).1) ↔
        ∀ earlier request later, history = earlier ++ request :: later →
          EntryFits env (serve env initial.clear earlier) request) := by
  have size : (serve env initial.clear history).stored.maxSize = initial.stored.maxSize :=
    serve_maxSize history initial.clear
  have start : initial.clear.stored.Recent [] := LruCache.recent_empty _ _
  have recent : (serve env initial.clear history).stored.Recent
      (usedKeys env initial.clear history []) := serve_recent history start
  apply And.intro
  · rw [← size]
    exact (serve env initial.clear history).stored.bounded
  · apply And.intro
    · rw [← size]
      exact recent
    · constructor
      · intro answered earlier request later shape
        exact (getNoteMetadata_transparent_iff (serve_sound earlier (sound_clear initial))
          request).mp (answered earlier request later shape)
      · intro fits earlier request later shape
        exact (getNoteMetadata_transparent_iff (serve_sound earlier (sound_clear initial))
          request).mpr (fits earlier request later shape)

/-! ### Two spellings of one note -/

/-- The note `a.md` of the vault, with this frontmatter. -/
def noteMoment (mtimeNs : Nat) (text : Text) : VaultMoment :=
  { oneNoteVault with
    status := fun _location => { mtimeNs, size := 4 }
    text := fun _location => some text }

def noteRequest (spelling : Text) : MetadataRequest ["vault".toList] :=
  { vault := noteMoment 1 "note".toList
    rooted := rfl
    path := spelling }

def defaultCache : MetadataCache :=
  { stored := LruCache.empty 10000 (by decide) }

/-- Asked for as `./a.md` after it was asked for as `a.md`, the note is shown under its first
spelling. -/
theorem metadataCache_keeps_spelling :
    (getNoteMetadata Env.plain (serve Env.plain defaultCache.clear [noteRequest "a.md".toList])
        (noteRequest "./a.md".toList)).1.map NoteMetadata.path = .ok "a.md".toList ∧
      (getNoteMetadata Env.plain (serve Env.plain defaultCache.clear
        [noteRequest "a.md".toList]).clear (noteRequest "./a.md".toList)).1.map
          NoteMetadata.path = .ok "./a.md".toList := by
  constructor
  · rfl
  · rfl

end VaultSearch
