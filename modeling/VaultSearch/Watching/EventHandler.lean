/-
The event handler of the watcher, `watching/event_handler.py`: events that become pending
changes, and the tokens by which the process recognizes its own writes.

Between any two looks at the disk, and before any entry into a lock, other threads and other
programs may come in.  Of each file the model knows who wrote it, and whether an event for it
has become pending since; the program does not.
-/

import VaultSearch.Crud.CatalogCalls
import VaultSearch.Store.OrderedDict
import VaultSearch.Store.Transitions

set_option autoImplicit false

namespace VaultSearch.Watching

/-! ### Paths -/

/-- `resolve` where there are no links. -/
def resolveUps (components : List Text) : List Text :=
  components.foldl (fun above part => if part = "..".toList then above.dropLast else above ++ [part])
    []

/-- `_vault_file`, as the path relative to the vault root. -/
def vaultFile (env : Env) (relativePath : Text) : Option Text :=
  if Text.startsWith relativePath "/".toList then none
  else
    let root := env.config.vaultParts.drop 1
    let candidate := resolveUps (root ++ PurePath.parts relativePath)
    if root.isPrefixOf candidate then
      some (Text.join "/".toList (candidate.drop root.length))
    else none

/-- The relative path of an event: resolving changes nothing about it any more. -/
def IsEventPath (env : Env) (path : Text) : Prop :=
  vaultFile env path = some path

instance (env : Env) (path : Text) : Decidable (IsEventPath env path) :=
  inferInstanceAs (Decidable (_ = _))

/-! ### Events -/

/-- The events of files; those of folders are passed over. -/
inductive FsEvent where
  | created (path : Text)
  | modified (path : Text)
  | deleted (path : Text)
  | moved (source destination : Text)

/-- The call of `_enqueue` for a path, if `_should_process` admits it. -/
def enqueueCall (env : Env) (path : Text) (deleted : Bool) : List NoteChange :=
  if isScanned env path then [{ path, deleted }] else []

/-- `on_created`, `on_modified`, `on_deleted` and `on_moved` -/
def FsEvent.enqueueCalls (env : Env) : FsEvent → List NoteChange
  | .created path => enqueueCall env path false
  | .modified path => enqueueCall env path false
  | .deleted path => enqueueCall env path true
  | .moved source destination =>
      enqueueCall env source true ++ enqueueCall env destination false

structure PendingEvent where
  deleted : Bool
  time : Nat
  deriving DecidableEq

/-! ### Tokens -/

/-- `_FileRevision` -/
structure FileRevision where
  inode : Nat
  mtimeNs : Nat
  size : Nat
  deriving DecidableEq

structure IgnoreToken where
  revision : FileRevision
  expiresAt : Nat
  deriving DecidableEq

/-- `IGNORE_TOKEN_TTL_SECONDS`, in nanoseconds -/
def ignoreTokenTtl : Nat := 30000000000

def maxIgnoreTokens : Nat := 2048

/-- `_ignore_next_change`, in the order of creation -/
abbrev IgnoreTokens := List (Text × IgnoreToken)

namespace IgnoreTokens

variable (now : Nat) (key : Text) (tokens : IgnoreTokens)

/-- `_purge_ignore_tokens` -/
def purge : IgnoreTokens :=
  tokens.filter (fun entry => now < entry.2.expiresAt)

/-- `.pop(key, None)` -/
def discard : IgnoreTokens :=
  tokens.filter (fun entry => entry.1 ≠ key)

/-- `while len(...) >= MAX_IGNORE_TOKENS: popitem(last=False)` -/
def makeRoom : IgnoreTokens :=
  tokens.drop (tokens.length + 1 - maxIgnoreTokens)

/-- What `ignore_next_change` does in the lock. -/
def register (revision : FileRevision) : IgnoreTokens :=
  makeRoom (discard key (purge now tokens)) ++
    [(key, { revision, expiresAt := now + ignoreTokenTtl })]

/-- The token of a path that has not expired. -/
def Live (revision : FileRevision) : Prop :=
  ∃ entry ∈ tokens, entry.1 = key ∧ now < entry.2.expiresAt ∧ entry.2.revision = revision

variable {now key tokens} {revision : FileRevision}

theorem live_discard {other : Text} (live : Live now key (discard other (purge now tokens)) revision) :
    Live now key tokens revision := by
  obtain ⟨entry, member, holds⟩ := live
  exact ⟨entry, (List.mem_filter.mp (List.mem_filter.mp member).1).1, holds⟩

theorem live_register {other : Text} {registered : FileRevision}
    (live : Live now key (register now other tokens registered) revision) :
    Live now key tokens revision ∨ (other = key ∧ registered = revision) := by
  obtain ⟨entry, member, isKey, fresh, same⟩ := live
  rcases List.mem_append.mp member with kept | added
  · exact Or.inl (live_discard ⟨entry, List.mem_of_mem_drop kept, isKey, fresh, same⟩)
  · rw [List.mem_singleton.mp added] at isKey same
    exact Or.inr ⟨isKey, same⟩

theorem live_of_lookup {token : IgnoreToken}
    (found : (purge now tokens).lookup key = some token) : Live now key tokens token.revision := by
  obtain ⟨member, fresh⟩ := List.mem_filter.mp (OrderedDict.mem_of_lookup found)
  exact ⟨(key, token), member, rfl, of_decide_eq_true fresh, rfl⟩

/-- Tokens only expire. -/
theorem Live.earlier {later : Nat} (passed : now ≤ later) (live : Live later key tokens revision) :
    Live now key tokens revision := by
  obtain ⟨entry, member, isKey, fresh, same⟩ := live
  exact ⟨entry, member, isKey, Nat.lt_of_le_of_lt passed fresh, same⟩

end IgnoreTokens

/-! ### The handler and the vault -/

inductive Writer where
  | ownProcess
  | otherProgram
  deriving DecidableEq

structure WatchedFile where
  revision : FileRevision
  writer : Writer
  /-- an event for its path has become pending since it was written -/
  noticed : Bool
  deriving DecidableEq

structure Handler where
  now : Nat := 0
  files : Text → Option WatchedFile
  tokens : IgnoreTokens := []
  /-- what calls of `ignore_next_change` have read, before they enter the lock -/
  observed : List (Text × FileRevision) := []
  /-- the calls of `_enqueue` that the events on their way will make -/
  inFlight : List NoteChange := []
  /-- the call of `_enqueue` that has read the revision of its file -/
  looked : Option (NoteChange × Option WatchedFile) := none
  pending : List (Text × PendingEvent) := []
  /-- who had written the files whose events were dropped -/
  dropped : List Writer := []

inductive HandlerEvent where
  | wait (elapsed : Nat)
  /-- files are written or removed, or moved, which is both -/
  | change (writer : Writer) (updates : List (Text × Option FileRevision)) (events : List FsEvent)
  /-- `ignore_next_change` reads the revision -/
  | observe (relativePath : Text)
  /-- `ignore_next_change` in the lock -/
  | register (position : Nat)
  /-- `_check_and_clear_ignore` reads the revision for the next event of the path -/
  | look (path : Text)
  /-- it consumes the token, and `_enqueue` goes on -/
  | settle

/-- One file after a change. -/
def updateFile (writer : Writer) (files : Text → Option WatchedFile)
    (update : Text × Option FileRevision) : Text → Option WatchedFile :=
  Function.update files update.1
    (update.2.map (fun revision => { revision, writer, noticed := false }))

def WatchedFile.notice (file : WatchedFile) : WatchedFile :=
  { file with noticed := true }

/-- `token is not None and revision is not None and token.revision == revision` -/
def isOwnRevision (token : Option IgnoreToken) (seen : Option WatchedFile) : Bool :=
  match token, seen with
  | some token, some file => token.revision = file.revision
  | _, _ => false

namespace Handler

variable (env : Env) (state : Handler)

/-- Every change of a note brings an event for its path. -/
def Reported (updates : List (Text × Option FileRevision)) (calls : List NoteChange) : Prop :=
  (∀ update ∈ updates, ∃ call ∈ calls, call.path = update.1) ∧
    ∀ call ∈ calls, IsEventPath env call.path

instance (updates : List (Text × Option FileRevision)) (calls : List NoteChange) :
    Decidable (Reported env updates calls) :=
  inferInstanceAs (Decidable (_ ∧ _))

/-- `_check_and_clear_ignore` in the lock -/
def consume (change : NoteChange) : Handler :=
  { state with
    tokens := (state.tokens.purge state.now).discard change.path
    looked := none }

/-- The event is ignored. -/
def ignore (seen : Option WatchedFile) : Handler :=
  { state with dropped := state.dropped ++ (seen.map WatchedFile.writer).toList }

/-- The event becomes pending. -/
def addPending (change : NoteChange) : Handler :=
  { state with
    files := Function.update state.files change.path
      ((state.files change.path).map WatchedFile.notice)
    pending := OrderedDict.set state.pending change.path
      { deleted := change.deleted, time := state.now } }

/-- Whether the token of the path is that of the revision that was read. -/
def isIgnored (change : NoteChange) (seen : Option WatchedFile) : Bool :=
  isOwnRevision ((state.tokens.purge state.now).lookup change.path) seen

/-- What is left of `_enqueue` when the revision has been read. -/
def enqueue (change : NoteChange) (seen : Option WatchedFile) : Handler :=
  if state.isIgnored change seen then (state.consume change).ignore seen
  else (state.consume change).addPending change

def step : HandlerEvent → Option Handler
  | .wait elapsed => some { state with now := state.now + elapsed }
  | .change writer updates events =>
      let calls := events.flatMap (FsEvent.enqueueCalls env)
      if Reported env updates calls then
        some { state with
          files := updates.foldl (updateFile writer) state.files
          inFlight := state.inFlight ++ calls }
      else none
  | .observe relativePath =>
      ((vaultFile env relativePath).bind state.files).map (fun file =>
        { state with observed := state.observed ++ [(relativePath, file.revision)] })
  | .register position =>
      (state.observed[position]?).map (fun entry =>
        { state with
          tokens := state.tokens.register state.now entry.1 entry.2
          observed := state.observed.eraseIdx position })
  | .look path =>
      if state.looked.isSome then none
      else
        (NoteChange.takeFirst path state.inFlight).map (fun found =>
          { state with inFlight := found.2, looked := some (found.1, state.files path) })
  | .settle => state.looked.map (fun found => state.enqueue found.1 found.2)

/-! ### What tokens may do -/

/-- A new process: it has written nothing, and no event is on its way. -/
structure Fresh : Prop where
  files : ∀ path file, state.files path = some file →
    file.writer = .otherProgram ∧ file.noticed = true
  tokens : state.tokens = []
  observed : state.observed = []
  inFlight : state.inFlight = []
  looked : state.looked = none
  dropped : state.dropped = []

/-- An event for the path is on its way to the pending map. -/
def Coming (path : Text) : Prop :=
  (∃ call ∈ state.inFlight, call.path = path) ∨
    ∃ found, state.looked = some found ∧ found.1.path = path

/-- Events were dropped for files of this process only, and an edit of another program that is
still in place has become pending once its events have been delivered. -/
def IgnoresOwn : Prop :=
  (∀ writer ∈ state.dropped, writer = .ownProcess) ∧
    ∀ path file, state.files path = some file → file.writer = .otherProgram →
      ¬ state.Coming path → file.noticed = true

/-- The revision is that of a token, or of one that is about to be made. -/
def Registered (key : Text) (revision : FileRevision) : Prop :=
  IgnoreTokens.Live state.now key state.tokens revision ∨ (key, revision) ∈ state.observed

/-- The file that the handler has looked at for an event of the path. -/
def Seen (path : Text) (file : WatchedFile) : Prop :=
  ∃ found, state.looked = some found ∧ found.1.path = path ∧ found.2 = some file

/-- Where the revision is read for a token, the file is the one that this process has written;
and no other program writes a revision that cannot be told from that of a token. -/
def RegistersOwn (state : Handler) : HandlerEvent → Prop
  | .observe key => IsEventPath env key → ∀ file ∈ state.files key,
      file.writer = .ownProcess ∧
        ∀ found ∈ state.looked, found.1.path = key →
          ∀ seen ∈ found.2, seen.revision = file.revision → seen.writer = .ownProcess
  | .change .otherProgram updates _ => ∀ update ∈ updates, ∀ revision ∈ update.2,
      ¬ state.Registered update.1 revision
  | _ => True

instance (key : Text) (revision : FileRevision) : Decidable (state.Registered key revision) :=
  inferInstanceAs (Decidable ((∃ entry ∈ state.tokens, _) ∨ _))

instance decidableRegistersOwn (state : Handler) :
    ∀ event, Decidable (RegistersOwn env state event)
  | .wait _ => isTrue trivial
  | .change .ownProcess _ _ => isTrue trivial
  | .change .otherProgram updates _ => inferInstanceAs (Decidable (∀ update ∈ updates, _))
  | .observe key => inferInstanceAs (Decidable (IsEventPath env key → _))
  | .register _ => isTrue trivial
  | .look _ => isTrue trivial
  | .settle => isTrue trivial

structure Invariant : Prop where
  inFlight : ∀ call ∈ state.inFlight, IsEventPath env call.path
  looked : ∀ found, state.looked = some found → IsEventPath env found.1.path
  files : ∀ key, IsEventPath env key → ∀ revision, state.Registered key revision →
    ∀ file, state.files key = some file → file.revision = revision → file.writer = .ownProcess
  seen : ∀ key, IsEventPath env key → ∀ revision, state.Registered key revision →
    ∀ file, state.Seen key file → file.revision = revision → file.writer = .ownProcess
  noticed : ∀ path file, state.files path = some file → file.writer = .otherProgram →
    file.noticed = false →
      (∃ call ∈ state.inFlight, call.path = path) ∨ state.Seen path file
  dropped : ∀ writer ∈ state.dropped, writer = .ownProcess

variable {env state}

theorem Fresh.invariant (fresh : state.Fresh) : state.Invariant env := by
  have unregistered : ∀ key revision, ¬ state.Registered key revision := by
    intro key revision registered
    rcases registered with ⟨entry, impossible, _rest⟩ | impossible
    · rw [fresh.tokens] at impossible
      cases impossible
    · rw [fresh.observed] at impossible
      cases impossible
  constructor
  · rw [fresh.inFlight]
    intro call impossible
    cases impossible
  · rw [fresh.looked]
    intro found impossible
    cases impossible
  · intro key _isPath revision registered
    exact absurd registered (unregistered key revision)
  · intro key _isPath revision registered
    exact absurd registered (unregistered key revision)
  · intro path file isFile _other unnoticed
    rw [(fresh.files path file isFile).2] at unnoticed
    cases unnoticed
  · rw [fresh.dropped]
    intro writer impossible
    cases impossible

theorem Invariant.ignoresOwn (holds : state.Invariant env) : state.IgnoresOwn := by
  constructor
  · exact holds.dropped
  · intro path file isFile other delivered
    cases noticed : file.noticed with
    | true => rfl
    | false =>
        exfalso
        apply delivered
        rcases holds.noticed path file isFile other noticed with waiting | ⟨found, isLooked, same⟩
        · exact Or.inl waiting
        · exact Or.inr ⟨found, isLooked, same.1⟩

/-- Time passes, or fewer revisions are registered. -/
theorem Invariant.fewer {now : Nat} {tokens : IgnoreTokens}
    {observed : List (Text × FileRevision)} (holds : state.Invariant env)
    (fewer : ∀ key revision,
      ({ state with now, tokens, observed } : Handler).Registered key revision →
        state.Registered key revision) :
    ({ state with now, tokens, observed } : Handler).Invariant env :=
  { inFlight := holds.inFlight
    looked := holds.looked
    files := fun key isPath revision registered =>
      holds.files key isPath revision (fewer key revision registered)
    seen := fun key isPath revision registered =>
      holds.seen key isPath revision (fewer key revision registered)
    noticed := holds.noticed
    dropped := holds.dropped }

theorem Invariant.waited (holds : state.Invariant env) (elapsed : Nat) :
    ({ state with now := state.now + elapsed } : Handler).Invariant env := by
  apply holds.fewer
  intro key revision registered
  exact registered.imp_left (IgnoreTokens.Live.earlier (Nat.le_add_right _ _))

theorem Invariant.registered {position : Nat} {entry : Text × FileRevision}
    (holds : state.Invariant env) (found : state.observed[position]? = some entry) :
    ({ state with
      tokens := state.tokens.register state.now entry.1 entry.2
      observed := state.observed.eraseIdx position } : Handler).Invariant env := by
  apply holds.fewer
  intro key revision registered
  rcases registered with live | member
  · rcases IgnoreTokens.live_register live with earlier | ⟨sameKey, sameRevision⟩
    · exact Or.inl earlier
    · refine Or.inr ?_
      rw [← sameKey, ← sameRevision]
      exact List.mem_of_getElem? found
  · exact Or.inr (List.mem_of_mem_eraseIdx member)

theorem Invariant.observed {key path : Text} {file : WatchedFile}
    (holds : state.Invariant env) (isPath : vaultFile env key = some path)
    (isFile : state.files path = some file) (own : RegistersOwn env state (.observe key)) :
    ({ state with observed := state.observed ++ [(key, file.revision)] } :
      Handler).Invariant env := by
  have added : ∀ other revision,
      ({ state with observed := state.observed ++ [(key, file.revision)] } :
        Handler).Registered other revision →
        state.Registered other revision ∨ (other = key ∧ revision = file.revision) := by
    intro other revision registered
    rcases registered with live | member
    · exact Or.inl (Or.inl live)
    · rcases List.mem_append.mp member with earlier | last
      · exact Or.inl (Or.inr earlier)
      · cases List.mem_singleton.mp last
        exact Or.inr ⟨rfl, rfl⟩
  -- only a key in normal spelling is looked up by an event
  have ownFile : ∀ other, IsEventPath env other → other = key → state.files key = some file := by
    intro other isEventPath same
    rw [same] at isEventPath
    unfold IsEventPath at isEventPath
    rw [isPath] at isEventPath
    rw [← Option.some.inj isEventPath]
    exact isFile
  constructor
  · exact holds.inFlight
  · exact holds.looked
  · intro other isEventPath revision registered present isPresent sameRevision
    rcases added other revision registered with earlier | ⟨sameKey, _same⟩
    · exact holds.files other isEventPath revision earlier present isPresent sameRevision
    · have here := ownFile other isEventPath sameKey
      rw [sameKey] at isEventPath isPresent
      exact (own isEventPath present isPresent).1
  · intro other isEventPath revision registered seen isSeen sameRevision
    rcases added other revision registered with earlier | ⟨sameKey, same⟩
    · exact holds.seen other isEventPath revision earlier seen isSeen sameRevision
    · have here := ownFile other isEventPath sameKey
      rw [sameKey] at isEventPath isSeen
      obtain ⟨found, isLooked, samePath, isSeenFile⟩ := isSeen
      exact (own isEventPath file here).2 found isLooked samePath seen isSeenFile
        (sameRevision.trans same)
  · exact holds.noticed
  · exact holds.dropped

theorem files_updated (writer : Writer) (updates : List (Text × Option FileRevision))
    (files : Text → Option WatchedFile) (path : Text) :
    (updates.foldl (updateFile writer) files) path = files path ∧
        (∀ update ∈ updates, update.1 ≠ path) ∨
      ∃ update ∈ updates, update.1 = path ∧ (updates.foldl (updateFile writer) files) path =
        update.2.map (fun revision => { revision, writer, noticed := false }) := by
  induction updates generalizing files with
  | nil => exact Or.inl ⟨rfl, fun update impossible => by cases impossible⟩
  | cons first later ih =>
      rw [List.foldl_cons]
      rcases ih (updateFile writer files first) with ⟨same, untouched⟩ | ⟨update, member, holds⟩
      · by_cases here : first.1 = path
        · refine Or.inr ⟨first, List.mem_cons_self, here, ?_⟩
          rw [same, ← here]
          exact Function.update_self _ _ _
        · refine Or.inl ⟨?_, ?_⟩
          · rw [same]
            exact Function.update_of_ne (fun equal => here equal.symm) _ _
          · intro update member
            rcases List.mem_cons.mp member with isFirst | inLater
            · rw [isFirst]
              exact here
            · exact untouched update inLater
      · exact Or.inr ⟨update, List.mem_cons_of_mem _ member, holds⟩

theorem Invariant.changed {writer : Writer} {updates : List (Text × Option FileRevision)}
    {calls : List NoteChange} (holds : state.Invariant env)
    (reported : Reported env updates calls)
    (told : writer = .otherProgram → ∀ update ∈ updates, ∀ revision ∈ update.2,
      ¬ state.Registered update.1 revision) :
    ({ state with
      files := updates.foldl (updateFile writer) state.files
      inFlight := state.inFlight ++ calls } : Handler).Invariant env := by
  constructor
  · intro call member
    rcases List.mem_append.mp member with earlier | added
    · exact holds.inFlight call earlier
    · exact reported.2 call added
  · exact holds.looked
  · intro key isPath revision registered file isFile sameRevision
    dsimp only at isFile
    rcases files_updated writer updates state.files key with ⟨same, _untouched⟩ |
      ⟨update, member, isKey, changed⟩
    · rw [same] at isFile
      exact holds.files key isPath revision registered file isFile sameRevision
    · rw [changed] at isFile
      obtain ⟨written, isWritten, isNew⟩ := Option.map_eq_some_iff.mp isFile
      rw [← isNew] at sameRevision ⊢
      dsimp only at sameRevision ⊢
      cases writer with
      | ownProcess => rfl
      | otherProgram =>
          refine absurd ?_ (told rfl update member written isWritten)
          rw [isKey, sameRevision]
          exact registered
  · exact holds.seen
  · intro path file isFile other unnoticed
    dsimp only at isFile
    rcases files_updated writer updates state.files path with ⟨same, _untouched⟩ |
      ⟨update, member, isPath, _changed⟩
    · rw [same] at isFile
      rcases holds.noticed path file isFile other unnoticed with ⟨call, waiting, isCall⟩ | seen
      · exact Or.inl ⟨call, List.mem_append_left _ waiting, isCall⟩
      · exact Or.inr seen
    · obtain ⟨call, inCalls, isCall⟩ := reported.1 update member
      exact Or.inl ⟨call, List.mem_append_right _ inCalls, isCall.trans isPath⟩
  · exact holds.dropped

theorem Invariant.lookedAt {path : Text} {taken : NoteChange} {rest : List NoteChange}
    (holds : state.Invariant env) (free : state.looked = none)
    (found : NoteChange.takeFirst path state.inFlight = some (taken, rest)) :
    ({ state with
      inFlight := rest
      looked := some (taken, state.files path) } : Handler).Invariant env := by
  obtain ⟨isPath, members⟩ := NoteChange.takeFirst_mem found
  constructor
  · intro call member
    exact holds.inFlight call ((members call).mpr (Or.inr member))
  · intro looked isLooked
    cases isLooked
    exact holds.inFlight taken ((members taken).mpr (Or.inl rfl))
  · exact holds.files
  · intro key isKey revision registered file seen sameRevision
    obtain ⟨looked, isLooked, samePath, isFile⟩ := seen
    cases isLooked
    have same : path = key := isPath.symm.trans samePath
    dsimp only at isFile
    rw [same] at isFile
    exact holds.files key isKey revision registered file isFile sameRevision
  · intro other file isFile writer unnoticed
    rcases holds.noticed other file isFile writer unnoticed with ⟨call, waiting, isCall⟩ | seen
    · rcases (members call).mp waiting with same | later
      · refine Or.inr ⟨_, rfl, ?_, ?_⟩
        · rw [same] at isCall
          exact isCall
        · have here : path = other := by rw [← isPath, ← same, isCall]
          rw [← here] at isFile
          exact isFile
      · exact Or.inl ⟨call, later, isCall⟩
    · obtain ⟨looked, isLooked, _rest⟩ := seen
      rw [free] at isLooked
      cases isLooked
  · exact holds.dropped

theorem isOwnRevision_true {token : Option IgnoreToken} {seen : Option WatchedFile}
    (own : isOwnRevision token seen = true) :
    ∃ present file, token = some present ∧ seen = some file ∧
      present.revision = file.revision := by
  unfold isOwnRevision at own
  split at own
  case h_1 present file => exact ⟨present, file, rfl, rfl, of_decide_eq_true own⟩
  case h_2 => cases own

theorem Invariant.settled {change : NoteChange} {seen : Option WatchedFile}
    (holds : state.Invariant env) (isLooked : state.looked = some (change, seen)) :
    (state.enqueue change seen).Invariant env := by
  have fewer : ∀ key revision, (state.consume change).Registered key revision →
      state.Registered key revision :=
    fun key revision => Or.imp_left IgnoreTokens.live_discard
  unfold enqueue
  split
  case isTrue own =>
      obtain ⟨token, file, found, isFile, sameRevision⟩ := isOwnRevision_true own
      have written : file.writer = .ownProcess :=
        holds.seen change.path (holds.looked _ isLooked) token.revision
          (Or.inl (IgnoreTokens.live_of_lookup found)) file ⟨_, isLooked, rfl, isFile⟩
          sameRevision.symm
      rw [isFile] at isLooked ⊢
      constructor
      · exact holds.inFlight
      · intro looked impossible
        cases impossible
      · intro key isPath revision registered
        exact holds.files key isPath revision (fewer key revision registered)
      · rintro key _isPath revision _registered other ⟨looked, impossible, _rest⟩
        cases impossible
      · intro path other isPresent writer unnoticed
        rcases holds.noticed path other isPresent writer unnoticed with waiting |
          ⟨looked, same, _isPath, isOther⟩
        · exact Or.inl waiting
        · rw [isLooked] at same
          cases same
          cases isOther
          rw [written] at writer
          cases writer
      · intro writer member
        rcases List.mem_append.mp member with earlier | last
        · exact holds.dropped writer earlier
        · rw [List.mem_singleton.mp last]
          exact written
  case isFalse =>
      constructor
      · exact holds.inFlight
      · intro looked impossible
        cases impossible
      · intro key isPath revision registered file isFile sameRevision
        have before := holds.files key isPath revision (fewer key revision registered)
        by_cases here : key = change.path
        · have updated : ((state.consume change).addPending change).files key =
              (state.files key).map WatchedFile.notice := by
            rw [here]
            exact Function.update_self _ _ _
          rw [updated] at isFile
          obtain ⟨old, isOld, isNew⟩ := Option.map_eq_some_iff.mp isFile
          rw [← isNew] at sameRevision ⊢
          exact before old isOld sameRevision
        · have kept : ((state.consume change).addPending change).files key = state.files key :=
            Function.update_of_ne here _ _
          rw [kept] at isFile
          exact before file isFile sameRevision
      · rintro key _isPath revision _registered other ⟨looked, impossible, _rest⟩
        cases impossible
      · intro path file isFile writer unnoticed
        by_cases here : path = change.path
        · have updated : ((state.consume change).addPending change).files path =
              (state.files path).map WatchedFile.notice := by
            rw [here]
            exact Function.update_self _ _ _
          rw [updated] at isFile
          obtain ⟨old, _isOld, isNew⟩ := Option.map_eq_some_iff.mp isFile
          rw [← isNew] at unnoticed
          cases unnoticed
        · have kept : ((state.consume change).addPending change).files path = state.files path :=
            Function.update_of_ne here _ _
          rw [kept] at isFile
          rcases holds.noticed path file isFile writer unnoticed with waiting |
            ⟨looked, same, isPath, _isOther⟩
          · exact Or.inl waiting
          · rw [isLooked] at same
            cases same
            exact absurd isPath.symm here
      · exact holds.dropped

/-! ### Runs -/

theorem Invariant.step {event : HandlerEvent} {after : Handler} (holds : state.Invariant env)
    (own : RegistersOwn env state event) (taken : state.step env event = some after) :
    after.Invariant env := by
  cases event with
  | wait elapsed =>
      cases taken
      exact holds.waited elapsed
  | change writer updates events =>
      unfold Handler.step at taken
      dsimp only at taken
      split at taken
      case isTrue reported =>
        cases taken
        apply holds.changed reported
        intro other
        rw [other] at own
        exact own
      case isFalse => cases taken
  | observe relativePath =>
      obtain ⟨file, isFile, same⟩ := Option.map_eq_some_iff.mp taken
      cases same
      obtain ⟨path, isPath, present⟩ := Option.bind_eq_some_iff.mp isFile
      exact holds.observed isPath present own
  | register position =>
      obtain ⟨entry, found, same⟩ := Option.map_eq_some_iff.mp taken
      cases same
      exact holds.registered found
  | look path =>
      unfold Handler.step at taken
      dsimp only at taken
      split at taken
      case isTrue => cases taken
      case isFalse free =>
        obtain ⟨⟨first, rest⟩, found, same⟩ := Option.map_eq_some_iff.mp taken
        cases same
        exact holds.lookedAt (Option.not_isSome_iff_eq_none.mp free) found
  | settle =>
      obtain ⟨⟨change, seen⟩, isLooked, same⟩ := Option.map_eq_some_iff.mp taken
      cases same
      exact holds.settled isLooked

/-- In every run, tokens suppress the writes of this process and nothing else, if each of them
is made for a revision that this process has written. -/
theorem run_ignoresOwn {start final : Handler} {events : List HandlerEvent} (fresh : start.Fresh)
    (own : Transitions.Each (step env) (RegistersOwn env) start events)
    (ran : Transitions.run (step env) start events = some final) : final.IgnoresOwn := by
  have kept : ∀ {current after : Handler} {event : HandlerEvent},
      current.Invariant env → RegistersOwn env current event →
        current.step env event = some after → after.Invariant env :=
    fun holds met taken => holds.step met taken
  exact (Transitions.run_keeps kept fresh.invariant own ran).ignoresOwn

end Handler

/-! ### A token for the edit of another program -/

def notePath : Text := "a.md".toList

def writeBy (writer : Writer) (mtimeNs : Nat) : HandlerEvent :=
  .change writer [(notePath, some { inode := 7, mtimeNs, size := 3 })] [.modified notePath]

/-- This process writes a note and registers the write, and later another program edits it. -/
def registeredInTime : List HandlerEvent :=
  [writeBy .ownProcess 100, .observe notePath, .register 0, .look notePath, .settle,
    .wait 5, writeBy .otherProgram 200, .look notePath, .settle]

/-- Another program edits the note before the write is registered. -/
def registeredLate : List HandlerEvent :=
  [writeBy .ownProcess 100, .look notePath, .settle, writeBy .otherProgram 200,
    .observe notePath, .register 0, .look notePath, .settle]

def handlerAtStart : Handler :=
  { files := fun _path => none }

theorem handlerAtStart_fresh : handlerAtStart.Fresh :=
  { files := by
      intro path file impossible
      cases impossible
    tokens := rfl
    observed := rfl
    inFlight := rfl
    looked := rfl
    dropped := rfl }

theorem registeredInTime_ignoresOwn :
    ((Transitions.run (Handler.step Env.plain) handlerAtStart registeredInTime).get
      (by decide)).IgnoresOwn :=
  Handler.run_ignoresOwn handlerAtStart_fresh (by decide) (Option.some_get _).symm

theorem registeredLate_ignoresOther :
    ¬ ∀ (env : Env) (start final : Handler) (events : List HandlerEvent), start.Fresh →
      Transitions.run (Handler.step env) start events = some final → final.IgnoresOwn := by
  intro always
  have ran : (Transitions.run (Handler.step Env.plain) handlerAtStart registeredLate).isSome =
      true := by decide
  obtain ⟨final, isFinal⟩ := Option.isSome_iff_exists.mp ran
  have ignored := (always Env.plain handlerAtStart final registeredLate handlerAtStart_fresh
    isFinal).1 .otherProgram
  have dropped : (Transitions.run (Handler.step Env.plain) handlerAtStart registeredLate).map
      Handler.dropped = some [.otherProgram] := by decide
  rw [isFinal, Option.map_some] at dropped
  rw [Option.some.inj dropped] at ignored
  exact absurd (ignored (List.mem_singleton_self _)) (by decide)

end VaultSearch.Watching
