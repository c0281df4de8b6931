/-
The texts the indexer sends to the daemon, and what the daemon takes.

A rebuild adds the chunks of one note after another to a batch and sends the batch as soon as it
is full, so a batch is the chunks of some notes that do not fill it and of one note more.  The
daemon counts the texts of a request and the bytes of its body.
-/

import VaultSearch.Core.ChunkPlacement
import VaultSearch.Core.Indexer
import VaultSearch.Daemon.Server
import VaultSearch.Parsers.Records

set_option autoImplicit false

namespace VaultSearch

open Fallible

/-! ### What the daemon takes -/

/-- How many characters `json.dumps` writes for a character of a string. -/
def dumpedWidth (char : Char) : Nat :=
  let code := char.toNat
  if ['"', '\\', '\n', '\r', '\t'].contains char || code == 8 || code == 12 then 2
  else if 32 ≤ code ∧ code ≤ 126 then 1
  else if code < 65536 then 6
  else 12

/-- The length of a string in JSON, with its quotes. -/
def dumpedLength (text : Text) : Nat :=
  2 + (text.map dumpedWidth).sum

/-- The length of the body with the texts of a request, separated by a comma and a space. -/
def embedBodyLength (texts : List Text) : Nat :=
  "\x7b\"texts\": []\x7d".toList.length + (texts.map dumpedLength).sum + 2 * (texts.length - 1)

/-- A text of a request. -/
def textItem (text : Text) : Json Unit :=
  .string text

namespace DaemonServer

variable (server : DaemonServer)

/-- Why `_handle_embed_corpus` refuses the body of a request, if it does. -/
def embedRefusal (texts : List Text) : Option RequestError :=
  if server.maxRequestBytes < embedBodyLength texts then
    some { message := "Request body is too large".toList, status := 413 }
  else
    match server.validateTexts (.array (texts.map textItem)) with
    | .error error => some error
    | .ok _texts => none

/-- The limits of a request: the texts, the bytes of the body, the characters of a text. -/
structure FitsLimits (texts : List Text) : Prop where
  few : texts.length ≤ server.maxTexts
  small : embedBodyLength texts ≤ server.maxRequestBytes
  short : ∀ text ∈ texts, text.length ≤ server.maxTextLength

theorem validateTexts_ok_iff {texts : List Text} (filled : texts ≠ [])
    (inked : ∀ text ∈ texts, Text.strip text ≠ []) :
    (∃ read, server.validateTexts (.array (texts.map textItem)) = .ok read) ↔
      texts.length ≤ server.maxTexts ∧ ∀ text ∈ texts, text.length ≤ server.maxTextLength := by
  have blank : (texts.map textItem).any (fun item =>
      item.asText.all (fun text => (Text.strip text).isEmpty)) = false := by
    rw [List.any_eq_false]
    intro item member
    obtain ⟨text, inside, same⟩ := List.mem_map.mp member
    rw [← same]
    simp [textItem, Json.asText, inked text inside]
  have long : (texts.map textItem).any (fun item =>
      item.asText.any (fun text => server.maxTextLength < text.length)) = true ↔
        ∃ text ∈ texts, server.maxTextLength < text.length := by
    rw [List.any_map, List.any_eq_true]
    simp [textItem, Json.asText]
  cases texts with
  | nil => exact absurd rfl filled
  | cons first rest =>
      rw [List.map_cons, DaemonServer.validateTexts, ← List.map_cons, DaemonServer.validateItems,
        blank, List.length_map]
      by_cases many : server.maxTexts < (first :: rest).length
      · rw [if_pos many]
        constructor
        · rintro ⟨read, impossible⟩
          cases impossible
        · intro fits
          omega
      · rw [if_neg many, if_neg (by decide)]
        by_cases some : ∃ text ∈ first :: rest, server.maxTextLength < text.length
        · rw [if_pos (long.mpr some)]
          constructor
          · rintro ⟨read, impossible⟩
            cases impossible
          · intro fits
            obtain ⟨text, member, longer⟩ := some
            exact absurd (fits.2 text member) (Nat.not_le.mpr longer)
        · rw [if_neg (fun longer => some (long.mp longer))]
          constructor
          · intro _read
            constructor
            · omega
            · intro text member
              apply Nat.not_lt.mp
              exact fun longer => some ⟨text, member, longer⟩
          · exact fun _fits => ⟨_, rfl⟩

/-- Texts that are not blank are refused for exceeding a limit only. -/
theorem embedRefusal_eq_none_iff {texts : List Text} (filled : texts ≠ [])
    (inked : ∀ text ∈ texts, Text.strip text ≠ []) :
    server.embedRefusal texts = none ↔ server.FitsLimits texts := by
  have validated := server.validateTexts_ok_iff filled inked
  unfold embedRefusal
  by_cases large : server.maxRequestBytes < embedBodyLength texts
  · rw [if_pos large]
    constructor
    · intro impossible
      cases impossible
    · intro fits
      exact absurd fits.small (Nat.not_le.mpr large)
  · rw [if_neg large]
    cases checked : server.validateTexts (.array (texts.map textItem)) with
    | error error =>
        rw [checked] at validated
        dsimp only
        constructor
        · intro impossible
          cases impossible
        · intro fits
          obtain ⟨read, impossible⟩ := validated.mpr ⟨fits.few, fits.short⟩
          cases impossible
    | ok read =>
        rw [checked] at validated
        dsimp only
        constructor
        · intro _accepted
          have fits := validated.mp ⟨read, rfl⟩
          exact ⟨fits.1, Nat.not_lt.mp large, fits.2⟩
        · exact fun _fits => rfl

theorem embedBodyLength_append_le (front back : List Text) :
    embedBodyLength front ≤ embedBodyLength (front ++ back) := by
  unfold embedBodyLength
  rw [List.map_append, List.sum_append, List.length_append]
  omega

variable {server} in
/-- A part of a request fits as well. -/
theorem FitsLimits.front {texts whole : List Text} (fits : server.FitsLimits whole)
    (part : texts <+: whole) : server.FitsLimits texts := by
  obtain ⟨rest, same⟩ := part
  rw [← same] at fits
  constructor
  · have few := fits.few
    rw [List.length_append] at few
    omega
  · exact Nat.le_trans (embedBodyLength_append_le texts rest) fits.small
  · exact fun text member => fits.short text (List.mem_append_left rest member)

end DaemonServer

/-! ### What the indexer sends -/

def chunkTexts (chunks : List ChunkRecord) : List Text :=
  chunks.map (fun chunk => chunk.text)

/-- The texts that the loop of a rebuild over its results sends, with the last batch. -/
def stagingRequests (env : Env) (shutdownRequested : Nat → Bool) :
    Nat → List ChunkRecord → List (Text × ParseResult) → List (List Text)
  | _, batch, [] => if batch.isEmpty then [] else [chunkTexts batch]
  | turn, batch, (_, result) :: rest =>
      if shutdownRequested turn then []
      else
        match result.status with
        | .success =>
            if env.config.batchSize ≤ (batch ++ result.chunks).length then
              chunkTexts (batch ++ result.chunks) ::
                stagingRequests env shutdownRequested (turn + 1) [] rest
            else stagingRequests env shutdownRequested (turn + 1) (batch ++ result.chunks) rest
        | _ => stagingRequests env shutdownRequested (turn + 1) batch rest

/-- What a note is parsed to in the rebuild, and by `reindex_note`. -/
def notePieces (env : Env) (vault : Vault) (path : Text) : ParseResult :=
  truncateChunks env (parsePath env vault path)

def scanResults (env : Env) (vault : Vault) : List (Text × ParseResult) :=
  (scanVault env vault).map (fun path => (path, notePieces env vault path))

/-- The vault that `reindex_note` parses a note of, with an id that was added. -/
def vaultWithId (env : Env) (call : Call) (vault : Vault) : Vault :=
  if call.autoGenerateId && env.lower (PurePath.suffix call.path) = ".md".toList then
    match ensureNoteId env call.fresh call.path vault with
    | .error _ => vault
    | .ok (_, later) => later
  else vault

/-- The chunks of the note in one call of `reindex_note`. -/
def reindexTexts (env : Env) (vault : Vault) (call : Call) : List Text :=
  chunkTexts (notePieces env (vaultWithId env call vault) call.path).chunks

/-- The lists of texts that `full_reindex` and `reindex_note` pass to `embed_corpus`, whatever
the order in which the results arrive and whenever a shutdown is requested. -/
inductive Embeds (env : Env) (vault : Vault) : List Text → Prop
  | rebuild {texts : List Text} (arriving : List (Text × ParseResult))
      (arrives : arriving.Perm (scanResults env vault)) (shutdownRequested : Nat → Bool)
      (sent : texts ∈ stagingRequests env shutdownRequested 0 [] arriving) : Embeds env vault texts
  | reindex (call : Call) (valid : validateRelativePath call.path = true)
      (indexable : hasIndexableExtension env call.path = true)
      (filled : reindexTexts env vault call ≠ []) : Embeds env vault (reindexTexts env vault call)

/-! ### Parsed chunks -/

theorem collectsOnly_inked (env : Env) (metadata : FileMetadata) (tags : Text) :
    CollectsOnly env metadata tags (fun chunk => Text.strip chunk.text ≠ []) := by
  intro text headers title fields chunk member
  obtain ⟨part, _inside, made⟩ := List.mem_filterMap.mp member
  split at made
  case isTrue => cases made
  case isFalse filled =>
    rw [← Option.some.inj made]
    change Text.strip (Text.strip part) ≠ []
    rw [Text.strip_strip]
    exact fun empty => filled (List.isEmpty_iff.mpr empty)

theorem notePieces_inked (env : Env) (vault : Vault) (path : Text) :
    ∀ chunk ∈ (notePieces env vault path).chunks, Text.strip chunk.text ≠ [] := by
  intro chunk member
  have parsed : chunk ∈ (parsePath env vault path).chunks := List.mem_of_mem_take member
  unfold parsePath at parsed
  split at parsed
  · exact parseFileResult_forall (collectsOnly_inked env _ _) chunk parsed
  · split at parsed
    · cases parsed
    · cases parsed

/-- A result that succeeded has chunks, and no other one has. -/
def ParseResult.Counted (result : ParseResult) : Prop :=
  result.status = .success ↔ result.chunks ≠ []

theorem parseFileResult_counted (env : Env) (path : Text) (file : File) :
    (parseFileResult env path file).Counted := by
  unfold ParseResult.Counted parseFileResult
  split
  · simp
  · split
    · simp
    case h_2 records parsed => cases records.chunks <;> simp

theorem notePieces_counted (env : Env) (vault : Vault) (path : Text) :
    (notePieces env vault path).Counted := by
  have parsed : (parsePath env vault path).Counted := by
    unfold parsePath
    split
    · exact parseFileResult_counted env path _
    · unfold ParseResult.Counted
      split <;> simp
  have positive : env.config.maxChunksPerNote ≠ 0 :=
    Nat.pos_iff_ne_zero.mp env.config.maxChunksPositive
  unfold ParseResult.Counted at parsed ⊢
  unfold notePieces truncateChunks
  dsimp only
  rw [parsed]
  simp [positive]

/-! ### The batches of a rebuild -/

/-- The chunks of several notes, one note after the other. -/
def chunksOf (notes : List (Text × ParseResult)) : List ChunkRecord :=
  notes.flatMap (fun note => note.2.chunks)

theorem chunksOf_append (front back : List (Text × ParseResult)) :
    chunksOf (front ++ back) = chunksOf front ++ chunksOf back :=
  List.flatMap_append

theorem chunksOf_singleton (note : Text × ParseResult) : chunksOf [note] = note.2.chunks :=
  List.flatMap_singleton _ _

/-- Notes that do not fill a batch. -/
def Pending (env : Env) (notes : List (Text × ParseResult)) : Prop :=
  notes = [] ∨ (chunksOf notes).length < env.config.batchSize

theorem Pending.dropLast {env : Env} {front : List (Text × ParseResult)}
    {last : Text × ParseResult} (pending : Pending env (front ++ [last])) : Pending env front := by
  cases pending with
  | inl impossible => simp at impossible
  | inr short =>
      right
      rw [chunksOf_append, List.length_append] at short
      omega

/-- The chunks of notes that do not fill a batch, and of one note more. -/
def BatchOf (env : Env) (notes : List (Text × ParseResult)) (texts : List Text) : Prop :=
  ∃ before note rest, (before ++ note :: rest).Perm notes ∧ Pending env before ∧
    texts = chunkTexts (chunksOf (before ++ [note])) ∧ texts ≠ []

theorem BatchOf.perm {env : Env} {notes others : List (Text × ParseResult)} {texts : List Text}
    (batch : BatchOf env notes texts) (same : notes.Perm others) : BatchOf env others texts := by
  obtain ⟨before, note, rest, perm, others⟩ := batch
  exact ⟨before, note, rest, perm.trans same, others⟩

theorem BatchOf.append {env : Env} {notes : List (Text × ParseResult)} {texts : List Text}
    (batch : BatchOf env notes texts) (more : List (Text × ParseResult)) :
    BatchOf env (notes ++ more) texts := by
  obtain ⟨before, note, rest, perm, others⟩ := batch
  refine ⟨before, note, rest ++ more, ?_, others⟩
  have longer := perm.append_right more
  rw [List.append_assoc, List.cons_append] at longer
  exact longer

theorem chunkTexts_ne_nil {chunks : List ChunkRecord} (filled : chunks ≠ []) :
    chunkTexts chunks ≠ [] := by
  unfold chunkTexts
  rw [ne_eq, List.map_eq_nil_iff]
  exact filled

/-- What the loop sends is a batch of the notes whose chunks it holds and of those to come. -/
theorem sent_batchOf {env : Env} {shutdownRequested : Nat → Bool} {texts : List Text}
    (results : List (Text × ParseResult)) (counted : ∀ note ∈ results, note.2.Counted) :
    ∀ turn held, Pending env held → (∀ note ∈ held, note.2.Counted) →
      texts ∈ stagingRequests env shutdownRequested turn (chunksOf held) results →
      BatchOf env (held ++ results) texts := by
  induction results with
  | nil =>
      intro turn held pending heldCounted sent
      rw [List.append_nil]
      unfold stagingRequests at sent
      split at sent
      case isTrue => cases sent
      case isFalse filled =>
        rw [List.isEmpty_iff] at filled
        cases held using List.reverseRecOn with
        | nil => exact absurd rfl filled
        | append_singleton front last _ih =>
            refine ⟨front, last, [], List.Perm.refl _, pending.dropLast,
              List.mem_singleton.mp sent, ?_⟩
            rw [List.mem_singleton.mp sent]
            exact chunkTexts_ne_nil filled
  | cons note rest ih =>
      intro turn held pending heldCounted sent
      obtain ⟨path, result⟩ := note
      have later := ih (fun other member => counted other (List.mem_cons_of_mem _ member))
      have own := counted (path, result) List.mem_cons_self
      have skipped : texts ∈ stagingRequests env shutdownRequested (turn + 1) (chunksOf held) rest →
          BatchOf env (held ++ (path, result) :: rest) texts := by
        intro inside
        have batch := (later (turn + 1) held pending heldCounted inside).append [(path, result)]
        rw [List.append_assoc] at batch
        exact batch.perm (List.Perm.append_left held (List.perm_append_singleton _ _))
      unfold stagingRequests at sent
      split at sent
      · cases sent
      · cases status : result.status with
        | success =>
            rw [status] at sent
            dsimp only at sent
            have together : chunksOf held ++ result.chunks = chunksOf (held ++ [(path, result)]) := by
              rw [chunksOf_append, chunksOf_singleton]
            have filled : result.chunks ≠ [] := own.mp status
            rw [together] at sent
            split at sent
            case isTrue full =>
              cases List.mem_cons.mp sent with
              | inl same =>
                  refine ⟨held, (path, result), rest, List.Perm.refl _, pending, same, ?_⟩
                  rw [same, ← together]
                  apply chunkTexts_ne_nil
                  simp [filled]
              | inr inside =>
                  have fresh : Pending env [] := Or.inl rfl
                  have batch := later (turn + 1) [] fresh
                    (fun _note member => absurd member List.not_mem_nil) inside
                  have longer := batch.append (held ++ [(path, result)])
                  apply longer.perm
                  rw [List.nil_append]
                  exact (List.perm_append_comm).trans (by simp)
            case isFalse short =>
              have batch := later (turn + 1) (held ++ [(path, result)])
                (Or.inr (Nat.not_le.mp short))
                (List.forall_mem_append.mpr ⟨heldCounted, by simpa using own⟩) sent
              rw [List.append_assoc] at batch
              exact batch
        | error =>
            rw [status] at sent
            exact skipped sent
        | empty =>
            rw [status] at sent
            exact skipped sent
        | unsupported =>
            rw [status] at sent
            exact skipped sent

/-- A batch that is started is sent, with what comes behind it. -/
theorem started_sent (env : Env) (results : List (Text × ParseResult)) :
    ∀ turn (batch : List ChunkRecord), batch ≠ [] →
      ∃ texts ∈ stagingRequests env (fun _turn => false) turn batch results,
        chunkTexts batch <+: texts := by
  induction results with
  | nil =>
      intro turn batch filled
      unfold stagingRequests
      rw [if_neg (by rw [List.isEmpty_iff]; exact filled)]
      exact ⟨_, List.mem_singleton_self _, List.prefix_refl _⟩
  | cons note rest ih =>
      intro turn batch filled
      obtain ⟨path, result⟩ := note
      unfold stagingRequests
      rw [if_neg (by decide)]
      cases status : result.status with
      | success =>
          dsimp only
          have front : chunkTexts batch <+: chunkTexts (batch ++ result.chunks) := by
            unfold chunkTexts
            rw [List.map_append]
            exact List.prefix_append _ _
          split
          · exact ⟨_, List.mem_cons_self, front⟩
          · obtain ⟨texts, sent, longer⟩ := ih (turn + 1) (batch ++ result.chunks)
              (by simp [filled])
            exact ⟨texts, sent, front.trans longer⟩
      | error => exact ih (turn + 1) batch filled
      | empty => exact ih (turn + 1) batch filled
      | unsupported => exact ih (turn + 1) batch filled

/-- Notes that do not fill a batch are held, and one note more is sent with them. -/
theorem batch_sent (env : Env) {note : Text × ParseResult} (noteCounted : note.2.Counted)
    (rest before : List (Text × ParseResult)) (counted : ∀ one ∈ before, one.2.Counted) :
    ∀ turn held, Pending env (held ++ before) → chunksOf (held ++ before ++ [note]) ≠ [] →
      ∃ texts ∈ stagingRequests env (fun _turn => false) turn (chunksOf held)
          (before ++ note :: rest),
        chunkTexts (chunksOf (held ++ before ++ [note])) <+: texts := by
  induction before with
  | nil =>
      intro turn held _pending filled
      obtain ⟨path, result⟩ := note
      rw [List.append_nil, chunksOf_append, chunksOf_singleton] at filled ⊢
      dsimp only at filled ⊢
      rw [List.nil_append]
      unfold stagingRequests
      rw [if_neg (by decide)]
      have unsent (other : result.status ≠ .success) :
          ∃ texts ∈ stagingRequests env (fun _turn => false) (turn + 1) (chunksOf held) rest,
            chunkTexts (chunksOf held ++ result.chunks) <+: texts := by
        have empty : result.chunks = [] := by
          apply Decidable.of_not_not
          exact fun present => other (noteCounted.mpr present)
        rw [empty, List.append_nil] at filled ⊢
        exact started_sent env rest (turn + 1) (chunksOf held) filled
      cases status : result.status with
      | success =>
          dsimp only
          split
          · exact ⟨_, List.mem_cons_self, List.prefix_refl _⟩
          · exact started_sent env rest (turn + 1) _ filled
      | error => exact unsent (by rw [status]; decide)
      | empty => exact unsent (by rw [status]; decide)
      | unsupported => exact unsent (by rw [status]; decide)
  | cons head tail ih =>
      intro turn held pending filled
      obtain ⟨path, result⟩ := head
      have later := ih (fun one member => counted one (List.mem_cons_of_mem _ member))
      have own := counted (path, result) List.mem_cons_self
      have moved : held ++ (path, result) :: tail = held ++ [(path, result)] ++ tail := by
        rw [List.append_assoc]
        rfl
      rw [moved] at pending filled ⊢
      rw [List.cons_append]
      unfold stagingRequests
      rw [if_neg (by decide)]
      have together : chunksOf held ++ result.chunks = chunksOf (held ++ [(path, result)]) := by
        rw [chunksOf_append, chunksOf_singleton]
      have next := later (turn + 1) (held ++ [(path, result)]) pending filled
      rw [← together] at next
      have unsent (other : result.status ≠ .success) :
          chunksOf held ++ result.chunks = chunksOf held := by
        have empty : result.chunks = [] := by
          apply Decidable.of_not_not
          exact fun present => other (own.mpr present)
        rw [empty, List.append_nil]
      cases status : result.status with
      | success =>
          dsimp only
          have short : (chunksOf held ++ result.chunks).length < env.config.batchSize := by
            cases pending with
            | inl impossible => simp at impossible
            | inr short =>
                rw [chunksOf_append, ← together, List.length_append] at short
                omega
          rw [if_neg (Nat.not_le.mpr short)]
          exact next
      | error =>
          rw [unsent (by rw [status]; decide)] at next
          exact next
      | empty =>
          rw [unsent (by rw [status]; decide)] at next
          exact next
      | unsupported =>
          rw [unsent (by rw [status]; decide)] at next
          exact next

/-! ### When every request is taken -/

theorem scanResults_counted (env : Env) (vault : Vault) :
    ∀ note ∈ scanResults env vault, note.2.Counted := by
  intro note member
  obtain ⟨path, _scanned, same⟩ := List.mem_map.mp member
  rw [← same]
  exact notePieces_counted env vault path

theorem inked_chunkTexts {chunks : List ChunkRecord}
    (inked : ∀ chunk ∈ chunks, Text.strip chunk.text ≠ []) :
    ∀ text ∈ chunkTexts chunks, Text.strip text ≠ [] := by
  intro text member
  obtain ⟨chunk, inside, same⟩ := List.mem_map.mp member
  rw [← same]
  exact inked chunk inside

theorem chunksOf_inked {env : Env} {vault : Vault} {notes : List (Text × ParseResult)}
    (scanned : ∀ note ∈ notes, note ∈ scanResults env vault) :
    ∀ chunk ∈ chunksOf notes, Text.strip chunk.text ≠ [] := by
  intro chunk member
  obtain ⟨note, inside, own⟩ := List.mem_flatMap.mp member
  obtain ⟨path, _scanned, same⟩ := List.mem_map.mp (scanned note inside)
  rw [← same] at own
  exact notePieces_inked env vault path chunk own

theorem BatchOf.inked {env : Env} {vault : Vault} {texts : List Text}
    (batch : BatchOf env (scanResults env vault) texts) :
    ∀ text ∈ texts, Text.strip text ≠ [] := by
  obtain ⟨before, note, rest, perm, _pending, same, _filled⟩ := batch
  rw [same]
  apply inked_chunkTexts
  apply chunksOf_inked
  intro one member
  apply perm.subset
  cases List.mem_append.mp member with
  | inl early => exact List.mem_append_left _ early
  | inr late =>
      rw [List.mem_singleton.mp late]
      exact List.mem_append_right _ List.mem_cons_self

theorem BatchOf.filled {env : Env} {notes : List (Text × ParseResult)} {texts : List Text}
    (batch : BatchOf env notes texts) : texts ≠ [] := by
  obtain ⟨_before, _note, _rest, _perm, _pending, _same, filled⟩ := batch
  exact filled

/-- What a rebuild sends is a batch of the notes of the vault. -/
theorem rebuild_batchOf {env : Env} {vault : Vault} {arriving : List (Text × ParseResult)}
    (arrives : arriving.Perm (scanResults env vault)) {shutdownRequested : Nat → Bool}
    {texts : List Text} (sent : texts ∈ stagingRequests env shutdownRequested 0 [] arriving) :
    BatchOf env (scanResults env vault) texts := by
  have counted : ∀ one ∈ arriving, one.2.Counted := fun one member =>
    scanResults_counted env vault one (arrives.subset member)
  exact (sent_batchOf arriving counted 0 [] (Or.inl rfl)
    (fun _note member => absurd member List.not_mem_nil) sent).perm arrives

/-- No batch of the notes and no single note exceeds the limits of the daemon. -/
structure BatchesFit (env : Env) (server : DaemonServer) (vault : Vault) : Prop where
  batches : ∀ texts, BatchOf env (scanResults env vault) texts → server.FitsLimits texts
  notes : ∀ call : Call, validateRelativePath call.path = true →
    hasIndexableExtension env call.path = true → reindexTexts env vault call ≠ [] →
      server.FitsLimits (reindexTexts env vault call)

/-- The daemon refuses none of the requests of the indexer exactly if every batch and every note
fits its limits. -/
theorem embeds_accepted_iff (env : Env) (server : DaemonServer) (vault : Vault) :
    (∀ texts, Embeds env vault texts → server.embedRefusal texts = none) ↔
      BatchesFit env server vault := by
  constructor
  · intro accepted
    constructor
    · rintro texts ⟨before, note, rest, perm, pending, same, filled⟩
      have counted : ∀ one ∈ before ++ note :: rest, one.2.Counted := fun one member =>
        scanResults_counted env vault one (perm.subset member)
      have some : chunksOf ([] ++ before ++ [note]) ≠ [] := by
        intro empty
        rw [List.nil_append] at empty
        rw [empty] at same
        exact filled same
      obtain ⟨whole, sent, front⟩ := batch_sent env
        (counted note (List.mem_append_right _ List.mem_cons_self)) rest before
        (fun one member => counted one (List.mem_append_left _ member)) 0 [] pending some
      have batch := rebuild_batchOf perm sent
      have taken := accepted whole (.rebuild _ perm (fun _turn => false) sent)
      rw [List.nil_append, ← same] at front
      exact ((server.embedRefusal_eq_none_iff batch.filled batch.inked).mp taken).front front
    · intro call valid indexable filled
      have inked := inked_chunkTexts (notePieces_inked env (vaultWithId env call vault) call.path)
      exact (server.embedRefusal_eq_none_iff filled inked).mp
        (accepted _ (.reindex call valid indexable filled))
  · intro fits texts embeds
    cases embeds with
    | rebuild arriving arrives shutdownRequested sent =>
        have batch := rebuild_batchOf arrives sent
        exact (server.embedRefusal_eq_none_iff batch.filled batch.inked).mpr
          (fits.batches texts batch)
    | reindex call valid indexable filled =>
        have inked := inked_chunkTexts
          (notePieces_inked env (vaultWithId env call vault) call.path)
        exact (server.embedRefusal_eq_none_iff filled inked).mpr
          (fits.notes call valid indexable filled)

/-! ### The programs send nothing else -/

/-- The same settings with another way to get vectors. -/
def Env.withEmbedder (env : Env) (embedder : List Text → Option (List Vector32)) : Env :=
  { env with embedCorpus := embedder }

section

variable {env : Env} {embedder : List Text → Option (List Vector32)}

theorem embedChunks_congr {chunks : List ChunkRecord}
    (same : embedder (chunkTexts chunks) = env.embedCorpus (chunkTexts chunks)) (turn : Nat) :
    embedChunks (env.withEmbedder embedder) turn chunks = embedChunks env turn chunks := by
  have texts : (env.withEmbedder embedder).embedCorpus (chunks.map (fun chunk => chunk.text)) =
      env.embedCorpus (chunks.map (fun chunk => chunk.text)) := same
  unfold embedChunks
  rw [texts]

theorem storeBatch_congr {progress : Progress}
    (same : embedder (chunkTexts progress.batch) = env.embedCorpus (chunkTexts progress.batch))
    (schedule : Schedule Label OtherAction) (world : World) :
    storeBatch (env.withEmbedder embedder) schedule (world, progress) =
      storeBatch env schedule (world, progress) := by
  have stored : storeStagingBatch (env.withEmbedder embedder) progress.stored progress.batch =
      storeStagingBatch env progress.stored progress.batch := by
    unfold storeStagingBatch
    rw [embedChunks_congr same]
  unfold storeBatch
  apply andThen_congr rfl
  intro value looked
  have read : progress = value := Option.some.inj looked
  apply andThen_congr
  · unfold lift
    dsimp only
    rw [← read, stored]
  · exact fun _value _found => rfl

/-- A batch that was stored is empty. -/
theorem storeBatch_batch (schedule : Schedule Label OtherAction) (start : World × Progress)
    (value : Unit) (stored : (storeBatch env schedule start).value = some value) :
    (storeBatch env schedule start).final.2.batch = [] := by
  have triple : Triple schedule (fun _ => True) (fun _ => True) (storeBatch env)
      (fun _value final => final.2.batch = []) (fun _ => True) := by
    unfold storeBatch
    apply triple_andThen (fun _ _ => True) (triple_any _)
    intro progress
    apply triple_andThen (fun _ _ => True) (triple_any _)
    intro count start _started
    exact ⟨fun _value _found => rfl, fun _failed => trivial, fun _moment _member => trivial⟩
  exact (triple start trivial).1 value stored

/-- The loop over the results, and the last batch if it was not interrupted. -/
def stageBatches (env : Env) (surroundings : Surroundings) (turn : Nat)
    (results : List (Text × ParseResult)) : Staging Unit := do
  let interrupted ← stageResults env surroundings turn results
  if interrupted then ret () else storeLastBatch env

theorem storeLastBatch_congr {progress : Progress}
    (same : progress.batch ≠ [] →
      embedder (chunkTexts progress.batch) = env.embedCorpus (chunkTexts progress.batch))
    (schedule : Schedule Label OtherAction) (world : World) :
    storeLastBatch (env.withEmbedder embedder) schedule (world, progress) =
      storeLastBatch env schedule (world, progress) := by
  unfold storeLastBatch
  apply andThen_congr rfl
  intro value looked
  have read : progress = value := Option.some.inj looked
  rw [← read]
  by_cases empty : progress.batch = []
  · simp [empty]
  · rw [if_neg (by simp [empty]), if_neg (by simp [empty])]
    exact storeBatch_congr (same empty) schedule world

/-- What a result that succeeded does to the batch and the requests. -/
theorem stageResult_congr {path : Text} {result : ParseResult} {progress : Progress}
    (success : result.status = .success)
    (same : env.config.batchSize ≤ (progress.batch ++ result.chunks).length →
      embedder (chunkTexts (progress.batch ++ result.chunks)) =
        env.embedCorpus (chunkTexts (progress.batch ++ result.chunks)))
    (schedule : Schedule Label OtherAction) (world : World) :
    stageResult (env.withEmbedder embedder) path result schedule (world, progress) =
      stageResult env path result schedule (world, progress) := by
  unfold stageResult
  rw [success]
  apply andThen_congr rfl
  intro _value _collected
  apply andThen_congr rfl
  intro value looked
  have read : progress.collect path result = value := Option.some.inj looked
  rw [← read]
  have sameSize : (env.withEmbedder embedder).config.batchSize = env.config.batchSize := rfl
  rw [sameSize]
  by_cases full : env.config.batchSize ≤ (progress.collect path result).batch.length
  · rw [if_pos full, if_pos full]
    exact storeBatch_congr (same full) schedule world
  · rw [if_neg full, if_neg full]

/-- The batch behind a result that succeeded. -/
theorem stageResult_batch {path : Text} {result : ParseResult} {progress : Progress}
    (success : result.status = .success) (schedule : Schedule Label OtherAction) (world : World)
    (value : Unit)
    (staged : (stageResult env path result schedule (world, progress)).value = some value) :
    (stageResult env path result schedule (world, progress)).final.2.batch =
      if env.config.batchSize ≤ (progress.batch ++ result.chunks).length then []
      else progress.batch ++ result.chunks := by
  have reading : stageResult env path result schedule (world, progress) =
      (if env.config.batchSize ≤ (progress.batch ++ result.chunks).length then storeBatch env
        else ret ()) schedule (world, progress.collect path result) := by
    unfold stageResult
    rw [success]
    rfl
  rw [reading] at staged ⊢
  by_cases full : env.config.batchSize ≤ (progress.batch ++ result.chunks).length
  · rw [if_pos full] at staged ⊢
    rw [if_pos full]
    exact storeBatch_batch schedule _ value staged
  · rw [if_neg full, if_neg full]
    rfl

theorem stageBatches_cons (surroundings : Surroundings) (turn : Nat) (path : Text)
    (result : ParseResult) (rest : List (Text × ParseResult)) :
    stageBatches env surroundings turn ((path, result) :: rest) =
      if surroundings.shutdownRequested turn then andThen (ret true) (fun _interrupted => ret ())
      else andThen (stageResult env path result)
        (fun _done => stageBatches env surroundings (turn + 1) rest) := by
  unfold stageBatches
  rw [stageResults]
  by_cases stops : surroundings.shutdownRequested turn = true
  · rw [if_pos stops, if_pos stops]
    rfl
  · rw [if_neg stops, if_neg stops]
    exact andThen_assoc _ _ _

/-- The rebuild sends nothing but its requests: another way to get vectors that agrees on these
leads to the same outcome. -/
theorem stageBatches_congr (surroundings : Surroundings) (schedule : Schedule Label OtherAction)
    (results : List (Text × ParseResult)) :
    ∀ turn world progress,
      (∀ texts ∈ stagingRequests env surroundings.shutdownRequested turn progress.batch results,
        embedder texts = env.embedCorpus texts) →
      stageBatches (env.withEmbedder embedder) surroundings turn results schedule
          (world, progress) =
        stageBatches env surroundings turn results schedule (world, progress) := by
  induction results with
  | nil =>
      intro turn world progress same
      unfold stageBatches
      apply andThen_congr rfl
      intro value done
      have uninterrupted : false = value := Option.some.inj done
      rw [← uninterrupted]
      apply storeLastBatch_congr
      intro filled
      apply same
      unfold stagingRequests
      rw [if_neg (by simp [filled])]
      exact List.mem_singleton_self _
  | cons note rest ih =>
      intro turn world progress same
      obtain ⟨path, result⟩ := note
      rw [stageBatches_cons, stageBatches_cons]
      by_cases stops : surroundings.shutdownRequested turn = true
      · rw [if_pos stops, if_pos stops]
      · rw [if_neg stops, if_neg stops]
        unfold stagingRequests at same
        rw [if_neg stops] at same
        cases status : result.status with
        | success =>
            rw [status] at same
            dsimp only at same
            apply andThen_congr
            · apply stageResult_congr status
              intro full
              rw [if_pos full] at same
              exact same _ List.mem_cons_self
            · intro value staged
              rw [stageResult_congr status (fun full => by
                rw [if_pos full] at same
                exact same _ List.mem_cons_self)] at staged ⊢
              have batch := stageResult_batch status schedule world value staged
              apply ih
              intro texts sent
              rw [batch] at sent
              apply same
              by_cases full : env.config.batchSize ≤ (progress.batch ++ result.chunks).length
              · rw [if_pos full] at sent ⊢
                exact List.mem_cons_of_mem _ sent
              · rw [if_neg full] at sent ⊢
                exact sent
        | error =>
            rw [status] at same
            unfold stageResult
            rw [status]
            exact andThen_congr rfl (fun _value _staged => ih (turn + 1) world _ same)
        | empty =>
            rw [status] at same
            unfold stageResult
            rw [status]
            exact andThen_congr rfl (fun _value _staged => ih (turn + 1) world _ same)
        | unsupported =>
            rw [status] at same
            unfold stageResult
            rw [status]
            exact andThen_congr rfl (fun _value _staged => ih (turn + 1) world _ same)

/-- `reindex_note` sends the texts of its chunks, and nothing if there are none. -/
theorem storeParsed_congr {parsed : ParseResult}
    (same : (truncateChunks env parsed).chunks ≠ [] →
      embedder (chunkTexts (truncateChunks env parsed).chunks) =
        env.embedCorpus (chunkTexts (truncateChunks env parsed).chunks))
    (path : Text) (idAdded : Bool) :
    storeParsed (env.withEmbedder embedder) path idAdded parsed =
      storeParsed env path idAdded parsed := by
  have chunks : (truncateChunks (env.withEmbedder embedder) parsed).chunks =
      (truncateChunks env parsed).chunks := rfl
  unfold storeParsed
  dsimp only
  rw [chunks]
  by_cases empty : (truncateChunks env parsed).chunks = []
  · rw [if_pos (by simp [empty]), if_pos (by simp [empty])]
    rfl
  · rw [if_neg (by simp [empty]), if_neg (by simp [empty]), embedChunks_congr (same empty)]
    rfl

/-- The vectors of a daemon with these limits, as good as those of local models where the daemon
takes the request. -/
def Env.throughDaemon (env : Env) (server : DaemonServer) : Env :=
  env.withEmbedder (fun texts =>
    if server.embedRefusal texts = none then env.embedCorpus texts else none)

/-- A vault whose batches fit is staged through the daemon as it is with local models. -/
theorem stageBatches_throughDaemon {server : DaemonServer} {vault : Vault}
    (fits : BatchesFit env server vault) (surroundings : Surroundings)
    (schedule : Schedule Label OtherAction) (world : World) {arriving : List (Text × ParseResult)}
    (arrives : arriving.Perm (scanResults env vault)) :
    stageBatches (env.throughDaemon server) surroundings 0 arriving schedule (world, {}) =
      stageBatches env surroundings 0 arriving schedule (world, {}) := by
  apply stageBatches_congr
  intro texts sent
  have accepted := (embeds_accepted_iff env server vault).mpr fits texts
    (.rebuild arriving arrives surroundings.shutdownRequested sent)
  exact if_pos accepted

end

/-! ### A long document -/

/-- A daemon with the default settings. -/
def defaultDaemon : DaemonServer :=
  { maxRequestBytes := 2 * 1024 * 1024
    maxTexts := 512
    maxTextLength := 100000
    maxQueryLength := 10000
    healthState := .ready }

def onePage : PdfPage :=
  { native := "x".toList, ocr := none }

/-- Every PDF has 513 pages with a word on each. -/
def longDocuments : Env :=
  { Env.plain with openPdf := fun _file => .ok { title := [], pages := List.replicate 513 onePage } }

def pdfVault : Vault :=
  { files := [("book.pdf".toList, { text := [], mtime := 0 })]
    distinct := by decide
    normal := by decide }

def reindexBook : Call :=
  { path := "book.pdf".toList, now := 0, fresh := { uuid := [], mtime := 0 } }

theorem onePage_chunks (metadata : FileMetadata) (index : Nat) :
    (chunkAndCollect longDocuments.config (extractPageText longDocuments.config onePage)
      ("Page ".toList ++ (toString (index + 1)).toList) metadata [] {}).length = 1 := rfl

theorem length_flatMap_of_each {item result : Type} {items : List item} {make : item → List result}
    (each : ∀ one ∈ items, (make one).length = 1) : (items.flatMap make).length = items.length := by
  induction items with
  | nil => rfl
  | cons head tail ih =>
      rw [List.flatMap_cons, List.length_append, each head List.mem_cons_self,
        ih (fun one member => each one (List.mem_cons_of_mem _ member)), List.length_cons,
        Nat.add_comm]

theorem parsePdf_length (path : Text) (file : File) :
    ∃ chunks, parsePdf longDocuments path file = .ok chunks ∧ chunks.length = 513 := by
  refine ⟨_, rfl, ?_⟩
  rw [length_flatMap_of_each]
  · rw [List.length_zipIdx]
    exact List.length_replicate
  · intro page member
    have same : page.1 = onePage := List.eq_of_mem_replicate (List.fst_mem_of_mem_zipIdx member)
    dsimp only
    rw [same, if_neg (by decide)]
    exact onePage_chunks _ page.2

theorem book_length : (notePieces longDocuments pdfVault "book.pdf".toList).chunks.length = 513 := by
  obtain ⟨chunks, parsed, count⟩ := parsePdf_length "book.pdf".toList { text := [], mtime := 0 }
  have read : pdfVault.read "book.pdf".toList = some { text := [], mtime := 0 } := by decide
  have format : formatOf longDocuments "book.pdf".toList = some .pdf := by decide
  have result : (parsePath longDocuments pdfVault "book.pdf".toList).chunks = chunks := by
    unfold parsePath
    rw [read]
    dsimp only
    unfold parseFileResult
    rw [format]
    dsimp only
    unfold parseWith
    rw [parsed]
    rfl
  unfold notePieces truncateChunks
  dsimp only
  rw [result, List.length_take, count]
  decide

/-- With the default settings the chunks of one long document are refused. -/
theorem long_document_refused :
    ¬∀ (env : Env) (vault : Vault) (texts : List Text), env.config = {} →
      Embeds env vault texts → defaultDaemon.embedRefusal texts = none := by
  intro accepted
  have count : (reindexTexts longDocuments pdfVault reindexBook).length = 513 := by
    have unchanged : vaultWithId longDocuments reindexBook pdfVault = pdfVault :=
      if_neg (by decide)
    unfold reindexTexts
    rw [unchanged]
    unfold chunkTexts
    rw [List.length_map]
    exact book_length
  have filled : reindexTexts longDocuments pdfVault reindexBook ≠ [] := by
    intro empty
    rw [empty] at count
    cases count
  have inked := inked_chunkTexts (notePieces_inked longDocuments
    (vaultWithId longDocuments reindexBook pdfVault) reindexBook.path)
  have taken := accepted longDocuments pdfVault _ rfl
    (.reindex reindexBook (by decide) (by decide) filled)
  have fits := (defaultDaemon.embedRefusal_eq_none_iff filled inked).mp taken
  have few := fits.few
  rw [count] at few
  exact absurd few (by decide)

end VaultSearch
