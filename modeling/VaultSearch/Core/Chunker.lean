/-
Splitting of text into overlapping chunks (`core/chunker.py`) and their collection as
records (`utils/chunking.py`).

The hierarchical split recurses over the list of separators, so it ends when the
separators do, with hard cuts.
-/

import VaultSearch.Types

set_option autoImplicit false

namespace VaultSearch

/-! ### Hierarchical splitting -/

/-- Cuts of `chunkSize` characters; the fuel is the length of the text. -/
def hardCuts (chunkSize : Nat) : Nat → Text → List Text
  | 0, _ => []
  | fuel + 1, text =>
      if text.isEmpty then []
      else text.take chunkSize :: hardCuts chunkSize fuel (text.drop chunkSize)

/-- Group consecutive parts as long as they fit together; `current` is the group that
is still open. -/
def groupParts (chunkSize : Nat) (separator : Text) : Text → List Text → List Text
  | current, [] => if current.isEmpty then [] else [current]
  | current, part :: rest =>
      let candidate := if current.isEmpty then part else current ++ separator ++ part
      if candidate.length ≤ chunkSize then groupParts chunkSize separator candidate rest
      else if current.isEmpty then groupParts chunkSize separator part rest
      else current :: groupParts chunkSize separator part rest

def chunkWithSeparators (chunkSize : Nat) : List Text → Text → List Text
  | [], text =>
      if text.length ≤ chunkSize then [text] else hardCuts chunkSize text.length text
  | separator :: separators, text =>
      if text.length ≤ chunkSize then [text]
      else
        let parts := Text.split separator text
        if parts.length ≤ 1 then chunkWithSeparators chunkSize separators text
        else
          (groupParts chunkSize separator [] parts).flatMap (fun chunk =>
            if chunkSize < chunk.length then chunkWithSeparators chunkSize separators chunk
            else [chunk])

/-- The last `overlap` characters, cut back to a word boundary when there is one. -/
def getOverlapPrefix (text : Text) (overlap : Nat) : Text :=
  if text.length ≤ overlap then text
  else
    let candidate := text.drop (text.length - overlap)
    match Text.find " ".toList candidate with
    | none => candidate
    | some space =>
        if 0 < space && space + 1 < candidate.length then candidate.drop (space + 1)
        else candidate

/-- Prefix every chunk but the first with the end of the chunk before it. -/
def overlapFrom (chunkSize overlap : Nat) : Text → List Text → List Text
  | _, [] => []
  | previous, chunk :: rest =>
      let overlapPrefix := getOverlapPrefix previous overlap
      let maxPrefix := chunkSize - chunk.length
      let kept :=
        if maxPrefix < overlapPrefix.length then
          overlapPrefix.drop (overlapPrefix.length - maxPrefix)
        else overlapPrefix
      (kept ++ chunk) :: overlapFrom chunkSize overlap chunk rest

def chunkText (separators : List Text) (text : Text) (chunkSize overlap : Nat) : List Text :=
  if text.length ≤ chunkSize then [text]
  else
    match chunkWithSeparators chunkSize separators text with
    | first :: second :: rest =>
        if 0 < overlap then first :: overlapFrom chunkSize overlap first (second :: rest)
        else first :: second :: rest
    | chunks => chunks

/-! ### Chunk records -/

/-- The structured frontmatter fields of `extract_frontmatter_fields`; an absent field
is empty. -/
structure FrontmatterFields where
  id : Text := []
  createdAt : Text := []
  updatedAt : Text := []
  description : Text := []
  status : Text := []
  noteType : Text := []
  category : Text := []
  project : Text := []
  source : Text := []

def makeChunk (text headers : Text) (metadata : FileMetadata) (tags : Text)
    (fields : FrontmatterFields) : ChunkRecord :=
  { notePath := metadata.relativePath
    noteTitle := metadata.title
    folder := metadata.folder
    headers
    tags
    modifiedAt := metadata.modifiedAt
    text
    id := fields.id
    createdAt := fields.createdAt
    updatedAt := fields.updatedAt
    description := fields.description
    status := fields.status
    noteType := fields.noteType
    category := fields.category
    project := fields.project
    source := fields.source }

def chunkAndCollect (config : Config) (text headers : Text) (metadata : FileMetadata)
    (tags : Text) (fields : FrontmatterFields) : List ChunkRecord :=
  (chunkText config.chunkSeparators text config.chunkSize config.chunkOverlap).filterMap
    (fun part =>
      if (Text.strip part).isEmpty then none
      else some (makeChunk (Text.strip part) headers metadata tags fields))

/-- Every collected chunk carries the path of the file it was cut from. -/
theorem chunkAndCollect_notePath (config : Config) (text headers : Text)
    (metadata : FileMetadata) (tags : Text) (fields : FrontmatterFields) :
    ∀ chunk ∈ chunkAndCollect config text headers metadata tags fields,
      chunk.notePath = metadata.relativePath := by
  intro chunk member
  obtain ⟨part, _present, made⟩ := List.mem_filterMap.mp member
  split at made
  · cases made
  · rw [← Option.some.inj made]
    rfl

end VaultSearch
