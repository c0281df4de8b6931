/-
The data the program passes between its modules, under the names of `type_defs.py`,
and the environment it runs in: the settings and the third-party functions it calls.

A `Value` is what `yaml.safe_load` and `json.loads` build.  Objects whose printed
form the program never takes apart (floats, dates, bytes, sets) are `other`, with
their truth value and what `str` and `repr` give for them.
-/

import VaultSearch.Text.Basic
import VaultSearch.Sql.Filter

set_option autoImplicit false

namespace VaultSearch

/-! ### Values -/

/-- A mapping key; a key of another type is known only up to Python's equality. -/
inductive Key where
  | text (name : Text)
  | other (identity : Text)
  deriving DecidableEq

inductive Value where
  | null
  | bool (value : Bool)
  | int (value : Int)
  | str (value : Text)
  | list (items : List Value)
  | map (entries : List (Key × Value))
  /-- any other object: its truth value and its `str` and `repr`, if they do not raise -/
  | other (truthy : Bool) (printed : Option (Text × Text))

/-- A frontmatter dictionary in insertion order. -/
abbrev Mapping := List (Key × Value)

/-- `metadata.get(name)`, with `none` for a missing key. -/
def Mapping.get (entries : Mapping) (name : Text) : Option Value :=
  entries.lookup (.text name)

def Mapping.set (entries : Mapping) (key : Key) (value : Value) : Mapping :=
  if entries.any (fun entry => entry.1 = key) then
    entries.map (fun entry => if entry.1 = key then (key, value) else entry)
  else entries ++ [(key, value)]

/-- `{**entries, **updates}`: an updated key keeps its place, a new one goes last. -/
def Mapping.merge (entries updates : Mapping) : Mapping :=
  updates.foldl (fun merged entry => merged.set entry.1 entry.2) entries

/-- The exceptions the modelled code tells apart. -/
inductive PyError where
  | valueError
  | yamlError
  | typeError
  | recursionError
  | osError
  deriving DecidableEq

/-- A sequence of checks succeeds when each of them does. -/
theorem bind_ok {error value result : Type} {first : Except error value}
    {next : value → Except error result} {final : result} (done : first >>= next = .ok final) :
    ∃ middle, first = .ok middle ∧ next middle = .ok final := by
  cases first with
  | error => cases done
  | ok middle => exact ⟨middle, rfl, done⟩

/-! ### Records -/

inductive ParseStatus where
  | success
  | empty
  | error
  | unsupported
  deriving DecidableEq

inductive ReindexStatus where
  | updated
  | empty
  | deleted
  | parseError
  | errorAddFailed
  | rejectedPathTraversal
  | rejectedExtension
  | circuitBreakerOpen
  deriving DecidableEq

inductive FullReindexStatus where
  | completed
  | failed
  | interrupted
  deriving DecidableEq

/-- `FileMetadata` of `utils/metadata.py`. -/
structure FileMetadata where
  relativePath : Text
  folder : Text
  title : Text
  modifiedAt : Text
  deriving DecidableEq

structure ChunkRecord where
  notePath : Text
  noteTitle : Text
  folder : Text
  headers : Text
  tags : Text
  modifiedAt : Text
  text : Text
  id : Text
  createdAt : Text
  updatedAt : Text
  description : Text
  status : Text
  noteType : Text
  category : Text
  project : Text
  source : Text
  deriving DecidableEq

/-- The bit patterns of a list of `float32`. -/
abbrev Vector32 := List UInt32

structure ChunkWithVector extends ChunkRecord where
  vector : Vector32
  deriving DecidableEq

inductive LinkType where
  | wikilink
  | markdown
  | embed
  | external
  deriving DecidableEq

def LinkType.label : LinkType → Text
  | .wikilink => "wikilink".toList
  | .markdown => "markdown".toList
  | .embed => "embed".toList
  | .external => "external".toList

theorem LinkType.label_injective {left right : LinkType}
    (same : left.label = right.label) : left = right := by
  revert same
  cases left <;> cases right <;> decide

structure LinkRecord where
  fromNotePath : Text
  fromNoteTitle : Text
  linkType : LinkType
  linkTarget : Text
  linkTargetNormalized : Text
  toNotePath : Text
  isResolved : Bool
  aliasText : Text
  heading : Text
  blockRef : Text
  context : Text
  modifiedAt : Text
  deriving DecidableEq

structure AliasRecord where
  notePath : Text
  aliasText : Text
  aliasNormalized : Text
  deriving DecidableEq

structure ParseResult where
  status : ParseStatus
  chunks : List ChunkRecord := []
  links : List LinkRecord := []
  aliases : List Text := []
  errorType : Option PyError := none
  deriving DecidableEq

structure FullReindexStats where
  status : FullReindexStatus
  totalNotes : Nat
  totalChunks : Nat
  previousIndexPreserved : Bool := false
  parseErrors : Option Nat := none
  timedOut : Bool := false
  indicesSkipped : Bool := false
  totalLinks : Option Nat := none
  totalAliases : Option Nat := none
  deriving DecidableEq

structure ReindexResult where
  chunksIndexed : Nat
  status : ReindexStatus
  linksIndexed : Option Nat := none
  aliasesIndexed : Option Nat := none
  idAdded : Bool := false
  autoCompacted : Bool := false
  deriving DecidableEq

/-! ### The columns a filter can name -/

def ChunkWithVector.columns (row : ChunkWithVector) (name : Text) : Option Sql.Literal :=
  if name = "note_path".toList then some (.text row.notePath)
  else if name = "note_title".toList then some (.text row.noteTitle)
  else if name = "folder".toList then some (.text row.folder)
  else if name = "headers".toList then some (.text row.headers)
  else if name = "tags".toList then some (.text row.tags)
  else if name = "modified_at".toList then some (.text row.modifiedAt)
  else if name = "text".toList then some (.text row.text)
  else if name = "id".toList then some (.text row.id)
  else if name = "created_at".toList then some (.text row.createdAt)
  else if name = "updated_at".toList then some (.text row.updatedAt)
  else if name = "description".toList then some (.text row.description)
  else if name = "status".toList then some (.text row.status)
  else if name = "note_type".toList then some (.text row.noteType)
  else if name = "category".toList then some (.text row.category)
  else if name = "project".toList then some (.text row.project)
  else if name = "source".toList then some (.text row.source)
  else none

def LinkRecord.columns (row : LinkRecord) (name : Text) : Option Sql.Literal :=
  if name = "from_note_path".toList then some (.text row.fromNotePath)
  else if name = "from_note_title".toList then some (.text row.fromNoteTitle)
  else if name = "link_type".toList then some (.text row.linkType.label)
  else if name = "link_target".toList then some (.text row.linkTarget)
  else if name = "link_target_normalized".toList then some (.text row.linkTargetNormalized)
  else if name = "to_note_path".toList then some (.text row.toNotePath)
  else if name = "is_resolved".toList then some (.bool row.isResolved)
  else if name = "alias".toList then some (.text row.aliasText)
  else if name = "heading".toList then some (.text row.heading)
  else if name = "block_ref".toList then some (.text row.blockRef)
  else if name = "context".toList then some (.text row.context)
  else if name = "modified_at".toList then some (.text row.modifiedAt)
  else none

def AliasRecord.columns (row : AliasRecord) (name : Text) : Option Sql.Literal :=
  if name = "note_path".toList then some (.text row.notePath)
  else if name = "alias".toList then some (.text row.aliasText)
  else if name = "alias_normalized".toList then some (.text row.aliasNormalized)
  else none

/-! ### Settings and third-party code -/

/-- The settings the modelled code reads, with their defaults. -/
structure Config where
  /-- `VAULT_PATH.parts` -/
  vaultParts : List Text := ["/".toList, "vault".toList]
  /-- `get_optimal_batch_size()`, which depends on the memory that is free -/
  batchSize : Nat := 32
  maxChunksPerNote : Nat := 1000
  /-- `Field(ge=1)` -/
  maxChunksPositive : 1 ≤ maxChunksPerNote := by decide
  extensions : List Text :=
    [".md".toList, ".mdx".toList, ".txt".toList, ".pdf".toList, ".canvas".toList]
  ignoredFolders : List Text :=
    [".obsidian".toList, ".smart-env".toList, ".trash".toList, ".git".toList]
  chunkSize : Nat := 2000
  chunkOverlap : Nat := 200
  headerLevels : Nat := 4
  chunkSeparators : List Text := ["\n\n".toList, "\n".toList, ". ".toList, " ".toList]
  /-- `str.split` refuses an empty separator -/
  separatorsNonempty : ∀ separator ∈ chunkSeparators, separator ≠ [] := by decide
  maxContentSize : Nat := 10485760
  maxPathLength : Nat := 500
  maxFrontmatterKeys : Nat := 100
  ocrEnabled : Bool := true

/-- One page as PyMuPDF reads it; `ocr` is `none` when recognition is unavailable
or fails. -/
structure PdfPage where
  native : Text
  ocr : Option Text

structure PdfDocument where
  title : Text
  pages : List PdfPage

/-- The settings and the functions of other packages and of the Unicode and number
tables of the language. -/
structure Env where
  config : Config
  /-- `str.lower` -/
  lower : Text → Text
  /-- `repr` of a `str` -/
  reprText : Text → Text
  /-- the nesting depth at which `repr` raises `RecursionError` -/
  reprDepth : Nat
  /-- `yaml.safe_load`: a value, a `YAMLError` or a bare `ValueError` -/
  safeLoad : Text → Except PyError Value
  /-- `yaml.dump` with the options of `serialize_frontmatter` -/
  dump : Mapping → Text
  /-- the value a JSON text denotes -/
  json : Text → Option Value
  /-- the nesting depth at which `json.loads` raises `RecursionError` -/
  jsonDepth : Nat
  /-- `datetime.fromtimestamp(mtime).isoformat()` -/
  isoformat : Nat → Text
  /-- `pymupdf.open` -/
  openPdf : Text → Except PyError PdfDocument
  /-- `ModelManager.embed_corpus`, `none` when it raises -/
  embedCorpus : List Text → Option (List Vector32)

/-- The case table of ASCII and third-party functions that know nothing, for examples. -/
def Env.plain : Env :=
  { config := {}
    lower := List.map Char.toLower
    reprText := fun text => text
    reprDepth := 100
    safeLoad := fun _ => .error .yamlError
    dump := fun _ => []
    json := fun _ => none
    jsonDepth := 100
    isoformat := fun mtime => List.replicate mtime 'i'
    openPdf := fun _ => .error .valueError
    embedCorpus := fun texts => some (texts.map (fun _ => [])) }

/-- A file of the vault: its text before newline translation and its mtime. -/
structure File where
  text : Text
  mtime : Nat
  deriving DecidableEq

end VaultSearch
