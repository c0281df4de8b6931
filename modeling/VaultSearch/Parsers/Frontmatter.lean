/-
The YAML frontmatter of a note: `parsers/frontmatter.py`.

`parseFrontmatter` looks for the first two delimiter lines of the whole content,
`readFrontmatterOnly` looks for them in a buffer that grows by one read at a time.
Of the exceptions of `yaml.safe_load` both catch `YAMLError` only.
-/

import VaultSearch.Regex.Basic
import VaultSearch.Core.Chunker
import VaultSearch.Utils.Printing

set_option autoImplicit false

namespace VaultSearch

def frontmatterMaxBytes : Nat :=
  64 * 1024

def frontmatterChunkSize : Nat :=
  4 * 1024

/-- `^---\s*$` in multiline mode. -/
def frontmatterRe : Regex :=
  .seq .lineStart (.seq (.literal "---".toList) (.seq (.star .space) .lineEnd))

/-- `content.lstrip("\ufeff")`. -/
def stripBom (content : Text) : Text :=
  content.dropWhile (· == '\ufeff')

/-- The text between the first two delimiter lines and the text behind them, when only
whitespace stands in front of the first. -/
def frontmatterSplit (content : Text) : Option (Text × Text) :=
  match frontmatterRe.finditer content with
  | first :: second :: _ =>
      if first.start != 0 && !(Text.isBlank (content.take first.start)) then none
      else some ((content.take second.start).drop first.stop, content.drop second.stop)
  | _ => none

/-- `yaml.safe_load(yaml_text) or {}`, reduced to a mapping; `none` for a value of
another type. -/
def Value.asMetadata (value : Value) : Option Mapping :=
  if value.truthy then
    match value with
    | .map entries => some entries
    | _ => none
  else some []

def parseFrontmatter (env : Env) (content : Text) : Except PyError (Mapping × Text) :=
  let content := stripBom content
  match frontmatterSplit content with
  | none => .ok ([], content)
  | some (yamlText, after) =>
      let body := Text.strip after
      match env.safeLoad yamlText with
      | .error .yamlError => .ok ([], body)
      | .error error => .error error
      | .ok value =>
          match value.asMetadata with
          | none => .ok ([], body)
          | some metadata => .ok (metadata, body)

/-! ### Extractors -/

def extractTags (env : Env) (metadata : Mapping) : Except PyError (List Text) :=
  match metadata.get "tags".toList with
  | some (.str tags) =>
      .ok (((Text.split ",".toList tags).map Text.strip).filter (fun tag => !tag.isEmpty))
  | some (.list tags) =>
      (printAll env tags).map (fun shown =>
        (shown.map Text.strip).filter (fun tag => !tag.isEmpty))
  | _ => .ok []

/-- The first truthy value of `a or b or c`. -/
def firstTruthy (metadata : Mapping) (names : List Text) : Option Value :=
  (names.filterMap metadata.get).find? Value.truthy

/-- `str(value)` of a value that may be missing. -/
def printOptional (env : Env) : Option Value → Except PyError Text
  | none => .ok []
  | some value => pyStr env value

/-- A field kept only when it is a `str`. -/
def textField (convert : Text → Text) : Option Value → Text
  | some (.str value) => convert value
  | _ => []

def categoryText (env : Env) : Option Value → Except PyError Text
  | none => .ok []
  | some (.list items) =>
      (printAll env (items.filter Value.truthy)).map (fun shown =>
        env.lower (Text.join ", ".toList (shown.map Text.strip)))
  | some (.str value) => .ok (env.lower (Text.strip value))
  | some value => (pyStr env value).map env.lower

def extractFrontmatterFields (env : Env) (metadata : Mapping) :
    Except PyError FrontmatterFields := do
  let id ← printOptional env (firstTruthy metadata ["id".toList])
  let created ← printOptional env
    (firstTruthy metadata ["created_at".toList, "created".toList, "date".toList])
  let updated ← printOptional env
    (firstTruthy metadata ["updated_at".toList, "updated".toList, "modified".toList])
  let category ← categoryText env
    (firstTruthy metadata ["category".toList, "categories".toList])
  return {
    id
    createdAt := created.take 19
    updatedAt := updated.take 19
    description := textField (fun value => value.take 500)
      (firstTruthy metadata ["description".toList, "summary".toList, "excerpt".toList])
    status := textField (fun value => Text.strip (env.lower value))
      (firstTruthy metadata ["status".toList])
    noteType := textField (fun value => Text.strip (env.lower value))
      (firstTruthy metadata ["note_type".toList, "type".toList])
    category
    project := textField Text.strip (firstTruthy metadata ["project".toList])
    source := textField (fun value => (Text.strip value).take 500)
      (firstTruthy metadata ["source".toList, "url".toList, "link".toList]) }

/-! ### The reader that stops at the closing delimiter -/

/-- The texts that successive `f.read(size)` calls return; the fuel is the length. -/
def readChunks (size : Nat) : Nat → Text → List Text
  | 0, _ => []
  | fuel + 1, text =>
      if text.isEmpty then []
      else text.take size :: readChunks size fuel (text.drop size)

def utf8Length (text : Text) : Nat :=
  (text.map Char.utf8Size).sum

/-- One pass of the loop of `read_frontmatter_only` over the buffer read so far: the
result when the loop ends here, `none` when it reads on. -/
def scanBuffer (env : Env) (buffer : Text) (bytesRead : Nat) :
    Option (Except PyError (Mapping × Nat)) :=
  match frontmatterRe.finditer buffer with
  | first :: second :: _ =>
      if first.start != 0 && !(Text.isBlank (buffer.take first.start)) then
        some (.ok ([], bytesRead))
      else
        match env.safeLoad ((buffer.take second.start).drop first.stop) with
        | .error .yamlError => some (.ok ([], bytesRead))
        | .error error => some (.error error)
        | .ok value => some (.ok (value.asMetadata.getD [], bytesRead))
  | _ => if frontmatterMaxBytes ≤ bytesRead then some (.ok ([], bytesRead)) else none

def readLoop (env : Env) (buffer : Text) (bytesRead : Nat) :
    List Text → Except PyError (Mapping × Nat)
  | [] => (scanBuffer env buffer bytesRead).getD (.ok ([], bytesRead))
  | chunk :: rest =>
      match scanBuffer env buffer bytesRead with
      | some result => result
      | none => readLoop env (buffer ++ chunk) (bytesRead + utf8Length chunk) rest

/-- `read_frontmatter_only` on a readable file with this text. -/
def readFrontmatterOnly (env : Env) (text : Text) : Except PyError (Mapping × Nat) :=
  match readChunks frontmatterChunkSize text.length text with
  | [] => .ok ([], 0)
  | chunk :: rest =>
      let buffer := stripBom chunk
      let bytesRead := utf8Length chunk
      if Text.startsWith (Text.lstrip buffer) "---".toList then
        readLoop env buffer bytesRead rest
      else .ok ([], bytesRead)

example : (frontmatterSplit "---\ntitle: x\n---\n\nBody".toList) =
    some ("\ntitle: x\n".toList, "\nBody".toList) := by decide

end VaultSearch
