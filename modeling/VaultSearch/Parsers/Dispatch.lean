/-
Canvas and PDF files and the dispatch by extension: `parsers/canvas.py`,
`parsers/pdf.py` and `parse_file_result`.
-/

import VaultSearch.Parsers.Markdown

set_option autoImplicit false

namespace VaultSearch

/-! ### Canvas -/

mutual

/-- An integer too long for `int()` occurs in the value. -/
def Value.hasLongInt : Value → Bool
  | .int value => intPrintLimit ≤ value.natAbs
  | .list items => itemsLongInt items
  | .map entries => entriesLongInt entries
  | _ => false

def itemsLongInt : List Value → Bool
  | [] => false
  | head :: tail => head.hasLongInt || itemsLongInt tail

def entriesLongInt : Mapping → Bool
  | [] => false
  | (_, value) :: tail => value.hasLongInt || entriesLongInt tail

end

/-- `json.loads`: a text that is not JSON and an integer of more than 4300 digits raise
`ValueError`, too deep a nesting raises `RecursionError`. -/
def jsonLoads (env : Env) (text : Text) : Except PyError Value :=
  match env.json text with
  | none => .error .valueError
  | some value =>
      if value.hasLongInt then .error .valueError
      else if value.depth ≤ env.jsonDepth then .ok value
      else .error .recursionError

def Key.asValue : Key → Value
  | .text name => .str name
  | .other identity => .other true (some (identity, identity))

/-- The values a `for` loop over `data.get(name, [])` visits. -/
def iterate : Option Value → Except PyError (List Value)
  | none => .ok []
  | some (.list items) => .ok items
  | some (.map entries) => .ok (entries.map (fun entry => entry.1.asValue))
  | some (.str text) => .ok (text.map (fun char => .str [char]))
  | some _ => .error .typeError

/-- `str(raw).strip() if raw else ""`. -/
def strippedText (env : Env) : Option Value → Except PyError Text
  | none => .ok []
  | some raw => if raw.truthy then (pyStr env raw).map Text.strip else .ok []

/-- `str(node.get(name, "?"))`. -/
def printOr (env : Env) (entries : Mapping) (name : Text) : Except PyError Text :=
  match entries.get name with
  | none => .ok "?".toList
  | some value => pyStr env value

/-- `node.get("type") == name`. -/
def hasType (entries : Mapping) (name : Text) : Bool :=
  match entries.get "type".toList with
  | some (.str found) => found = name
  | _ => false

def canvasNode (env : Env) (metadata : FileMetadata) : Value → Except PyError (List ChunkRecord)
  | .map node =>
      if hasType node "text".toList then do
        let text ← strippedText env (Mapping.get node "text".toList)
        if text.isEmpty then return []
        let nodeId ← printOr env node "id".toList
        return chunkAndCollect env.config text ("Text node: ".toList ++ nodeId) metadata [] {}
      else if hasType node "group".toList then do
        let label ← strippedText env (Mapping.get node "label".toList)
        if label.isEmpty then return []
        return chunkAndCollect env.config label ("Group: ".toList ++ label) metadata [] {}
      else .ok []
  | _ => .ok []

def canvasEdge (env : Env) (metadata : FileMetadata) : Value → Except PyError (List ChunkRecord)
  | .map edge => do
      let label ← strippedText env (Mapping.get edge "label".toList)
      if label.isEmpty then return []
      let fromNode ← printOr env edge "fromNode".toList
      let toNode ← printOr env edge "toNode".toList
      return chunkAndCollect env.config label
        ("Edge: ".toList ++ fromNode ++ " → ".toList ++ toNode) metadata [] {}
  | _ => .ok []

def parseCanvas (env : Env) (path : Text) (file : File) : Except PyError (List ChunkRecord) := do
  let metadata := extractFileMetadata env path file
  match ← jsonLoads env file.readText with
  | .map data =>
      let nodes ← iterate (Mapping.get data "nodes".toList)
      let nodeChunks ← nodes.mapM (canvasNode env metadata)
      let edges ← iterate (Mapping.get data "edges".toList)
      let edgeChunks ← edges.mapM (canvasEdge env metadata)
      return nodeChunks.flatten ++ edgeChunks.flatten
  | _ => .error .valueError

/-! ### PDF -/

def extractPageText (config : Config) (page : PdfPage) : Text :=
  let text := Text.strip page.native
  if !text.isEmpty then text
  else if config.ocrEnabled then (page.ocr.map Text.strip).getD []
  else []

def parsePdf (env : Env) (path : Text) (file : File) : Except PyError (List ChunkRecord) := do
  let metadata := extractFileMetadata env path file
  let document ← env.openPdf file.text
  let title := Text.strip document.title
  let metadata := if title.isEmpty then metadata else { metadata with title }
  return document.pages.zipIdx.flatMap (fun (page, index) =>
    let text := extractPageText env.config page
    if text.isEmpty then []
    else chunkAndCollect env.config text ("Page ".toList ++ (toString (index + 1)).toList)
      metadata [] {})

/-! ### Dispatch -/

inductive Format where
  | markdown
  | mdx
  | canvas
  | pdf
  deriving DecidableEq

/-- The parser chosen for `file_path.suffix.lower()`. -/
def formatOf (env : Env) (path : Text) : Option Format :=
  let extension := env.lower (PurePath.suffix path)
  if extension = ".md".toList || extension = ".txt".toList then some .markdown
  else if extension = ".mdx".toList then some .mdx
  else if extension = ".canvas".toList then some .canvas
  else if extension = ".pdf".toList then some .pdf
  else none

def parseWith (env : Env) (path : Text) (file : File) : Format → Except PyError NoteRecords
  | .markdown => parseNote env path file
  | .mdx => parseMdx env path file
  | .canvas =>
      (parseCanvas env path file).map (fun chunks => { chunks, links := [], aliases := [] })
  | .pdf => (parsePdf env path file).map (fun chunks => { chunks, links := [], aliases := [] })

def parseFileResult (env : Env) (path : Text) (file : File) : ParseResult :=
  match formatOf env path with
  | none => { status := .unsupported }
  | some format =>
      match parseWith env path file format with
      | .error error => { status := .error, errorType := some error }
      | .ok records =>
          { status := if records.chunks.isEmpty then .empty else .success
            chunks := records.chunks
            links := records.links
            aliases := records.aliases }

end VaultSearch
