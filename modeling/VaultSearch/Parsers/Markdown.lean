/-
Markdown and MDX notes as chunks, link rows and aliases: `parsers/markdown.py` and
`parsers/mdx.py`.

The two parsers share the sections, the link rows and the aliases.  MDX is cleaned of
JSX first, records no embeds, and prints a leading `None` of a title list where
Markdown falls back to the file name.
-/

import VaultSearch.Core.Chunker
import VaultSearch.Parsers.Frontmatter
import VaultSearch.Utils.Links

set_option autoImplicit false

namespace VaultSearch

/-! ### Sections -/

structure HeaderSection where
  headers : List Text
  content : Text

/-- `^(#{1,levels})\s+(.+)$` in multiline mode. -/
def headerRe (levels : Nat) : Regex :=
  .seq .lineStart (.seq (.group 1 (.oneTo (.chars (· == '#')) levels))
    (.seq (.plus .space) (.seq (.group 2 (.plus .dot)) .lineEnd)))

structure SectionScan where
  /-- the open headings with their levels, outermost first -/
  current : List (Nat × Text) := []
  lastEnd : Nat := 0
  sections : List HeaderSection := []

def SectionScan.close (scan : SectionScan) (content : Text) : List HeaderSection :=
  if (Text.strip content).isEmpty then scan.sections
  else scan.sections ++ [{ headers := scan.current.map (·.2), content := Text.strip content }]

/-- A heading closes the section before it and opens its own, heading line included. -/
def SectionScan.heading (body : Text) (scan : SectionScan) (found : Regex.Match) : SectionScan :=
  let sections :=
    if scan.lastEnd < found.start then scan.close ((body.take found.start).drop scan.lastEnd)
    else scan.sections
  let level := (found.groupText 1).length
  let title := Text.strip (found.groupText 2)
  { current := scan.current.filter (fun entry => entry.1 < level) ++ [(level, title)]
    lastEnd := found.start
    sections }

def splitByHeaders (levels : Nat) (body : Text) : List HeaderSection :=
  let scan := ((headerRe levels).finditer body).foldl (SectionScan.heading body) {}
  let sections := scan.close (body.drop scan.lastEnd)
  if sections.isEmpty && !(Text.strip body).isEmpty then
    [{ headers := [], content := Text.strip body }]
  else sections

/-! ### Metadata -/

/-- `extract_file_metadata` of the file at a vault-relative path. -/
def extractFileMetadata (env : Env) (path : Text) (file : File) : FileMetadata :=
  { relativePath := PurePath.normalPath path
    folder := PurePath.folder path
    title := PurePath.stem path
    modifiedAt := env.isoformat file.mtime }

/-- `note_path.read_text(encoding="utf-8", errors="replace")`. -/
def File.readText (file : File) : Text :=
  Text.universalNewlines file.text

def extractAliases (env : Env) (metadata : Mapping) : Except PyError (List Text) := do
  let listed ← match metadata.get "aliases".toList with
    | some (.str aliases) =>
        .ok (((Text.split ",".toList aliases).map Text.strip).filter (fun name => !name.isEmpty))
    | some (.list aliases) => printAll env (aliases.filter Value.truthy)
    | _ => .ok []
  let single ← match firstTruthy metadata ["alias".toList] with
    | some (.str name) => .ok [name]
    | some (.list names) => printAll env (names.filter Value.truthy)
    | _ => .ok []
  return listed ++ single

/-- The title of a Markdown note: the frontmatter title or the file name. -/
def noteTitle (env : Env) (metadata : Mapping) (fallback : Text) : Except PyError Text :=
  match metadata.get "title".toList with
  | none => .ok fallback
  | some .null => .ok fallback
  | some (.list (.null :: _)) => .ok fallback
  | some (.list (first :: _)) => pyStr env first
  | some value => pyStr env value

def mdxTitle (env : Env) (metadata : Mapping) (fallback : Text) : Except PyError Text :=
  match metadata.get "title".toList with
  | none => .ok fallback
  | some .null => .ok fallback
  | some (.list (first :: _)) => pyStr env first
  | some value => pyStr env value

/-! ### Link rows -/

/-- The fields every row of one note shares. -/
structure LinkSource where
  metadata : FileMetadata
  title : Text
  body : Text

def LinkSource.row (source : LinkSource) (linkType : LinkType) (target normalized raw : Text) :
    LinkRecord :=
  { fromNotePath := source.metadata.relativePath
    fromNoteTitle := source.title
    linkType
    linkTarget := target
    linkTargetNormalized := normalized
    toNotePath := []
    isResolved := false
    aliasText := []
    heading := []
    blockRef := []
    context := extractLinkContext source.body raw
    modifiedAt := source.metadata.modifiedAt }

def LinkSource.wikilink (env : Env) (source : LinkSource) (link : WikilinkInfo) : LinkRecord :=
  { source.row .wikilink link.target (normalizeLinkTarget env link.target) link.raw with
    aliasText := link.aliasText.getD []
    heading := link.heading.getD []
    blockRef := link.blockRef.getD [] }

def LinkSource.markdown (env : Env) (source : LinkSource) (link : MarkdownLinkInfo) : LinkRecord :=
  source.row .markdown link.target (normalizeLinkTarget env link.target) link.raw

def LinkSource.embed (env : Env) (source : LinkSource) (link : EmbedInfo) : LinkRecord :=
  source.row .embed link.target (normalizeLinkTarget env link.target) link.raw

/-- External URLs are not normalized and count as resolved. -/
def LinkSource.external (source : LinkSource) (link : ExternalLinkInfo) : LinkRecord :=
  { source.row .external link.url [] link.raw with isResolved := true }

def noteLinks (env : Env) (source : LinkSource) : List LinkRecord :=
  let links := extractAllLinks env source.body true
  links.wikilinks.map (source.wikilink env) ++ links.markdownLinks.map (source.markdown env) ++
    links.embeds.map (source.embed env) ++ links.external.map source.external

def mdxLinks (env : Env) (source : LinkSource) : List LinkRecord :=
  let links := extractAllLinks env source.body true
  links.wikilinks.map (source.wikilink env) ++ links.markdownLinks.map (source.markdown env) ++
    links.external.map source.external

/-! ### The two parsers -/

/-- Chunks, links and aliases of one file. -/
structure NoteRecords where
  chunks : List ChunkRecord
  links : List LinkRecord
  aliases : List Text

def sectionChunks (env : Env) (body : Text) (metadata : FileMetadata) (tags : List Text)
    (fields : FrontmatterFields) : List ChunkRecord :=
  (splitByHeaders env.config.headerLevels body).flatMap (fun part =>
    chunkAndCollect env.config part.content (Text.join " > ".toList part.headers) metadata
      (Text.join ", ".toList tags) fields)

def parseNote (env : Env) (path : Text) (file : File) : Except PyError NoteRecords := do
  let metadata := extractFileMetadata env path file
  let (frontmatter, body) ← parseFrontmatter env file.readText
  let tags ← extractTags env frontmatter
  let fields ← extractFrontmatterFields env frontmatter
  let aliases ← extractAliases env frontmatter
  let title ← noteTitle env frontmatter metadata.title
  return {
    chunks := sectionChunks env body { metadata with title } tags fields
    links := noteLinks env { metadata, title, body }
    aliases }

/-- `^import\s+.+$` -/
def importPattern : Regex :=
  .seq .lineStart (.seq (.literal "import".toList)
    (.seq (.plus .space) (.seq (.plus .dot) .lineEnd)))

/-- `^export\s+(?:default\s+)?(?:const\s+|let\s+|var\s+|function\s+|class\s+)?.+$` -/
def exportPattern : Regex :=
  let keyword := fun (name : Text) => Regex.seq (.literal name) (.plus .space)
  .seq .lineStart (.seq (keyword "export".toList) (.seq (.opt (keyword "default".toList))
    (.seq (.opt (.anyOf (["const".toList, "let".toList, "var".toList, "function".toList,
      "class".toList].map keyword))) (.seq (.plus .dot) .lineEnd))))

/-- `[A-Z][a-zA-Z0-9]*` -/
def componentName : Regex :=
  .seq (.chars Char.isUpper) (.star (.chars Char.isAlphanum))

/-- `<[A-Z][a-zA-Z0-9]*(?:\s+[^>]*)?\s*/>` -/
def jsxSelfClosing : Regex :=
  .seq (.literal "<".toList) (.seq componentName
    (.seq (.opt (.seq (.plus .space) (.star (.noneOf ['>']))))
      (.seq (.star .space) (.literal "/>".toList))))

/-- `<([A-Z][a-zA-Z0-9]*)[^>]*>[\s\S]*?</\1>` -/
def jsxBlock : Regex :=
  .seq (.literal "<".toList) (.seq (.group 1 componentName) (.seq (.star (.noneOf ['>']))
    (.seq (.literal ">".toList) (.seq (.lazyStar (.chars (fun _ => true)))
      (.seq (.literal "</".toList) (.seq (.backref 1) (.literal ">".toList)))))))

/-- Remove matches until the length no longer changes; the fuel exceeds the length. -/
def removeUntilStable (regex : Regex) : Nat → Text → Text
  | 0, content => content
  | fuel + 1, content =>
      let cleaned := regex.remove content
      if cleaned.length = content.length then cleaned else removeUntilStable regex fuel cleaned

def cleanMdx (content : Text) : Text :=
  let content := jsxSelfClosing.remove (exportPattern.remove (importPattern.remove content))
  removeUntilStable jsxBlock (content.length + 1) content

def parseMdx (env : Env) (path : Text) (file : File) : Except PyError NoteRecords := do
  let metadata := extractFileMetadata env path file
  let (frontmatter, body) ← parseFrontmatter env (cleanMdx file.readText)
  let tags ← extractTags env frontmatter
  let fields ← extractFrontmatterFields env frontmatter
  let aliases ← extractAliases env frontmatter
  let title ← mdxTitle env frontmatter metadata.title
  return {
    chunks := sectionChunks env body { metadata with title } tags fields
    links := mdxLinks env { metadata, title, body }
    aliases }

end VaultSearch
