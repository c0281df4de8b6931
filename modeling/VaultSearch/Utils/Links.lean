/-
Extraction of links from Markdown text and normalization of their targets:
`utils/links.py`.

The extractor runs four passes over the text and keeps the first occurrence of each
target.  What the index relies on is that a target is recorded once per link type.
-/

import Mathlib.Data.List.Nodup
import VaultSearch.Regex.Basic
import VaultSearch.Types
import VaultSearch.Utils.Paths

set_option autoImplicit false

namespace VaultSearch

/-! ### Targets -/

def strippedExtensions : List Text :=
  [".md".toList, ".canvas".toList, ".pdf".toList, ".png".toList, ".jpg".toList,
    ".jpeg".toList, ".gif".toList, ".svg".toList, ".webp".toList]

def dropKnownExtension (target : Text) : Text :=
  match strippedExtensions.find? (fun extension => Text.endsWith target extension) with
  | none => target
  | some extension => target.take (target.length - extension.length)

def normalizeLinkTarget (env : Env) (target : Text) : Text :=
  Text.replaceChar ' ' "-".toList (dropKnownExtension (Text.strip (env.lower target)))

structure WikilinkParts where
  target : Text
  aliasText : Option Text
  heading : Option Text
  blockRef : Option Text

/-- The part in front of a separator and the stripped part behind it, if not blank. -/
def splitPart (separator : Char) (working : Text) : Text × Option Text :=
  match Text.cut separator working with
  | none => (working, none)
  | some (front, back) =>
      (front, if (Text.strip back).isEmpty then none else some (Text.strip back))

def parseWikilinkParts (wikilink : Text) : WikilinkParts :=
  let (working, aliasText) := splitPart '|' wikilink
  let (working, blockRef) := splitPart '^' working
  let (working, heading) := splitPart '#' working
  { target := if (Text.strip working).isEmpty then wikilink else Text.strip working
    aliasText
    heading
    blockRef }

/-! ### Patterns -/

/-- `(?<!!)\[\[([^\]]+)\]\]` -/
def wikilinkFullPattern : Regex :=
  .seq (.notBehind (· == '!')) (.seq (.literal "[[".toList)
    (.seq (.group 1 (.plus (.noneOf [']']))) (.literal "]]".toList)))

/-- `!\[\[([^\]]+)\]\]` -/
def embedFullPattern : Regex :=
  .seq (.literal "![[".toList)
    (.seq (.group 1 (.plus (.noneOf [']']))) (.literal "]]".toList))

/-- `\[([^\]]+)\]\(([^)]+)\)` -/
def mdLinkPattern : Regex :=
  .seq (.literal "[".toList) (.seq (.group 1 (.plus (.noneOf [']'])))
    (.seq (.literal "](".toList) (.seq (.group 2 (.plus (.noneOf [')']))) (.literal ")".toList))))

/-- `(?<![(\[])(https?://[^\s\)>\]\"\']+)` -/
def bareUrlPattern : Regex :=
  .seq (.notBehind (fun char => char == '(' || char == '['))
    (.group 1 (.seq (.literal "http".toList) (.seq (.opt (.literal "s".toList))
      (.seq (.literal "://".toList) (.plus (.chars (fun char =>
        !(Text.isSpace char || [')', '>', ']', '"', '\''].contains char))))))))

/-! ### The four passes -/

structure WikilinkInfo extends WikilinkParts where
  raw : Text

structure EmbedInfo where
  raw : Text
  target : Text

structure MarkdownLinkInfo where
  raw : Text
  text : Text
  target : Text

structure ExternalLinkInfo where
  raw : Text
  url : Text
  text : Option Text

structure ExtractedLinks where
  wikilinks : List WikilinkInfo := []
  markdownLinks : List MarkdownLinkInfo := []
  embeds : List EmbedInfo := []
  external : List ExternalLinkInfo := []

/-- The items whose key is not empty and not the key of an earlier item; `seen` holds
the keys so far. -/
def keepFirst {item : Type} (key : item → Text) : List Text → List item → List item
  | _, [] => []
  | seen, head :: tail =>
      if (key head).isEmpty || seen.contains (key head) then keepFirst key seen tail
      else head :: keepFirst key (key head :: seen) tail

def wikilinkOf (found : Regex.Match) : WikilinkInfo :=
  { parseWikilinkParts (found.groupText 1) with raw := found.text }

/-- Embeds may carry a size behind a bar; only the target is kept. -/
def embedOf (found : Regex.Match) : EmbedInfo :=
  { raw := found.text, target := Text.strip (splitPart '|' (found.groupText 1)).1 }

/-- The state of the two passes that share `seen_md_links`. -/
structure MarkdownScan where
  seen : List Text := []
  internal : List MarkdownLinkInfo := []
  external : List ExternalLinkInfo := []

def externalPrefixes : List Text :=
  ["http://".toList, "https://".toList, "mailto:".toList, "tel:".toList, "ftp://".toList]

def MarkdownScan.addExternal (scan : MarkdownScan) (link : ExternalLinkInfo) : MarkdownScan :=
  if scan.seen.contains link.url then scan
  else { scan with seen := link.url :: scan.seen, external := scan.external ++ [link] }

def MarkdownScan.addInternal (env : Env) (scan : MarkdownScan) (link : MarkdownLinkInfo) :
    MarkdownScan :=
  if link.target.isEmpty || scan.seen.contains (env.lower link.target) then scan
  else { scan with
    seen := env.lower link.target :: scan.seen
    internal := scan.internal ++ [link] }

def MarkdownScan.markdownLink (env : Env) (includeExternal : Bool) (scan : MarkdownScan)
    (found : Regex.Match) : MarkdownScan :=
  let href := Text.strip (found.groupText 2)
  if externalPrefixes.any (Text.startsWith href) then
    if includeExternal then
      scan.addExternal { raw := found.text, url := href, text := some (found.groupText 1) }
    else scan
  else
    scan.addInternal env
      { raw := found.text
        text := found.groupText 1
        target := Text.strip (splitPart '#' href).1 }

def MarkdownScan.bareUrl (scan : MarkdownScan) (found : Regex.Match) : MarkdownScan :=
  let url := found.groupText 1
  scan.addExternal { raw := url, url, text := none }

def extractAllLinks (env : Env) (text : Text) (includeExternal : Bool) : ExtractedLinks :=
  if text.isEmpty then {}
  else
    let markdown := (mdLinkPattern.finditer text).foldl
      (MarkdownScan.markdownLink env includeExternal) {}
    let scan :=
      if includeExternal then (bareUrlPattern.finditer text).foldl MarkdownScan.bareUrl markdown
      else markdown
    { wikilinks := keepFirst (fun link => env.lower link.target) []
        ((wikilinkFullPattern.finditer text).map wikilinkOf)
      embeds := keepFirst (fun link => env.lower link.target) []
        ((embedFullPattern.finditer text).map embedOf)
      markdownLinks := scan.internal
      external := scan.external }

/-- `extract_link_context(content, link_text)` with its default window of 50. -/
def extractLinkContext (content linkText : Text) : Text :=
  match Text.find linkText content with
  | none => []
  | some index =>
      let start := index - 50
      let stop := min content.length (index + linkText.length + 50)
      let context := Text.strip ((content.take stop).drop start)
      let context := if 0 < start then "...".toList ++ context else context
      let context := if stop < content.length then context ++ "...".toList else context
      Text.join " ".toList (Text.words context)

/-! ### Targets are recorded once -/

theorem keepFirst_fresh {item : Type} (key : item → Text) (items : List item) :
    ∀ seen, ∀ kept ∈ keepFirst key seen items, key kept ∉ seen := by
  induction items with
  | nil =>
      intro seen kept member
      cases member
  | cons head tail ih =>
      intro seen kept member
      by_cases skipped : ((key head).isEmpty || seen.contains (key head)) = true
      · rw [keepFirst, if_pos skipped] at member
        exact ih seen kept member
      · rw [keepFirst, if_neg skipped] at member
        rcases List.mem_cons.mp member with same | later
        · subst same
          intro present
          exact skipped (by simp [present])
        · intro present
          exact ih _ kept later (List.mem_cons_of_mem _ present)

theorem keepFirst_keys_nodup {item : Type} (key : item → Text) (items : List item) :
    ∀ seen, ((keepFirst key seen items).map key).Nodup := by
  induction items with
  | nil =>
      intro seen
      exact List.nodup_nil
  | cons head tail ih =>
      intro seen
      by_cases skipped : ((key head).isEmpty || seen.contains (key head)) = true
      · rw [keepFirst, if_pos skipped]
        exact ih seen
      · rw [keepFirst, if_neg skipped, List.map_cons, List.nodup_cons]
        refine ⟨?_, ih _⟩
        intro present
        obtain ⟨kept, member, same⟩ := List.mem_map.mp present
        exact keepFirst_fresh key tail _ kept member (by rw [same]; exact List.mem_cons_self)

/-- Distinct images have distinct sources. -/
theorem nodup_of_map_nodup {item : Type} (items : List item) (project : item → Text)
    (fold : Text → Text) (distinct : (items.map (fun entry => fold (project entry))).Nodup) :
    (items.map project).Nodup := by
  have composed : items.map (fun entry => fold (project entry)) =
      (items.map project).map fold := by
    rw [List.map_map]
    rfl
  rw [composed] at distinct
  exact List.Nodup.of_map fold distinct

/-- The internal targets are distinct up to case and all of them have been seen. -/
def MarkdownScan.Distinct (env : Env) (scan : MarkdownScan) : Prop :=
  (scan.internal.map (fun link => env.lower link.target)).Nodup ∧
    ∀ link ∈ scan.internal, env.lower link.target ∈ scan.seen

theorem MarkdownScan.addExternal_distinct (env : Env) (scan : MarkdownScan)
    (link : ExternalLinkInfo) (distinct : scan.Distinct env) :
    (scan.addExternal link).Distinct env := by
  unfold MarkdownScan.addExternal
  split
  · exact distinct
  · exact ⟨distinct.1, fun other member =>
      List.mem_cons_of_mem _ (distinct.2 other member)⟩

theorem MarkdownScan.addInternal_distinct (env : Env) (scan : MarkdownScan)
    (link : MarkdownLinkInfo) (distinct : scan.Distinct env) :
    (scan.addInternal env link).Distinct env := by
  unfold MarkdownScan.addInternal
  split
  · exact distinct
  · rename_i fresh
    have unseen : env.lower link.target ∉ scan.seen := by
      intro present
      exact fresh (by simp [present])
    refine ⟨?_, ?_⟩
    · simp only [List.map_append, List.map_cons, List.map_nil]
      refine List.Nodup.append distinct.1 (List.nodup_singleton _) ?_
      intro target inside same
      obtain ⟨other, member, shape⟩ := List.mem_map.mp inside
      rw [List.mem_singleton.mp same] at shape
      exact unseen (shape ▸ distinct.2 other member)
    · intro other member
      rcases List.mem_append.mp member with earlier | last
      · exact List.mem_cons_of_mem _ (distinct.2 other earlier)
      · rw [List.mem_singleton.mp last]
        exact List.mem_cons_self

theorem MarkdownScan.markdownLink_distinct (env : Env) (includeExternal : Bool)
    (scan : MarkdownScan) (found : Regex.Match) (distinct : scan.Distinct env) :
    (scan.markdownLink env includeExternal found).Distinct env := by
  simp only [MarkdownScan.markdownLink]
  split
  · split
    · exact scan.addExternal_distinct env _ distinct
    · exact distinct
  · exact scan.addInternal_distinct env _ distinct

theorem foldl_distinct (env : Env) (step : MarkdownScan → Regex.Match → MarkdownScan)
    (keeps : ∀ scan found, scan.Distinct env → (step scan found).Distinct env)
    (found : List Regex.Match) :
    ∀ scan : MarkdownScan, scan.Distinct env → (found.foldl step scan).Distinct env := by
  induction found with
  | nil =>
      intro scan distinct
      exact distinct
  | cons head tail ih =>
      intro scan distinct
      exact ih _ (keeps scan head distinct)

theorem extractAllLinks_wikilinks_nodup (env : Env) (text : Text) (includeExternal : Bool) :
    ((extractAllLinks env text includeExternal).wikilinks.map (fun link => link.target)).Nodup := by
  unfold extractAllLinks
  split
  · exact List.nodup_nil
  · exact nodup_of_map_nodup _ _ env.lower (keepFirst_keys_nodup _ _ _)

theorem extractAllLinks_embeds_nodup (env : Env) (text : Text) (includeExternal : Bool) :
    ((extractAllLinks env text includeExternal).embeds.map (fun link => link.target)).Nodup := by
  unfold extractAllLinks
  split
  · exact List.nodup_nil
  · exact nodup_of_map_nodup _ _ env.lower (keepFirst_keys_nodup _ _ _)

theorem extractAllLinks_markdownLinks_nodup (env : Env) (text : Text) (includeExternal : Bool) :
    ((extractAllLinks env text includeExternal).markdownLinks.map
      (fun link => link.target)).Nodup := by
  unfold extractAllLinks
  split
  · exact List.nodup_nil
  · have start : MarkdownScan.Distinct env {} := ⟨List.nodup_nil, by intro link member; cases member⟩
    have markdown := foldl_distinct env (MarkdownScan.markdownLink env includeExternal)
      (MarkdownScan.markdownLink_distinct env includeExternal) (mdLinkPattern.finditer text) {} start
    refine nodup_of_map_nodup _ _ env.lower ?_
    simp only
    split
    · exact (foldl_distinct env MarkdownScan.bareUrl
        (fun scan found => scan.addExternal_distinct env _) _ _ markdown).1
    · exact markdown.1

end VaultSearch
