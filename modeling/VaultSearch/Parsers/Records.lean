/-
What every parsed note puts into the index, whatever its format: its rows carry the path
of its file, its external links count as resolved, and among its other links a target is
recorded once for each link type, without a note it leads to.
-/

import VaultSearch.Parsers.Dispatch

set_option autoImplicit false

namespace VaultSearch

/-! ### Links -/

/-- An internal link may be resolved to a note. -/
def LinkRecord.internal (link : LinkRecord) : Bool :=
  link.linkType ≠ .external

/-- The links of one note as a parser gives them. -/
structure FreshLinks (path : Text) (links : List LinkRecord) : Prop where
  owner : ∀ link ∈ links, link.fromNotePath = path
  unresolved : ∀ link ∈ links, link.internal = true → link.isResolved = false ∧ link.toNotePath = []
  external : ∀ link ∈ links, link.internal = false → link.isResolved = true
  distinct : ((links.filter LinkRecord.internal).map
    (fun link => (link.linkType, link.linkTarget))).Nodup

theorem FreshLinks.append {path : Text} {left right : List LinkRecord}
    (first : FreshLinks path left) (second : FreshLinks path right)
    (apart : ∀ link ∈ left, ∀ other ∈ right, link.linkType ≠ other.linkType) :
    FreshLinks path (left ++ right) := by
  refine ⟨?_, ?_, ?_, ?_⟩
  · intro link member
    rcases List.mem_append.mp member with inLeft | inRight
    · exact first.owner link inLeft
    · exact second.owner link inRight
  · intro link member
    rcases List.mem_append.mp member with inLeft | inRight
    · exact first.unresolved link inLeft
    · exact second.unresolved link inRight
  · intro link member
    rcases List.mem_append.mp member with inLeft | inRight
    · exact first.external link inLeft
    · exact second.external link inRight
  · rw [List.filter_append, List.map_append]
    refine List.Nodup.append first.distinct second.distinct ?_
    intro key inLeft inRight
    obtain ⟨link, member, same⟩ := List.mem_map.mp inLeft
    obtain ⟨other, otherMember, otherSame⟩ := List.mem_map.mp inRight
    refine apart link (List.mem_filter.mp member).1 other (List.mem_filter.mp otherMember).1 ?_
    exact (Prod.mk.inj (same.trans otherSame.symm)).1

/-- The rows of one pass over the text. -/
structure PassRow (path : Text) (linkType : LinkType) (target : Text) (link : LinkRecord) : Prop where
  owner : link.fromNotePath = path
  type : link.linkType = linkType
  target : link.linkTarget = target
  unresolved : link.isResolved = false ∧ link.toNotePath = []

theorem freshLinks_pass {item : Type} {path : Text} {items : List item} {make : item → LinkRecord}
    {linkType : LinkType} {target : item → Text} (rows : ∀ entry, PassRow path linkType (target entry)
      (make entry)) (internal : linkType ≠ .external) (distinct : (items.map target).Nodup) :
    FreshLinks path (items.map make) := by
  have inside : ∀ link ∈ items.map make, link.internal = true := by
    intro link member
    obtain ⟨entry, _present, same⟩ := List.mem_map.mp member
    unfold LinkRecord.internal
    rw [← same, (rows entry).type]
    exact decide_eq_true internal
  refine ⟨?_, ?_, ?_, ?_⟩
  · intro link member
    obtain ⟨entry, _present, same⟩ := List.mem_map.mp member
    rw [← same]
    exact (rows entry).owner
  · intro link member _internal
    obtain ⟨entry, _present, same⟩ := List.mem_map.mp member
    rw [← same]
    exact (rows entry).unresolved
  · intro link member outside
    rw [inside link member] at outside
    cases outside
  · rw [List.filter_eq_self.mpr inside, List.map_map]
    have composed : items.map ((fun link => (link.linkType, link.linkTarget)) ∘ make) =
        (items.map target).map (fun text => (linkType, text)) := by
      rw [List.map_map]
      refine List.map_congr_left ?_
      intro entry _present
      show ((make entry).linkType, (make entry).linkTarget) = (linkType, target entry)
      rw [(rows entry).type, (rows entry).target]
    rw [composed]
    exact distinct.map (fun left right same => (Prod.mk.inj same).2)

theorem freshLinks_external (source : LinkSource) (items : List ExternalLinkInfo) :
    FreshLinks source.metadata.relativePath (items.map source.external) := by
  have outside : ∀ link ∈ items.map source.external, link.internal = false ∧
      link.fromNotePath = source.metadata.relativePath ∧ link.isResolved = true := by
    intro link member
    obtain ⟨entry, _present, same⟩ := List.mem_map.mp member
    rw [← same]
    exact ⟨rfl, rfl, rfl⟩
  refine ⟨fun link member => (outside link member).2.1, ?_,
    fun link member _outside => (outside link member).2.2, ?_⟩
  · intro link member internal
    rw [(outside link member).1] at internal
    cases internal
  · have none : (items.map source.external).filter LinkRecord.internal = [] := by
      rw [List.filter_eq_nil_iff]
      intro link member
      rw [(outside link member).1]
      decide
    rw [none]
    exact List.nodup_nil

theorem type_of_map {item : Type} {items : List item} {make : item → LinkRecord}
    {linkType : LinkType} (typed : ∀ entry, (make entry).linkType = linkType) :
    ∀ link ∈ items.map make, link.linkType = linkType := by
  intro link member
  obtain ⟨entry, _present, same⟩ := List.mem_map.mp member
  rw [← same]
  exact typed entry

section Passes

variable (env : Env) (source : LinkSource)

theorem wikilinks_fresh : FreshLinks source.metadata.relativePath
    ((extractAllLinks env source.body true).wikilinks.map (source.wikilink env)) :=
  freshLinks_pass (fun _ => ⟨rfl, rfl, rfl, rfl, rfl⟩) (by decide)
    (extractAllLinks_wikilinks_nodup env source.body true)

theorem markdownLinks_fresh : FreshLinks source.metadata.relativePath
    ((extractAllLinks env source.body true).markdownLinks.map (source.markdown env)) :=
  freshLinks_pass (fun _ => ⟨rfl, rfl, rfl, rfl, rfl⟩) (by decide)
    (extractAllLinks_markdownLinks_nodup env source.body true)

theorem embeds_fresh : FreshLinks source.metadata.relativePath
    ((extractAllLinks env source.body true).embeds.map (source.embed env)) :=
  freshLinks_pass (fun _ => ⟨rfl, rfl, rfl, rfl, rfl⟩) (by decide)
    (extractAllLinks_embeds_nodup env source.body true)

end Passes

/-- Rows of different passes differ in their link type. -/
theorem types_apart {left right : List LinkRecord} {first second : LinkType}
    (ofLeft : ∀ link ∈ left, link.linkType = first)
    (ofRight : ∀ link ∈ right, link.linkType = second) (different : first ≠ second) :
    ∀ link ∈ left, ∀ other ∈ right, link.linkType ≠ other.linkType := by
  intro link member other otherMember
  rw [ofLeft link member, ofRight other otherMember]
  exact different

theorem apart_append {left right last : List LinkRecord}
    (first : ∀ link ∈ left, ∀ other ∈ last, link.linkType ≠ other.linkType)
    (second : ∀ link ∈ right, ∀ other ∈ last, link.linkType ≠ other.linkType) :
    ∀ link ∈ left ++ right, ∀ other ∈ last, link.linkType ≠ other.linkType := by
  intro link member
  rcases List.mem_append.mp member with inLeft | inRight
  · exact first link inLeft
  · exact second link inRight

section Types

variable (env : Env) (source : LinkSource)

theorem wikilinks_type :
    ∀ link ∈ (extractAllLinks env source.body true).wikilinks.map (source.wikilink env),
      link.linkType = .wikilink :=
  type_of_map (fun _ => rfl)

theorem markdownLinks_type :
    ∀ link ∈ (extractAllLinks env source.body true).markdownLinks.map (source.markdown env),
      link.linkType = .markdown :=
  type_of_map (fun _ => rfl)

theorem embeds_type :
    ∀ link ∈ (extractAllLinks env source.body true).embeds.map (source.embed env),
      link.linkType = .embed :=
  type_of_map (fun _ => rfl)

theorem external_type :
    ∀ link ∈ (extractAllLinks env source.body true).external.map source.external,
      link.linkType = .external :=
  type_of_map (fun _ => rfl)

end Types

theorem noteLinks_fresh (env : Env) (source : LinkSource) :
    FreshLinks source.metadata.relativePath (noteLinks env source) := by
  have wikilinks := wikilinks_type env source
  have markdownLinks := markdownLinks_type env source
  have embeds := embeds_type env source
  have external := external_type env source
  have two := (wikilinks_fresh env source).append (markdownLinks_fresh env source)
    (types_apart wikilinks markdownLinks (by decide))
  have three := two.append (embeds_fresh env source)
    (apart_append (types_apart wikilinks embeds (by decide))
      (types_apart markdownLinks embeds (by decide)))
  exact three.append (freshLinks_external source _)
    (apart_append
      (apart_append (types_apart wikilinks external (by decide))
        (types_apart markdownLinks external (by decide)))
      (types_apart embeds external (by decide)))

theorem mdxLinks_fresh (env : Env) (source : LinkSource) :
    FreshLinks source.metadata.relativePath (mdxLinks env source) := by
  have wikilinks := wikilinks_type env source
  have markdownLinks := markdownLinks_type env source
  have external := external_type env source
  have two := (wikilinks_fresh env source).append (markdownLinks_fresh env source)
    (types_apart wikilinks markdownLinks (by decide))
  exact two.append (freshLinks_external source _)
    (apart_append (types_apart wikilinks external (by decide))
      (types_apart markdownLinks external (by decide)))

/-! ### Records -/

/-- The records of the note at `path`. -/
structure NoteRecords.Of (records : NoteRecords) (path : Text) : Prop where
  chunks : ∀ chunk ∈ records.chunks, chunk.notePath = PurePath.normalPath path
  links : FreshLinks (PurePath.normalPath path) records.links

theorem extractFileMetadata_relativePath (env : Env) (path : Text) (file : File) :
    (extractFileMetadata env path file).relativePath = PurePath.normalPath path := by
  unfold extractFileMetadata
  rfl

def titled (metadata : FileMetadata) (title : Text) : FileMetadata :=
  { metadata with title }

theorem titled_relativePath (metadata : FileMetadata) (title : Text) :
    (titled metadata title).relativePath = metadata.relativePath := by
  unfold titled
  rfl

/-- Under whatever title, all that is collected for a file with some tags has a property. -/
def CollectsOnly (env : Env) (metadata : FileMetadata) (tags : Text)
    (good : ChunkRecord → Prop) : Prop :=
  ∀ text headers title fields,
    ∀ chunk ∈ chunkAndCollect env.config text headers (titled metadata title) tags fields,
      good chunk

theorem collectsOnly_notePath (env : Env) (metadata : FileMetadata) (tags : Text) :
    CollectsOnly env metadata tags (fun chunk => chunk.notePath = metadata.relativePath) := by
  intro text headers title fields chunk member
  rw [chunkAndCollect_notePath _ _ _ _ _ _ chunk member, titled_relativePath]

theorem sectionChunks_forall {env : Env} {metadata : FileMetadata} {tags : List Text}
    {good : ChunkRecord → Prop}
    (collects : CollectsOnly env metadata (Text.join ", ".toList tags) good) (body title : Text)
    (fields : FrontmatterFields) :
    ∀ chunk ∈ sectionChunks env body (titled metadata title) tags fields, good chunk := by
  intro chunk member
  obtain ⟨part, _present, inside⟩ := List.mem_flatMap.mp member
  exact collects _ _ _ _ chunk inside

/-- The tags that a parser reads of a text. -/
def tagsRead (env : Env) (content : Text) : Except PyError (List Text) := do
  let (frontmatter, _) ← parseFrontmatter env content
  extractTags env frontmatter

/-- The rows of the two text parsers. -/
theorem textRecords_of (env : Env) (path : Text) (file : File) (title body : Text)
    (tags aliases : List Text) (fields : FrontmatterFields) (links : List LinkRecord)
    (fresh : FreshLinks (extractFileMetadata env path file).relativePath links) :
    NoteRecords.Of
      { chunks := sectionChunks env body (titled (extractFileMetadata env path file) title) tags
          fields
        links
        aliases } path := by
  rw [extractFileMetadata_relativePath] at fresh
  refine ⟨?_, fresh⟩
  intro chunk member
  dsimp only at member
  rw [sectionChunks_forall (collectsOnly_notePath env _ _) body title fields chunk member,
    extractFileMetadata_relativePath]

theorem parseNote_ok {env : Env} {path : Text} {file : File} {records : NoteRecords}
    (parsed : parseNote env path file = .ok records) : ∃ title body tags aliases fields,
      tagsRead env file.readText = .ok tags ∧ records =
        { chunks := sectionChunks env body (titled (extractFileMetadata env path file) title) tags
            fields
          links := noteLinks env ⟨extractFileMetadata env path file, title, body⟩
          aliases } := by
  unfold parseNote at parsed
  simp only [bind, Except.bind, pure, Except.pure] at parsed
  split at parsed
  · cases parsed
  case h_2 divided isDivided =>
    split at parsed
    · cases parsed
    case h_2 tags isTags =>
      have read : tagsRead env file.readText = .ok tags := by
        unfold tagsRead
        rw [isDivided]
        exact isTags
      split at parsed
      · cases parsed
      · split at parsed
        · cases parsed
        · split at parsed
          · cases parsed
          · exact ⟨_, _, _, _, _, read, (Except.ok.inj parsed).symm⟩

theorem parseMdx_ok {env : Env} {path : Text} {file : File} {records : NoteRecords}
    (parsed : parseMdx env path file = .ok records) : ∃ title body tags aliases fields,
      tagsRead env (cleanMdx file.readText) = .ok tags ∧ records =
        { chunks := sectionChunks env body (titled (extractFileMetadata env path file) title) tags
            fields
          links := mdxLinks env ⟨extractFileMetadata env path file, title, body⟩
          aliases } := by
  unfold parseMdx at parsed
  simp only [bind, Except.bind, pure, Except.pure] at parsed
  split at parsed
  · cases parsed
  case h_2 divided isDivided =>
    split at parsed
    · cases parsed
    case h_2 tags isTags =>
      have read : tagsRead env (cleanMdx file.readText) = .ok tags := by
        unfold tagsRead
        rw [isDivided]
        exact isTags
      split at parsed
      · cases parsed
      · split at parsed
        · cases parsed
        · split at parsed
          · cases parsed
          · exact ⟨_, _, _, _, _, read, (Except.ok.inj parsed).symm⟩

theorem parseNote_of {env : Env} {path : Text} {file : File} {records : NoteRecords}
    (parsed : parseNote env path file = .ok records) : records.Of path := by
  obtain ⟨title, body, tags, aliases, fields, _read, same⟩ := parseNote_ok parsed
  rw [same]
  exact textRecords_of env path file title body tags aliases fields _
    (noteLinks_fresh env ⟨_, title, body⟩)

theorem parseMdx_of {env : Env} {path : Text} {file : File} {records : NoteRecords}
    (parsed : parseMdx env path file = .ok records) : records.Of path := by
  obtain ⟨title, body, tags, aliases, fields, _read, same⟩ := parseMdx_ok parsed
  rw [same]
  exact textRecords_of env path file title body tags aliases fields _
    (mdxLinks_fresh env ⟨_, title, body⟩)

/-- A monadic loop that collects lists. -/
theorem mapM_forall {item : Type} {make : item → Except PyError (List ChunkRecord)}
    {good : ChunkRecord → Prop} {items : List item} {made : List (List ChunkRecord)}
    (each : ∀ entry ∈ items, ∀ chunks, make entry = .ok chunks → ∀ chunk ∈ chunks, good chunk)
    (collected : items.mapM make = .ok made) : ∀ chunk ∈ made.flatten, good chunk := by
  induction items generalizing made with
  | nil =>
      rw [List.mapM_nil] at collected
      rw [← Except.ok.inj collected]
      intro chunk member
      cases member
  | cons head tail ih =>
      rw [List.mapM_cons] at collected
      cases first : make head with
      | error error =>
          rw [first] at collected
          cases collected
      | ok chunks =>
          cases rest : tail.mapM make with
          | error error =>
              rw [first, rest] at collected
              cases collected
          | ok later =>
              rw [first, rest] at collected
              rw [← Except.ok.inj collected, List.flatten_cons]
              intro chunk member
              rcases List.mem_append.mp member with here | there
              · exact each head List.mem_cons_self chunks first chunk here
              · exact ih (fun entry inside => each entry (List.mem_cons_of_mem _ inside)) rest chunk
                  there

theorem canvasNode_forall {env : Env} {metadata : FileMetadata} {node : Value}
    {chunks : List ChunkRecord} {good : ChunkRecord → Prop}
    (collects : CollectsOnly env metadata [] good)
    (made : canvasNode env metadata node = .ok chunks) : ∀ chunk ∈ chunks, good chunk := by
  have empty : ∀ chunk ∈ ([] : List ChunkRecord), good chunk := by
    intro chunk member
    cases member
  unfold canvasNode at made
  simp only [bind, Except.bind, pure, Except.pure] at made
  split at made
  · split at made
    · split at made
      · cases made
      · split at made
        · rw [← Except.ok.inj made]
          exact empty
        · split at made
          · cases made
          · rw [← Except.ok.inj made]
            exact collects _ _ metadata.title _
    · split at made
      · split at made
        · cases made
        · split at made
          · rw [← Except.ok.inj made]
            exact empty
          · rw [← Except.ok.inj made]
            exact collects _ _ metadata.title _
      · rw [← Except.ok.inj made]
        exact empty
  · rw [← Except.ok.inj made]
    exact empty

theorem canvasEdge_forall {env : Env} {metadata : FileMetadata} {edge : Value}
    {chunks : List ChunkRecord} {good : ChunkRecord → Prop}
    (collects : CollectsOnly env metadata [] good)
    (made : canvasEdge env metadata edge = .ok chunks) : ∀ chunk ∈ chunks, good chunk := by
  have empty : ∀ chunk ∈ ([] : List ChunkRecord), good chunk := by
    intro chunk member
    cases member
  unfold canvasEdge at made
  simp only [bind, Except.bind, pure, Except.pure] at made
  split at made
  · split at made
    · cases made
    · split at made
      · rw [← Except.ok.inj made]
        exact empty
      · split at made
        · cases made
        · split at made
          · cases made
          · rw [← Except.ok.inj made]
            exact collects _ _ metadata.title _
  · rw [← Except.ok.inj made]
    exact empty

theorem parseCanvas_forall {env : Env} {path : Text} {file : File} {chunks : List ChunkRecord}
    {good : ChunkRecord → Prop}
    (collects : CollectsOnly env (extractFileMetadata env path file) [] good)
    (parsed : parseCanvas env path file = .ok chunks) : ∀ chunk ∈ chunks, good chunk := by
  unfold parseCanvas at parsed
  simp only [bind, Except.bind, pure, Except.pure] at parsed
  split at parsed
  · cases parsed
  · split at parsed
    · split at parsed
      · cases parsed
      · split at parsed
        · cases parsed
        case h_2 nodes nodesMade =>
          split at parsed
          · cases parsed
          · split at parsed
            · cases parsed
            case h_2 edges edgesMade =>
              rw [← Except.ok.inj parsed]
              intro chunk member
              rcases List.mem_append.mp member with inNodes | inEdges
              · exact mapM_forall (fun _ _ _ made => canvasNode_forall collects made) nodesMade
                  chunk inNodes
              · exact mapM_forall (fun _ _ _ made => canvasEdge_forall collects made) edgesMade
                  chunk inEdges
    · cases parsed

theorem parsePdf_forall {env : Env} {path : Text} {file : File} {chunks : List ChunkRecord}
    {good : ChunkRecord → Prop}
    (collects : CollectsOnly env (extractFileMetadata env path file) [] good)
    (parsed : parsePdf env path file = .ok chunks) : ∀ chunk ∈ chunks, good chunk := by
  unfold parsePdf at parsed
  simp only [bind, Except.bind, pure, Except.pure] at parsed
  split at parsed
  · cases parsed
  · rw [← Except.ok.inj parsed]
    intro chunk member
    obtain ⟨page, _present, inside⟩ := List.mem_flatMap.mp member
    split at inside
    · cases inside
    · split at inside
      · exact collects _ _ (extractFileMetadata env path file).title _ chunk inside
      · exact collects _ _ _ _ chunk inside

/-- The tags of a file in a format. -/
def Format.tags (env : Env) (file : File) : Format → List Text
  | .markdown => (tagsRead env file.readText).toOption.getD []
  | .mdx => (tagsRead env (cleanMdx file.readText)).toOption.getD []
  | .canvas => []
  | .pdf => []

/-- A file has only such chunks as can be collected for it. -/
theorem parseWith_forall {env : Env} {path : Text} {file : File} {format : Format}
    {records : NoteRecords} {good : ChunkRecord → Prop}
    (collects : CollectsOnly env (extractFileMetadata env path file)
      (Text.join ", ".toList (format.tags env file)) good)
    (parsed : parseWith env path file format = .ok records) :
    ∀ chunk ∈ records.chunks, good chunk := by
  cases format with
  | markdown =>
      unfold parseWith at parsed
      obtain ⟨title, body, tags, aliases, fields, read, same⟩ := parseNote_ok parsed
      rw [Format.tags, read] at collects
      rw [same]
      dsimp only
      exact sectionChunks_forall collects body title fields
  | mdx =>
      unfold parseWith at parsed
      obtain ⟨title, body, tags, aliases, fields, read, same⟩ := parseMdx_ok parsed
      rw [Format.tags, read] at collects
      rw [same]
      dsimp only
      exact sectionChunks_forall collects body title fields
  | canvas =>
      unfold parseWith at parsed
      cases made : parseCanvas env path file with
      | error error =>
          rw [made] at parsed
          cases parsed
      | ok chunks =>
          rw [made] at parsed
          rw [← Except.ok.inj parsed]
          exact parseCanvas_forall collects made
  | pdf =>
      unfold parseWith at parsed
      cases made : parsePdf env path file with
      | error error =>
          rw [made] at parsed
          cases parsed
      | ok chunks =>
          rw [made] at parsed
          rw [← Except.ok.inj parsed]
          exact parsePdf_forall collects made

/-- The own tags of a file. -/
def fileTags (env : Env) (path : Text) (file : File) : List Text :=
  ((formatOf env path).map (Format.tags env file)).getD []

theorem parseFileResult_forall {env : Env} {path : Text} {file : File}
    {good : ChunkRecord → Prop}
    (collects : CollectsOnly env (extractFileMetadata env path file)
      (Text.join ", ".toList (fileTags env path file)) good) :
    ∀ chunk ∈ (parseFileResult env path file).chunks, good chunk := by
  unfold parseFileResult
  unfold fileTags at collects
  cases isFormat : formatOf env path with
  | none => exact fun _chunk member => absurd member List.not_mem_nil
  | some format =>
      rw [isFormat] at collects
      dsimp only
      split
      · exact fun _chunk member => absurd member List.not_mem_nil
      case h_2 parsed => exact parseWith_forall collects parsed

theorem emptyLinks_fresh (path : Text) : FreshLinks path [] := by
  refine ⟨?_, ?_, ?_, List.nodup_nil⟩
  · intro link member
    cases member
  · intro link member
    cases member
  · intro link member
    cases member

theorem parseWith_of {env : Env} {path : Text} {file : File} {format : Format}
    {records : NoteRecords} (parsed : parseWith env path file format = .ok records) :
    records.Of path := by
  cases format with
  | markdown =>
      unfold parseWith at parsed
      exact parseNote_of parsed
  | mdx =>
      unfold parseWith at parsed
      exact parseMdx_of parsed
  | canvas =>
      unfold parseWith at parsed
      cases made : parseCanvas env path file with
      | error error =>
          rw [made] at parsed
          cases parsed
      | ok chunks =>
          rw [made] at parsed
          rw [← Except.ok.inj parsed]
          exact ⟨parseCanvas_forall (collectsOnly_notePath env _ _) made, emptyLinks_fresh _⟩
  | pdf =>
      unfold parseWith at parsed
      cases made : parsePdf env path file with
      | error error =>
          rw [made] at parsed
          cases parsed
      | ok chunks =>
          rw [made] at parsed
          rw [← Except.ok.inj parsed]
          exact ⟨parsePdf_forall (collectsOnly_notePath env _ _) made, emptyLinks_fresh _⟩

/-- Whatever the outcome, the rows of a parse are rows of the note. -/
theorem parseFileResult_of (env : Env) (path : Text) (file : File) :
    (∀ chunk ∈ (parseFileResult env path file).chunks,
      chunk.notePath = PurePath.normalPath path) ∧
    FreshLinks (PurePath.normalPath path) (parseFileResult env path file).links := by
  unfold parseFileResult
  split
  · exact ⟨(fun _ member => by cases member), emptyLinks_fresh _⟩
  · split
    · exact ⟨(fun _ member => by cases member), emptyLinks_fresh _⟩
    case h_2 parsed =>
      have made := parseWith_of parsed
      exact ⟨made.chunks, made.links⟩

end VaultSearch
