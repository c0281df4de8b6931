/-
Where `parse_mdx` and `parse_note` give the same records for a text that `clean_mdx` leaves
as it is.

Up to the title both run the same stages.  They part over the embeds, which only
`parse_note` records, and over a title list that starts with `None`.
-/

import VaultSearch.Parsers.Records

set_option autoImplicit false

namespace VaultSearch

/-! ### The shared stages -/

/-- What both parsers read of a text; the title is the one of `parse_note`. -/
structure NoteParts where
  frontmatter : Mapping
  body : Text
  tags : List Text
  fields : FrontmatterFields
  aliases : List Text
  title : Text

def noteParts (env : Env) (content stem : Text) : Except PyError NoteParts := do
  let (frontmatter, body) ← parseFrontmatter env content
  let tags ← extractTags env frontmatter
  let fields ← extractFrontmatterFields env frontmatter
  let aliases ← extractAliases env frontmatter
  let title ← noteTitle env frontmatter stem
  return { frontmatter, body, tags, fields, aliases, title }

/-- `title: [null, ...]`. -/
def nullTitle (metadata : Mapping) : Bool :=
  match metadata.get "title".toList with
  | some (.list (.null :: _)) => true
  | _ => false

def NoteParts.mdxTitle (parts : NoteParts) : Text :=
  if nullTitle parts.frontmatter then "None".toList else parts.title

def NoteParts.chunks (env : Env) (parts : NoteParts) (metadata : FileMetadata) (title : Text) :
    List ChunkRecord :=
  sectionChunks env parts.body (titled metadata title) parts.tags parts.fields

def NoteParts.noteRecords (env : Env) (parts : NoteParts) (metadata : FileMetadata) :
    NoteRecords :=
  { chunks := parts.chunks env metadata parts.title
    links := noteLinks env { metadata, title := parts.title, body := parts.body }
    aliases := parts.aliases }

def NoteParts.mdxRecords (env : Env) (parts : NoteParts) (metadata : FileMetadata) :
    NoteRecords :=
  { chunks := parts.chunks env metadata parts.mdxTitle
    links := mdxLinks env { metadata, title := parts.mdxTitle, body := parts.body }
    aliases := parts.aliases }

theorem pyStr_null (env : Env) : pyStr env .null = .ok "None".toList := by
  unfold pyStr
  exact if_pos (Nat.zero_le _)

theorem mdxTitle_null (env : Env) (metadata : Mapping) (stem : Text)
    (missing : nullTitle metadata = true) :
    mdxTitle env metadata stem = .ok "None".toList ∧ noteTitle env metadata stem = .ok stem := by
  unfold nullTitle at missing
  split at missing
  · rename_i rest found
    unfold mdxTitle noteTitle
    rw [found]
    exact ⟨pyStr_null env, rfl⟩
  · cases missing

theorem mdxTitle_named (env : Env) (metadata : Mapping) (stem : Text)
    (named : nullTitle metadata = false) :
    mdxTitle env metadata stem = noteTitle env metadata stem := by
  unfold nullTitle at named
  split at named
  · cases named
  · rename_i other
    unfold mdxTitle noteTitle
    cases found : metadata.get "title".toList with
    | none => rfl
    | some value =>
        cases value with
        | list items =>
            cases items with
            | nil => rfl
            | cons first rest =>
                cases first with
                | null => exact absurd found (other rest)
                | _ => rfl
        | _ => rfl

theorem parseNote_eq (env : Env) (path : Text) (file : File) :
    parseNote env path file =
      (noteParts env file.readText (extractFileMetadata env path file).title).map
        (fun parts => parts.noteRecords env (extractFileMetadata env path file)) := by
  unfold parseNote noteParts
  cases parseFrontmatter env file.readText with
  | error error => rfl
  | ok divided =>
      simp only [bind, Except.bind]
      cases extractTags env divided.1 with
      | error error => rfl
      | ok tags =>
          cases extractFrontmatterFields env divided.1 with
          | error error => rfl
          | ok fields =>
              cases extractAliases env divided.1 with
              | error error => rfl
              | ok aliases =>
                  dsimp only
                  cases noteTitle env divided.1 (extractFileMetadata env path file).title with
                  | error error => rfl
                  | ok title => rfl

theorem parseMdx_eq (env : Env) (path : Text) (file : File)
    (clean : cleanMdx file.readText = file.readText) :
    parseMdx env path file =
      (noteParts env file.readText (extractFileMetadata env path file).title).map
        (fun parts => parts.mdxRecords env (extractFileMetadata env path file)) := by
  unfold parseMdx noteParts
  rw [clean]
  cases parseFrontmatter env file.readText with
  | error error => rfl
  | ok divided =>
      simp only [bind, Except.bind]
      cases extractTags env divided.1 with
      | error error => rfl
      | ok tags =>
          cases extractFrontmatterFields env divided.1 with
          | error error => rfl
          | ok fields =>
              cases extractAliases env divided.1 with
              | error error => rfl
              | ok aliases =>
                  dsimp only
                  cases missing : nullTitle divided.1 with
                  | true =>
                      have titles := mdxTitle_null env divided.1
                        (extractFileMetadata env path file).title missing
                      rw [titles.1, titles.2]
                      simp [NoteParts.mdxRecords, NoteParts.mdxTitle, missing, pure, Except.pure,
                        Except.map, NoteParts.chunks, titled]
                  | false =>
                      rw [mdxTitle_named env divided.1 _ missing]
                      cases noteTitle env divided.1 (extractFileMetadata env path file).title with
                      | error error => rfl
                      | ok title =>
                          simp [NoteParts.mdxRecords, NoteParts.mdxTitle, missing, pure,
                            Except.pure, Except.map, NoteParts.chunks, titled]

theorem noteParts_title (env : Env) (content stem : Text) (parts : NoteParts)
    (read : noteParts env content stem = .ok parts) :
    noteTitle env parts.frontmatter stem = .ok parts.title := by
  unfold noteParts at read
  simp only [bind, Except.bind, pure, Except.pure] at read
  split at read
  · cases read
  · split at read
    · cases read
    · split at read
      · cases read
      · split at read
        · cases read
        · split at read
          · cases read
          · rename_i title named
            rw [← Except.ok.inj read]
            exact named

/-! ### Rows that carry the title -/

/-- No chunk and no link row would carry the title. -/
structure NoteParts.Untitled (env : Env) (parts : NoteParts) : Prop where
  chunks : ∀ part ∈ splitByHeaders env.config.headerLevels parts.body,
    ∀ piece ∈ chunkText env.config.chunkSeparators part.content env.config.chunkSize
      env.config.chunkOverlap, Text.strip piece = []
  wikilinks : (extractAllLinks env parts.body true).wikilinks = []
  markdownLinks : (extractAllLinks env parts.body true).markdownLinks = []
  external : (extractAllLinks env parts.body true).external = []

theorem sectionChunks_noteTitle (env : Env) (body : Text) (metadata : FileMetadata)
    (tags : List Text) (fields : FrontmatterFields) :
    ∀ chunk ∈ sectionChunks env body metadata tags fields, chunk.noteTitle = metadata.title := by
  intro chunk member
  obtain ⟨part, _present, inside⟩ := List.mem_flatMap.mp member
  obtain ⟨piece, _piece, made⟩ := List.mem_filterMap.mp inside
  split at made
  · cases made
  · rw [← Option.some.inj made]
    rfl

theorem sectionChunks_nil_iff (env : Env) (body : Text) (metadata : FileMetadata)
    (tags : List Text) (fields : FrontmatterFields) :
    sectionChunks env body metadata tags fields = [] ↔
      ∀ part ∈ splitByHeaders env.config.headerLevels body,
        ∀ piece ∈ chunkText env.config.chunkSeparators part.content env.config.chunkSize
          env.config.chunkOverlap, Text.strip piece = [] := by
  unfold sectionChunks chunkAndCollect
  simp [List.flatMap_eq_nil_iff, List.filterMap_eq_nil_iff]

/-- Two lists of rows with one title each are equal only if the titles are, or both are
empty. -/
theorem title_of_rows {row : Type} {shown : row → Text} {left right : List row} {first second : Text}
    (lefts : ∀ entry ∈ left, shown entry = first) (rights : ∀ entry ∈ right, shown entry = second)
    (same : left = right) : left = [] ∨ first = second := by
  cases left with
  | nil => exact Or.inl rfl
  | cons head tail =>
      right
      rw [← lefts head List.mem_cons_self]
      apply rights head
      rw [← same]
      exact List.mem_cons_self

theorem mdxLinks_title (env : Env) (source : LinkSource) :
    ∀ link ∈ mdxLinks env source, link.fromNoteTitle = source.title := by
  intro link member
  unfold mdxLinks at member
  simp only [List.mem_append, List.mem_map] at member
  obtain (⟨_found, _present, rfl⟩ | ⟨_found, _present, rfl⟩) | ⟨_found, _present, rfl⟩ := member
  · rfl
  · rfl
  · rfl

theorem mdxLinks_nil_iff (env : Env) (source : LinkSource) :
    mdxLinks env source = [] ↔
      (extractAllLinks env source.body true).wikilinks = [] ∧
        (extractAllLinks env source.body true).markdownLinks = [] ∧
          (extractAllLinks env source.body true).external = [] := by
  unfold mdxLinks
  simp

theorem noteLinks_of_no_embeds (env : Env) (source : LinkSource)
    (none : (extractAllLinks env source.body true).embeds = []) :
    noteLinks env source = mdxLinks env source := by
  unfold noteLinks mdxLinks
  simp [none]

/-- Both parsers give a row for each of the other links, whatever the title. -/
theorem embeds_nil_of_links (env : Env) (metadata : FileMetadata) (body first second : Text)
    (same : mdxLinks env ⟨metadata, first, body⟩ = noteLinks env ⟨metadata, second, body⟩) :
    (extractAllLinks env body true).embeds = [] := by
  have counted := congrArg List.length same
  unfold mdxLinks noteLinks at counted
  simp only [List.length_append, List.length_map] at counted
  apply List.length_eq_zero_iff.mp
  omega

/-! ### Agreement -/

/-- The text has no embed, and the missing title makes no difference. -/
structure NoteParts.Agree (env : Env) (parts : NoteParts) (stem : Text) : Prop where
  embeds : (extractAllLinks env parts.body true).embeds = []
  title : nullTitle parts.frontmatter = true → stem = "None".toList ∨ parts.Untitled env

theorem NoteParts.records_eq_iff (env : Env) (parts : NoteParts) (metadata : FileMetadata) :
    parts.mdxRecords env metadata = parts.noteRecords env metadata ↔
      (extractAllLinks env parts.body true).embeds = [] ∧
        (parts.mdxTitle = parts.title ∨ parts.Untitled env) := by
  constructor
  · intro same
    have chunks := congrArg NoteRecords.chunks same
    have links := congrArg NoteRecords.links same
    have none := embeds_nil_of_links env metadata parts.body _ _ links
    apply And.intro none
    dsimp only [mdxRecords, noteRecords] at chunks links
    rw [noteLinks_of_no_embeds env _ none] at links
    rcases title_of_rows (sectionChunks_noteTitle env _ _ _ _)
        (sectionChunks_noteTitle env _ _ _ _) chunks with noChunks | sameTitle
    · rcases title_of_rows (mdxLinks_title env _) (mdxLinks_title env _) links with
        noLinks | sameTitle
      · right
        have absent := (mdxLinks_nil_iff env _).mp noLinks
        exact
          { chunks := (sectionChunks_nil_iff env _ _ _ _).mp noChunks
            wikilinks := absent.1
            markdownLinks := absent.2.1
            external := absent.2.2 }
      · exact Or.inl sameTitle
    · exact Or.inl sameTitle
  · intro agree
    unfold mdxRecords noteRecords
    rw [noteLinks_of_no_embeds env _ agree.1]
    rcases agree.2 with sameTitle | untitled
    · rw [sameTitle]
    · have noChunks := fun title : Text =>
        (sectionChunks_nil_iff env parts.body (titled metadata title) parts.tags parts.fields).mpr
          untitled.chunks
      have noLinks := fun title : Text => (mdxLinks_nil_iff env ⟨metadata, title, parts.body⟩).mpr
        ⟨untitled.wikilinks, untitled.markdownLinks, untitled.external⟩
      unfold chunks
      rw [noChunks, noChunks, noLinks, noLinks]

theorem NoteParts.agree_iff {env : Env} {content stem : Text} {parts : NoteParts}
    (read : noteParts env content stem = .ok parts) (metadata : FileMetadata) :
    parts.mdxRecords env metadata = parts.noteRecords env metadata ↔ parts.Agree env stem := by
  have named := noteParts_title env content stem parts read
  apply (parts.records_eq_iff env metadata).trans
  constructor
  · rintro ⟨none, title⟩
    apply NoteParts.Agree.mk none
    intro missing
    have fallback := (mdxTitle_null env parts.frontmatter stem missing).2
    rw [named] at fallback
    rw [NoteParts.mdxTitle, if_pos missing, Except.ok.inj fallback] at title
    exact title.imp_left Eq.symm
  · intro agree
    apply And.intro agree.embeds
    cases missing : nullTitle parts.frontmatter with
    | true =>
        have fallback := (mdxTitle_null env parts.frontmatter stem missing).2
        rw [named] at fallback
        rw [NoteParts.mdxTitle, if_pos missing, Except.ok.inj fallback]
        exact (agree.title missing).imp_left Eq.symm
    | false =>
        left
        rw [NoteParts.mdxTitle, missing]
        rfl

/-- An MDX file and a Markdown file with the same metadata and the same text, which has
nothing to clean, give the same records, or fail alike, exactly when every part they read
agrees. -/
theorem parseMdx_agrees_iff (env : Env) (notePath mdxPath : Text) (note mdx : File)
    (sameMetadata : extractFileMetadata env mdxPath mdx = extractFileMetadata env notePath note)
    (sameText : mdx.readText = note.readText) (clean : cleanMdx note.readText = note.readText) :
    parseMdx env mdxPath mdx = parseNote env notePath note ↔
      ∀ parts, noteParts env note.readText (PurePath.stem notePath) = .ok parts →
        parts.Agree env (PurePath.stem notePath) := by
  rw [← sameText] at clean
  rw [parseMdx_eq env mdxPath mdx clean, parseNote_eq, sameMetadata, sameText]
  have stem : (extractFileMetadata env notePath note).title = PurePath.stem notePath := rfl
  rw [stem]
  cases read : noteParts env note.readText (PurePath.stem notePath) with
  | error error =>
      constructor
      · intro _same parts impossible
        cases impossible
      · intro _agree
        simp only [Except.map]
  | ok parts =>
      constructor
      · intro same other found
        rw [← Except.ok.inj found]
        exact (NoteParts.agree_iff read _).mp (Except.ok.inj same)
      · intro agree
        exact congrArg Except.ok ((NoteParts.agree_iff read _).mpr (agree parts rfl))

def linkFile : File :=
  { text := "[[hub]]".toList, mtime := 0 }

/-- A text without embeds under either parser. -/
theorem parseMdx_agrees_plain :
    parseMdx Env.plain "n.mdx".toList linkFile = parseNote Env.plain "n.mdx".toList linkFile := by
  apply (parseMdx_agrees_iff Env.plain "n.mdx".toList "n.mdx".toList linkFile linkFile rfl rfl
    (by decide)).mpr
  intro parts read
  have body : parts.body = "[[hub]]".toList := by
    cases read
    rfl
  have named : nullTitle parts.frontmatter = false := by
    cases read
    rfl
  constructor
  · rw [body]
    rfl
  · intro missing
    rw [named] at missing
    cases missing

/-- `![[x]]` is a link row of a Markdown note only. -/
def embedFile : File :=
  { text := "![[x]]".toList, mtime := 0 }

theorem parseMdx_drops_embed :
    cleanMdx embedFile.readText = embedFile.readText ∧
      (parseNote Env.plain "n.mdx".toList embedFile).map (fun records => records.links.length) =
        .ok 1 ∧
      (parseMdx Env.plain "n.mdx".toList embedFile).map (fun records => records.links.length) =
        .ok 0 ∧
      ¬ ∀ (env : Env) (path : Text) (file : File), cleanMdx file.readText = file.readText →
        parseMdx env path file = parseNote env path file := by
  have clean : cleanMdx embedFile.readText = embedFile.readText := by decide
  have note : (parseNote Env.plain "n.mdx".toList embedFile).map
      (fun records => records.links.length) = .ok 1 := rfl
  have mdx : (parseMdx Env.plain "n.mdx".toList embedFile).map
      (fun records => records.links.length) = .ok 0 := rfl
  apply And.intro clean
  apply And.intro note
  apply And.intro mdx
  intro agree
  rw [agree Env.plain "n.mdx".toList embedFile clean, note] at mdx
  cases mdx

end VaultSearch
