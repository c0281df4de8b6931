/-
The frontmatter reader of `parsers/frontmatter.py` beside the parser of the same module.

`read_frontmatter_only` decides on a buffer that ends where a read ended, the parser on the
whole content.  The buffer is a prefix of the content, so the two see the same delimiter
lines except the last one of the buffer, which may be the beginning of a longer line.
-/

import Mathlib.Data.Nat.Find
import VaultSearch.Parsers.Delimiters

set_option autoImplicit false

namespace VaultSearch

open Regex

/-! ### What both make of a text -/

/-- The metadata that a YAML text loads to, empty where it is invalid or no mapping. -/
def yamlMetadata (env : Env) (yamlText : Text) : Except PyError Mapping :=
  match env.safeLoad yamlText with
  | .error .yamlError => .ok []
  | .error error => .error error
  | .ok value => .ok (value.asMetadata.getD [])

/-- The metadata of the frontmatter of a text, empty where there is none. -/
def loadedMetadata (env : Env) (content : Text) : Except PyError Mapping :=
  match frontmatterSplit content with
  | none => .ok []
  | some (yamlText, _) => yamlMetadata env yamlText

theorem parseFrontmatter_metadata (env : Env) (content : Text) :
    (parseFrontmatter env content).map Prod.fst = loadedMetadata env (stripBom content) := by
  simp only [parseFrontmatter, loadedMetadata, yamlMetadata]
  cases frontmatterSplit (stripBom content) with
  | none => rfl
  | some parts =>
      obtain ⟨yamlText, after⟩ := parts
      simp only
      cases env.safeLoad yamlText with
      | error error => cases error <;> rfl
      | ok value =>
          simp only
          cases value.asMetadata <;> rfl

/-- Both delimiters stand in the buffer. -/
def Closed (buffer : Text) : Prop :=
  2 ≤ (frontmatterRe.finditer buffer).length

instance (buffer : Text) : Decidable (Closed buffer) :=
  inferInstanceAs (Decidable (2 ≤ (frontmatterRe.finditer buffer).length))

theorem scanBuffer_of_closed (env : Env) {buffer : Text} (closed : Closed buffer)
    (bytesRead : Nat) :
    (scanBuffer env buffer bytesRead).map (Except.map Prod.fst) =
      some (loadedMetadata env buffer) := by
  unfold Closed at closed
  unfold scanBuffer loadedMetadata frontmatterSplit yamlMetadata
  cases found : frontmatterRe.finditer buffer with
  | nil =>
      rw [found] at closed
      exact absurd closed (Nat.not_succ_le_zero 1)
  | cons first others =>
      cases others with
      | nil =>
          rw [found] at closed
          exact absurd closed (Nat.not_succ_le_self 1)
      | cons second others =>
          by_cases indented :
              (first.start != 0 && !(Text.isBlank (buffer.take first.start))) = true
          · simp only [indented, if_true]
            rfl
          · rw [Bool.not_eq_true] at indented
            simp only [indented, Bool.false_eq_true, if_false]
            cases env.safeLoad ((buffer.take second.start).drop first.stop) with
            | error error => cases error <;> rfl
            | ok value => rfl

theorem scanBuffer_of_open (env : Env) {buffer : Text} (unclosed : ¬Closed buffer)
    (bytesRead : Nat) :
    scanBuffer env buffer bytesRead =
      if frontmatterMaxBytes ≤ bytesRead then some (.ok ([], bytesRead)) else none := by
  unfold Closed at unclosed
  unfold scanBuffer
  cases found : frontmatterRe.finditer buffer with
  | nil => rfl
  | cons first others =>
      cases others with
      | nil => rfl
      | cons second others =>
          rw [found, List.length_cons, List.length_cons] at unclosed
          exact absurd (Nat.le_add_left 2 others.length) unclosed

/-- A result of the scan ends the reading. -/
theorem readLoop_of_scanned {env : Env} {buffer : Text} {bytesRead : Nat}
    {result : Except PyError (Mapping × Nat)}
    (scanned : scanBuffer env buffer bytesRead = some result) (chunks : List Text) :
    readLoop env buffer bytesRead chunks = result := by
  cases chunks with
  | nil =>
      rw [readLoop, scanned]
      rfl
  | cons chunk rest => rw [readLoop, scanned]

theorem readLoop_of_closed (env : Env) {buffer : Text} (closed : Closed buffer) (bytesRead : Nat)
    (chunks : List Text) :
    (readLoop env buffer bytesRead chunks).map Prod.fst = loadedMetadata env buffer := by
  obtain ⟨result, scanned, metadata⟩ :=
    Option.map_eq_some_iff.mp (scanBuffer_of_closed env closed bytesRead)
  rw [readLoop_of_scanned scanned]
  exact metadata

theorem readLoop_of_full (env : Env) {buffer : Text} (unclosed : ¬Closed buffer) {bytesRead : Nat}
    (full : frontmatterMaxBytes ≤ bytesRead) (chunks : List Text) :
    readLoop env buffer bytesRead chunks = .ok ([], bytesRead) := by
  have scanned := scanBuffer_of_open env unclosed bytesRead
  rw [if_pos full] at scanned
  exact readLoop_of_scanned scanned chunks

theorem readLoop_of_end (env : Env) {buffer : Text} (unclosed : ¬Closed buffer) (bytesRead : Nat) :
    readLoop env buffer bytesRead [] = .ok ([], bytesRead) := by
  have ended : readLoop env buffer bytesRead [] =
      (scanBuffer env buffer bytesRead).getD (.ok ([], bytesRead)) := rfl
  rw [ended, scanBuffer_of_open env unclosed]
  by_cases full : frontmatterMaxBytes ≤ bytesRead
  · rw [if_pos full]
    rfl
  · rw [if_neg full]
    rfl

theorem readLoop_of_open (env : Env) {buffer : Text} (unclosed : ¬Closed buffer) {bytesRead : Nat}
    (small : bytesRead < frontmatterMaxBytes) (chunk : Text) (rest : List Text) :
    readLoop env buffer bytesRead (chunk :: rest) =
      readLoop env (buffer ++ chunk) (bytesRead + utf8Length chunk) rest := by
  rw [readLoop, scanBuffer_of_open env unclosed, if_neg (Nat.not_le_of_lt small)]

/-! ### The buffers -/

/-- What has been read after the first read and `reads` more. -/
def readSoFar (content : Text) (reads : Nat) : Text :=
  content.take (frontmatterChunkSize * (reads + 1))

/-- The buffer that is searched after `reads` more reads. -/
def bufferAfter (content : Text) (reads : Nat) : Text :=
  stripBom (content.take frontmatterChunkSize) ++
    (content.drop frontmatterChunkSize).take (frontmatterChunkSize * reads)

/-- `reads` more reads are made as long as no buffer is closed. -/
def Reached (content : Text) (reads : Nat) : Prop :=
  reads = 0 ∨ (frontmatterChunkSize * reads < content.length ∧
    utf8Length (content.take (frontmatterChunkSize * reads)) < frontmatterMaxBytes)

theorem utf8Length_append (first second : Text) :
    utf8Length (first ++ second) = utf8Length first + utf8Length second := by
  unfold utf8Length
  rw [List.map_append, List.sum_append]

theorem utf8Length_take_le (content : Text) {fewer more : Nat} (ordered : fewer ≤ more) :
    utf8Length (content.take fewer) ≤ utf8Length (content.take more) := by
  have whole : content.take more = content.take fewer ++ (content.drop fewer).take (more - fewer) := by
    rw [← List.take_add, Nat.add_sub_cancel' ordered]
  rw [whole, utf8Length_append]
  exact Nat.le_add_right _ _

theorem utf8Length_take_lt {content : Text} {fewer more : Nat} (ordered : fewer < more)
    (inside : more ≤ content.length) :
    utf8Length (content.take fewer) < utf8Length (content.take more) := by
  have step : fewer < content.length := Nat.lt_of_lt_of_le ordered inside
  have next : content.take (fewer + 1) = content.take fewer ++ [content[fewer]] :=
    List.take_succ_eq_append_getElem step
  have one : utf8Length (content.take fewer) < utf8Length (content.take (fewer + 1)) := by
    rw [next, utf8Length_append]
    apply Nat.lt_add_of_pos_right
    exact Char.utf8Size_pos _
  exact Nat.lt_of_lt_of_le one (utf8Length_take_le content ordered)

theorem Reached.pred {content : Text} {fewer more : Nat} (reached : Reached content more)
    (ordered : fewer < more) : Reached content (fewer + 1) := by
  rcases reached with none | ⟨unread, small⟩
  · rw [none] at ordered
    exact absurd ordered (Nat.not_lt_zero _)
  · have le : frontmatterChunkSize * (fewer + 1) ≤ frontmatterChunkSize * more :=
      Nat.mul_le_mul_left _ ordered
    exact Or.inr ⟨Nat.lt_of_le_of_lt le unread,
      Nat.lt_of_le_of_lt (utf8Length_take_le content le) small⟩

/-- The buffer at which the reader stops, because both delimiters stand in it. -/
def Stops (content : Text) (reads : Nat) : Prop :=
  Reached content reads ∧ Closed (bufferAfter content reads) ∧
    ∀ fewer < reads, ¬Closed (bufferAfter content fewer)

theorem Stops.unique {content : Text} {first second : Nat} (one : Stops content first)
    (two : Stops content second) : first = second := by
  rcases Nat.lt_trichotomy first second with earlier | same | later
  · exact absurd one.2.1 (two.2.2 first earlier)
  · exact same
  · exact absurd two.2.1 (one.2.2 second later)

theorem bufferAfter_succ (content : Text) (reads : Nat) :
    bufferAfter content (reads + 1) = bufferAfter content reads ++
      (content.drop (frontmatterChunkSize * (reads + 1))).take frontmatterChunkSize := by
  unfold bufferAfter
  rw [Nat.mul_succ, List.take_add, List.drop_drop, List.append_assoc]
  rw [Nat.add_comm frontmatterChunkSize (frontmatterChunkSize * reads)]

theorem readSoFar_succ (content : Text) (reads : Nat) :
    readSoFar content (reads + 1) = readSoFar content reads ++
      (content.drop (frontmatterChunkSize * (reads + 1))).take frontmatterChunkSize := by
  unfold readSoFar
  rw [Nat.mul_succ, List.take_add]

/-- No buffer from the one after `reads` more reads on stops the reader when it is not closed
and no further read is made. -/
theorem Stops.absurd_of_last {content : Text} {reads last : Nat} (stops : Stops content last)
    (unclosed : ¬Closed (bufferAfter content reads))
    (before : ∀ fewer < reads, ¬Closed (bufferAfter content fewer))
    (final : ¬Reached content (reads + 1)) : False := by
  rcases Nat.lt_trichotomy last reads with earlier | same | later
  · exact before last earlier stops.2.1
  · rw [same] at stops
    exact unclosed stops.2.1
  · exact final (stops.1.pred later)

/-- From the buffer after `reads` more reads the loop ends at the first closed buffer, or
without metadata. -/
theorem readLoop_metadata (env : Env) (content : Text) (fuel : Nat) :
    ∀ reads, (content.drop (frontmatterChunkSize * (reads + 1))).length ≤ fuel →
      Reached content reads → (∀ fewer < reads, ¬Closed (bufferAfter content fewer)) →
      (∃ last, Stops content last ∧
        (readLoop env (bufferAfter content reads) (utf8Length (readSoFar content reads))
          (readChunks frontmatterChunkSize fuel
            (content.drop (frontmatterChunkSize * (reads + 1))))).map Prod.fst =
          loadedMetadata env (bufferAfter content last)) ∨
      ((∀ last, ¬Stops content last) ∧
        (readLoop env (bufferAfter content reads) (utf8Length (readSoFar content reads))
          (readChunks frontmatterChunkSize fuel
            (content.drop (frontmatterChunkSize * (reads + 1))))).map Prod.fst = .ok []) := by
  induction fuel with
  | zero =>
      intro reads bound reached before
      rw [readChunks]
      have ended : ¬Reached content (reads + 1) := by
        rintro (never | ⟨unread, _small⟩)
        · cases never
        · rw [List.length_drop] at bound
          omega
      by_cases closed : Closed (bufferAfter content reads)
      · exact Or.inl ⟨reads, ⟨reached, closed, before⟩, readLoop_of_closed env closed _ _⟩
      · apply Or.inr
        rw [readLoop_of_end env closed]
        exact ⟨fun last stops => stops.absurd_of_last closed before ended, rfl⟩
  | succ fuel ih =>
      intro reads bound reached before
      by_cases closed : Closed (bufferAfter content reads)
      · exact Or.inl ⟨reads, ⟨reached, closed, before⟩, readLoop_of_closed env closed _ _⟩
      · by_cases full : frontmatterMaxBytes ≤ utf8Length (readSoFar content reads)
        · apply Or.inr
          rw [readLoop_of_full env closed full]
          apply And.intro _ rfl
          intro last stops
          apply stops.absurd_of_last closed before
          rintro (never | ⟨_unread, small⟩)
          · cases never
          · exact absurd small (Nat.not_lt_of_le full)
        · rw [readChunks]
          by_cases ended : (content.drop (frontmatterChunkSize * (reads + 1))).isEmpty = true
          · apply Or.inr
            rw [if_pos ended, readLoop_of_end env closed]
            apply And.intro _ rfl
            intro last stops
            apply stops.absurd_of_last closed before
            rintro (never | ⟨unread, _small⟩)
            · cases never
            · rw [List.isEmpty_iff, List.drop_eq_nil_iff] at ended
              exact absurd unread (Nat.not_lt_of_le ended)
          · have small : utf8Length (readSoFar content reads) < frontmatterMaxBytes :=
              Nat.lt_of_not_le full
            have unread : frontmatterChunkSize * (reads + 1) < content.length := by
              rw [List.isEmpty_iff, List.drop_eq_nil_iff] at ended
              exact Nat.lt_of_not_le ended
            have further : ∀ fewer < reads + 1, ¬Closed (bufferAfter content fewer) := by
              intro fewer ordered
              rcases Nat.lt_succ_iff_lt_or_eq.mp ordered with earlier | same
              · exact before fewer earlier
              · rw [same]
                exact closed
            have next : (content.drop (frontmatterChunkSize * (reads + 1))).drop
                frontmatterChunkSize = content.drop (frontmatterChunkSize * (reads + 1 + 1)) := by
              rw [List.drop_drop, Nat.mul_succ frontmatterChunkSize (reads + 1)]
            have shorter : (content.drop (frontmatterChunkSize * (reads + 1 + 1))).length ≤ fuel := by
              have positive : 0 < frontmatterChunkSize := by decide
              rw [List.length_drop] at bound ⊢
              rw [Nat.mul_add_one frontmatterChunkSize (reads + 1)]
              omega
            rw [if_neg ended, readLoop_of_open env closed small, ← bufferAfter_succ,
              ← utf8Length_append, ← readSoFar_succ, next]
            exact ih (reads + 1) shorter (Or.inr ⟨unread, small⟩) further

/-- The opening dashes stand in the first read. -/
def opensAtOnce (content : Text) : Bool :=
  Text.startsWith (Text.lstrip (stripBom (content.take frontmatterChunkSize))) "---".toList

theorem readFrontmatterOnly_of_unopened (env : Env) {content : Text}
    (unopened : opensAtOnce content = false) :
    (readFrontmatterOnly env content).map Prod.fst = .ok [] := by
  unfold readFrontmatterOnly
  cases content with
  | nil => rfl
  | cons head tail =>
      unfold opensAtOnce at unopened
      rw [List.length_cons, readChunks, if_neg (by simp)]
      simp only [unopened, Bool.false_eq_true, if_false]
      rfl

/-- The reader loads the first closed buffer. -/
theorem readFrontmatterOnly_metadata (env : Env) {content : Text} (opened : opensAtOnce content = true) :
    (∃ last, Stops content last ∧ (readFrontmatterOnly env content).map Prod.fst =
      loadedMetadata env (bufferAfter content last)) ∨
    ((∀ last, ¬Stops content last) ∧
      (readFrontmatterOnly env content).map Prod.fst = .ok []) := by
  cases content with
  | nil => cases opened
  | cons head tail =>
      have first : bufferAfter (head :: tail) 0 =
          stripBom ((head :: tail).take frontmatterChunkSize) := by
        rw [bufferAfter, Nat.mul_zero, List.take_zero, List.append_nil]
      have run := readLoop_metadata env (head :: tail) tail.length 0
        (by
          rw [List.length_drop, List.length_cons]
          unfold frontmatterChunkSize
          omega)
        (Or.inl rfl) (fun fewer negative => absurd negative (Nat.not_lt_zero _))
      have whole : readFrontmatterOnly env (head :: tail) =
          readLoop env (bufferAfter (head :: tail) 0) (utf8Length (readSoFar (head :: tail) 0))
            (readChunks frontmatterChunkSize tail.length
              ((head :: tail).drop (frontmatterChunkSize * (0 + 1)))) := by
        unfold opensAtOnce at opened
        unfold readFrontmatterOnly
        rw [List.length_cons, readChunks, if_neg (by simp), first]
        simp only [opened, if_true]
        rfl
      rw [whole]
      exact run

/-! ### Buffer and content -/

theorem closed_iff (buffer : Text) : Closed buffer ↔ 2 ≤ (marks 0 true buffer).length := by
  rw [Closed, ← finditer_frontmatterRe, List.length_map]

theorem loadedMetadata_of_short (env : Env) {content : Text} (unclosed : ¬Closed content) :
    loadedMetadata env content = .ok [] := by
  unfold Closed at unclosed
  unfold loadedMetadata frontmatterSplit
  cases found : frontmatterRe.finditer content with
  | nil => rfl
  | cons first others =>
      cases others with
      | nil => rfl
      | cons second others =>
          rw [found] at unclosed
          exact absurd (Nat.le_add_left 2 others.length) unclosed

/-- What the loaded metadata depends on. -/
theorem loadedMetadata_of_marks (env : Env) {content : Text} {first second : Nat × Nat}
    {others : List (Nat × Nat)} (found : marks 0 true content = first :: second :: others) :
    loadedMetadata env content =
      if Text.isBlank (content.take first.1) then
        yamlMetadata env ((content.take second.1).drop first.2)
      else .ok [] := by
  rw [← finditer_frontmatterRe] at found
  obtain ⟨one, rest, matched, same, found⟩ := List.map_eq_cons_iff.mp found
  obtain ⟨two, rest', matched', same', _found⟩ := List.map_eq_cons_iff.mp found
  rw [matched'] at matched
  unfold loadedMetadata frontmatterSplit
  rw [matched, ← same, ← same']
  simp only
  by_cases opening : Text.isBlank (content.take one.start) = true
  · rw [opening, if_pos rfl, Bool.not_true, Bool.and_false, if_neg (by decide)]
  · rw [Bool.not_eq_true] at opening
    have moved : (one.start != 0) = true := by
      rw [bne_iff_ne]
      intro start
      rw [start, List.take_zero] at opening
      cases opening
    rw [opening, moved]
    rfl

/-- Two texts whose first two delimiters are the same, the stop of the second apart. -/
theorem loadedMetadata_congr (env : Env) {front rest : Text} {first : Nat × Nat}
    {start stop stop' : Nat} {others others' : List (Nat × Nat)}
    (near : marks 0 true front = first :: (start, stop) :: others)
    (far : marks 0 true (front ++ rest) = first :: (start, stop') :: others') :
    loadedMetadata env front = loadedMetadata env (front ++ rest) := by
  have firstBound := marks_start_add_le front 0 true first (by rw [near]; simp)
  have secondBound := marks_start_add_le front 0 true (start, stop) (by rw [near]; simp)
  rw [loadedMetadata_of_marks env near, loadedMetadata_of_marks env far,
    List.take_append_of_le_length (by omega), List.take_append_of_le_length (by omega)]

theorem stripBom_append {front : Text} (present : stripBom front ≠ []) (rest : Text) :
    stripBom (front ++ rest) = stripBom front ++ rest := by
  unfold stripBom at present ⊢
  rw [List.dropWhile_append, if_neg]
  rw [List.isEmpty_iff]
  exact present

/-- The buffer is a prefix of the content without its marks of byte order. -/
theorem stripBom_eq_bufferAfter {content : Text} (opened : opensAtOnce content = true)
    (reads : Nat) :
    stripBom content = bufferAfter content reads ++
      content.drop (frontmatterChunkSize * (reads + 1)) := by
  have present : stripBom (content.take frontmatterChunkSize) ≠ [] := by
    intro empty
    unfold opensAtOnce at opened
    rw [empty] at opened
    cases opened
  have whole := stripBom_append present (content.drop frontmatterChunkSize)
  rw [List.take_append_drop] at whole
  have later : content.drop (frontmatterChunkSize * (reads + 1)) =
      (content.drop frontmatterChunkSize).drop (frontmatterChunkSize * reads) := by
    rw [List.drop_drop, Nat.mul_add_one, Nat.add_comm]
  rw [whole, bufferAfter, later, List.append_assoc, List.take_append_drop]

/-- A buffer that is not cut inside its last line loads as the content does. -/
theorem loadedMetadata_append (env : Env) {front rest : Text} (closed : Closed front)
    (uncut : ¬CutLine true front rest) :
    loadedMetadata env front = loadedMetadata env (front ++ rest) := by
  rw [closed_iff] at closed
  obtain ⟨shared, near, far, nearMarks, farMarks, parted⟩ := marks_append front rest 0 true
  cases shared with
  | nil =>
      rw [List.nil_append] at nearMarks
      rw [nearMarks] at closed
      cases parted with
      | «open» none later =>
          rw [none] at closed
          exact absurd closed (by decide)
      | closed start stop farther others last first later =>
          rw [last] at closed
          exact absurd closed (Nat.not_succ_le_self 1)
      | cut start stop last broken later => exact absurd broken uncut
  | cons first shared =>
      cases shared with
      | cons second shared =>
          exact loadedMetadata_congr env nearMarks farMarks
      | nil =>
          cases parted with
          | «open» none later =>
              rw [nearMarks, none] at closed
              exact absurd closed (Nat.not_succ_le_self 1)
          | closed start stop farther others last goesOn later =>
              rw [last] at nearMarks
              rw [goesOn] at farMarks
              exact loadedMetadata_congr env nearMarks farMarks
          | cut start stop last broken later => exact absurd broken uncut

/-- A delimiter of the whole text that ends inside a prefix is found in the prefix, at the
latest as its last one. -/
theorem closed_of_inside {front rest : Text} {first : Nat × Nat} {start stop : Nat}
    {others : List (Nat × Nat)}
    (whole : marks 0 true (front ++ rest) = first :: (start, stop) :: others)
    (inside : start + 3 ≤ front.length) : Closed front := by
  rw [closed_iff]
  obtain ⟨shared, near, far, nearMarks, farMarks, parted⟩ := marks_append front rest 0 true
  rw [Nat.zero_add] at parted
  rw [whole] at farMarks
  rw [nearMarks, List.length_append]
  cases shared with
  | nil =>
      rw [List.nil_append] at farMarks
      cases parted with
      | «open» none later =>
          have beyond := later (start, stop) (by rw [← farMarks]; simp)
          exact absurd inside (Nat.not_le_of_lt beyond)
      | closed start' stop' farther others' last goesOn later =>
          rw [goesOn] at farMarks
          have beyond := later (start, stop) (by rw [← (List.cons.inj farMarks).2]; simp)
          have here : front.length ≤ start := beyond
          omega
      | cut start' stop' last broken later =>
          have beyond := later (start, stop) (by rw [← farMarks]; simp)
          have here : front.length ≤ start := beyond
          omega
  | cons one shared =>
      cases shared with
      | cons two shared =>
          rw [List.length_cons, List.length_cons]
          omega
      | nil =>
          have farTail : (start, stop) :: others = far := (List.cons.inj farMarks).2
          cases parted with
          | «open» none later =>
              have beyond : front.length < start + 3 :=
                later (start, stop) (by rw [← farTail]; simp)
              exact absurd inside (Nat.not_le_of_lt beyond)
          | closed start' stop' farther others' last goesOn later =>
              rw [last]
              exact Nat.le_refl 2
          | cut start' stop' last broken later =>
              rw [last]
              exact Nat.le_refl 2

/-! ### Agreement -/

/-- The closing dashes of the frontmatter stand in the first `FRONTMATTER_MAX_BYTES`. -/
def ClosesInTime (content : Text) : Prop :=
  ∀ first second others,
    frontmatterRe.finditer (stripBom content) = first :: second :: others →
    Text.isBlank ((stripBom content).take first.start) = true →
    utf8Length (content.take (content.length - (stripBom content).length + second.start + 3)) ≤
      frontmatterMaxBytes

/-- The buffer that the reader takes the closing delimiter from ends in dashes whose line goes
on behind it. -/
def CutShort (content : Text) (reads : Nat) : Prop :=
  Stops content reads ∧ CutLine true (bufferAfter content reads)
    (content.drop (frontmatterChunkSize * (reads + 1)))

/-- Frontmatter that closes in time is closed in a buffer that the reader comes to. -/
theorem exists_stops {content : Text} (opened : opensAtOnce content = true)
    {first : Nat × Nat} {start stop : Nat} {others : List (Nat × Nat)}
    (whole : marks 0 true (stripBom content) = first :: (start, stop) :: others)
    (inTime : utf8Length (content.take (content.length - (stripBom content).length + start + 3)) ≤
      frontmatterMaxBytes) : ∃ reads, Stops content reads := by
  have bound := (marks_start_add_le _ 0 true (start, stop) (by rw [whole]; simp)).1
  rw [Nat.zero_add] at bound
  have shorter : (stripBom content).length ≤ content.length :=
    (List.dropWhile_suffix _).length_le
  generalize closing : content.length - (stripBom content).length + start + 3 = last at inTime
  have inContent : last ≤ content.length := by
    simp only at bound
    omega
  have positive : 0 < frontmatterChunkSize := by decide
  have begins : frontmatterChunkSize * ((last - 1) / frontmatterChunkSize) ≤ last - 1 :=
    Nat.mul_div_le _ _
  have ends' : last - 1 < frontmatterChunkSize * ((last - 1) / frontmatterChunkSize + 1) :=
    Nat.lt_mul_div_succ _ positive
  generalize (last - 1) / frontmatterChunkSize = reads at begins ends'
  have strict : frontmatterChunkSize * reads < last := by omega
  have reached : Reached content reads :=
    Or.inr ⟨Nat.lt_of_lt_of_le strict inContent,
      Nat.lt_of_lt_of_le (utf8Length_take_lt strict inContent) inTime⟩
  have split := stripBom_eq_bufferAfter opened reads
  have inBuffer : start + 3 ≤ (bufferAfter content reads).length := by
    have total := congrArg List.length split
    rw [List.length_append, List.length_drop] at total
    omega
  rw [split] at whole
  have closed : ∃ reads, Closed (bufferAfter content reads) :=
    ⟨reads, closed_of_inside whole inBuffer⟩
  have earliest : Nat.find closed ≤ reads := Nat.find_min' closed (closed_of_inside whole inBuffer)
  exists Nat.find closed
  constructor
  · rcases Nat.lt_or_eq_of_le earliest with earlier | same
    · cases found : Nat.find closed with
      | zero => exact Or.inl rfl
      | succ before => exact reached.pred (by rw [found] at earlier; omega)
    · rw [same]
      exact reached
  · exact ⟨Nat.find_spec closed, fun fewer before => Nat.find_min closed before⟩

/-- A file that one read takes in whole is not cut. -/
theorem CutShort.absurd_of_small {content : Text} {reads : Nat} (cut : CutShort content reads)
    (small : content.length ≤ frontmatterChunkSize) : False := by
  obtain ⟨_stops, lead, spaces, _whole, _line, _blank, _single, goesOn⟩ := cut
  have all : content.length ≤ frontmatterChunkSize * (reads + 1) :=
    small.trans (Nat.le_mul_of_pos_right _ (Nat.succ_pos reads))
  rw [List.drop_of_length_le all] at goesOn
  cases goesOn

theorem closesInTime_of_small {content : Text} (small : utf8Length content ≤ frontmatterMaxBytes) :
    ClosesInTime content := by
  intro first second others _found _opening
  have whole := utf8Length_take_le content
    (Nat.le_max_left (content.length - (stripBom content).length + second.start + 3) content.length)
  rw [List.take_of_length_le (Nat.le_max_right _ _)] at whole
  exact whole.trans small

/-- Where no buffer is closed, the parser finds no metadata either. -/
theorem loadedMetadata_of_never (env : Env) {content : Text} (closing : ClosesInTime content)
    (opened : opensAtOnce content = true) (never : ∀ reads, ¬Stops content reads) :
    loadedMetadata env (stripBom content) = .ok [] := by
  by_cases closed : Closed (stripBom content)
  · have found := finditer_frontmatterRe (stripBom content)
    cases matched : frontmatterRe.finditer (stripBom content) with
    | nil =>
        rw [Closed, matched] at closed
        exact absurd closed (Nat.not_succ_le_zero 1)
    | cons first others =>
        cases others with
        | nil =>
            rw [Closed, matched] at closed
            exact absurd closed (Nat.not_succ_le_self 1)
        | cons second others =>
            rw [matched, List.map_cons, List.map_cons] at found
            rw [loadedMetadata_of_marks env found.symm]
            by_cases opening : Text.isBlank ((stripBom content).take first.start) = true
            · obtain ⟨reads, stops⟩ := exists_stops opened found.symm
                (closing first second others matched opening)
              exact absurd stops (never reads)
            · rw [if_neg opening]
  · exact loadedMetadata_of_short env closed

/-- The metadata of the reader and that of the parser are the same exactly when the opening
dashes are seen and the closing ones are not mistaken, or when the mistake loads to the same
metadata. -/
theorem readFrontmatterOnly_agrees_iff (env : Env) (content : Text)
    (closing : ClosesInTime content) :
    (readFrontmatterOnly env content).map Prod.fst =
        (parseFrontmatter env content).map Prod.fst ↔
      (opensAtOnce content = false → loadedMetadata env (stripBom content) = .ok []) ∧
      (opensAtOnce content = true → ∀ reads, CutShort content reads →
        loadedMetadata env (bufferAfter content reads) =
          loadedMetadata env (stripBom content)) := by
  rw [parseFrontmatter_metadata]
  cases opened : opensAtOnce content with
  | false =>
      rw [readFrontmatterOnly_of_unopened env opened]
      constructor
      · intro agree
        exact ⟨fun _ => agree.symm, fun impossible => absurd impossible (by decide)⟩
      · intro condition
        exact (condition.1 rfl).symm
  | true =>
      rcases readFrontmatterOnly_metadata env opened with ⟨last, stops, read⟩ | ⟨never, read⟩
      · rw [read]
        constructor
        · intro agree
          apply And.intro (fun impossible => absurd impossible (by decide))
          intro _ reads cut
          rw [cut.1.unique stops]
          exact agree
        · intro condition
          by_cases cut : CutLine true (bufferAfter content last)
              (content.drop (frontmatterChunkSize * (last + 1)))
          · exact condition.2 rfl last ⟨stops, cut⟩
          · rw [stripBom_eq_bufferAfter opened last]
            exact loadedMetadata_append env stops.2.1 cut
      · rw [read]
        have empty := loadedMetadata_of_never env closing opened never
        constructor
        · intro _agree
          exact ⟨fun _ => empty, fun _ reads cut => absurd cut.1 (never reads)⟩
        · intro _condition
          exact empty.symm

/-- The tables of `Env.plain` with a YAML loader that knows one mapping. -/
def oneFieldEnv : Env :=
  { Env.plain with safeLoad := fun _ => .ok (.map [(.text "a".toList, .int 1)]) }

theorem readFrontmatterOnly_agrees_oneField :
    (readFrontmatterOnly oneFieldEnv "---\na: 1\n---\n".toList).map Prod.fst =
      (parseFrontmatter oneFieldEnv "---\na: 1\n---\n".toList).map Prod.fst :=
  (readFrontmatterOnly_agrees_iff oneFieldEnv "---\na: 1\n---\n".toList
    (closesInTime_of_small (by decide))).mpr
    ⟨fun unopened => absurd unopened (by decide),
      fun _ _ cut => absurd (cut.absurd_of_small (by decide)) not_false⟩

/-- A note with an opening delimiter, one field and `gap` empty lines in front of a line of
three dashes and `rest`. -/
def rulerNote (gap : Nat) (rest : Text) : Text :=
  "---\na: 1".toList ++ (List.replicate gap '\n' ++ ("\n---".toList ++ rest))

theorem rulerNote_append (gap : Nat) (rest : Text) :
    rulerNote gap rest = rulerNote gap [] ++ rest := by
  unfold rulerNote
  rw [List.append_nil, List.append_assoc, List.append_assoc]

theorem rulerNote_length (gap : Nat) : (rulerNote gap []).length = gap + 12 := by
  unfold rulerNote
  rw [List.length_append, List.length_append, List.length_replicate]
  exact Nat.add_comm 8 (gap + 4)

theorem marks_rulerNote (gap : Nat) (rest : Text) :
    marks 0 true (rulerNote gap rest) =
      (0, 3) :: marks (8 + gap + 1) true ("---".toList ++ rest) := by
  have blank : (List.replicate gap '\n').all Text.isSpace = true := by
    rw [List.all_replicate]
    cases gap <;> rfl
  have opening : ∀ later : Text, marks 0 true ("---\na: 1".toList ++ later) =
      (0, 3) :: marks 8 false later := by
    intro later
    rfl
  have newline : ['\n'].all Text.isSpace = true := rfl
  have turned : ∀ position fresh, marks position fresh (['\n'] ++ ("---".toList ++ rest)) =
      marks (position + 1) true ("---".toList ++ rest) := by
    intro position fresh
    rw [marks_of_blank newline]
    rfl
  have parts : rulerNote gap rest = "---\na: 1".toList ++
      (List.replicate gap '\n' ++ (['\n'] ++ ("---".toList ++ rest))) := rfl
  rw [parts, opening, marks_of_blank blank, List.length_replicate, turned]

theorem stripBom_rulerNote (gap : Nat) (rest : Text) :
    stripBom (rulerNote gap rest) = rulerNote gap rest := by
  exact List.dropWhile_cons_of_neg (by decide)

theorem bufferAfter_rulerNote {gap : Nat} (fills : gap + 12 = frontmatterChunkSize) (rest : Text) :
    bufferAfter (rulerNote gap rest) 0 = rulerNote gap [] := by
  have taken : (rulerNote gap rest).take frontmatterChunkSize = rulerNote gap [] := by
    rw [rulerNote_append, ← fills, ← rulerNote_length, List.take_left]
  rw [bufferAfter, Nat.mul_zero, List.take_zero, List.append_nil, taken, stripBom_rulerNote]

theorem closesInTime_rulerNote (gap : Nat) : ClosesInTime (rulerNote gap ['-']) := by
  intro first second others found _opening
  have all := finditer_frontmatterRe (rulerNote gap ['-'])
  rw [stripBom_rulerNote] at found
  rw [found, marks_rulerNote] at all
  cases congrArg List.length all

/-- When a read ends behind the third of four dashes, the note has frontmatter for the reader
only. -/
theorem read_rulerNote {gap : Nat} (fills : gap + 12 = frontmatterChunkSize) :
    (readFrontmatterOnly oneFieldEnv (rulerNote gap ['-'])).map Prod.fst =
        .ok [(.text "a".toList, .int 1)] ∧
      (parseFrontmatter oneFieldEnv (rulerNote gap ['-'])).map Prod.fst = .ok [] := by
  have shown : marks 0 true (rulerNote gap []) =
      [(0, 3), (8 + gap + 1, 8 + gap + 1 + 3)] := marks_rulerNote gap []
  have buffer := bufferAfter_rulerNote fills ['-']
  constructor
  · have closed : Closed (bufferAfter (rulerNote gap ['-']) 0) := by
      rw [buffer, closed_iff, shown]
      exact Nat.le_refl 2
    have stops : Stops (rulerNote gap ['-']) 0 :=
      ⟨Or.inl rfl, closed, fun fewer negative => absurd negative (Nat.not_lt_zero _)⟩
    have opened : opensAtOnce (rulerNote gap ['-']) = true := by
      rw [bufferAfter, Nat.mul_zero, List.take_zero, List.append_nil] at buffer
      rw [opensAtOnce, buffer]
      rfl
    rcases readFrontmatterOnly_metadata oneFieldEnv opened with ⟨last, stopped, result⟩ | ⟨never, _⟩
    · rw [result, stopped.unique stops, buffer, loadedMetadata_of_marks _ shown]
      rfl
    · exact absurd stops (never 0)
  · rw [parseFrontmatter_metadata, stripBom_rulerNote]
    apply loadedMetadata_of_short
    rw [closed_iff, marks_rulerNote]
    exact Nat.not_succ_le_self 1

theorem readFrontmatterOnly_disagrees :
    ¬∀ (env : Env) (content : Text), ClosesInTime content →
      (readFrontmatterOnly env content).map Prod.fst =
        (parseFrontmatter env content).map Prod.fst := by
  intro agrees
  have agree := agrees oneFieldEnv (rulerNote 4084 ['-']) (closesInTime_rulerNote 4084)
  have fills : 4084 + 12 = frontmatterChunkSize := rfl
  obtain ⟨read, parsed⟩ := read_rulerNote fills
  rw [read, parsed] at agree
  cases agree

end VaultSearch
