/-
The date filter of the advanced search: `_validate_iso_date` and `_build_date_filter` of
`core/searcher.py`.

A stored modification time and a date are compared as texts.  A date that is written with all
its digits is ordered among the stored times like the first instant of its day or second; a
field with fewer digits is ordered by the digits it has.
-/

import VaultSearch.Sql.Bounds
import VaultSearch.Utils.DateTimes
import VaultSearch.Utils.Paths

set_option autoImplicit false

namespace VaultSearch

section

variable (tables : DigitTables)

/-- `date_str.strip()[:19]` -/
def shortened (text : Text) : Text :=
  (Text.strip text).take 19

/-- What `strptime` makes of a date. -/
def isoNumbers (text : Text) : Option (List Nat) :=
  if text.contains 'T' then
    strptime tables (Regex.dateFormat tables (Regex.timeFormat tables)) text
  else strptime tables (Regex.dateFormat tables Regex.empty) text

/-- `_validate_iso_date` -/
def validateIsoDate (text : Text) : Option Text :=
  if text.isEmpty then none
  else (isoNumbers tables (shortened text)).map (fun _numbers => shortened text)

/-- `date_range`: the name of a window, or the mapping with its two keys. -/
inductive DateRange where
  | named (name : Text)
  | mapping (start stop : Option Text)

/-- How many days a named window goes back. -/
def windowDays (name : Text) : Option Nat :=
  if name = "today".toList then some 1
  else if name = "week".toList then some 7
  else if name = "month".toList then some 30
  else if name = "year".toList then some 365
  else none

def dateCondition (operator date : Text) : Text :=
  "modified_at ".toList ++ operator ++ " '".toList ++ escapeSqlString date ++ "'".toList

/-- `_build_date_filter`, with what `now - timedelta(days=days)` prints. -/
def buildDateFilter (cutoff : Nat → Text) : DateRange → Option Text
  | .named name =>
      (windowDays name).map (fun days => "modified_at >= '".toList ++ cutoff days ++ "'".toList)
  | .mapping start stop =>
      let conditions :=
        ((start.bind (validateIsoDate tables)).map (dateCondition ">=".toList)).toList ++
          ((stop.bind (validateIsoDate tables)).map (dateCondition "<=".toList)).toList
      if conditions.isEmpty then none else some (Text.join " AND ".toList conditions)

/-- Whether a filter lets a stored modification time through. -/
def letsThrough (filter : Option Text) (modifiedAt : Text) : Bool :=
  match filter with
  | none => true
  | some clause =>
      match Sql.boundsOf clause with
      | none => false
      | some bounds => bounds.all (Sql.Bound.holds (fun column =>
          if column = "modified_at".toList then some modifiedAt else none))

/-! ### What a date means -/

/-- A date that `_validate_iso_date` accepts. -/
structure IsoDate where
  given : Text
  accepted : (validateIsoDate tables given).isSome = true

end

/-- The first instant of a day or of a second. -/
def firstInstant (numbers : List Nat) : List Nat :=
  numbers ++ [0, 0, 0, 0].drop (numbers.length - 3)

/-- The last instant of a day or of a second. -/
def lastInstant (numbers : List Nat) : List Nat :=
  numbers ++ [23, 59, 59, 999999].drop (numbers.length - 3)

namespace IsoDate

variable {tables : DigitTables} (date : IsoDate tables)

def spelled : Text :=
  shortened date.given

def numbers : List Nat :=
  (isoNumbers tables date.spelled).getD []

theorem validated : validateIsoDate tables date.given = some date.spelled := by
  have accepted := date.accepted
  unfold validateIsoDate at accepted ⊢
  split at accepted
  case isTrue => cases accepted
  case isFalse filled =>
    rw [if_neg filled]
    cases found : isoNumbers tables (shortened date.given) with
    | none =>
        rw [found] at accepted
        cases accepted
    | some numbers => rfl

theorem isoNumbers_spelled : (isoNumbers tables date.spelled).isSome = true := by
  have validated := date.validated
  unfold validateIsoDate at validated
  split at validated
  · cases validated
  · cases found : isoNumbers tables (shortened date.given) with
    | none =>
        rw [found] at validated
        cases validated
    | some numbers =>
        unfold spelled
        rw [found]
        rfl

end IsoDate

/-- Not before the first bound and not after the second, each with the whole of its day or
second. -/
def InDateRange {tables : DigitTables} (start stop : Option (IsoDate tables)) (time : DateTime) :
    Prop :=
  (∀ date, start = some date → ¬time.fields < firstInstant date.numbers) ∧
    (∀ date, stop = some date → ¬lastInstant date.numbers < time.fields)

/-! ### What the order of the texts makes of a date -/

/-- The fields of a date up to the first that is not written in full; of that one the digits that
are there, filled up with zeros, or one more in the last of them if what stands behind comes after
the digits. -/
def readStart (text : Text) : List Nat :=
  Text.standsFor isoLayout ('-' :: text)

/-- The first instant that comes behind the date: the one it is read as, or the next microsecond
if the date has all six fields in full. -/
def readStop (text : Text) : List Nat :=
  if Text.complete isoLayout ('-' :: text) then readStart text ++ [1] else readStart text

def InReadRange {tables : DigitTables} (start stop : Option (IsoDate tables)) (time : DateTime) :
    Prop :=
  (∀ date, start = some date → ¬time.fields < readStart date.spelled) ∧
    (∀ date, stop = some date → time.fields < readStop date.spelled)

/-! ### Accepted dates have their separators in place -/

namespace Regex

section

variable (tables : DigitTables)

theorem yearField_atMost : (yearField tables).AtMost 4 :=
  (AtMost.chars _).seq ((AtMost.chars _).seq ((AtMost.chars _).seq (AtMost.chars _)))

theorem monthField_atMost : monthField.AtMost 2 := by
  apply AtMost.anyOf
  intro regex member
  simp only [List.mem_cons, List.not_mem_nil, or_false] at member
  rcases member with same | same | same
  all_goals rw [same]
  · exact (AtMost.literal _).seq (AtMost.chars _)
  · exact (AtMost.literal _).seq (AtMost.chars _)
  · exact (AtMost.chars _).weaken (by decide)

theorem dayField_atMost : (dayField tables).AtMost 2 := by
  apply AtMost.anyOf
  intro regex member
  simp only [List.mem_cons, List.not_mem_nil, or_false] at member
  rcases member with same | same | same | same | same
  all_goals rw [same]
  · exact (AtMost.literal _).seq (AtMost.chars _)
  · exact (AtMost.chars _).seq (AtMost.chars _)
  · exact (AtMost.literal _).seq (AtMost.chars _)
  · exact (AtMost.chars _).weaken (by decide)
  · exact (AtMost.literal _).seq (AtMost.chars _)

theorem hourField_atMost : (hourField tables).AtMost 2 := by
  apply AtMost.anyOf
  intro regex member
  simp only [List.mem_cons, List.not_mem_nil, or_false] at member
  rcases member with same | same | same
  all_goals rw [same]
  · exact (AtMost.literal _).seq (AtMost.chars _)
  · exact (AtMost.chars _).seq (AtMost.chars _)
  · exact (AtMost.chars _).weaken (by decide)

theorem minuteField_atMost : (minuteField tables).AtMost 2 := by
  apply AtMost.anyOf
  intro regex member
  simp only [List.mem_cons, List.not_mem_nil, or_false] at member
  rcases member with same | same
  all_goals rw [same]
  · exact (AtMost.chars _).seq (AtMost.chars _)
  · exact (AtMost.chars _).weaken (by decide)

theorem secondField_atMost : (secondField tables).AtMost 2 := by
  apply AtMost.anyOf
  intro regex member
  simp only [List.mem_cons, List.not_mem_nil, or_false] at member
  rcases member with same | same | same
  all_goals rw [same]
  · exact (AtMost.literal _).seq (AtMost.chars _)
  · exact (AtMost.chars _).seq (AtMost.chars _)
  · exact (AtMost.chars _).weaken (by decide)

/-- The fields of the clock, each behind its separator. -/
theorem timeFormat_consists {text : Text} {captured : Captures}
    (taken : (timeFormat tables).Takes text captured) :
    Text.Consists [('T', 2), (':', 2), (':', 2)] (captured.map Prod.snd) text := by
  obtain ⟨text₁, whole₁, taken⟩ := literal_seq taken
  obtain ⟨hour, text₂, captured₁, whole₂, captures₁, short₁, taken⟩ :=
    (hourField_atMost tables).group_seq taken
  obtain ⟨text₃, whole₃, taken⟩ := literal_seq taken
  obtain ⟨minute, text₄, captured₂, whole₄, captures₂, short₂, taken⟩ :=
    (minuteField_atMost tables).group_seq taken
  obtain ⟨second, whole₅, inner, captures₃, taken⟩ := literal_seq taken
  have last := secondField_atMost tables second inner taken
  rw [whole₁, whole₂, whole₃, whole₄, whole₅, captures₁, captures₂, captures₃, last.2]
  refine ⟨_, rfl, short₁, _, rfl, short₂, [], ?_, last.1, rfl⟩
  rw [List.append_nil]
  rfl

/-- The fields of a date, and those of what follows it. -/
theorem dateFormat_consists {rest : Regex} {layout : Text.Layout} {text : Text}
    {captured : Captures} (taken : (dateFormat tables rest).Takes text captured)
    (later : ∀ back late, rest.Takes back late →
      Text.Consists layout (late.map Prod.snd) back) :
    Text.Consists (('-', 4) :: ('-', 2) :: ('-', 2) :: layout) (captured.map Prod.snd)
      ('-' :: text) := by
  obtain ⟨year, text₁, captured₁, whole₁, captures₁, short₁, taken⟩ :=
    (yearField_atMost tables).group_seq taken
  obtain ⟨text₂, whole₂, taken⟩ := literal_seq taken
  obtain ⟨month, text₃, captured₂, whole₃, captures₂, short₂, taken⟩ :=
    monthField_atMost.group_seq taken
  obtain ⟨text₄, whole₄, taken⟩ := literal_seq taken
  obtain ⟨day, back, late, whole₅, captures₃, short₃, taken⟩ :=
    (dayField_atMost tables).group_seq taken
  rw [whole₁, whole₂, whole₃, whole₄, whole₅, captures₁, captures₂, captures₃]
  exact ⟨_, rfl, short₁, _, rfl, short₂, back, rfl, short₃, later back late taken⟩

end

end Regex

section

variable {tables : DigitTables}

theorem strptime_takes {format : Regex} {text : Text} {numbers : List Nat}
    (accepted : strptime tables format text = some numbers) :
    ∃ captured, format.Takes text captured ∧
      numbers = (captured.map Prod.snd).map (readNumber tables) := by
  unfold strptime at accepted
  split at accepted
  case h_1 => cases accepted
  case h_2 next found =>
    obtain ⟨passed, whole, taken⟩ := Regex.firstMatch_takes found
    dsimp only at accepted
    split at accepted
    case isFalse => cases accepted
    case isTrue ended =>
      rw [Bool.and_eq_true, List.isEmpty_iff] at ended
      rw [ended.1, List.append_nil] at whole
      have same : text = passed := whole
      exists next.groups.reverse
      constructor
      · rw [same]
        exact taken
      · rw [← Option.some.inj accepted, List.map_map]
        rfl

/-- The fields of an accepted date: their separators stand where those of a stored time do, and
its numbers are those in the fields. -/
theorem IsoDate.consists (date : IsoDate tables) :
    ∃ pieces, Text.Consists isoLayout pieces ('-' :: date.spelled) ∧
      date.numbers = pieces.map (readNumber tables) := by
  obtain ⟨numbers, found⟩ := Option.isSome_iff_exists.mp date.isoNumbers_spelled
  have given : date.numbers = numbers := by
    unfold IsoDate.numbers
    rw [found]
    rfl
  rw [given]
  unfold isoNumbers at found
  split at found
  case isTrue =>
    obtain ⟨captured, taken, same⟩ := strptime_takes found
    exact ⟨_, Regex.dateFormat_consists tables taken
      (fun _back _late others => Regex.timeFormat_consists tables others), same⟩
  case isFalse =>
    obtain ⟨captured, taken, same⟩ := strptime_takes found
    exists captured.map Prod.snd
    constructor
    · apply Regex.dateFormat_consists tables taken
      rintro back late ⟨empty, none⟩
      rw [empty, none]
      rfl
    · exact same

theorem isoLayout_noDigits : Text.NoDigits isoLayout := by
  unfold Text.NoDigits
  decide

theorem IsoDate.separated (date : IsoDate tables) :
    Text.Separated isoLayout ('-' :: date.spelled) := by
  obtain ⟨pieces, consists, _numbers⟩ := date.consists
  exact consists.separated isoLayout_noDigits

/-! ### The filter -/

/-- The fields of a time against a shorter list of numbers. -/
theorem append_lt_iff {numbers others : List Nat} (short : others.length ≤ numbers.length)
    (last : List Nat) : numbers ++ last < others ↔ numbers < others := by
  induction numbers generalizing others with
  | nil =>
      have empty : others = [] := List.eq_nil_of_length_eq_zero (Nat.le_zero.mp short)
      rw [empty]
      simp
  | cons number numbers ih =>
      cases others with
      | nil => simp
      | cons other others =>
          rw [List.cons_append, List.cons_lt_cons_iff, List.cons_lt_cons_iff,
            ih (Nat.le_of_succ_le_succ short)]

/-- Equally long lists with one more number each. -/
theorem not_snoc_lt_iff {numbers others : List Nat} (count : numbers.length = others.length)
    (last other : Nat) : ¬numbers ++ [last] < others ++ [other] ↔
      others < numbers ∨ others = numbers ∧ other ≤ last := by
  induction numbers generalizing others with
  | nil =>
      have empty : others = [] := List.eq_nil_of_length_eq_zero count.symm
      rw [empty, List.nil_append, List.nil_append, List.cons_lt_cons_iff]
      simp
  | cons number numbers ih =>
      cases others with
      | nil => cases count
      | cons next others =>
          have later := ih (Nat.succ.inj count)
          rw [List.cons_append, List.cons_append, List.cons_lt_cons_iff, List.cons_lt_cons_iff,
            List.cons.injEq]
          constructor
          · intro notBefore
            rw [not_or] at notBefore
            by_cases same : next = number
            · have rest := later.mp (fun before => notBefore.2 ⟨same.symm, before⟩)
              cases rest with
              | inl less => exact Or.inl (Or.inr ⟨same, less⟩)
              | inr equal => exact Or.inr ⟨⟨same, equal.1⟩, equal.2⟩
            · left
              left
              omega
          · rintro ((less | ⟨same, less⟩) | ⟨⟨same, equal⟩, reached⟩) before
            · omega
            · rcases before with below | ⟨_same, below⟩
              · omega
              · exact later.mpr (Or.inl less) below
            · rcases before with below | ⟨_same, below⟩
              · omega
              · exact later.mpr (Or.inr ⟨equal, reached⟩) below

theorem length_readStart_le (text : Text) : (readStart text).length ≤ 6 :=
  Text.length_standsFor_le isoLayout ('-' :: text)

/-- A stored time comes before an accepted date exactly if it is before what the date is read
as. -/
theorem isoformat_lt_iff (date : IsoDate tables) (time : DateTime) :
    time.isoformat < date.spelled ↔ time.fields < readStart date.spelled := by
  have compared := Text.stamp_lt_iff time.fraction time.wholeFields_fits date.separated
  rw [← time.isoformat_stamp, List.cons_lt_cons_iff] at compared
  rw [time.fields_eq, append_lt_iff (length_readStart_le date.spelled)]
  unfold readStart
  simpa using compared

/-- An accepted date comes before a stored time exactly if the time is not before the end that
the date is read as. -/
theorem lt_isoformat_iff (date : IsoDate tables) (time : DateTime) :
    date.spelled < time.isoformat ↔ ¬time.fields < readStop date.spelled := by
  have behind : '-' :: date.spelled < '-' :: time.isoformat ↔ date.spelled < time.isoformat := by
    rw [List.cons_lt_cons_iff]
    simp
  rw [← behind, time.isoformat_stamp]
  unfold readStop
  split
  case isTrue whole =>
    rw [Text.lt_stamp_of_complete time.fraction time.wholeFields_fits date.separated whole,
      time.fraction_ne_nil_iff, time.fields_eq]
    have count : time.wholeFields.length = (readStart date.spelled).length :=
      (Text.length_standsFor_of_complete whole).symm
    have compared := not_snoc_lt_iff count time.microsecond 1
    rw [Nat.one_le_iff_ne_zero] at compared
    exact compared.symm
  case isFalse partly =>
    rw [Text.lt_stamp_of_incomplete time.fraction time.wholeFields_fits date.separated
      (Bool.eq_false_iff.mpr partly), time.fields_eq,
      append_lt_iff (length_readStart_le date.spelled)]
    exact Iff.rfl

def dateBound (atLeast : Bool) (date : Text) : Sql.Bound :=
  { column := "modified_at".toList, atLeast, value := date }

theorem dateCondition_eq (atLeast : Bool) (date : Text) :
    dateCondition (dateBound atLeast date).operator date = (dateBound atLeast date).text := by
  unfold dateCondition
  rw [escapeSqlString_eq]
  cases atLeast with
  | false => rfl
  | true => rfl

/-- The bounds of accepted dates. -/
def dateBounds (start stop : Option (IsoDate tables)) : List Sql.Bound :=
  (start.map (fun date => dateBound true date.spelled)).toList ++
    (stop.map (fun date => dateBound false date.spelled)).toList

theorem isColumn_modifiedAt : Sql.IsColumn "modified_at".toList :=
  { filled := List.cons_ne_nil _ _
    noSpace := by decide
    noQuote := by decide }

theorem dateBounds_columns (start stop : Option (IsoDate tables)) :
    ∀ bound ∈ dateBounds start stop, bound.column = "modified_at".toList := by
  intro bound member
  unfold dateBounds at member
  rw [List.mem_append, Option.mem_toList, Option.mem_toList, Option.map_eq_some_iff,
    Option.map_eq_some_iff] at member
  rcases member with ⟨date, _given, same⟩ | ⟨date, _given, same⟩
  all_goals rw [← same]
  all_goals rfl

theorem validated_dates (dates : Option (IsoDate tables)) :
    (dates.map IsoDate.given).bind (validateIsoDate tables) = dates.map IsoDate.spelled := by
  cases dates with
  | none => rfl
  | some date => exact date.validated

/-- The filter for accepted dates is the conjunction of their bounds. -/
theorem buildDateFilter_mapping (cutoff : Nat → Text) (start stop : Option (IsoDate tables)) :
    buildDateFilter tables cutoff (.mapping (start.map IsoDate.given) (stop.map IsoDate.given)) =
      if (dateBounds start stop).isEmpty then none
      else some (Text.join " AND ".toList ((dateBounds start stop).map Sql.Bound.text)) := by
  unfold buildDateFilter
  dsimp only
  rw [validated_dates, validated_dates]
  unfold dateBounds
  have least := fun date : IsoDate tables => dateCondition_eq true date.spelled
  have most := fun date : IsoDate tables => dateCondition_eq false date.spelled
  cases start with
  | none =>
      cases stop with
      | none => rfl
      | some last => exact congrArg some (congrArg (Text.join _) (congrArg (· :: []) (most last)))
  | some first =>
      cases stop with
      | none => exact congrArg some (congrArg (Text.join _) (congrArg (· :: []) (least first)))
      | some last =>
          exact congrArg some (congrArg (Text.join _)
            (congrArg₂ (fun one other => [one, other]) (least first) (most last)))

/-- The filter lets a text through that lies within every bound. -/
theorem letsThrough_bounds {bounds : List Sql.Bound} (modifiedAt : Text)
    (columns : ∀ bound ∈ bounds, bound.column = "modified_at".toList) :
    letsThrough
      (if bounds.isEmpty then none
        else some (Text.join " AND ".toList (bounds.map Sql.Bound.text))) modifiedAt = true ↔
    ∀ bound ∈ bounds, bound.holds (fun _column => some modifiedAt) = true := by
  have sameColumn : ∀ bound ∈ bounds, bound.holds (fun column =>
      if column = "modified_at".toList then some modifiedAt else none) =
        bound.holds (fun _column => some modifiedAt) := by
    intro bound member
    unfold Sql.Bound.holds
    dsimp only
    rw [columns bound member, if_pos rfl]
  have areColumns : ∀ bound ∈ bounds, Sql.IsColumn bound.column := by
    intro bound member
    rw [columns bound member]
    exact isColumn_modifiedAt
  cases bounds with
  | nil => simp [letsThrough]
  | cons bound more =>
      have read := Sql.boundsOf_join (List.cons_ne_nil bound more) areColumns
      rw [if_neg (by simp)]
      unfold letsThrough
      dsimp only
      rw [read]
      dsimp only
      rw [List.all_eq_true]
      constructor
      · intro all other member
        rw [← sameColumn other member]
        exact all other member
      · intro all other member
        rw [sameColumn other member]
        exact all other member

theorem dateBounds_hold (start stop : Option (IsoDate tables)) (modifiedAt : Text) :
    (∀ bound ∈ dateBounds start stop, bound.holds (fun _column => some modifiedAt) = true) ↔
      (∀ date, start = some date → ¬modifiedAt < date.spelled) ∧
        (∀ date, stop = some date → ¬date.spelled < modifiedAt) := by
  have least (date : IsoDate tables) :
      (dateBound true date.spelled).holds (fun _column => some modifiedAt) = true ↔
        ¬modifiedAt < date.spelled := by
    change (!decide _) = true ↔ _
    rw [Bool.not_eq_true', decide_eq_false_iff_not]
    exact Iff.rfl
  have most (date : IsoDate tables) :
      (dateBound false date.spelled).holds (fun _column => some modifiedAt) = true ↔
        ¬date.spelled < modifiedAt := by
    change (!decide _) = true ↔ _
    rw [Bool.not_eq_true', decide_eq_false_iff_not]
    exact Iff.rfl
  unfold dateBounds
  rw [List.forall_mem_append]
  apply and_congr
  · cases start with
    | none => simp
    | some first => simp [least first]
  · cases stop with
    | none => simp
    | some last => simp [most last]

/-- A stored time gets through exactly if it lies in the range the dates are read as. -/
theorem buildDateFilter_reads (cutoff : Nat → Text) (start stop : Option (IsoDate tables))
    (time : DateTime) :
    letsThrough (buildDateFilter tables cutoff
      (.mapping (start.map IsoDate.given) (stop.map IsoDate.given))) time.isoformat = true ↔
    InReadRange start stop time := by
  rw [buildDateFilter_mapping, letsThrough_bounds _ (dateBounds_columns start stop),
    dateBounds_hold]
  unfold InReadRange
  constructor
  · intro within
    constructor
    · intro date isStart
      rw [← isoformat_lt_iff]
      exact within.1 date isStart
    · intro date isStop
      apply Decidable.of_not_not
      rw [← lt_isoformat_iff]
      exact within.2 date isStop
  · intro within
    constructor
    · intro date isStart
      rw [isoformat_lt_iff]
      exact within.1 date isStart
    · intro date isStop
      rw [lt_isoformat_iff, not_not]
      exact within.2 date isStop

/-! ### When the filter is right -/

/-- The time lies between the first instant of a date and the one its text stands for. -/
def DateTime.StartDisplaced (time : DateTime) (date : IsoDate tables) : Prop :=
  ¬(time.fields < firstInstant date.numbers ↔ time.fields < readStart date.spelled)

/-- The time lies between the end of a date and the end its text stands for. -/
def DateTime.StopDisplaced (time : DateTime) (date : IsoDate tables) : Prop :=
  ¬(¬lastInstant date.numbers < time.fields ↔ time.fields < readStop date.spelled)

/-- No bound is displaced at a time, or the time is outside of the range that is meant and of the
one that is read. -/
def ReadAsMeant (start stop : Option (IsoDate tables)) (time : DateTime) : Prop :=
  ((∀ date, start = some date → ¬time.StartDisplaced date) ∧
    (∀ date, stop = some date → ¬time.StopDisplaced date)) ∨
  (¬InDateRange start stop time ∧ ¬InReadRange start stop time)

/-- The two ranges agree about a time exactly if no bound is displaced there, or both leave the
time out. -/
theorem ranges_agree_iff (start stop : Option (IsoDate tables)) (time : DateTime) :
    (InReadRange start stop time ↔ InDateRange start stop time) ↔ ReadAsMeant start stop time := by
  unfold ReadAsMeant
  constructor
  · intro agree
    by_cases inside : InDateRange start stop time
    · have read := agree.mpr inside
      left
      constructor
      · intro date isStart displaced
        exact displaced (iff_of_false (inside.1 date isStart) (read.1 date isStart))
      · intro date isStop displaced
        exact displaced (iff_of_true (inside.2 date isStop) (read.2 date isStop))
    · exact Or.inr ⟨inside, fun read => inside (agree.mp read)⟩
  · intro undisplaced
    cases undisplaced with
    | inr outside => exact iff_of_false outside.2 outside.1
    | inl undisplaced =>
        constructor
        · intro read
          constructor
          · intro date isStart
            rw [not_not.mp (undisplaced.1 date isStart)]
            exact read.1 date isStart
          · intro date isStop
            exact (not_not.mp (undisplaced.2 date isStop)).mpr (read.2 date isStop)
        · intro inside
          constructor
          · intro date isStart
            rw [← not_not.mp (undisplaced.1 date isStart)]
            exact inside.1 date isStart
          · intro date isStop
            exact (not_not.mp (undisplaced.2 date isStop)).mp (inside.2 date isStop)

/-! ### Dates that are written in full -/

/-- Every field has all its digits. -/
def IsoDate.InFull (date : IsoDate tables) : Prop :=
  Text.inFull isoLayout ('-' :: date.spelled) = true

theorem readNumber_digits {piece : Text} (digits : ∀ char ∈ piece, char.isDigit = true) :
    readNumber tables piece = Text.numeral piece := by
  have start : Text.lstrip piece = piece := by
    cases piece with
    | nil => rfl
    | cons head tail =>
        have isDigit := (Text.isDigit_iff head).mp (digits head List.mem_cons_self)
        have noSpace : Text.isSpace head = false := by
          unfold Text.isSpace
          simp
          omega
        unfold Text.lstrip
        rw [List.dropWhile_cons_of_neg (by rw [noSpace]; decide)]
  unfold readNumber Text.numeral
  rw [start]
  apply List.foldl_ext
  intro number char member
  have isDigit := digits char member
  have range := (Text.isDigit_iff char).mp isDigit
  rw [tables.decimal_ascii char (by omega), if_pos isDigit]
  rfl

/-- A date in full is read as the numbers it has. -/
theorem readStart_of_full {date : IsoDate tables} (full : date.InFull) :
    readStart date.spelled = date.numbers := by
  obtain ⟨pieces, consists, numbers⟩ := date.consists
  have reading := consists.standsFor_eq isoLayout_noDigits full
  unfold readStart
  rw [reading.1, numbers]
  apply List.map_congr_left
  intro piece member
  exact (readNumber_digits (reading.2 piece member)).symm

/-- The numbers of a day, or of a second. -/
theorem IsoDate.numbers_shape (date : IsoDate tables) :
    (∃ year month day, date.numbers = [year, month, day]) ∨
      ∃ year month day hour minute second,
        date.numbers = [year, month, day, hour, minute, second] := by
  obtain ⟨numbers, found⟩ := Option.isSome_iff_exists.mp date.isoNumbers_spelled
  have given : date.numbers = numbers := by
    unfold IsoDate.numbers
    rw [found]
    rfl
  have valid : ∀ format, strptime tables format date.spelled = some numbers →
      validNumbers numbers = true := by
    intro format accepted
    unfold strptime at accepted
    split at accepted
    · cases accepted
    · dsimp only at accepted
      split at accepted
      case isTrue ended =>
        rw [Bool.and_eq_true] at ended
        rw [← Option.some.inj accepted]
        exact ended.2
      case isFalse => cases accepted
  have shaped : validNumbers numbers = true := by
    unfold isoNumbers at found
    split at found
    · exact valid _ found
    · exact valid _ found
  rw [given]
  unfold validNumbers at shaped
  split at shaped
  · exact Or.inl ⟨_, _, _, rfl⟩
  · exact Or.inr ⟨_, _, _, _, _, _, rfl⟩
  · cases shaped

theorem readStop_of_full {date : IsoDate tables} (full : date.InFull) :
    readStop date.spelled =
      if date.numbers.length = 6 then date.numbers ++ [1] else date.numbers := by
  have complete_iff := Text.complete_iff_of_inFull full
  have start := readStart_of_full full
  unfold readStart at start
  rw [start] at complete_iff
  unfold readStop readStart
  rw [start]
  apply if_congr complete_iff rfl rfl

/-- The first bound in full is never displaced. -/
theorem not_startDisplaced_of_full {date : IsoDate tables} (full : date.InFull)
    (time : DateTime) : ¬time.StartDisplaced date := by
  unfold DateTime.StartDisplaced
  rw [not_not, readStart_of_full full]
  unfold DateTime.fields firstInstant
  rcases date.numbers_shape with ⟨year, month, day, shape⟩ |
      ⟨year, month, day, hour, minute, second, shape⟩
  all_goals
    rw [shape]
    simp [List.cons_lt_cons_iff]

/-- The second bound in full is displaced on its own day, or within its own second. -/
theorem stopDisplaced_iff_of_full {date : IsoDate tables} (full : date.InFull)
    (time : DateTime) :
    time.StopDisplaced date ↔
      time.fields.take date.numbers.length = date.numbers ∧
        (date.numbers.length = 6 → time.microsecond ≠ 0) := by
  have clock := time.time_valid
  have fraction := time.microsecond_valid
  unfold validTime at clock
  rw [decide_eq_true_iff] at clock
  unfold DateTime.StopDisplaced
  rw [readStop_of_full full]
  unfold DateTime.fields lastInstant
  rcases date.numbers_shape with ⟨year, month, day, shape⟩ |
      ⟨year, month, day, hour, minute, second, shape⟩
  · rw [shape]
    simp [List.cons_lt_cons_iff]
    omega
  · rw [shape]
    simp [List.cons_lt_cons_iff]
    omega

theorem not_lastInstant_lt {date : IsoDate tables} (full : date.InFull) {time : DateTime}
    (before : time.fields < readStop date.spelled) : ¬lastInstant date.numbers < time.fields := by
  rw [readStop_of_full full] at before
  unfold DateTime.fields at before ⊢
  unfold lastInstant
  rcases date.numbers_shape with ⟨year, month, day, shape⟩ |
      ⟨year, month, day, hour, minute, second, shape⟩
  · rw [shape] at before ⊢
    simp [List.cons_lt_cons_iff] at before ⊢
    omega
  · rw [shape] at before ⊢
    simp [List.cons_lt_cons_iff] at before ⊢
    omega

/-- With both dates in full only the end is displaced: the notes of the last day get lost, or
those of the last second that have a fraction. -/
theorem readAsMeant_iff_of_full {start stop : Option (IsoDate tables)}
    (startFull : ∀ date, start = some date → date.InFull)
    (stopFull : ∀ date, stop = some date → date.InFull) (time : DateTime) :
    ReadAsMeant start stop time ↔
      (InDateRange start stop time → ∀ date, stop = some date →
        ¬(time.fields.take date.numbers.length = date.numbers ∧
          (date.numbers.length = 6 → time.microsecond ≠ 0))) := by
  unfold ReadAsMeant
  constructor
  · intro asMeant inside date isStop
    rw [← stopDisplaced_iff_of_full (stopFull date isStop)]
    cases asMeant with
    | inl undisplaced => exact undisplaced.2 date isStop
    | inr outside => exact absurd inside outside.1
  · intro beforeEnd
    by_cases inside : InDateRange start stop time
    · left
      constructor
      · intro date isStart
        exact not_startDisplaced_of_full (startFull date isStart) time
      · intro date isStop
        rw [stopDisplaced_iff_of_full (stopFull date isStop)]
        exact beforeEnd inside date isStop
    · right
      constructor
      · exact inside
      · intro read
        apply inside
        constructor
        · intro date isStart
          rw [not_not.mp (not_startDisplaced_of_full (startFull date isStart) time)]
          exact read.1 date isStart
        · intro date isStop
          exact not_lastInstant_lt (stopFull date isStop) (read.2 date isStop)

/-- The filter keeps a note exactly when its time is in the range, if and only if the range is
read as it is meant at that time. -/
theorem buildDateFilter_exact_iff (cutoff : Nat → Text) (start stop : Option (IsoDate tables))
    (time : DateTime) :
    (letsThrough (buildDateFilter tables cutoff
        (.mapping (start.map IsoDate.given) (stop.map IsoDate.given))) time.isoformat = true ↔
      InDateRange start stop time) ↔
    ReadAsMeant start stop time := by
  rw [buildDateFilter_reads]
  exact ranges_agree_iff start stop time

end

/-! ### The last day is left out -/

def asciiDigits : DigitTables :=
  { decimal := fun char => if char.isDigit then some (Text.digitValue char) else none
    decimal_ascii := fun _char _ascii => rfl }

def fifthOfJanuary : IsoDate asciiDigits :=
  { given := "2026-01-05".toList
    accepted := by decide }

/-- Ten o'clock on that day. -/
def thatMorning : DateTime :=
  { year := 2026, month := 1, day := 5, hour := 10, minute := 0, second := 0, microsecond := 0
    date_valid := by decide
    time_valid := by decide
    microsecond_valid := by decide }

example : fifthOfJanuary.numbers = [2026, 1, 5] := by decide

example : thatMorning.isoformat = "2026-01-05T10:00:00".toList := by decide

example : readStart "2026-1-5".toList = [2026, 10] := by decide

theorem last_day_filtered_out :
    ¬∀ (tables : DigitTables) (cutoff : Nat → Text) (start stop : Option (IsoDate tables))
      (time : DateTime),
      letsThrough (buildDateFilter tables cutoff
          (.mapping (start.map IsoDate.given) (stop.map IsoDate.given))) time.isoformat = true ↔
        InDateRange start stop time := by
  intro always
  have inside : InDateRange none (some fifthOfJanuary) thatMorning := by
    constructor
    · intro date impossible
      cases impossible
    · intro date isStop
      rw [← Option.some.inj isStop]
      decide
  have kept := (always asciiDigits (fun _days => []) none (some fifthOfJanuary) thatMorning).mpr
    inside
  exact absurd kept (by decide)

end VaultSearch
