import DotBackend.Data.Digits

/-!
# Dates and times in ISO 8601

The readers `date.fromisoformat` and `time.fromisoformat`, and the writers `date.isoformat` and
`time.isoformat(timespec="minutes")`. The readers accept what CPython 3.12
accepts, which is more than the standard knows: what follows the day of a date is ignored, and
so is what stands between a time and its offset, within limits. One spelling is written, and
it is read back as what was written.
-/

namespace DotBackend.Data.Iso

/-- The text behind a separator, in a text that separates its fields or one that does not. -/
def afterSeparator (separator : Char) (separated : Bool) (text : List Char) :
    Option (List Char) :=
  if separated then if text.head? = some separator then some text.tail else none
  else some text

/-! ## Dates -/

structure IsoDate where
  year : Nat
  month : Nat
  day : Nat
  deriving DecidableEq

def isLeapYear (year : Nat) : Bool :=
  year % 4 = 0 && (year % 100 ≠ 0 || year % 400 = 0)

def daysInMonth (year : Nat) : Nat → Nat
  | 2 => if isLeapYear year then 29 else 28
  | 4 | 6 | 9 | 11 => 30
  | _ => 31

/-- The date exists, in a year that `date` can hold. -/
def IsoDate.Valid (date : IsoDate) : Prop :=
  (1 ≤ date.year ∧ date.year ≤ 9999) ∧ (1 ≤ date.month ∧ date.month ≤ 12) ∧
    1 ≤ date.day ∧ date.day ≤ daysInMonth date.year date.month

instance (date : IsoDate) : Decidable date.Valid :=
  inferInstanceAs (Decidable (_ ∧ _))

/-- The ordinal of the first day of a year. -/
def firstDay (year : Nat) : Nat :=
  let before := year - 1
  before * 365 + before / 4 - before / 100 + before / 400 + 1

/-- The month and the day of a day of the year, counted from zero. -/
def monthAndDay (year : Nat) : List Nat → Nat → Nat × Nat
  | [], passed => (12, passed + 1)
  | month :: later, passed =>
      if passed < daysInMonth year month then (month, passed + 1)
      else monthAndDay year later (passed - daysInMonth year month)

/-- `date.fromordinal`. -/
def ofOrdinal (ordinal : Nat) : IsoDate :=
  let passed := ordinal - 1
  let quadricenturies := passed / 146097
  let centuries := passed % 146097 / 36524
  let quadrennia := passed % 146097 % 36524 / 1461
  let years := passed % 146097 % 36524 % 1461 / 365
  let year := 400 * quadricenturies + 100 * centuries + 4 * quadrennia + years + 1
  if years = 4 ∨ centuries = 4 then ⟨year - 1, 12, 31⟩
  else
    let (month, day) := monthAndDay year (List.range' 1 12) (passed % 146097 % 36524 % 1461 % 365)
    ⟨year, month, day⟩

/-- `date.fromisocalendar`; Monday is the first day of a week. -/
def ofWeek (year week day : Nat) : Option IsoDate :=
  let firstWeekday := (firstDay year + 6) % 7
  let isLong := firstWeekday = 3 ∨ (firstWeekday = 2 ∧ isLeapYear year)
  let firstMonday := firstDay year - firstWeekday + if 3 < firstWeekday then 7 else 0
  if 1 ≤ year ∧ 1 ≤ week ∧ (week ≤ 52 ∨ (week = 53 ∧ isLong)) ∧ 1 ≤ day ∧ day ≤ 7 then
    some (ofOrdinal (firstMonday + (week - 1) * 7 + (day - 1)))
  else none

/-- What follows the year: a week and perhaps a day of the week, or a month and a day. What
follows the day is ignored. -/
def readDay (year : Nat) (separated : Bool) (text : List Char) : Option IsoDate :=
  if text.head? = some 'W' then do
    let (week, rest) ← takeDigits 2 text.tail
    if rest = [] then ofWeek year week 1
    else do
      let rest ← afterSeparator '-' separated rest
      let (day, _) ← takeDigits 1 rest
      ofWeek year week day
  else do
    let (month, rest) ← takeDigits 2 text
    let rest ← afterSeparator '-' separated rest
    let (day, _) ← takeDigits 2 rest
    some ⟨year, month, day⟩

/-- The number of bytes of a text in UTF-8. -/
def byteLength (text : List Char) : Nat :=
  (text.map Char.utf8Size).sum

/-- `date.fromisoformat`, with `none` for `ValueError`. -/
def readDate (text : List Char) : Option IsoDate := do
  if byteLength text ∈ [7, 8, 10] then
    let (year, rest) ← takeDigits 4 text
    let separated := rest.head? = some '-'
    let date ← readDay year separated (if separated then rest.tail else rest)
    if date.Valid then some date else none
  else none

/-- `date.isoformat`. -/
def writeDate (date : IsoDate) : List Char :=
  digits 4 date.year ++ '-' :: (digits 2 date.month ++ '-' :: digits 2 date.day)

theorem valid_of_readDate {text : List Char} {date : IsoDate} (reads : readDate text = some date) :
    date.Valid := by
  rw [readDate] at reads
  split at reads
  · simp only [Option.bind_eq_bind, Option.bind_eq_some_iff] at reads
    rcases reads with ⟨_, _, found, _, reads⟩
    split at reads
    · rename_i valid
      cases reads
      exact valid
    · cases reads
  · cases reads

theorem head?_digits_ne {count n : Nat} {rest : List Char} {c : Char} (positive : 0 < count)
    (notDigit : c.isDigit = false) : (digits count n ++ rest).head? ≠ some c := by
  intro isFirst
  cases written : digits count n with
  | nil =>
      have empty := length_digits count n
      rw [written] at empty
      exact absurd positive (Nat.not_lt.mpr (Nat.le_of_eq empty.symm))
  | cons first others =>
      rw [written] at isFirst
      cases isFirst
      have isDigit : c.isDigit = true :=
        isDigit_of_mem_digits (written ▸ List.mem_cons_self)
      rw [notDigit] at isDigit
      cases isDigit

theorem daysInMonth_le (year month : Nat) : daysInMonth year month ≤ 31 := by
  unfold daysInMonth
  split
  · split <;> decide
  · decide
  · decide
  · decide
  · decide
  · decide

theorem byteLength_eq_length {text : List Char} (single : ∀ c ∈ text, c.utf8Size = 1) :
    byteLength text = text.length := by
  induction text with
  | nil => rfl
  | cons c rest ih =>
      rcases List.forall_mem_cons.mp single with ⟨first, others⟩
      have later := ih others
      rw [byteLength] at later
      rw [byteLength, List.map_cons, List.sum_cons, later, first, List.length_cons, Nat.add_comm]

theorem utf8Size_digit {c : Char} (isDigit : c.isDigit = true) : c.utf8Size = 1 := by
  rw [Char.isDigit, Bool.and_eq_true, decide_eq_true_eq, decide_eq_true_eq] at isDigit
  have upper : c.val.toNat ≤ 57 := isDigit.2
  rw [Char.utf8Size_eq_one_iff, UInt32.le_iff_toNat_le]
  exact Nat.le_trans upper (by decide)

theorem byteLength_writeDate (date : IsoDate) : byteLength (writeDate date) = 10 := by
  have single : ∀ c ∈ writeDate date, c.utf8Size = 1 := by
    intro c cMem
    simp only [writeDate, List.mem_append, List.mem_cons] at cMem
    rcases cMem with isYear | rfl | isMonth | rfl | isDay
    · exact utf8Size_digit (isDigit_of_mem_digits isYear)
    · rfl
    · exact utf8Size_digit (isDigit_of_mem_digits isMonth)
    · rfl
    · exact utf8Size_digit (isDigit_of_mem_digits isDay)
  rw [byteLength_eq_length single]
  simp [writeDate, length_digits]

/-- A date that is written is read back. -/
theorem readDate_writeDate {date : IsoDate} (valid : date.Valid) :
    readDate (writeDate date) = some date := by
  rcases date with ⟨year, month, day⟩
  have bounds := valid
  rcases bounds with ⟨⟨_, yearSmall⟩, ⟨_, monthSmall⟩, _, daySmall⟩
  have dayWithin := Nat.le_trans daySmall (daysInMonth_le year month)
  dsimp only at yearSmall monthSmall dayWithin
  have yearDigits : year < 10 ^ 4 := by omega
  have notWeek : (digits 2 month ++ '-' :: digits 2 day).head? ≠ some 'W' :=
    head?_digits_ne (by decide) (by decide)
  have readsDay : readDay year true (digits 2 month ++ '-' :: digits 2 day) =
      some ⟨year, month, day⟩ := by
    have lastDigits : takeDigits 2 (digits 2 day) = some (day, []) := by
      have written := takeDigits_digits (show day < 10 ^ 2 by omega) []
      rwa [List.append_nil] at written
    rw [readDay, if_neg notWeek, takeDigits_digits (by omega)]
    simp [afterSeparator, lastDigits]
  rw [readDate, byteLength_writeDate, if_pos (by decide), writeDate, takeDigits_digits yearDigits]
  simp [readsDay, valid]

/-- A day of a week is written as a day of a month. -/
example : (readDate "2026-W33-1".toList).map writeDate = some "2026-08-10".toList := by
  decide

/-! ## Times -/

/-- A reading of a clock, or the size of an offset. -/
structure Clock where
  hour : Nat
  minute : Nat
  second : Nat
  microsecond : Nat
  deriving DecidableEq

/-- A fraction of a second, and whether something is left behind it; digits past the sixth
are dropped. -/
def readFraction (text : List Char) : Option (Nat × Bool) :=
  let count := min 6 text.length
  (takeDigits count text).map fun (value, rest) =>
    (value * 10 ^ (6 - count), !rest.all Char.isDigit)

/-- What follows a field of two digits. -/
inductive AfterField
  | nothing (isLeftOver : Bool)
  | field (separated : Bool) (text : List Char)
  | fraction (text : List Char)

/-- Whether fields are separated is seen behind the first. -/
def afterField (separated : Option Bool) : List Char → Option AfterField
  | [] => some (.nothing false)
  | [c] => if c.toNat < 128 then some (.nothing true) else none
  | c :: rest =>
      let separated := separated.getD (c = ':')
      if separated ∧ c = ':' then some (.field separated rest)
      else if c = '.' ∨ c = ',' then some (.fraction rest)
      else if separated then none
      else some (.field separated (c :: rest))

/-- The fields, the fraction, and whether something is left. -/
def readFields : Nat → Option Bool → List Char → Option (List Nat × Nat × Bool)
  | 0, _, text => (readFraction text).map fun fraction => ([], fraction)
  | count + 1, separated, text => do
      let (value, rest) ← takeDigits 2 text
      match ← afterField separated rest with
      | .nothing isLeftOver => some ([value], 0, isLeftOver)
      | .field separated rest => do
          let (values, fraction) ← readFields count (some separated) rest
          some (value :: values, fraction)
      | .fraction rest => do
          let fraction ← readFraction rest
          some ([value], fraction)

/-- Hours, minutes, seconds and a fraction, of which the later ones may be missing, and whether
something is left. -/
def readClock (text : List Char) : Option (Clock × Bool) := do
  let (values, microsecond, isLeftOver) ← readFields 3 none text
  some (⟨values.getD 0 0, values.getD 1 0, values.getD 2 0, microsecond⟩, isLeftOver)

/-- An offset from UTC; none is written with a minus that has no whole second. -/
structure Offset where
  isNegative : Bool
  seconds : Nat
  microseconds : Nat
  deriving DecidableEq

def Offset.utc : Offset :=
  ⟨false, 0, 0⟩

/-- The offset behind the time of day. -/
def readOffset : List Char → Option Offset
  | [] => none
  | sign :: rest =>
      if sign = 'Z' then if rest = [] then some Offset.utc else none
      else do
        let (clock, isLeftOver) ← readClock rest
        let seconds := clock.hour * 3600 + clock.minute * 60 + clock.second
        if isLeftOver then none
        else if seconds = 0 then some Offset.utc
        else if seconds < 86400 then some ⟨sign = '-', seconds, clock.microsecond⟩
        else none

/-- A time of day without its seconds, which are not written. -/
structure IsoTime where
  hour : Nat
  minute : Nat
  offset : Option Offset
  deriving DecidableEq

def startsOffset (c : Char) : Bool :=
  c = '+' ∨ c = '-' ∨ c = 'Z'

/-- What follows the clock. What is left of the clock may only stand in front of an offset. -/
def readZone (isLeftOver : Bool) : List Char → Option (Option Offset)
  | [] => if isLeftOver then none else some none
  | zone => (readOffset zone).map some

/-- `time.fromisoformat`, with `none` for `ValueError`. -/
def readTime (text : List Char) : Option IsoTime := do
  let body := if text.head? = some 'T' then text.tail else text
  let (clock, isLeftOver) ← readClock (body.takeWhile fun c => !startsOffset c)
  let offset ← readZone isLeftOver (body.dropWhile fun c => !startsOffset c)
  if clock.hour < 24 ∧ clock.minute < 60 ∧ clock.second < 60 then
    some ⟨clock.hour, clock.minute, offset⟩
  else none

def writeOffset (offset : Offset) : List Char :=
  (if offset.isNegative then '-' else '+') ::
    (digits 2 (offset.seconds / 3600) ++ ':' :: (digits 2 (offset.seconds / 60 % 60) ++
      if offset.microseconds ≠ 0 then
        ':' :: (digits 2 (offset.seconds % 60) ++ '.' :: digits 6 offset.microseconds)
      else if offset.seconds % 60 ≠ 0 then ':' :: digits 2 (offset.seconds % 60)
      else []))

/-- `time.isoformat(timespec="minutes")`. -/
def writeTime (time : IsoTime) : List Char :=
  digits 2 time.hour ++ ':' :: (digits 2 time.minute ++ time.offset.elim [] writeOffset)

/-! ## Times that are written -/

/-- An offset is less than a day, and has a whole second unless it is UTC. -/
def Offset.Valid (offset : Offset) : Prop :=
  offset.seconds < 86400 ∧ offset.microseconds < 10 ^ 6 ∧
    (offset.seconds = 0 → offset = Offset.utc)

def IsoTime.Valid (time : IsoTime) : Prop :=
  time.hour < 24 ∧ time.minute < 60 ∧ ∀ offset, time.offset = some offset → offset.Valid

theorem readFraction_lt {text : List Char} {microsecond : Nat} {isLeftOver : Bool}
    (reads : readFraction text = some (microsecond, isLeftOver)) : microsecond < 10 ^ 6 := by
  simp only [readFraction, Option.map_eq_some_iff, Prod.mk.injEq] at reads
  rcases reads with ⟨⟨value, rest⟩, found, rfl, _⟩
  have small := takeDigits_lt found
  have atMost : min 6 text.length ≤ 6 := Nat.min_le_left _ _
  calc value * 10 ^ (6 - min 6 text.length)
      < 10 ^ min 6 text.length * 10 ^ (6 - min 6 text.length) :=
        Nat.mul_lt_mul_of_pos_right small (Nat.pow_pos (by decide))
    _ = 10 ^ 6 := by rw [← Nat.pow_add, Nat.add_sub_cancel' atMost]

theorem readFields_lt {count : Nat} {separated : Option Bool} {text : List Char}
    {values : List Nat} {microsecond : Nat} {isLeftOver : Bool}
    (reads : readFields count separated text = some (values, microsecond, isLeftOver)) :
    microsecond < 10 ^ 6 := by
  induction count generalizing separated text values with
  | zero =>
      simp only [readFields, Option.map_eq_some_iff, Prod.mk.injEq] at reads
      rcases reads with ⟨fraction, found, _, rfl⟩
      exact readFraction_lt found
  | succ count ih =>
      simp only [readFields, Option.bind_eq_bind, Option.bind_eq_some_iff] at reads
      rcases reads with ⟨⟨value, rest⟩, _, next, _, reads⟩
      cases next with
      | nothing isLeftOver =>
          cases reads
          decide
      | field separated rest =>
          simp only [Option.bind_eq_some_iff, Option.some.injEq, Prod.mk.injEq] at reads
          rcases reads with ⟨⟨later, fraction⟩, found, _, rfl⟩
          exact ih found
      | fraction rest =>
          simp only [Option.bind_eq_some_iff, Option.some.injEq, Prod.mk.injEq] at reads
          rcases reads with ⟨fraction, found, _, rfl⟩
          exact readFraction_lt found

theorem valid_of_readOffset {text : List Char} {offset : Offset}
    (reads : readOffset text = some offset) : offset.Valid := by
  have utcValid : Offset.utc.Valid := ⟨by decide, by decide, fun _ => rfl⟩
  cases text with
  | nil => cases reads
  | cons sign rest =>
      rw [readOffset] at reads
      split at reads
      · split at reads
        · cases reads
          exact utcValid
        · cases reads
      · simp only [Option.bind_eq_bind, Option.bind_eq_some_iff] at reads
        rcases reads with ⟨⟨clock, isLeftOver⟩, found, reads⟩
        simp only [readClock, Option.bind_eq_bind, Option.bind_eq_some_iff, Option.some.injEq,
          Prod.mk.injEq] at found
        rcases found with ⟨⟨values, microsecond, left⟩, fields, rfl, rfl⟩
        have small := readFields_lt fields
        dsimp only at reads
        split at reads
        · cases reads
        · split at reads
          · cases reads
            exact utcValid
          · rename_i notZero
            split at reads
            · rename_i withinDay
              cases reads
              exact ⟨withinDay, small, fun isZero => absurd isZero notZero⟩
            · cases reads

theorem valid_of_readTime {text : List Char} {time : IsoTime} (reads : readTime text = some time) :
    time.Valid := by
  simp only [readTime, Option.bind_eq_bind, Option.bind_eq_some_iff] at reads
  rcases reads with ⟨⟨clock, isLeftOver⟩, _, offset, isOffset, reads⟩
  split at reads
  · rename_i within
    cases reads
    constructor
    · exact within.1
    constructor
    · exact within.2.1
    · rintro found rfl
      rw [readZone.eq_def] at isOffset
      split at isOffset
      · split at isOffset <;> cases isOffset
      · simp only [Option.map_eq_some_iff, Option.some.injEq] at isOffset
        rcases isOffset with ⟨_, reads, rfl⟩
        exact valid_of_readOffset reads
  · cases reads

section Fields

variable {count n : Nat} {separated : Option Bool}

theorem readFields_last (small : n < 100) :
    readFields (count + 1) separated (digits 2 n) = some ([n], 0, false) := by
  have reads := takeDigits_digits (show n < 10 ^ 2 from small) []
  rw [List.append_nil] at reads
  rw [readFields, reads]
  rfl

theorem readFields_field (small : n < 100) (isSeparated : separated.getD true = true)
    {rest : List Char} (more : rest ≠ []) :
    readFields (count + 1) separated (digits 2 n ++ ':' :: rest) =
      (readFields count (some true) rest).map fun found => (n :: found.1, found.2) := by
  have next : afterField separated (':' :: rest) = some (.field true rest) := by
    cases rest with
    | nil => exact absurd rfl more
    | cons c rest =>
        rw [afterField]
        · simp [isSeparated]
        · intro single
          cases single
  rw [readFields, takeDigits_digits (show n < 10 ^ 2 from small)]
  simp only [Option.bind_eq_bind, Option.bind_some, next]
  cases readFields count (some true) rest <;> rfl

theorem readFields_fraction {microsecond : Nat} (small : n < 100)
    (smallFraction : microsecond < 10 ^ 6) :
    readFields (count + 1) (some true) (digits 2 n ++ '.' :: digits 6 microsecond) =
      some ([n], microsecond, false) := by
  have next : afterField (some true) ('.' :: digits 6 microsecond) =
      some (.fraction (digits 6 microsecond)) := by
    cases written : digits 6 microsecond with
    | nil =>
        have length := length_digits 6 microsecond
        rw [written] at length
        cases length
    | cons c rest =>
        rw [afterField]
        · simp
        · intro single
          cases single
  have fraction : readFraction (digits 6 microsecond) = some (microsecond, false) := by
    have reads := takeDigits_digits smallFraction []
    rw [List.append_nil] at reads
    simp [readFraction, length_digits, reads]
  rw [readFields, takeDigits_digits (show n < 10 ^ 2 from small)]
  simp only [Option.bind_eq_bind, Option.bind_some, next, fraction]

end Fields

theorem digits_ne_nil {count n : Nat} (rest : List Char) : digits (count + 1) n ++ rest ≠ [] := by
  intro empty
  have length := congrArg List.length empty
  rw [List.length_append, length_digits, List.length_nil] at length
  omega

/-- An offset that is written is read back. -/
theorem readOffset_writeOffset {offset : Offset} (valid : offset.Valid) :
    readOffset (writeOffset offset) = some offset := by
  rcases offset with ⟨isNegative, seconds, microseconds⟩
  rcases valid with ⟨withinDay, smallFraction, isUtc⟩
  dsimp only at withinDay smallFraction isUtc
  have hourSmall : seconds / 3600 < 100 := by omega
  have minuteSmall : seconds / 60 % 60 < 100 := by omega
  have secondSmall : seconds % 60 < 100 := by omega
  have total : seconds / 3600 * 3600 + seconds / 60 % 60 * 60 + seconds % 60 = seconds := by omega
  -- the fields behind the hour
  have fields : readFields 3 none (digits 2 (seconds / 3600) ++ ':' ::
      (digits 2 (seconds / 60 % 60) ++
        if microseconds ≠ 0 then ':' :: (digits 2 (seconds % 60) ++ '.' :: digits 6 microseconds)
        else if seconds % 60 ≠ 0 then ':' :: digits 2 (seconds % 60) else [])) =
      some (if microseconds ≠ 0 ∨ seconds % 60 ≠ 0 then
          [seconds / 3600, seconds / 60 % 60, seconds % 60]
        else [seconds / 3600, seconds / 60 % 60], microseconds, false) := by
    have isSeparated : (some true).getD true = true := rfl
    rw [readFields_field hourSmall rfl (digits_ne_nil _)]
    by_cases hasFraction : microseconds = 0
    · by_cases hasSecond : seconds % 60 = 0
      · simp [hasFraction, hasSecond, readFields_last minuteSmall]
      · have more : digits 2 (seconds % 60) ≠ [] := by
          have written : digits 2 (seconds % 60) ++ [] ≠ [] := digits_ne_nil []
          rwa [List.append_nil] at written
        simp [hasFraction, hasSecond, readFields_field minuteSmall isSeparated more,
          readFields_last secondSmall]
    · simp [hasFraction, readFields_field minuteSmall isSeparated (digits_ne_nil _),
        readFields_fraction secondSmall smallFraction]
  have signNotZ : (if isNegative then '-' else '+') ≠ 'Z' := by cases isNegative <;> decide
  have sign : decide ((if isNegative then '-' else '+') = '-') = isNegative := by
    cases isNegative <;> decide
  have clock : readClock (writeOffset ⟨isNegative, seconds, microseconds⟩).tail =
      some (⟨seconds / 3600, seconds / 60 % 60, seconds % 60, microseconds⟩, false) := by
    rw [writeOffset, List.tail_cons, readClock, fields]
    by_cases hasFraction : microseconds = 0
    · by_cases hasSecond : seconds % 60 = 0
      · simp [hasFraction, hasSecond]
      · simp [hasFraction, hasSecond]
    · simp [hasFraction]
  have splits : writeOffset ⟨isNegative, seconds, microseconds⟩ =
      (if isNegative then '-' else '+') :: (writeOffset ⟨isNegative, seconds, microseconds⟩).tail :=
    rfl
  rw [splits, readOffset, if_neg signNotZ, clock]
  simp only [Option.bind_eq_bind, Option.bind_some, total, sign]
  by_cases isZero : seconds = 0
  · rw [isUtc isZero] at *
    simp [isZero]
  · simp [isZero, withinDay]

/-- A time that is written is read back. -/
theorem readTime_writeTime {time : IsoTime} (valid : time.Valid) :
    readTime (writeTime time) = some time := by
  rcases time with ⟨hour, minute, offset⟩
  rcases valid with ⟨hourSmall, minuteSmall, offsetValid⟩
  dsimp only at hourSmall minuteSmall offsetValid
  have hourDigits : hour < 100 := by omega
  have minuteDigits : minute < 100 := by omega
  -- the offset starts at the first character that no clock has
  have noOffset : ∀ c ∈ digits 2 hour ++ ':' :: digits 2 minute, (!startsOffset c) = true := by
    have notDigit : ∀ {c : Char}, c.isDigit = true → (!startsOffset c) = true := by
      intro c isDigit
      by_cases starts : c = '+' ∨ c = '-' ∨ c = 'Z'
      · rcases starts with rfl | rfl | rfl <;> cases isDigit
      · simp [startsOffset, starts]
    intro c cMem
    rw [List.mem_append, List.mem_cons] at cMem
    rcases cMem with isHour | rfl | isMinute
    · exact notDigit (isDigit_of_mem_digits isHour)
    · rfl
    · exact notDigit (isDigit_of_mem_digits isMinute)
  have zoneFirst : ∀ c, (offset.elim [] writeOffset).head? = some c → startsOffset c = true := by
    intro c isFirst
    cases offset with
    | none => cases isFirst
    | some offset =>
        cases isFirst
        cases offset.isNegative <;> rfl
  have clock : readClock (digits 2 hour ++ ':' :: digits 2 minute) =
      some (⟨hour, minute, 0, 0⟩, false) := by
    have more : digits 2 minute ≠ [] := by
      have written : digits 2 minute ++ [] ≠ [] := digits_ne_nil []
      rwa [List.append_nil] at written
    rw [readClock, readFields_field hourDigits rfl more, readFields_last minuteDigits]
    rfl
  have zone : readZone false (offset.elim [] writeOffset) = some offset := by
    cases offset with
    | none => rfl
    | some offset =>
        have reads := readOffset_writeOffset (offsetValid offset rfl)
        change (readOffset (writeOffset offset)).map some = some (some offset)
        rw [reads]
        rfl
  have body : writeTime ⟨hour, minute, offset⟩ =
      (digits 2 hour ++ ':' :: digits 2 minute) ++ offset.elim [] writeOffset := by
    simp [writeTime]
  have notT : (writeTime ⟨hour, minute, offset⟩).head? ≠ some 'T' :=
    head?_digits_ne (by decide) (by decide)
  rw [readTime, if_neg notT, body]
  rw [List.takeWhile_append_of_pos noOffset, List.dropWhile_append_of_pos noOffset]
  have clockOnly : (offset.elim [] writeOffset).takeWhile (fun c => !startsOffset c) = [] := by
    cases written : offset.elim [] writeOffset with
    | nil => rfl
    | cons c rest => simp [zoneFirst c (by rw [written]; rfl)]
  have zoneOnly : (offset.elim [] writeOffset).dropWhile (fun c => !startsOffset c) =
      offset.elim [] writeOffset := by
    cases written : offset.elim [] writeOffset with
    | nil => rfl
    | cons c rest => simp [zoneFirst c (by rw [written]; rfl)]
  rw [clockOnly, zoneOnly, List.append_nil, clock]
  simp [zone, hourSmall, minuteSmall]

end DotBackend.Data.Iso
