import Mathlib.Data.Nat.Basic
import Mathlib.Tactic.Ext
import Mathlib.Tactic.Ring

/-!
# Calendar date and time

A date and time of day on the proleptic Gregorian calendar, from year 1 to 9999
and to the microsecond, with the ISO 8601 text of it.

* `rank`, `rank_injective` — the order of time;
* `microseconds` — the distance of two times;
* `isoformat` — `2026-07-21T09:30:00.000500+00:00` and its shorter forms;
* `ofIsoformat_isoformat` — the text without an offset is read back.
-/

/-- How many days the month has. -/
def daysInMonth (year month : ℕ) : ℕ :=
  if month = 2 then
    if year % 4 = 0 ∧ (year % 100 ≠ 0 ∨ year % 400 = 0) then 29 else 28
  else if month = 4 ∨ month = 6 ∨ month = 9 ∨ month = 11 then 30 else 31

/-- A date and time of day. -/
@[ext] structure DateTime where
  year        : ℕ
  month       : ℕ
  day         : ℕ
  hour        : ℕ
  minute      : ℕ
  second      : ℕ
  microsecond : ℕ
  date : 1 ≤ year ∧ year ≤ 9999 ∧ 1 ≤ month ∧ month ≤ 12 ∧ 1 ≤ day ∧ day ≤ daysInMonth year month
  time : hour < 24 ∧ minute < 60 ∧ second < 60 ∧ microsecond < 1000000
deriving DecidableEq

/-- A date and time that may know its distance from UTC, in seconds. -/
structure Stamp where
  wall   : DateTime
  offset : Option ℤ
deriving DecidableEq

namespace DateTime

/-! ## Order -/

/-- A number that grows with time. -/
def rank (d : DateTime) : ℕ :=
  (((((d.year * 13 + d.month) * 32 + d.day) * 24 + d.hour) * 60 + d.minute) * 60 + d.second) *
    1000000 + d.microsecond

/-- The days before the month in its year. -/
def daysBeforeMonth (year month : ℕ) : ℕ :=
  ((List.range (month - 1)).map fun m => daysInMonth year (m + 1)).sum

/-- `toordinal`: the day's number on the calendar, the first of January of year 1 being 1. -/
def toordinal (d : DateTime) : ℕ :=
  (d.year - 1) * 365 + (d.year - 1) / 4 - (d.year - 1) / 100 + (d.year - 1) / 400 +
    daysBeforeMonth d.year d.month + d.day

/-- The microseconds on the wall clock since the calendar began. -/
def microseconds (d : DateTime) : ℕ :=
  (((d.toordinal * 24 + d.hour) * 60 + d.minute) * 60 + d.second) * 1000000 + d.microsecond

instance : LT DateTime := ⟨fun d d' => d.rank < d'.rank⟩

instance : LE DateTime := ⟨fun d d' => d.rank ≤ d'.rank⟩

instance (d d' : DateTime) : Decidable (d < d') := inferInstanceAs (Decidable (d.rank < d'.rank))

instance (d d' : DateTime) : Decidable (d ≤ d') := inferInstanceAs (Decidable (d.rank ≤ d'.rank))

theorem daysInMonth_le (year month : ℕ) : daysInMonth year month ≤ 31 := by
  unfold daysInMonth
  split_ifs <;> omega

theorem rank_injective : Function.Injective rank := by
  intro d d' h
  have hd := d.date
  have hd' := d'.date
  have hmax := daysInMonth_le d.year d.month
  have hmax' := daysInMonth_le d'.year d'.month
  have ht := d.time
  have ht' := d'.time
  unfold rank at h
  -- the fields are the digits of a mixed-radix number, read off from the last one
  have hmicro : d.microsecond = d'.microsecond := by omega
  have hsecond : d.second = d'.second := by omega
  have hminute : d.minute = d'.minute := by omega
  have hhour : d.hour = d'.hour := by omega
  have hday : d.day = d'.day := by omega
  have hmonth : d.month = d'.month := by omega
  have hyear : d.year = d'.year := by omega
  exact DateTime.ext hyear hmonth hday hhour hminute hsecond hmicro

/-! ## Text -/

/-- The last `width` decimal digits of `n`. -/
def decimal : (width n : ℕ) → List Char
  | 0, _ => []
  | width + 1, n => decimal width (n / 10) ++ [Nat.digitChar (n % 10)]

/-- `+HH:MM`, with the seconds where there are any. -/
def offsetText (seconds : ℤ) : List Char :=
  let size := seconds.natAbs
  (if seconds < 0 then '-' else '+') :: decimal 2 (size / 3600) ++
    ':' :: decimal 2 (size / 60 % 60) ++
    if size % 60 = 0 then [] else ':' :: decimal 2 (size % 60)

def isoformat (d : DateTime) : List Char :=
  decimal 4 d.year ++ '-' :: decimal 2 d.month ++ '-' :: decimal 2 d.day ++
    'T' :: decimal 2 d.hour ++ ':' :: decimal 2 d.minute ++ ':' :: decimal 2 d.second ++
    -- the fraction is left out when it is zero
    if d.microsecond = 0 then [] else '.' :: decimal 6 d.microsecond

/-! ## Reading the text -/

/-- A number of `width` digits in front of the text, after the digits of `n`. -/
def readDecimal : (width n : ℕ) → List Char → Option (ℕ × List Char)
  | 0, n, text => some (n, text)
  | _ + 1, _, [] => none
  | width + 1, n, c :: text =>
    if c.isDigit then readDecimal width (n * 10 + (c.toNat - 48)) text else none

/-- The text after the character. -/
def skip (c : Char) : List Char → Option (List Char)
  | [] => none
  | c' :: text => if c' = c then some text else none

/-- The fraction of a second, if there is one. -/
def readFraction : List Char → Option (ℕ × List Char)
  | '.' :: text => readDecimal 6 0 text
  | text => some (0, text)

def ofIsoformat (text : List Char) : Option DateTime := do
  let (year, text) ← readDecimal 4 0 text
  let (month, text) ← readDecimal 2 0 (← skip '-' text)
  let (day, text) ← readDecimal 2 0 (← skip '-' text)
  let (hour, text) ← readDecimal 2 0 (← skip 'T' text)
  let (minute, text) ← readDecimal 2 0 (← skip ':' text)
  let (second, text) ← readDecimal 2 0 (← skip ':' text)
  let (microsecond, text) ← readFraction text
  if text ≠ [] then none
  else if date : 1 ≤ year ∧ year ≤ 9999 ∧ 1 ≤ month ∧ month ≤ 12 ∧ 1 ≤ day ∧
      day ≤ daysInMonth year month then
    if time : hour < 24 ∧ minute < 60 ∧ second < 60 ∧ microsecond < 1000000 then
      some { year, month, day, hour, minute, second, microsecond, date, time }
    else none
  else none

theorem readDecimal_succ (width n : ℕ) (text : List Char) :
    readDecimal (width + 1) n text =
      (readDecimal width n text).bind fun (n, text) => readDecimal 1 n text := by
  induction width generalizing n text with
  | zero => rfl
  | succ width ih =>
    rcases text with _ | ⟨c, text⟩
    · rfl
    rw [readDecimal, readDecimal]
    split_ifs
    · exact ih _ _
    · rfl

theorem digitChar_isDigit : ∀ v < 10, (Nat.digitChar v).isDigit = true ∧
    (Nat.digitChar v).toNat - 48 = v := by decide

/-- The digits of a number are read back. -/
theorem readDecimal_decimal (width n m : ℕ) (text : List Char) :
    readDecimal width m (decimal width n ++ text) = some (m * 10 ^ width + n % 10 ^ width, text) := by
  induction width generalizing n text with
  | zero => simp [readDecimal, decimal, Nat.mod_one]
  | succ width ih =>
    obtain ⟨hdigit, hvalue⟩ := digitChar_isDigit (n % 10) (Nat.mod_lt _ (by omega))
    rw [readDecimal_succ, decimal, List.append_assoc, ih, Option.bind_some]
    show readDecimal 1 _ (Nat.digitChar (n % 10) :: text) = _
    rw [readDecimal, if_pos hdigit, hvalue, readDecimal]
    -- the last digit is the remainder by ten
    have hsplit : n % 10 ^ (width + 1) = n / 10 % 10 ^ width * 10 + n % 10 := by
      rw [Nat.pow_succ', Nat.mod_mul]
      omega
    rw [hsplit, Nat.pow_succ]
    congr 2
    ring

theorem readDecimal_field {width n : ℕ} (h : n < 10 ^ width) (text : List Char) :
    readDecimal width 0 (decimal width n ++ text) = some (n, text) := by
  rw [readDecimal_decimal, Nat.zero_mul, Nat.zero_add, Nat.mod_eq_of_lt h]

section

variable {α : Type} {text : List Char}

theorem bind_readDecimal {width n : ℕ} (h : n < 10 ^ width) (f : ℕ × List Char → Option α) :
    (readDecimal width 0 (decimal width n ++ text) >>= f) = f (n, text) := by
  rw [readDecimal_field h, Option.bind_eq_bind, Option.bind_some]

theorem bind_skip (c : Char) (f : List Char → Option α) : (skip c (c :: text) >>= f) = f text := by
  rw [skip, if_pos rfl, Option.bind_eq_bind, Option.bind_some]

end

theorem readFraction_text {microsecond : ℕ} (h : microsecond < 1000000) :
    readFraction (if microsecond = 0 then [] else '.' :: decimal 6 microsecond) =
      some (microsecond, []) := by
  split_ifs with hzero
  · rw [hzero]
    rfl
  · have hread := @readDecimal_field 6 _ h []
    rwa [List.append_nil] at hread

/-- The text of a date and time is read back. -/
theorem ofIsoformat_isoformat (d : DateTime) : ofIsoformat d.isoformat = some d := by
  have hdate := d.date
  have htime := d.time
  have hday := daysInMonth_le d.year d.month
  unfold isoformat
  simp only [List.append_assoc, List.cons_append]
  unfold ofIsoformat
  -- each field is taken off the front, and the separator before it
  rw [bind_readDecimal (by omega)]
  dsimp only
  rw [bind_skip, bind_readDecimal (by omega)]
  dsimp only
  rw [bind_skip, bind_readDecimal (by omega)]
  dsimp only
  rw [bind_skip, bind_readDecimal (by omega)]
  dsimp only
  rw [bind_skip, bind_readDecimal (by omega)]
  dsimp only
  rw [bind_skip, bind_readDecimal (by omega)]
  dsimp only
  rw [readFraction_text htime.2.2.2, Option.bind_eq_bind, Option.bind_some]
  dsimp only
  rw [if_neg (not_not_intro rfl), dif_pos hdate, dif_pos htime]

theorem decimal_isDigit (width n : ℕ) : ∀ c ∈ decimal width n, c.isDigit = true := by
  induction width generalizing n with
  | zero => simp [decimal]
  | succ width ih =>
    intro c hc
    rcases List.mem_append.mp hc with hinit | hlast
    · exact ih _ c hinit
    · rw [List.mem_singleton.mp hlast]
      exact (digitChar_isDigit _ (Nat.mod_lt _ (by omega))).1

/-- The text has no other characters than digits and separators. -/
theorem mem_isoformat {d : DateTime} {c : Char} (hc : c ∈ d.isoformat) :
    c.isDigit = true ∨ c ∈ ['-', 'T', ':', '.'] := by
  unfold isoformat at hc
  split_ifs at hc <;>
    simp only [List.mem_append, List.mem_cons, List.not_mem_nil, or_false] at hc ⊢ <;>
    grind [decimal_isDigit]

end DateTime

def Stamp.isoformat (s : Stamp) : List Char :=
  s.wall.isoformat ++ match s.offset with
    | none => []
    | some seconds => DateTime.offsetText seconds
