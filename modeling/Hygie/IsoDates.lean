/-
**Dates as texts.**

A moment is stored and compared in many places as its ISO-8601 text.  `parse_iso_dt` reads such a
text with `datetime.fromisoformat`: a calendar date or a week date, with dashes or without, one
character, and a time of day with or without colons, with a fraction of which six digits count, and
with an offset from UTC.  A text without an offset is taken to be in UTC.  What it gives is an
instant, and the order of the instants is not that of the texts.

Main definitions:

* `PyText.ymdToOrdinal`, `PyText.isoWeekToOrdinal` — the days of the calendar by their number;
* `PyText.fromisoformat` — `datetime.fromisoformat`, as the microseconds since 1970;
* `PyText.parseIsoDt` — `parse_iso_dt`.
-/

import Mathlib.Tactic

set_option relaxedAutoImplicit false
set_option autoImplicit false

namespace PyText

/-! ### Numbers and days -/

/-- The number that ASCII digits write. -/
def digits (cs : List Char) : Option ℕ :=
  if cs = [] then none
  else cs.foldlM (fun n c => if c.isDigit then some (10 * n + (c.toNat - 48)) else none) 0

/-- `_is_leap`. -/
def isLeap (year : ℕ) : Bool := year % 4 = 0 && (year % 100 ≠ 0 || year % 400 = 0)

/-- `_days_in_month`. -/
def daysInMonth (year month : ℕ) : ℕ :=
  if month = 2 then if isLeap year then 29 else 28
  else if month ∈ [4, 6, 9, 11] then 30 else 31

/-- `_days_before_year`. -/
def daysBeforeYear (year : ℕ) : ℕ :=
  (year - 1) * 365 + (year - 1) / 4 - (year - 1) / 100 + (year - 1) / 400

/-- `_days_before_month`. -/
def daysBeforeMonth (year month : ℕ) : ℕ :=
  ((List.range (month - 1)).map fun i => daysInMonth year (i + 1)).sum

/-- `_ymd2ord`, with the range checks of the constructor; the first of January of the year 1 is day
1. -/
def ymdToOrdinal (year month day : ℕ) : Option ℕ :=
  if 1 ≤ year ∧ year ≤ 9999 ∧ 1 ≤ month ∧ month ≤ 12 ∧ 1 ≤ day ∧ day ≤ daysInMonth year month then
    some (daysBeforeYear year + daysBeforeMonth year month + day)
  else none

/-- `_isoweek_to_gregorian`. -/
def isoWeekToOrdinal (year week day : ℕ) : Option ℕ :=
  let firstDay := daysBeforeYear year + 1
  let firstWeekday := (firstDay + 6) % 7
  let longYear := firstDay % 7 = 4 || firstDay % 7 = 3 && isLeap year
  let week1Monday := firstDay - firstWeekday + if 3 < firstWeekday then 7 else 0
  let ordinal := week1Monday + (week - 1) * 7 + (day - 1)
  if 1 ≤ year ∧ year ≤ 9999 ∧ 1 ≤ week ∧ (week < 53 ∨ week = 53 ∧ longYear = true) ∧
      1 ≤ day ∧ day < 8 ∧ 1 ≤ ordinal ∧ ordinal ≤ 3652059 then some ordinal
  else none

/-! ### The parts of a text -/

/-- `_find_isoformat_datetime_separator`: where the date ends. -/
def dateLength (cs : List Char) : ℕ :=
  if cs.length = 7 then 7
  else if cs[4]? = some '-' then
    if cs[5]? = some 'W' then
      if cs[8]? = some '-' then
        -- a hyphen and two digits: the hyphen is taken for the separator
        if (cs[10]?.map Char.isDigit).getD false then 8 else 10
      else 8
    else 10
  else if cs[4]? = some 'W' then
    let i := 7 + ((cs.drop 7).takeWhile Char.isDigit).length
    if i < 9 then i else if i % 2 = 0 then 7 else 8
  else 8

/-- `_parse_isoformat_date`. -/
def parseDate (cs : List Char) : Option ℕ := do
  let year ← digits (cs.take 4)
  let dashed := cs[4]? == some '-'
  let rest := cs.drop (if dashed then 5 else 4)
  match rest with
  | 'W' :: rest =>
      let week ← digits (rest.take 2)
      match rest.drop 2 with
      | [] => isoWeekToOrdinal year week 1
      | c :: cs =>
          if (c == '-') = dashed then
            isoWeekToOrdinal year week (← digits ((if dashed then cs else c :: cs).take 1))
          else none
  | rest =>
      let month ← digits (rest.take 2)
      let rest := rest.drop 2
      if (rest.head? == some '-') = dashed then
        ymdToOrdinal year month (← digits ((if dashed then rest.drop 1 else rest).take 2))
      else none

/-- The loop of `_parse_hh_mm_ss_ff` over the hours, the minutes and the seconds, and what is left;
the colon after the hours decides whether there are colons. -/
def timeParts : ℕ → Option Bool → List Char → Option (List ℕ × List Char)
  | n + 1, colons, a :: b :: rest => do
      let value ← digits [a, b]
      match n, rest with
      | 0, rest => pure ([value], rest)
      | _, [] => pure ([value], [])
      | n, c :: cs =>
          let colons := colons.getD (c == ':')
          if colons ∧ c ≠ ':' then none
          else do
            let (values, rest) ← timeParts n (some colons) (if colons then cs else c :: cs)
            pure (value :: values, rest)
  | _, _, _ => none

/-- The fraction of a second, in microseconds. -/
def fraction : List Char → Option ℕ
  | [] => some 0
  | c :: cs =>
      if (c = '.' ∨ c = ',') ∧ cs.all Char.isDigit then
        (digits (cs.take 6)).map fun n => n * 10 ^ (6 - cs.length)
      else none

/-- `_parse_hh_mm_ss_ff`: hours, minutes, seconds and microseconds. -/
def parseTime (cs : List Char) : Option (ℕ × ℕ × ℕ × ℕ) := do
  let (values, rest) ← timeParts 3 none cs
  let micros ← fraction rest
  pure (values.getD 0 0, values.getD 1 0, values.getD 2 0, micros)

/-- `timedelta(hours=..., minutes=..., seconds=..., microseconds=...)`. -/
def microseconds (time : ℕ × ℕ × ℕ × ℕ) : ℤ :=
  (((time.1 * 60 + time.2.1) * 60 + time.2.2.1) * 1000000 + time.2.2.2 : ℕ)

/-- The offset from UTC, which is less than a day. -/
def parseOffset (sign : ℤ) (cs : List Char) : Option ℤ :=
  if cs.length ∈ [0, 1, 3] then none
  else do
    let offset := microseconds (← parseTime cs)
    if offset < 86400000000 then some (sign * offset) else none

/-- `_parse_isoformat_time`: the time of day, less its offset. -/
def parseTimeOfDay (cs : List Char) : Option ℤ := do
  let mark := if '-' ∈ cs then '-' else '+'
  let (hour, minute, second, micros) ← parseTime (cs.takeWhile (· ≠ mark))
  if 24 ≤ hour ∨ 60 ≤ minute ∨ 60 ≤ second then none
  else
    let time := microseconds (hour, minute, second, micros)
    match cs.dropWhile (· ≠ mark) with
    | [] => some time
    | _ :: zone => (parseOffset (if mark = '-' then -1 else 1) zone).map (time - ·)

/-- `datetime.fromisoformat`, in microseconds since the beginning of 1970 in UTC, as the Python code
of the standard library reads a text.  Its C code agrees on every text that is well formed, and
differs on some that are not, such as `2024-01-15T` and `20240115103000Z`. -/
def fromisoformat (cs : List Char) : Option ℤ :=
  if cs.length < 7 then none
  else do
    let split := dateLength cs
    let ordinal ← parseDate (cs.take split)
    let time ← match cs.drop (split + 1) with
      | [] => some 0
      | time => parseTimeOfDay time
    pure (((ordinal : ℤ) - 719163) * 86400000000 + time)

/-- `s.replace("Z", "+00:00")`. -/
def replaceZ (cs : List Char) : List Char :=
  cs.flatMap fun c => if c = 'Z' then "+00:00".toList else [c]

/-- `parse_iso_dt`. -/
def parseIsoDt (s : String) : Option ℤ := if s = "" then none else fromisoformat (replaceZ s.toList)

/-- `parse_iso_dt(s).date()`, as an ordinal: the date that is written, whatever the offset is. -/
def writtenDate (s : String) : Option ℕ :=
  (parseIsoDt s).bind fun _ =>
    let cs := replaceZ s.toList
    parseDate (cs.take (dateLength cs))

/-- The days that are left until a date, and none for one that has passed. -/
def daysLeft (today : ℕ) (s : String) : Option ℕ := (writtenDate s).map fun date => date - today

/-! The later of two instants may have the smaller text. -/

example : parseIsoDt "2025-02-10T23:30:00Z" = some 1739230200000000 := by decide +kernel

example : parseIsoDt "2025-02-11T00:30:00+02:00" = some 1739226600000000 := by decide +kernel

end PyText
