import FencedJson.Field.Datum
import FencedJson.Text.Digits
import FencedJson.Yaml.Problem
import FencedJson.Yaml.Token

/-! # Timestamps

A day, or a day with a time that may be given for a zone. Times are turned to
those of the zone of no offset.
-/

namespace FencedJson.Yaml

structure Zone where
  behind : Bool
  minutes : Nat
  /-- A colon stands between hours and minutes, or no minutes are written. -/
  wellSet : Bool

structure WrittenTime where
  hour : Nat
  minute : Nat
  second : Nat
  fraction : List Char
  zone : Option Zone

structure Timestamp where
  date : Date
  wide : Bool
  time : Option WrittenTime

namespace Timestamp

def shortNumber? : List Char → Option (Nat × Nat × List Char)
  | a :: b :: rest =>
      if isDigit a && isDigit b then some (decimalNumber [a, b], 2, rest)
      else if isDigit a then some (digitValue a, 1, b :: rest)
      else none
  | [a] => if isDigit a then some (digitValue a, 1, []) else none
  | [] => none

def pairAfter? (mark : Char) : List Char → Option (Nat × List Char)
  | c :: a :: b :: rest =>
      if c = mark && isDigit a && isDigit b then some
        (decimalNumber [a, b], rest) else none
  | _ => none

def isBlank (c : Char) : Bool := c = ' ' || c = '\t'

def zone? (text : List Char) : Option (Option Zone) :=
  match text.dropWhile isBlank with
  | [] => if text.isEmpty then some none else none
  | ['Z'] => some (some ⟨false, 0, true⟩)
  | sign :: rest =>
      if sign = '+' ∨ sign = '-' then
        (shortNumber? rest).bind fun (hours, _, rest) =>
          match rest, pairAfter? ':' rest, rest with
          | [], _, _ => some (some ⟨sign = '-', hours * 60, true⟩)
          | _, some (minutes, []), _ =>
              some (some ⟨sign = '-', hours * 60 + minutes, true⟩)
          | _, _, [a, b] =>
              if isDigit a && isDigit b then
                some
                  (some ⟨sign = '-', hours * 60 + decimalNumber [a, b], false⟩)
              else none
          | _, _, _ => none
      else none

def time? (text : List Char) : Option WrittenTime :=
  let start := match text with
    | c :: rest =>
        if c = 'T' ∨ c = 't' then some rest
        else if isBlank c then some (rest.dropWhile isBlank)
        else none
    | [] => none
  start.bind fun text =>
    (shortNumber? text).bind fun (hour, _, text) =>
      (pairAfter? ':' text).bind fun (minute, text) =>
        (pairAfter? ':' text).bind fun (second, text) =>
          let (fraction, text) := match text with
            | '.' :: rest => (rest.takeWhile isDigit, rest.dropWhile isDigit)
            | text => ([], text)
          (zone? text).map fun zone => ⟨hour, minute, second, fraction, zone⟩

def read? (text : List Char) : Option Timestamp :=
  let year := text.take 4
  if year.length = 4 && year.all isDigit then
    match text.drop 4 with
    | '-' :: rest =>
        (shortNumber? rest).bind fun (month, monthWidth, rest) =>
          match rest with
          | '-' :: rest =>
              (shortNumber? rest).bind fun (day, dayWidth, rest) =>
                let date := ⟨decimalNumber year, month, day⟩
                let wide : Bool := monthWidth = 2 && dayWidth = 2
                if rest.isEmpty then some ⟨date, wide, none⟩
                else (time? rest).map fun time => ⟨date, wide, some time⟩
          | _ => none
    | _ => none
  else none

/-- Does a plain scalar have the form of a timestamp? A day alone needs two
digits for month and day. -/
def isTimestampForm (text : List Char) : Bool :=
  match read? text with
  | none => false
  | some ⟨_, wide, none⟩ => wide
  | some ⟨_, _, some time⟩ => time.zone.all (·.wellSet)

/-! ## Days in a row -/

def isLeapYear (year : Nat) : Bool :=
  year % 4 = 0 && (year % 100 ≠ 0 || year % 400 = 0)

def monthLength (year month : Nat) : Nat :=
  if month = 2 then if isLeapYear year then 29 else 28
  else if month ∈ [4, 6, 9, 11] then 30
  else 31

def nextDay (date : Date) : Date :=
  if date.day < monthLength date.year date.month then { date with day :=
    date.day + 1 }
  else if date.month < 12 then ⟨date.year, date.month + 1, 1⟩
  else ⟨date.year + 1, 1, 1⟩

def previousDay (date : Date) : Date :=
  if 1 < date.day then { date with day := date.day - 1 }
  else if 1 < date.month then
    ⟨date.year, date.month - 1, monthLength date.year (date.month - 1)⟩
  else ⟨date.year - 1, 12, 31⟩

def addDays (date : Date) (days : Int) : Date :=
  if 0 ≤ days then days.natAbs.repeat nextDay date else days.natAbs.repeat
    previousDay date

/-! ## Values -/

def dateProblem? (date : Date) : Option String :=
  if date.year = 0 then some "year 0 is out of range"
  else if date.month = 0 ∨ 12 < date.month then some "month must be in 1..12"
  else if date.day = 0 ∨ monthLength date.year date.month < date.day then
    some "day is out of range for month"
  else none

def timeProblem? (time : WrittenTime) : Option String :=
  if 23 < time.hour then some "hour must be in 0..23"
  else if 59 < time.minute then some "minute must be in 0..59"
  else if 59 < time.second then some "second must be in 0..59"
  else none

/-- The first six digits of a fraction, rounded by the seventh. They may come
out as a whole second. -/
def microseconds (fraction : List Char) : Nat :=
  let six := (fraction ++ List.replicate 6 '0').take 6
  decimalNumber six + if (fraction[6]?).any ('5' ≤ ·) then 1 else 0

def spelledDuration (minutes : Int) : String :=
  let part (name : String) (count : Int) : List String :=
    if count = 0 then [] else [s!"{name}={count}"]
  let parts := part "days" (minutes.fdiv 1440) ++ part "seconds"
      (minutes.fmod 1440 * 60)
  let shown := ", ".intercalate parts
  s!"datetime.timedelta({shown})"

def zoneProblem? (zone : Option Zone) : Option String :=
  zone.bind fun zone =>
    if zone.minutes < 1440 then none
    else
      let offset : Int := if zone.behind then -zone.minutes else zone.minutes
      some
        ("offset must be a timedelta strictly between -timedelta(hours=24) and "
          ++ s!"timedelta(hours=24), not {spelledDuration offset}.")

def isInCalendar (date : Date) : Bool := 1 ≤ date.year && date.year ≤ 9999

def moment (date : Date) (time : WrittenTime) : Except Failure Datum :=
  let shift : Int := match time.zone with
    | none => 0
    | some zone => if zone.behind then zone.minutes else -zone.minutes
  let fraction := microseconds time.fraction
  let seconds : Int := (time.hour * 60 + time.minute + shift) * 60 +
    (time.second + fraction / 1000000 : Nat)
  let second := (seconds.fmod 86400).toNat
  let day := addDays date (seconds.fdiv 86400)
  if isInCalendar day then
    .ok (.moment day ⟨second / 3600, second / 60 % 60, second % 60,
      fraction % 1000000⟩)
  else .error .outOfRange

def datum (text : List Char) : Except Failure Datum :=
  match read? text with
  | none => .error (.problem .badTimestamp)
  | some timestamp =>
      match dateProblem? timestamp.date, timestamp.time with
      | some message, _ => .error (.unreadable message)
      | none, none => .ok (.date timestamp.date)
      | none, some time =>
          match (timeProblem? time).or (zoneProblem? time.zone) with
          | some message => .error (.unreadable message)
          | none => moment timestamp.date time

end Timestamp
end FencedJson.Yaml
