import ScriptSense.Data.Json
import ScriptSense.Text.Name

/-! Dates, and times of day on a date, as YAML texts spell them. -/
namespace ScriptSense
namespace Yaml

/-- A time of day with its distance from universal time in minutes, if that is given. -/
structure Clock where
  hour : Nat
  minute : Nat
  second : Nat
  micros : Nat
  zone : Option Int
  deriving DecidableEq, Repr

structure Moment where
  year : Nat
  month : Nat
  day : Nat
  clock : Option Clock
  deriving DecidableEq, Repr

namespace Moment

def digits? (least most : Nat) (text : List Char) : Option (Nat × List Char) :=
  let run := (text.take most).takeWhile Text.isDigit
  if run.length < least then none else some (Json.natOfDigits run, text.drop run.length)

def char? (c : Char) (text : List Char) : Option (List Char) :=
  if text.head? == some c then some (text.drop 1) else none

/-- A date; `least` is the number of digits that months and days have at least. -/
def date? (least : Nat) (text : List Char) : Option (Nat × Nat × Nat × List Char) := do
  let (year, text) ← digits? 4 4 text
  let text ← char? '-' text
  let (month, text) ← digits? least 2 text
  let text ← char? '-' text
  let (day, text) ← digits? least 2 text
  return (year, month, day, text)

/-- A fraction of a second in millionths; further digits are dropped. -/
def micros (text : List Char) : Nat × List Char :=
  match text with
  | '.' :: rest =>
    let run := rest.takeWhile Text.isDigit
    (Json.natOfDigits ((run ++ List.replicate 6 '0').take 6), rest.drop run.length)
  | _ => (0, text)

def zone? (text : List Char) : Option (Option Int) :=
  let body := text.dropWhile fun c => c == ' ' || c == '\t'
  match body with
  | [] => if text.isEmpty then some none else none
  | ['Z'] => some (some 0)
  | sign :: rest =>
    if sign == '+' || sign == '-' then do
      let (hours, rest) ← digits? 1 2 rest
      let minutes ←
        match rest with
        | [] => some 0
        | ':' :: rest => (digits? 2 2 rest).bind fun m => if m.2.isEmpty then some m.1 else none
        | _ => none
      let n : Int := hours * 60 + minutes
      return some (if sign == '-' then -n else n)
    else none

def clock? (text : List Char) : Option Clock := do
  let (hour, text) ← digits? 1 2 text
  let text ← char? ':' text
  let (minute, text) ← digits? 2 2 text
  let text ← char? ':' text
  let (second, text) ← digits? 2 2 text
  let (micros, text) := micros text
  let zone ← zone? text
  return ⟨hour, minute, second, micros, zone⟩

/-- A date alone, or a date with a time of day behind a letter or blanks. -/
def ofText? (text : List Char) : Option Moment :=
  match date? 2 text with
  | some (year, month, day, []) => some ⟨year, month, day, none⟩
  | _ => do
    let (year, month, day, rest) ← date? 1 text
    let clock ←
      match rest with
      | [] => none
      | c :: more =>
        if c == 'T' || c == 't' then clock? more
        else if c == ' ' || c == '\t' then
          clock? (rest.dropWhile fun c => c == ' ' || c == '\t')
        else none
    return ⟨year, month, day, some clock⟩

/-- A moment as its tag allows it to be spelled: a date alone may have short months and days, and a
line break may follow. -/
def ofTagged? (text : List Char) : Option Moment :=
  let text := if text.getLast? == some '\n' then text.dropLast else text
  match date? 1 text with
  | some (year, month, day, []) => some ⟨year, month, day, none⟩
  | _ => ofText? text

def isLeapYear (year : Nat) : Bool := year % 4 == 0 && (year % 100 != 0 || year % 400 == 0)

def daysIn (year month : Nat) : Nat :=
  if month == 2 then (if isLeapYear year then 29 else 28)
  else if month == 4 || month == 6 || month == 9 || month == 11 then 30
  else 31

def stretchShown (minutes : Int) : String :=
  let days := (minutes * 60) / 86400
  let seconds := (minutes * 60) % 86400
  let parts := (if days == 0 then [] else ["days=" ++ toString days]) ++
    (if seconds == 0 then [] else ["seconds=" ++ toString seconds])
  "datetime.timedelta(" ++ ", ".intercalate parts ++ ")"

/-- Why a moment is on no calendar. -/
def refusal? (m : Moment) : Option String :=
  let zone : Int := (m.clock.bind (·.zone)).getD 0
  let bad : List (Bool × String) :=
    [(zone.natAbs ≥ 24 * 60, "offset must be a timedelta strictly between " ++
        "-timedelta(hours=24) and timedelta(hours=24), not " ++ stretchShown zone ++ "."),
      (m.year == 0, "year 0 is out of range"),
      (m.month == 0 || m.month > 12, "month must be in 1..12"),
      (m.day == 0 || m.day > daysIn m.year m.month, "day is out of range for month"),
      (m.clock.any (·.hour > 23), "hour must be in 0..23"),
      (m.clock.any (·.minute > 59), "minute must be in 0..59"),
      (m.clock.any (·.second > 59), "second must be in 0..59")]
  (bad.find? (·.1)).map (·.2)

def padded (width n : Nat) : String :=
  let digits := toString n
  String.ofList (List.replicate (width - digits.length) '0') ++ digits

def zoneText (minutes : Int) : String :=
  (if minutes < 0 then "-" else "+") ++ padded 2 (minutes.natAbs / 60) ++ ":" ++
    padded 2 (minutes.natAbs % 60)

def clockText (c : Clock) : String :=
  padded 2 c.hour ++ ":" ++ padded 2 c.minute ++ ":" ++ padded 2 c.second ++
    (if c.micros == 0 then "" else "." ++ padded 6 c.micros) ++
    ((c.zone.map zoneText).getD "")

def toText (m : Moment) : String :=
  let date := padded 4 m.year ++ "-" ++ padded 2 m.month ++ "-" ++ padded 2 m.day
  match m.clock with
  | none => date
  | some c => date ++ " " ++ clockText c

def zoneShown (minutes : Int) : String :=
  if minutes == 0 then "datetime.timezone.utc"
  else "datetime.timezone(" ++ stretchShown minutes ++ ")"

def shown (m : Moment) : String :=
  let date := [m.year, m.month, m.day]
  let listed (numbers : List Nat) : String := ", ".intercalate (numbers.map toString)
  match m.clock with
  | none => "datetime.date(" ++ listed date ++ ")"
  | some c =>
    let fine :=
      if c.micros != 0 then [c.second, c.micros] else if c.second != 0 then [c.second] else []
    "datetime.datetime(" ++ listed (date ++ [c.hour, c.minute] ++ fine) ++
      ((c.zone.map fun z => ", tzinfo=" ++ zoneShown z).getD "") ++ ")"

end Moment
end Yaml
end ScriptSense
