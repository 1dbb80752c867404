import ManagedPrometheus.Blank

/-!
# Timestamps

Points in time as manifests write them. They are read in RFC 3339, with blanks allowed between the
parts, short numbers and any of `T`, `t` and a blank between date and time, and they are written in
one form: UTC, with as many groups of three fraction digits as are needed. A `Timestamp` is a text in
that form.
-/

namespace ManagedPrometheus

namespace Timestamp

/-! ### The calendar -/

/-- A point in time on the calendar: the second may be 60 in a leap second. -/
structure Civil where
  year : Int
  month : Nat
  day : Nat
  hour : Nat
  minute : Nat
  second : Nat
  nanosecond : Nat

def isLeapYear (year : Int) : Bool :=
  year % 4 == 0 && (year % 100 != 0 || year % 400 == 0)

def monthDays (year : Int) (month : Nat) : Nat :=
  if month = 2 then (if isLeapYear year then 29 else 28)
  else if month = 4 ∨ month = 6 ∨ month = 9 ∨ month = 11 then 30
  else 31

/-- The parts name a day and a time of day. -/
def Civil.isValid (c : Civil) : Bool :=
  1 ≤ c.month && c.month ≤ 12 && 1 ≤ c.day && c.day ≤ monthDays c.year c.month && c.hour < 24
    && c.minute < 60 && c.second ≤ 60

def Civil.nextDay (c : Civil) : Civil :=
  if c.day < monthDays c.year c.month then { c with day := c.day + 1 }
  else if c.month < 12 then { c with day := 1, month := c.month + 1 }
  else { c with day := 1, month := 1, year := c.year + 1 }

def Civil.previousDay (c : Civil) : Civil :=
  if 1 < c.day then { c with day := c.day - 1 }
  else if 1 < c.month then
    { c with day := monthDays c.year (c.month - 1), month := c.month - 1 }
  else { c with day := 31, month := 12, year := c.year - 1 }

/-- The same point in time, `offset` minutes (less than a day) earlier on the clock. -/
def Civil.earlier (c : Civil) (offset : Int) : Civil :=
  let minutes : Int := c.hour * 60 + c.minute - offset
  let (shifted, minutes) :=
    if minutes < 0 then (c.previousDay, minutes + 1440)
    else if 1440 ≤ minutes then (c.nextDay, minutes - 1440)
    else (c, minutes)
  { shifted with hour := minutes.toNat / 60, minute := minutes.toNat % 60 }

/-! ### Reading -/

def skipSpace (input : List Char) : List Char := input.dropWhile isBlank

/-- The number of up to `width` leading digits, of which there has to be one. -/
def number? (width : Nat) (input : List Char) : Option (Nat × List Char) :=
  let digits := (input.take width).takeWhile Char.isDigit
  if digits.isEmpty then none
  else some (digits.foldl (fun n c => n * 10 + (c.toNat - '0'.toNat)) 0, input.drop digits.length)

/-- A part of the date or time: blanks, then one or two digits. -/
def part? (input : List Char) : Option (Nat × List Char) := number? 2 (skipSpace input)

/-- The year: up to four digits, or a sign and any number of them. -/
def year? (input : List Char) : Option (Int × List Char) :=
  match skipSpace input with
  | '-' :: rest => (number? rest.length rest).map fun (n, left) => (-(n : Int), left)
  | '+' :: rest => (number? rest.length rest).map fun (n, left) => ((n : Int), left)
  | rest => (number? 4 rest).map fun (n, left) => ((n : Int), left)

/-- Removes a mark and the blanks before it. -/
def mark? (mark : Char) (input : List Char) : Option (List Char) :=
  match skipSpace input with
  | c :: rest => if c = mark then some rest else none
  | [] => none

/-- The nanoseconds of a fraction, of which digits past the ninth are dropped. -/
def fraction? : List Char → Option (Nat × List Char)
  | '.' :: rest => do
    let (value, left) ← number? 9 rest
    return (value * Nat.pow 10 (9 - (rest.length - left.length)), left.dropWhile Char.isDigit)
  | rest => some (0, rest)

def twoDigits? : List Char → Option (Nat × List Char)
  | a :: b :: rest =>
    if a.isDigit && b.isDigit then
      some ((a.toNat - '0'.toNat) * 10 + (b.toNat - '0'.toNat), rest)
    else none
  | _ => none

/-- Hours and minutes of an offset. -/
def offsetParts? (input : List Char) : Option (Nat × List Char) := do
  let (hours, rest) ← twoDigits? input
  let (minutes, rest) ← twoDigits? (rest.dropWhile fun c => c = ':' || isBlank c)
  if minutes < 60 ∧ hours < 24 then some (hours * 60 + minutes, rest) else none

def offset? (input : List Char) : Option (Int × List Char) :=
  if ((input.take 3).map Char.toUpper) = ['U', 'T', 'C'] then some (0, input.drop 3)
  else match input with
    | '+' :: rest => (offsetParts? rest).map fun (n, left) => ((n : Int), left)
    | '-' :: rest | '\u2212' :: rest => (offsetParts? rest).map fun (n, left) => (-(n : Int), left)
    | c :: rest => if c = 'Z' ∨ c = 'z' then some (0, rest) else none
    | [] => none

/-- The years of the calendar. -/
def lastYear : Int := 262142

/-- The point in time of a text, in UTC. -/
def read? (text : String) : Option Civil := do
  let (year, rest) ← year? text.toList
  let (month, rest) ← part? (← mark? '-' rest)
  let (day, rest) ← part? (← mark? '-' rest)
  let rest ← match rest with
    | c :: rest => if c = 'T' ∨ c = 't' ∨ c = ' ' then some rest else none
    | [] => none
  let (hour, rest) ← part? rest
  let (minute, rest) ← part? (← mark? ':' rest)
  let (second, rest) ← part? (← mark? ':' rest)
  let (nanosecond, rest) ← fraction? rest
  let (offset, rest) ← offset? (skipSpace rest)
  let civil : Civil := ⟨year, month, day, hour, minute, second, nanosecond⟩
  let utc := civil.earlier offset
  if rest.all isBlank && civil.isValid && -lastYear ≤ utc.year && utc.year ≤ lastYear then some utc
  else none

/-! ### Writing -/

/-- A number with zeros in front, up to a width. -/
def padded (width n : Nat) : String :=
  let digits := toString n
  String.ofList (List.replicate (width - digits.length) '0') ++ digits

/-- A year: four digits, or a sign and at least four digits. -/
def writeYear (year : Int) : String :=
  if 0 ≤ year ∧ year ≤ 9999 then padded 4 year.toNat
  else (if year < 0 then "-" else "+") ++ padded 4 year.natAbs

/-- The fraction of a second in groups of three digits. -/
def writeFraction (n : Nat) : String :=
  if n = 0 then ""
  else if n % 1000000 = 0 then "." ++ padded 3 (n / 1000000)
  else if n % 1000 = 0 then "." ++ padded 6 (n / 1000)
  else "." ++ padded 9 n

/-- The text of a point in time in UTC. -/
def write (c : Civil) : String :=
  writeYear c.year ++ "-" ++ padded 2 c.month ++ "-" ++ padded 2 c.day ++ "T" ++ padded 2 c.hour
    ++ ":" ++ padded 2 c.minute ++ ":" ++ padded 2 c.second ++ writeFraction c.nanosecond ++ "Z"

/-- The written form of the point in time that a text names. -/
def normalForm? (text : String) : Option String := (read? text).map write

end Timestamp

/-- A point in time, as the text that is its own written form. -/
structure Timestamp where
  text : String
  normal : Timestamp.normalForm? text = some text
  deriving DecidableEq

/-- The point in time that a text names. -/
def Timestamp.ofText? (text : String) : Option Timestamp :=
  match Timestamp.normalForm? text with
  | some written =>
    if h : Timestamp.normalForm? written = some written then some ⟨written, h⟩ else none
  | none => none

theorem Timestamp.ofText?_text (time : Timestamp) : Timestamp.ofText? time.text = some time := by
  obtain ⟨text, normal⟩ := time
  simp [Timestamp.ofText?, normal]

end ManagedPrometheus
