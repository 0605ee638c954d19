import BlockScript.Decimal.Basic

namespace BlockScript.Yaml.Timestamp

/-!
# Timestamps

A timestamp is a date, alone or with a time of day.  The year has four digits and
the other numbers have one or two.  A time behind the letter T has a zone, and a
time behind spaces has none; seconds may have a fraction.
-/

/-- Read a number of one or two digits. -/
def number? : List Char → Option (Nat × List Char)
  | [] => none
  | first :: rest =>
      if isDigit first then
        let value := first.toNat - '0'.toNat
        match rest with
        | [] => some (value, [])
        | second :: more =>
            if isDigit second then
              some (10 * value + (second.toNat - '0'.toNat), more)
            else
              some (value, rest)
      else
        none

/-- Read a mark. -/
def mark?
    (mark : Char) :
    List Char → Option (List Char)
  | [] => none
  | first :: rest => if first == mark then some rest else none

/-- Read a number of exactly two digits. -/
def twoDigits? : List Char → Option (Nat × List Char)
  | first :: second :: rest =>
      if isDigit first && isDigit second then
        some (10 * (first.toNat - '0'.toNat) + (second.toNat - '0'.toNat), rest)
      else
        none
  | _ => none

/-- A year with a day more in February. -/
def isLeap
    (year : Nat) :
    Bool :=
  year % 4 == 0 && (year % 100 != 0 || year % 400 == 0)

/-- The number of days of a month. -/
def daysIn
    (year month : Nat) :
    Nat :=
  if month = 2 then
    if isLeap year then 29 else 28
  else if month = 4 || month = 6 || month = 9 || month = 11 then
    30
  else
    31

/-- Read the year, which exactly four digits and a dash must give. -/
def year?
    (text : List Char) :
    Option (Nat × List Char) :=
  let digits := text.takeWhile isDigit
  if digits.length = 4 then
    (mark? '-' (text.drop 4)).map fun rest =>
      (digits.foldl (fun value c => 10 * value + (c.toNat - '0'.toNat)) 0, rest)
  else
    none

/-- Read a date that is in the calendar. -/
def date?
    (text : List Char) :
    Option (List Char) := do
  let (year, rest) ← year? text
  let (month, rest) ← number? rest
  let rest ← mark? '-' rest
  let (day, rest) ← number? rest
  if 1 ≤ month && month ≤ 12 && 1 ≤ day && day ≤ daysIn year month then
    return rest
  else
    none

/-- Pass over the fraction of a second, if there is one. -/
def dropFraction : List Char → List Char
  | mark :: digit :: rest =>
      if (mark == '.' || mark == ',') && isDigit digit then
        rest.dropWhile isDigit
      else
        mark :: digit :: rest
  | rest => rest

/-- Read a time of day. -/
def clock?
    (text : List Char) :
    Option (List Char) := do
  let (hour, rest) ← number? text
  let rest ← mark? ':' rest
  let (minute, rest) ← number? rest
  let rest ← mark? ':' rest
  let (second, rest) ← number? rest
  if hour < 24 && minute < 60 && second < 60 then
    return dropFraction rest
  else
    none

/-- Read a zone: the letter Z, or the distance from it in hours and minutes. -/
def zone? : List Char → Option (List Char)
  | 'Z' :: rest => some rest
  | sign :: rest => do
      let (hours, rest) ← twoDigits? rest
      let rest ← mark? ':' rest
      let (minutes, rest) ← twoDigits? rest
      if (sign == '+' || sign == '-') && hours ≤ 24 && minutes ≤ 60 then
        return rest
      else
        none
  | [] => none

/-- Whether a text is a timestamp. -/
def isTimestamp
    (text : List Char) :
    Bool :=
  match date? text with
  | none => false
  | some [] => true
  | some (' ' :: rest) => clock? (rest.dropWhile (· == ' ')) == some []
  | some (mark :: rest) =>
      (mark == 'T' || mark == 't') && ((clock? rest).bind zone?) == some []

end BlockScript.Yaml.Timestamp
