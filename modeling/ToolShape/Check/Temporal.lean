import ToolShape.Text.Blank

/-!
# Strings that hold a point in time

Three forms of text: a calendar date, a time of day, and an instant with its offset. Dates and
times of day are read leniently: a number may be short, and white space may stand before it. An
instant is read strictly, digit by digit. A second may be the sixtieth of its minute.
-/

set_option autoImplicit false

namespace ToolShape.Temporal

/-! ## Parts of a text

A part gives what it read with the characters after it. -/

/-- The value of an ASCII digit. -/
def digit? (c : Char) : Option Nat := if '0' ≤ c && c ≤ '9' then some (c.toNat - 48) else none

/-- The value of leading digits, at most `limit` of them, and how many there were. -/
def digits : (limit : Nat) → (value count : Nat) → List Char → Nat × Nat × List Char
  | 0, value, count, text => (value, count, text)
  | _ + 1, value, count, [] => (value, count, [])
  | limit + 1, value, count, c :: rest =>
    match digit? c with
    | some d => digits limit (value * 10 + d) (count + 1) rest
    | none => (value, count, c :: rest)

/-- A number of one to `limit` digits. -/
def numeral? (limit : Nat) (text : List Char) : Option (Nat × List Char) :=
  match digits limit 0 0 text with
  | (_, 0, _) => none
  | (value, _, rest) => some (value, rest)

/-- A number of one to `limit` digits, after any white space. -/
def looseNumeral? (limit : Nat) (text : List Char) : Option (Nat × List Char) :=
  numeral? limit (text.dropWhile Text.isBlank)

/-- A number of exactly `count` digits. -/
def exactNumeral? (count : Nat) (text : List Char) : Option (Nat × List Char) :=
  match digits count 0 0 text with
  | (value, found, rest) => if found = count then some (value, rest) else none

/-- One given character. -/
def mark? (c : Char) : List Char → Option (List Char)
  | d :: rest => if d = c then some rest else none
  | [] => none

/-- A fraction of a second, if there is one; it has at least one digit. -/
def fraction? : List Char → Option (List Char)
  | '.' :: rest => do
    let (_, rest) ← numeral? 1 rest
    return rest.dropWhile fun c => (digit? c).isSome
  | text => some text

/-! ## Dates -/

def isLeapYear (year : Int) : Bool := year % 4 == 0 && (year % 100 != 0 || year % 400 == 0)

def daysInMonth (year : Int) (month : Nat) : Nat :=
  if month = 2 then if isLeapYear year then 29 else 28
  else if month = 4 || month = 6 || month = 9 || month = 11 then 30
  else 31

/-- The years that dates can have. -/
def firstYear : Int := -262143
def lastYear : Int := 262142

def isDay (year : Int) (month day : Nat) : Bool :=
  firstYear ≤ year && year ≤ lastYear && 1 ≤ month && month ≤ 12
    && 1 ≤ day && day ≤ daysInMonth year month

/-- A year: at most four digits, or a sign and any number of them. -/
def year? (text : List Char) : Option (Int × List Char) :=
  match text.dropWhile Text.isBlank with
  | '-' :: rest => (numeral? rest.length rest).map fun (y, rest) => (-(y : Int), rest)
  | '+' :: rest => (numeral? rest.length rest).map fun (y, rest) => ((y : Int), rest)
  | text => (numeral? 4 text).map fun (y, rest) => ((y : Int), rest)

/-- Whether a text is a date: year, month and day with hyphens between. -/
def isDate (text : String) : Bool :=
  match (do
    let (year, rest) ← year? text.toList
    let rest ← mark? '-' rest
    let (month, rest) ← looseNumeral? 2 rest
    let rest ← mark? '-' rest
    let (day, rest) ← looseNumeral? 2 rest
    return (year, month, day, rest)) with
  | some (year, month, day, []) => isDay year month day
  | _ => false

/-! ## Times of day -/

def isTimeOfDay (hour minute second : Nat) : Bool := hour ≤ 23 && minute ≤ 59 && second ≤ 60

/-- What may follow the minutes: nothing, or seconds with or without a fraction. -/
def seconds? : List Char → Option (Nat × List Char)
  | [] => some (0, [])
  | text => do
    let rest ← mark? ':' text
    let (second, rest) ← looseNumeral? 2 rest
    let rest ← fraction? rest
    return (second, rest)

/-- Whether a text is a time of day: hours and minutes, and seconds if wanted. -/
def isTime (text : String) : Bool :=
  match (do
    let (hour, rest) ← looseNumeral? 2 text.toList
    let rest ← mark? ':' rest
    let (minute, rest) ← looseNumeral? 2 rest
    let (second, rest) ← seconds? rest
    return (hour, minute, second, rest)) with
  | some (hour, minute, second, []) => isTimeOfDay hour minute second
  | _ => false

/-! ## Instants -/

/-- What separates the date of an instant from its time. -/
def separator? : List Char → Option (List Char)
  | c :: rest => if c = 'T' || c = 't' || c = ' ' then some rest else none
  | [] => none

/-- The characters that a signed offset may start with; the last is the minus sign proper. -/
def offsetSigns : List Char := ['+', '-', '\u2212']

/-- The offset of an instant, which ends it. -/
def isOffset : List Char → Bool
  | [] => false
  | c :: rest =>
    if c = 'Z' || c = 'z' then rest.isEmpty
    else if offsetSigns.contains c then
      match (do
        let (hours, rest) ← exactNumeral? 2 rest
        let rest ← mark? ':' rest
        let (minutes, rest) ← exactNumeral? 2 rest
        return (hours, minutes, rest)) with
      | some (hours, minutes, []) => hours ≤ 23 && minutes ≤ 59
      | _ => false
    else false

/-- Whether a text is an instant: a date, a time with seconds, and an offset. -/
def isInstant (text : String) : Bool :=
  match (do
    let (year, rest) ← exactNumeral? 4 text.toList
    let rest ← mark? '-' rest
    let (month, rest) ← exactNumeral? 2 rest
    let rest ← mark? '-' rest
    let (day, rest) ← exactNumeral? 2 rest
    let rest ← separator? rest
    let (hour, rest) ← exactNumeral? 2 rest
    let rest ← mark? ':' rest
    let (minute, rest) ← exactNumeral? 2 rest
    let rest ← mark? ':' rest
    let (second, rest) ← exactNumeral? 2 rest
    let rest ← fraction? rest
    return (isDay year month day && isTimeOfDay hour minute second, rest)) with
  | some (valid, rest) => valid && isOffset rest
  | none => false

end ToolShape.Temporal
