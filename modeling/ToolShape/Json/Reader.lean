import ToolShape.Json.Basic

/-!
# Reading JSON text

The reader follows the grammar strictly: no trailing comma, no comment, nothing after the value. It
tells two faults apart: the text ended too early, or it went wrong before its end. A text may nest
at most `greatestNesting` arrays and objects.

Every function takes the characters that remain and gives back those it left. Repeated keys are
kept as written; see `Json.settle`.
-/

set_option autoImplicit false

namespace ToolShape.Json

/-- Why a text is no JSON value. -/
inductive Fault where
  /-- The text ends inside the value. -/
  | early
  /-- Some character cannot stand where it does. -/
  | malformed
deriving DecidableEq

/-- The deepest nesting of arrays and objects that is read. -/
def greatestNesting : Nat := 127

/-- White space between tokens. -/
def isSpace (c : Char) : Bool := c == ' ' || c == '\n' || c == '\t' || c == '\r'

def skipSpace (text : List Char) : List Char := text.dropWhile isSpace

/-- Reads the given characters; a text that ends first ended early. -/
def word : (expected : List Char) → (text : List Char) → Except Fault (List Char)
  | [], text => .ok text
  | _ :: _, [] => .error .early
  | e :: expected, c :: text => if c = e then word expected text else .error .malformed

/-! ## Strings -/

/-- The value of a hexadecimal digit of either case. -/
def hexValue? (c : Char) : Option Nat :=
  if '0' ≤ c && c ≤ '9' then some (c.toNat - 48)
  else if 'a' ≤ c && c ≤ 'f' then some (c.toNat - 87)
  else if 'A' ≤ c && c ≤ 'F' then some (c.toNat - 55)
  else none

/-- The number of bytes of a text. -/
def byteCount (text : List Char) : Nat := text.foldl (fun count c => count + c.utf8Size) 0

/-- Reads the four digits of a code unit. The text ended early when fewer than four bytes remain,
whatever they are. -/
def codeUnit (text : List Char) : Except Fault (Nat × List Char) :=
  if byteCount (text.take 4) < 4 then .error .early
  else match text with
    | a :: b :: c :: d :: rest =>
      match hexValue? a, hexValue? b, hexValue? c, hexValue? d with
      | some a, some b, some c, some d => .ok (((a * 16 + b) * 16 + c) * 16 + d, rest)
      | _, _, _, _ => .error .malformed
    | _ => .error .malformed

/-- Reads what follows `\u`: one code unit, or a pair of surrogates that make one character. -/
def codePoint (text : List Char) : Except Fault (Char × List Char) := do
  let (high, text) ← codeUnit text
  if 0xDC00 ≤ high && high ≤ 0xDFFF then throw .malformed
  if high < 0xD800 || 0xDBFF < high then return (Char.ofNat high, text)
  match text with
  | [] => throw .early
  | '\\' :: [] => throw .early
  | '\\' :: 'u' :: text =>
    let (low, text) ← codeUnit text
    if low < 0xDC00 || 0xDFFF < low then throw .malformed
    return (Char.ofNat (0x10000 + (high - 0xD800) * 0x400 + (low - 0xDC00)), text)
  | _ => throw .malformed

/-- Reads what follows a backslash. -/
def escapeSequence : List Char → Except Fault (Char × List Char)
  | [] => .error .early
  | '"' :: rest => .ok ('"', rest)
  | '\\' :: rest => .ok ('\\', rest)
  | '/' :: rest => .ok ('/', rest)
  | 'b' :: rest => .ok ('\x08', rest)
  | 'f' :: rest => .ok ('\x0c', rest)
  | 'n' :: rest => .ok ('\n', rest)
  | 'r' :: rest => .ok ('\r', rest)
  | 't' :: rest => .ok ('\t', rest)
  | 'u' :: rest => codePoint rest
  | _ :: _ => .error .malformed

/-- Reads the characters of a string up to its closing quote. Each round takes at least one
character, so as many rounds as there are characters suffice. -/
def stringChars : (rounds : Nat) → (text : List Char) → Except Fault (List Char × List Char)
  | 0, _ => .error .early
  | _ + 1, [] => .error .early
  | _ + 1, '"' :: rest => .ok ([], rest)
  | rounds + 1, '\\' :: rest => do
    let (c, rest) ← escapeSequence rest
    let (s, rest) ← stringChars rounds rest
    return (c :: s, rest)
  | rounds + 1, c :: rest =>
    if c.toNat < 32 then .error .malformed
    else do
      let (s, rest) ← stringChars rounds rest
      return (c :: s, rest)

/-- Reads a string whose opening quote has been taken. -/
def stringBody (text : List Char) : Except Fault (String × List Char) := do
  let (s, rest) ← stringChars (text.length + 1) text
  return (String.ofList s, rest)

/-! ## Numbers

A number's digits gather in an integer of 64 bits. Once the next digit would not fit, the digits
left before the point only raise the exponent, and those left after it are passed over. -/

def greatestWord : Nat := Nat.pow 2 64 - 1

/-- The largest exponent that is kept as it is written. -/
def greatestExponent : Nat := Nat.pow 2 31 - 1

def isDigit (c : Char) : Bool := '0' ≤ c && c ≤ '9'

def digitValue (c : Char) : Nat := c.toNat - 48

/-- Adds digits to a significand while they fit in 64 bits: the significand, how many were added,
and the characters from the first one that was not. -/
def gather : (significand : Nat) → (text : List Char) → Nat × Nat × List Char
  | significand, [] => (significand, 0, [])
  | significand, c :: rest =>
    if isDigit c && significand * 10 + digitValue c ≤ greatestWord then
      let (total, count, left) := gather (significand * 10 + digitValue c) rest
      (total, count + 1, left)
    else (significand, 0, c :: rest)

/-- A number too large to be a double is a fault of the text. -/
def double (negative : Bool) (significand : Nat) (exponent : Int) (rest : List Char) :
    Except Fault (Number × List Char) :=
  match Double.ofDecimal? negative significand exponent with
  | some x => .ok (.float x, rest)
  | none => .error .malformed

/-- Reads what follows the letter of an exponent. -/
def exponentPart (negative : Bool) (significand : Nat) (exponent : Int) (text : List Char) :
    Except Fault (Number × List Char) :=
  let (raises, text) := match text with
    | '+' :: rest => (true, rest)
    | '-' :: rest => (false, rest)
    | _ => (true, text)
  match text with
  | [] => .error .early
  | c :: _ =>
    if !isDigit c then .error .malformed
    else
      let value := (text.takeWhile isDigit).foldl (fun n d => n * 10 + digitValue d) 0
      let rest := text.dropWhile isDigit
      if greatestExponent < value then
        if significand != 0 && raises then .error .malformed
        else .ok (.float (Double.zero negative), rest)
      else double negative significand (if raises then exponent + value else exponent - value) rest

/-- Ends a number that is a double: at an exponent, or here. -/
def finishDouble (negative : Bool) (significand : Nat) (exponent : Int) (text : List Char) :
    Except Fault (Number × List Char) :=
  match text with
  | 'e' :: rest => exponentPart negative significand exponent rest
  | 'E' :: rest => exponentPart negative significand exponent rest
  | _ => double negative significand exponent text

/-- Reads what follows the decimal point; there must be a digit. -/
def fraction (negative : Bool) (significand : Nat) (exponent : Int) (text : List Char) :
    Except Fault (Number × List Char) :=
  let (total, count, left) := gather significand text
  match text with
  | [] => .error .early
  | c :: _ =>
    if !isDigit c then .error .malformed
    else finishDouble negative total (exponent - count) (left.dropWhile isDigit)

/-- Ends a number after the digits before the point, of which `dropped` did not fit. -/
def finishNumber (negative : Bool) (significand dropped : Nat) (text : List Char) :
    Except Fault (Number × List Char) :=
  match text with
  | '.' :: rest => fraction negative significand dropped rest
  | 'e' :: rest => exponentPart negative significand dropped rest
  | 'E' :: rest => exponentPart negative significand dropped rest
  | _ =>
    if dropped != 0 then double negative significand dropped text
    else if !negative then .ok (.int significand, text)
    else if 0 < significand && significand ≤ Nat.pow 2 63 then .ok (.int (-(significand : Int)), text)
    else double true significand 0 text

/-- Reads a number whose sign has been taken. -/
def number (negative : Bool) (text : List Char) : Except Fault (Number × List Char) :=
  match text with
  | [] => .error .early
  | '0' :: rest =>
    match rest with
    | c :: _ => if isDigit c then .error .malformed else finishNumber negative 0 0 rest
    | [] => finishNumber negative 0 0 rest
  | c :: _ =>
    if !isDigit c then .error .malformed
    else
      let (significand, _, left) := gather 0 text
      finishNumber negative significand (left.takeWhile isDigit).length (left.dropWhile isDigit)

/-! ## Values -/

/-- Reads the key of a field, its quote not yet taken, and the colon after it. -/
def key (text : List Char) : Except Fault (String × List Char) :=
  match text with
  | [] => .error .early
  | '"' :: rest => do
    let (k, rest) ← stringBody rest
    match skipSpace rest with
    | [] => throw .early
    | ':' :: rest => return (k, rest)
    | _ => throw .malformed
  | _ => .error .malformed

mutual

/-- Reads one value. Of two nested calls one takes a character, so `fuel` of twice the length of the
text suffices; `room` is how many more containers may be opened. -/
def value : (fuel room : Nat) → (text : List Char) → Except Fault (Json × List Char)
  | 0, _, _ => .error .early
  | fuel + 1, room, text =>
    match skipSpace text with
    | [] => .error .early
    | 'n' :: rest => do
      let rest ← word "ull".toList rest
      return (.null, rest)
    | 't' :: rest => do
      let rest ← word "rue".toList rest
      return (.bool true, rest)
    | 'f' :: rest => do
      let rest ← word "alse".toList rest
      return (.bool false, rest)
    | '"' :: rest => do
      let (s, rest) ← stringBody rest
      return (.str s, rest)
    | '[' :: rest =>
      match room with
      | 0 => .error .malformed
      | room + 1 =>
        match skipSpace rest with
        | [] => .error .early
        | ']' :: rest => .ok (.arr [], rest)
        | c :: rest => do
          let (items, rest) ← elements fuel room (c :: rest)
          return (.arr items, rest)
    | '\x7b' :: rest =>
      match room with
      | 0 => .error .malformed
      | room + 1 =>
        match skipSpace rest with
        | [] => .error .early
        | '\x7d' :: rest => .ok (.obj [], rest)
        | c :: rest => do
          let (fields, rest) ← members fuel room (c :: rest)
          return (.obj fields, rest)
    | '-' :: rest => do
      let (n, rest) ← number true rest
      return (.num n, rest)
    | c :: rest =>
      if isDigit c then do
        let (n, rest) ← number false (c :: rest)
        return (.num n, rest)
      else .error .malformed

/-- Reads the items of an array from the first one to the closing bracket. -/
def elements : (fuel room : Nat) → (text : List Char) → Except Fault (List Json × List Char)
  | 0, _, _ => .error .early
  | fuel + 1, room, text => do
    let (v, rest) ← value fuel room text
    match skipSpace rest with
    | [] => throw .early
    | ']' :: rest => return ([v], rest)
    | ',' :: rest =>
      match skipSpace rest with
      | ']' :: _ => throw .malformed
      | rest =>
        let (items, rest) ← elements fuel room rest
        return (v :: items, rest)
    | _ => throw .malformed

/-- Reads the fields of an object from the first one to the closing brace. -/
def members : (fuel room : Nat) → (text : List Char) → Except Fault (Fields × List Char)
  | 0, _, _ => .error .early
  | fuel + 1, room, text => do
    let (k, rest) ← key text
    let (v, rest) ← value fuel room rest
    match skipSpace rest with
    | [] => throw .early
    | '\x7d' :: rest => return ([(k, v)], rest)
    | ',' :: rest =>
      let (fields, rest) ← members fuel room (skipSpace rest)
      return ((k, v) :: fields, rest)
    | _ => throw .malformed

end

/-- Reads the first value of a text, and gives the characters after it. -/
def readFirst (text : String) : Except Fault (Json × List Char) :=
  let chars := text.toList
  value (2 * chars.length + 2) greatestNesting chars

/-- Nothing but white space may follow a value. -/
def atEnd (rest : List Char) : Bool := (skipSpace rest).isEmpty

/-- Reads a text that holds exactly one value, with repeated keys kept as written. -/
def readRaw (text : String) : Except Fault Json := do
  let (v, rest) ← readFirst text
  if atEnd rest then return v else throw .malformed

/-- Reads a text that holds exactly one value, and settles repeated keys. -/
def read (text : String) : Except Fault Json := do return (← readRaw text).settle

end ToolShape.Json
