import ToolShape.Json.Basic
import ToolShape.Double.Shortest

/-!
# JSON text of a value

Two layouts: `Json.compact`, without any white space, and `Json.pretty`, with one item a line. A
string is written with the fewest escapes: the quote, the backslash and the control characters.
-/

set_option autoImplicit false

namespace ToolShape.Json

/-! ## Strings -/

/-- The lowercase hexadecimal digit of a number below sixteen. -/
def hexDigit (n : Nat) : Char := if n < 10 then Char.ofNat (48 + n) else Char.ofNat (87 + n)

/-- How a character is written between quotes. -/
def escape (c : Char) : List Char :=
  if c = '"' then ['\\', '"']
  else if c = '\\' then ['\\', '\\']
  else if c = '\n' then ['\\', 'n']
  else if c = '\r' then ['\\', 'r']
  else if c = '\t' then ['\\', 't']
  else if c = '\x08' then ['\\', 'b']
  else if c = '\x0c' then ['\\', 'f']
  else if c.toNat < 32 then ['\\', 'u', '0', '0', hexDigit (c.toNat / 16), hexDigit (c.toNat % 16)]
  else [c]

/-- The characters of a quoted string. -/
def quoteChars (s : List Char) : List Char := '"' :: s.flatMap escape ++ ['"']

/-- A string as JSON text. -/
def quote (s : String) : String := String.ofList (quoteChars s.toList)

/-! ## Numbers -/

/-- Layout of a double: positional while the leading digit stands for a power of ten from
`leastPositional` up to, but not including, `firstScientific`. -/
structure FloatLayout where
  leastPositional : Int
  firstScientific : Int

/-- JSON numbers are positional from `10 ^ -5` up to `10 ^ 16`. -/
def floatLayout : FloatLayout := ⟨-5, 16⟩

/-- The exponent part, with its sign always written. -/
def exponentText (e : Int) : String :=
  if e < 0 then "e-" ++ toString e.natAbs else "e+" ++ toString e.natAbs

/-- A positive decimal in the given layout. -/
def decimalText (layout : FloatLayout) (d : Double.Decimal) : String :=
  let digits := Nat.toDigits 10 d.digits
  let leading : Int := d.exponent + digits.length - 1
  if leading < layout.leastPositional || layout.firstScientific ≤ leading then
    let mantissa := match digits with
      | [] => []
      | [first] => [first]
      | first :: rest => first :: '.' :: rest
    String.ofList mantissa ++ exponentText leading
  else if 0 ≤ d.exponent then
    String.ofList (digits ++ List.replicate d.exponent.toNat '0') ++ ".0"
  else if 0 ≤ leading then
    let whole := leading.toNat + 1
    String.ofList (digits.take whole ++ '.' :: digits.drop whole)
  else
    String.ofList ('0' :: '.' :: List.replicate (-leading - 1).toNat '0' ++ digits)

/-- A double as JSON text: the fewest digits that read back, always with a fraction or an
exponent. -/
def floatText (x : Double) : String :=
  let magnitude := if x.isZero then "0.0" else decimalText floatLayout x.shortest
  if x.negative then "-" ++ magnitude else magnitude

def Number.text : Number → String
  | .int n => toString n
  | .float x => floatText x

/-! ## Compact layout -/

mutual

/-- The text of a value without white space. -/
def compact : Json → String
  | .null => "null"
  | .bool true => "true"
  | .bool false => "false"
  | .num n => n.text
  | .str s => quote s
  | .arr items => "[" ++ compactItems items ++ "]"
  | .obj fields => "\x7b" ++ compactFields fields ++ "\x7d"

def compactItems : List Json → String
  | [] => ""
  | [v] => v.compact
  | v :: rest => v.compact ++ "," ++ compactItems rest

def compactFields : List (String × Json) → String
  | [] => ""
  | [(k, v)] => quote k ++ ":" ++ v.compact
  | (k, v) :: rest => quote k ++ ":" ++ v.compact ++ "," ++ compactFields rest

end

/-! ## Pretty layout -/

/-- The start of a line at a nesting level: two spaces for each. -/
def indent (level : Nat) : String := String.ofList ('\n' :: List.replicate (2 * level) ' ')

mutual

/-- The text of a value with one item a line, inside `level` containers. -/
def prettyAt : Json → (level : Nat) → String
  | .arr [], _ => "[]"
  | .arr (v :: rest), level =>
    "[" ++ indent (level + 1) ++ prettyAt v (level + 1) ++ prettyItems rest (level + 1)
      ++ indent level ++ "]"
  | .obj [], _ => "\x7b\x7d"
  | .obj ((k, v) :: rest), level =>
    "\x7b" ++ indent (level + 1) ++ quote k ++ ": " ++ prettyAt v (level + 1)
      ++ prettyFields rest (level + 1) ++ indent level ++ "\x7d"
  | .null, _ => "null"
  | .bool b, _ => if b then "true" else "false"
  | .num n, _ => n.text
  | .str s, _ => quote s

/-- The items after the first, each led by its comma. -/
def prettyItems : List Json → (level : Nat) → String
  | [], _ => ""
  | v :: rest, level => "," ++ indent level ++ prettyAt v level ++ prettyItems rest level

/-- The fields after the first, each led by its comma. -/
def prettyFields : List (String × Json) → (level : Nat) → String
  | [], _ => ""
  | (k, v) :: rest, level =>
    "," ++ indent level ++ quote k ++ ": " ++ prettyAt v level ++ prettyFields rest level

end

/-- The text of a value with one item a line. -/
def pretty (v : Json) : String := v.prettyAt 0

end ToolShape.Json
