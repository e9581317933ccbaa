import ToolShape.Json.Printer

/-!
# Suffixes of generated names

A generated name ends in eight lowercase hexadecimal digits, so that two records of the same shape
still differ by name. A suffix comes from a counter, by its low 32 bits, or from a 128-bit
identifier, by its high 32 bits.
-/

set_option autoImplicit false

namespace ToolShape.Name

/-- Whether a character is a lowercase hexadecimal digit. -/
def isHexDigit (c : Char) : Bool := ('0' ≤ c && c ≤ '9') || ('a' ≤ c && c ≤ 'f')

/-- Whether a text is eight lowercase hexadecimal digits. -/
def isSuffix (text : List Char) : Bool := text.length == 8 && text.all isHexDigit

/-- Eight lowercase hexadecimal digits. -/
structure Suffix where
  digits : List Char
  wellFormed : isSuffix digits = true

namespace Suffix

@[ext] theorem ext {a b : Suffix} (h : a.digits = b.digits) : a = b := by
  cases a; cases b; simp_all

instance : DecidableEq Suffix := fun a b =>
  if h : a.digits = b.digits then isTrue (ext h) else isFalse fun e => h (e ▸ rfl)

def text (s : Suffix) : String := String.ofList s.digits

/-- The suffix a text spells, if it spells one. -/
def ofChars? (text : List Char) : Option Suffix :=
  if h : isSuffix text = true then some ⟨text, h⟩ else none

theorem ofChars?_digits (s : Suffix) : ofChars? s.digits = some s := by
  simp [ofChars?, s.wellFormed]

theorem digits_of_ofChars? {text : List Char} {s : Suffix} (h : ofChars? text = some s) :
    s.digits = text := by
  unfold ofChars? at h
  split at h
  · cases h; rfl
  · cases h

theorem isHexDigit_hexDigit (n : Nat) : isHexDigit (Json.hexDigit (n % 16)) = true := by
  have h : n % 16 < 16 := Nat.mod_lt _ (by decide)
  generalize n % 16 = k at h
  exact (by decide : ∀ k < 16, isHexDigit (Json.hexDigit k) = true) k h

/-- The low 32 bits of a number, in hexadecimal. -/
def ofWord (n : Nat) : Suffix where
  digits := [7, 6, 5, 4, 3, 2, 1, 0].map fun place => Json.hexDigit (n / Nat.pow 16 place % 16)
  wellFormed := by simp [isSuffix, isHexDigit_hexDigit]

/-- The suffix of a counter. -/
def ofCounter (counter : Nat) : Suffix := ofWord (counter % Nat.pow 2 32)

/-- The suffix of a 128-bit identifier. -/
def ofIdentifier (identifier : Nat) : Suffix := ofWord (identifier / Nat.pow 2 96 % Nat.pow 2 32)

end Suffix

/-! ## Sources -/

/-- The suffix drawn at each position, counted from the first draw. -/
abbrev Source := Nat → Suffix

/-- Counts up from `start`, and wraps as a 64-bit counter does. -/
def Source.counting (start : Nat) : Source := fun position =>
  Suffix.ofCounter ((start + position) % Nat.pow 2 64)

/-- Scatters the positions over all suffixes: multiplication by an odd number is a permutation of
the 32-bit words, so no suffix comes twice in `2 ^ 32` draws. -/
def Source.scattered (key : Nat) : Source := fun position =>
  Suffix.ofCounter (key + position * 0x9E3779B1)

end ToolShape.Name
