import ToolShape.Proofs.Json.Reading
import ToolShape.Proofs.Name.Replacement
import Mathlib.Data.Nat.ModEq
import Mathlib.Data.String.Basic

/-!
# Names as codes for pairs

> **A text is read as a context and eight digits exactly when it is spelled that way**
> (`Name.exists_parse?_iff`), whatever the context holds.

The stem is at a fixed place and so are the digits, since none of them is an underscore. Nothing is
asked of what stands in between: it may be empty, hold underscores, or end like a generated name.

So different pairs have different names, and the names in use are the texts that are read. The
suffixes themselves are the words of 32 bits: any eight digits are counted at some point, and cut
from some identifier (`Name.Suffix.exists_ofCounter_eq`).
-/

set_option autoImplicit false

namespace ToolShape.Name

/-! ## Eight digits -/

namespace Suffix

theorem utf8Size_of_isHexDigit {c : Char} (h : isHexDigit c = true) : c.utf8Size = 1 := by
  obtain ⟨k, rfl⟩ := exists_hexDigit_eq h
  exact Json.utf8Size_hexDigit k k.isLt

/-- Of digits there are as many as bytes. -/
theorem utf8ByteSize_eq_length {text : String} (h : ∀ c ∈ text.toList, isHexDigit c = true) :
    text.utf8ByteSize = text.toList.length := by
  suffices hsum : ∀ cs : List Char, (∀ c ∈ cs, isHexDigit c = true) →
      String.utf8Len cs = cs.length by
    rw [← hsum text.toList h, ← String.utf8ByteSize_ofList, String.ofList_toList]
  intro cs
  induction cs with
  | nil => intro _; rfl
  | cons c rest ih =>
    intro hall
    obtain ⟨hc, hrest⟩ := List.forall_mem_cons.mp hall
    rw [String.utf8Len_cons, ih hrest, utf8Size_of_isHexDigit hc, List.length_cons]

/-- A text is a suffix when it has eight bytes and they are digits. -/
theorem isSuffix_iff {text : String} :
    isSuffix text.toList = true ↔
      text.utf8ByteSize = 8 ∧ ∀ c ∈ text.toList, isHexDigit c = true := by
  rw [isSuffix, Bool.and_eq_true, beq_iff_eq, List.all_eq_true]
  refine and_congr_left fun h => ?_
  rw [utf8ByteSize_eq_length h]

/-- Any eight digits are a suffix, and only they. -/
theorem exists_text_eq_iff {text : String} :
    (∃ suffix : Suffix, suffix.text = text) ↔
      text.utf8ByteSize = 8 ∧ ∀ c ∈ text.toList, isHexDigit c = true := by
  rw [← isSuffix_iff]
  constructor
  · rintro ⟨suffix, rfl⟩
    rw [Suffix.text, String.toList_ofList]
    exact suffix.wellFormed
  · intro h
    exact ⟨⟨text.toList, h⟩, String.ofList_toList⟩

/-! ## Suffixes and words -/

theorem ofCounter_injOn {a b : Nat} (ha : a < 2 ^ 32) (hb : b < 2 ^ 32)
    (h : ofCounter a = ofCounter b) : a = b := by
  have hmod := ofCounter_eq_iff.mp h
  rwa [Nat.mod_eq_of_lt ha, Nat.mod_eq_of_lt hb] at hmod

/-- **Every suffix is counted at some point.** There are no more suffixes than words, and different
words have different ones, so none is left over. -/
theorem exists_ofCounter_eq (suffix : Suffix) : ∃ word < 2 ^ 32, ofCounter word = suffix := by
  by_contra hnone
  have hcounted : ((List.range (2 ^ 32)).map ofCounter).Nodup := by
    refine List.Nodup.map_on ?_ List.nodup_range
    intro a ha b hb
    exact ofCounter_injOn (List.mem_range.mp ha) (List.mem_range.mp hb)
  have hnew : suffix ∉ (List.range (2 ^ 32)).map ofCounter := by
    intro hmem
    obtain ⟨word, hword, heq⟩ := List.mem_map.mp hmem
    exact hnone ⟨word, List.mem_range.mp hword, heq⟩
  have hlength := length_le_of_nodup (List.nodup_cons.mpr ⟨hnew, hcounted⟩)
  rw [List.length_cons, List.length_map, List.length_range] at hlength
  exact Nat.not_succ_le_self _ hlength

/-- An identifier has the suffix of its high word. -/
theorem ofIdentifier_eq_ofCounter (identifier : Nat) :
    ofIdentifier identifier = ofCounter (identifier / 2 ^ 96) := rfl

theorem exists_ofIdentifier_eq (suffix : Suffix) :
    ∃ identifier < 2 ^ 128, ofIdentifier identifier = suffix := by
  obtain ⟨word, hword, rfl⟩ := exists_ofCounter_eq suffix
  refine ⟨word * 2 ^ 96, ?_, ?_⟩
  · rw [show 2 ^ 128 = 2 ^ 32 * 2 ^ 96 from rfl]
    exact Nat.mul_lt_mul_of_pos_right hword (Nat.two_pow_pos 96)
  · rw [ofIdentifier_eq_ofCounter, Nat.mul_div_cancel word (Nat.two_pow_pos 96)]

end Suffix

/-! ## Names -/

theorem parse?_eq_some_iff {name : String} {context : Context} {suffix : Suffix} :
    parse? name = some (context, suffix) ↔ name = generated context suffix := by
  constructor
  · exact eq_generated_of_parse?
  · rintro rfl
    exact parse?_generated context suffix

/-- **A text is read as a context and eight digits exactly when it is spelled that way.** -/
theorem exists_parse?_iff {name context digits : String} :
    (∃ suffix, parse? name = some (⟨context⟩, suffix) ∧ suffix.text = digits) ↔
      name = "Generated_" ++ context ++ "_" ++ digits ∧
        digits.utf8ByteSize = 8 ∧ ∀ c ∈ digits.toList, isHexDigit c = true := by
  rw [← Suffix.exists_text_eq_iff]
  constructor
  · rintro ⟨suffix, hparse, rfl⟩
    exact ⟨eq_generated_of_parse? hparse, suffix, rfl⟩
  · rintro ⟨rfl, suffix, rfl⟩
    exact ⟨suffix, parse?_generated ⟨context⟩ suffix, rfl⟩

theorem generated_injective : Function.Injective fun p : Context × Suffix => generated p.1 p.2 := by
  intro p q h
  have hparse : parse? (generated p.1 p.2) = parse? (generated q.1 q.2) := congrArg parse? h
  rw [parse?_generated, parse?_generated] at hparse
  exact Option.some.inj hparse

theorem isSome_parse?_iff {name : String} :
    (parse? name).isSome = true ↔ ∃ context suffix, name = generated context suffix := by
  rw [Option.isSome_iff_exists, Prod.exists]
  simp only [parse?_eq_some_iff]

/-- **Names are codes for pairs of a context and a suffix.** Reading undoes generating and nothing
else; a text that is read is spelled as one; no two pairs have one name; the texts that are read are
those generated; and the suffixes are the words of 32 bits, counted or cut from an identifier. -/
theorem names_encode_pairs :
    (∀ name context suffix,
      parse? name = some (context, suffix) ↔ name = generated context suffix) ∧
    (∀ name context digits : String,
      (∃ suffix, parse? name = some (⟨context⟩, suffix) ∧ suffix.text = digits) ↔
        name = "Generated_" ++ context ++ "_" ++ digits ∧
          digits.utf8ByteSize = 8 ∧ ∀ c ∈ digits.toList, isHexDigit c = true) ∧
    (Function.Injective fun p : Context × Suffix => generated p.1 p.2) ∧
    (∀ name, (parse? name).isSome = true ↔ ∃ context suffix, name = generated context suffix) ∧
    (∀ suffix : Suffix, (∃ counter < 2 ^ 32, Suffix.ofCounter counter = suffix) ∧
      ∃ identifier < 2 ^ 128, Suffix.ofIdentifier identifier = suffix) ∧
    ∀ a b, Suffix.ofCounter a = Suffix.ofCounter b ↔ a ≡ b [MOD 2 ^ 32] := by
  refine ⟨fun _ _ _ => parse?_eq_some_iff, fun _ _ _ => exists_parse?_iff, generated_injective,
    fun _ => isSome_parse?_iff, fun suffix => ⟨?_, ?_⟩, fun a b => ?_⟩
  · exact Suffix.exists_ofCounter_eq suffix
  · exact Suffix.exists_ofIdentifier_eq suffix
  · exact Suffix.ofCounter_eq_iff

/-- A context that ends like a generated name, and one that is empty. -/
example : parse? "Generated_a_00000001_000000ff" = some (⟨"a_00000001"⟩, .ofCounter 255) ∧
    parse? "Generated__000000ff" = some (⟨""⟩, .ofCounter 255) :=
  by decide +kernel

end ToolShape.Name
