import ToolShape.Text.Ranges

/-!
# White space in text

The Unicode property White_Space, and the two things done with it: telling whether a text shows
anything at all, and cutting it into words.
-/

set_option autoImplicit false

namespace ToolShape.Text

/-- The code points with the property White_Space. -/
def blanks : Ranges :=
  [(0x09, 0x0D), (0x20, 0x20), (0x85, 0x85), (0xA0, 0xA0), (0x1680, 0x1680), (0x2000, 0x200A),
    (0x2028, 0x2029), (0x202F, 0x202F), (0x205F, 0x205F), (0x3000, 0x3000)]

def isBlank (c : Char) : Bool := blanks.contains c

/-- Whether a text consists of white space only. -/
def allBlank (text : String) : Bool := text.toList.all isBlank

/-- The words of a text; `word` holds, last character first, the one being read. -/
def wordsFrom (word : List Char) : List Char → List (List Char)
  | [] => if word.isEmpty then [] else [word.reverse]
  | c :: rest =>
    if isBlank c then
      if word.isEmpty then wordsFrom [] rest else word.reverse :: wordsFrom [] rest
    else wordsFrom (c :: word) rest

/-- The longest runs of characters that are not white space. -/
def words (text : List Char) : List (List Char) := wordsFrom [] text

/-- A word read to its end is not empty and holds no white space, if what was read of it so far
holds none. -/
theorem visible_of_mem_wordsFrom {word text : List Char} (hword : ∀ c ∈ word, isBlank c = false) :
    ∀ w ∈ wordsFrom word text, w ≠ [] ∧ ∀ c ∈ w, isBlank c = false := by
  induction text generalizing word with
  | nil =>
    intro w hw
    by_cases he : word.isEmpty <;> simp_all [wordsFrom]
  | cons c rest ih =>
    intro w hw
    by_cases hc : isBlank c
    · by_cases he : word.isEmpty
      · simp only [wordsFrom, hc, he, if_true] at hw
        exact ih (by simp) w hw
      · simp only [wordsFrom, hc, he, if_true] at hw
        rcases List.mem_cons.1 (by simpa using hw) with rfl | hw
        · exact ⟨by simpa using he, by simpa using hword⟩
        · exact ih (by simp) w hw
    · simp only [wordsFrom, hc] at hw
      have hcons : ∀ d ∈ c :: word, isBlank d = false := by
        intro d hd
        rcases List.mem_cons.1 hd with rfl | hd
        · simpa using hc
        · exact hword d hd
      exact ih hcons w (by simpa using hw)

/-- No word is empty or holds white space. -/
theorem words_visible (text : List Char) :
    ∀ w ∈ words text, w ≠ [] ∧ ∀ c ∈ w, isBlank c = false :=
  visible_of_mem_wordsFrom (by simp)

end ToolShape.Text
