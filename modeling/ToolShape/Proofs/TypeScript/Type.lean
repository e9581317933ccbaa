import ToolShape.Proofs.Shape.Induction
import ToolShape.TypeScript.Type

/-!
# The names in a type

A type is spelled by recursion, and the names of records end up between brackets and bars. Taken
apart into pieces it shows which parts of the text are names; the pieces are the type
(`Shape.typescript_eq_join`). A type mentions the names among its pieces, and those are names of
records of the shape (`Shape.mentioned_subset`); the records inside a mentioned one are mentioned in
its own declaration and not here.
-/

set_option autoImplicit false

namespace ToolShape

/-- A piece of a type. -/
inductive Piece where
  | name (text : String)
  | fixed (text : String)

namespace Piece

def text : Piece → String
  | name text | fixed text => text

def name? : Piece → Option String
  | name text => some text
  | fixed _ => none

end Piece

mutual

/-- A type, piece by piece. -/
def Shape.pieces : Shape → List Piece
  | .unknown => [.fixed "unknown"]
  | .scalar kind => [.fixed kind.typescript]
  | .literal values => [.fixed (quoteAll " | " values)]
  | .sequence items => .fixed "Array<" :: items.pieces ++ [.fixed ">"]
  | .mapping => [.fixed "Record<string, unknown>"]
  | .record r => [.name r.name]
  | .union members => [Piece.fixed " | "].intercalate (Shape.piecesOfAll members)

def Shape.piecesOfAll : List Shape → List (List Piece)
  | [] => []
  | s :: rest => s.pieces :: Shape.piecesOfAll rest

end

namespace Shape

theorem piecesOfAll_eq_map (members : List Shape) : piecesOfAll members = members.map pieces := by
  induction members with
  | nil => rfl
  | cons s rest ih => rw [piecesOfAll, ih, List.map_cons]

theorem pieces_union (members : List Shape) :
    (union members).pieces = [Piece.fixed " | "].intercalate (members.map pieces) := by
  rw [pieces, piecesOfAll_eq_map]

theorem typescriptAll_eq_map (members : List Shape) :
    typescriptAll members = members.map typescript := by
  induction members with
  | nil => rfl
  | cons s rest ih => rw [typescriptAll, ih, List.map_cons]

theorem join_intercalate (separator : Piece) (parts : List (List Piece)) :
    String.join (([separator].intercalate parts).map Piece.text) =
      separator.text.intercalate (parts.map fun part => String.join (part.map Piece.text)) := by
  induction parts with
  | nil => rfl
  | cons part rest ih =>
    cases rest with
    | nil => simp
    | cons next rest =>
      rw [List.intercalate_cons_cons, List.map_append, List.map_append, String.join_append,
        String.join_append, ih]
      simp [String.intercalate_cons_cons]

/-- **The pieces of a type spell it.** -/
theorem typescript_eq_join (s : Shape) : s.typescript = String.join (s.pieces.map Piece.text) := by
  induction s with
  | sequence items ih =>
    rw [typescript, ih, pieces]
    simp [Piece.text, String.append_assoc]
  | record name fields => simp [typescript, pieces, Piece.text]
  | union members ih =>
    rw [pieces_union, join_intercalate, typescript, typescriptAll_eq_map, List.map_map]
    exact congrArg (String.intercalate " | ") (List.map_congr_left ih)
  | _ => simp [typescript, pieces, Piece.text]

/-- The names in the text of a type. -/
def mentioned (s : Shape) : List String := s.pieces.filterMap Piece.name?

theorem mentioned_union (members : List Shape) :
    (union members).mentioned = members.flatMap mentioned := by
  rw [mentioned, pieces_union]
  induction members with
  | nil => rfl
  | cons s rest ih =>
    cases rest with
    | nil => simp [mentioned]
    | cons next rest =>
      rw [List.map_cons, List.map_cons, List.intercalate_cons_cons, List.filterMap_append,
        ← List.map_cons, ih]
      simp [mentioned, Piece.name?]

/-- A type mentions records of the shape only. -/
theorem mentioned_subset (s : Shape) : s.mentioned ⊆ s.recordNames := by
  induction s with
  | sequence items ih =>
    intro name hname
    rw [recordNames_sequence]
    apply ih
    simpa [mentioned, pieces, Piece.name?] using hname
  | record own fields =>
    intro name hname
    simp [mentioned, pieces, Piece.name?] at hname
    simp [hname]
  | union members ih =>
    intro name hname
    rw [mentioned_union] at hname
    obtain ⟨s, hs, hmem⟩ := List.mem_flatMap.mp hname
    rw [recordNames_union]
    exact List.mem_flatMap.mpr ⟨s, hs, ih s hs hmem⟩
  | _ => simp [mentioned, pieces, Piece.name?]

end Shape

end ToolShape
