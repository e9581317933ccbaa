import ToolShape.Shape.Basic

/-!
# When two shapes are the same

Two literals are the same when they list the same strings, in whatever order and however often.
Everything else is compared part by part, so records of different names are never the same.
-/

set_option autoImplicit false

namespace ToolShape

/-- Whether each of two lists has every string of the other. -/
def sameStrings (a b : List String) : Bool := a.all b.contains && b.all a.contains

theorem sameStrings_iff {a b : List String} :
    sameStrings a b = true ↔ ∀ s, s ∈ a ↔ s ∈ b := by
  simp only [sameStrings, Bool.and_eq_true, List.all_eq_true, List.contains_iff_mem]
  exact ⟨fun h s => ⟨h.1 s, h.2 s⟩, fun h => ⟨fun s => (h s).1, fun s => (h s).2⟩⟩

mutual

def Shape.same : Shape → Shape → Bool
  | .unknown, .unknown => true
  | .mapping, .mapping => true
  | .scalar a, .scalar b => a == b
  | .literal a, .literal b => sameStrings a b
  | .sequence a, .sequence b => a.same b
  | .record a, .record b => a.same b
  | .union a, .union b => Shape.sameAll a b
  | _, _ => false

def RecordShape.same : RecordShape → RecordShape → Bool
  | ⟨nameA, fieldsA⟩, ⟨nameB, fieldsB⟩ => nameA == nameB && FieldShape.sameAll fieldsA fieldsB

def Shape.sameAll : List Shape → List Shape → Bool
  | [], [] => true
  | a :: restA, b :: restB => a.same b && Shape.sameAll restA restB
  | _, _ => false

def FieldShape.sameAll : List FieldShape → List FieldShape → Bool
  | [], [] => true
  | ⟨nameA, shapeA, requiredA, descriptionA⟩ :: restA,
    ⟨nameB, shapeB, requiredB, descriptionB⟩ :: restB =>
    nameA == nameB && shapeA.same shapeB && requiredA == requiredB
      && descriptionA == descriptionB && FieldShape.sameAll restA restB
  | _, _ => false

end

end ToolShape
