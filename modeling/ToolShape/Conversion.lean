import ToolShape.Event
import ToolShape.Name.Suffix

/-!
# Conversions

A conversion draws suffixes and reports events while it computes. It starts at a position of the
source and gives, besides its value, the number of suffixes it drew and the events in order. Two
conversions in turn add their draws and join their events, so no state is shared behind the scenes.
-/

set_option autoImplicit false

namespace ToolShape

/-- What a conversion gives. -/
structure Outcome (α : Type) where
  value : α
  drawn : Nat
  events : List Event

/-- A computation that starts at a position of a suffix source. -/
def Conversion (α : Type) : Type := (position : Nat) → Outcome α

namespace Conversion

variable {α β : Type}

def pure (a : α) : Conversion α := fun _ => ⟨a, 0, []⟩

/-- Runs one conversion, and another from where it stopped. -/
def bind (m : Conversion α) (f : α → Conversion β) : Conversion β := fun position =>
  let first := m position
  let second := f first.value (position + first.drawn)
  ⟨second.value, first.drawn + second.drawn, first.events ++ second.events⟩

instance : Monad Conversion where
  pure := pure
  bind := bind

instance : LawfulMonad Conversion := LawfulMonad.mk' Conversion
  (fun m => by
    funext position
    simp [Functor.map, bind, pure])
  (fun a f => by
    funext position
    simp [Bind.bind, Pure.pure, bind, pure])
  (fun m f g => by
    funext position
    simp [Bind.bind, bind, Nat.add_assoc])

@[simp] theorem pure_apply (a : α) (position : Nat) :
    (Pure.pure a : Conversion α) position = ⟨a, 0, []⟩ := rfl

@[simp] theorem bind_apply (m : Conversion α) (f : α → Conversion β) (position : Nat) :
    (m >>= f) position =
      ⟨(f (m position).value (position + (m position).drawn)).value,
        (m position).drawn + (f (m position).value (position + (m position).drawn)).drawn,
        (m position).events ++ (f (m position).value (position + (m position).drawn)).events⟩ :=
  rfl

@[simp] theorem map_apply (f : α → β) (m : Conversion α) (position : Nat) :
    (f <$> m) position =
      ⟨f (m position).value, (m position).drawn, (m position).events⟩ := by
  simp [Functor.map, bind, pure]

/-- Takes the next suffix. -/
def draw (source : Name.Source) : Conversion Name.Suffix := fun position =>
  ⟨source position, 1, []⟩

/-- Reports an event. -/
def report (e : Event) : Conversion Unit := fun _ => ⟨(), 0, [e]⟩

@[simp] theorem draw_apply (source : Name.Source) (position : Nat) :
    draw source position = ⟨source position, 1, []⟩ := rfl

@[simp] theorem report_apply (e : Event) (position : Nat) :
    report e position = ⟨(), 0, [e]⟩ := rfl

end Conversion

end ToolShape
