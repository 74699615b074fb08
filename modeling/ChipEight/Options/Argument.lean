/-!
# ChipEight.Options.Argument

What an option that takes a value is given: nothing, a value, or a blank, which stands for no value
at all and is not the same as leaving the option out.

* `Argument.ofOption`: a value that is there or not; `Argument.known` goes back.
* `Argument.resolve`: the value with the ones for nothing and for a blank filled in.
-/

namespace ChipEight

/-- What an option is given. -/
inductive Argument (α : Type) where
  | absent
  | blank
  | value (a : α)
deriving DecidableEq, Repr

namespace Argument

/-- A value that is there or not. -/
def ofOption : Option α → Argument α
  | none => .absent
  | some a => .value a

/-- Applies a function to the value. -/
def map (f : α → β) : Argument α → Argument β
  | .absent => .absent
  | .blank => .blank
  | .value a => .value (f a)

/-- The value that is there or not, unless it is a blank. -/
def known : Argument α → Option (Option α)
  | .absent => some none
  | .blank => none
  | .value a => some (some a)

/-- The value, or `usual` for nothing and `empty` for a blank. -/
def resolve (usual empty : α) : Argument α → α
  | .absent => usual
  | .blank => empty
  | .value a => a

end Argument
end ChipEight
