import ChipEight.Text.Blank
import ChipEight.Text.Cut
import ChipEight.Text.Digit

/-!
# ChipEight.Text.Integer

Reading an integer from text. Blanks may surround it, one sign may stand in front, and digits of any
script may be separated by single underscores. A `Numeral` says what one base adds to that.

* `Numeral.decimal`, `Numeral.hexadecimal`: the two kinds of number that are read.
* `Numeral.magnitude?`: the value of the digits, without blanks and sign.
* `Numeral.read?`: the whole text.
-/

namespace ChipEight

/-- How the digits of an integer are written. -/
structure Numeral where
  base : Nat
  /-- The value of one digit. -/
  digit? : Char → Option Nat
  /-- Whether a zero and an `x` may stand in front of the digits. -/
  marked : Bool
  /-- The greatest number of digits, if there is one. -/
  maxDigits : Option Nat

namespace Numeral

/-- Decimal integers of at most 4300 digits. -/
def decimal : Numeral := ⟨10, Digit.decimal?, false, some 4300⟩

/-- Hexadecimal integers of any length, which may begin with `0x`. -/
def hexadecimal : Numeral := ⟨16, Digit.hexadecimal?, true, none⟩

/-- The text without one underscore at its beginning. -/
def dropUnderscore : List Char → List Char
  | '_' :: rest => rest
  | s => s

/-- The text without the mark of the base. One underscore may follow the mark. -/
def dropMark (f : Numeral) (s : List Char) : List Char :=
  match s with
  | z :: x :: rest =>
    if f.marked && Digit.decimal? z == some 0 && (x == 'x' || x == 'X') then dropUnderscore rest
    else s
  | _ => s

/-- The number that a list of digits stands for, most significant digit first. -/
def value (base : Nat) (digits : List Nat) : Nat :=
  digits.foldl (fun n d => n * base + d) 0

/-- The value of digits that single underscores may separate. -/
def magnitude? (f : Numeral) (s : List Char) : Option Nat :=
  let groups := Cut.pieces '_' s
  if groups.any (·.isEmpty) then none
  else
    match groups.flatten.mapM f.digit? with
    | none => none
    | some ds => if f.maxDigits.any (· < ds.length) then none else some (value f.base ds)

/-- Whether a text begins with a minus sign, and the rest of it behind a sign of either kind. -/
def splitSign : List Char → Bool × List Char
  | '-' :: rest => (true, rest)
  | '+' :: rest => (false, rest)
  | s => (false, s)

/-- Reads an integer. -/
def read? (f : Numeral) (s : List Char) : Option Int :=
  let (negative, digits) := splitSign (Blank.trim s)
  (f.magnitude? (f.dropMark digits)).map fun n => if negative then -(n : Int) else n

end Numeral
end ChipEight
