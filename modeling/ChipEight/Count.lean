/-!
# ChipEight.Count

Counts of bytes, columns and bits are signed words of 64 bits. A number beyond such a word counts
nothing, and as the size of something a negative one does not either.

* `Count.ofInt`: a number as a size.
* `Count.repeats`: a number as how often something is repeated.
-/

namespace ChipEight
namespace Count

/-- Why a number is no count. -/
inductive Fault where
  /-- The number does not fit the word. -/
  | tooLarge
  /-- Nothing has a negative size. -/
  | negative
deriving DecidableEq, Repr

/-- What a number that is no count is reported as. -/
def Fault.message : Fault → String
  | .tooLarge => "The number does not fit 64 bits"
  | .negative => "A size cannot be negative"

/-- Whether a number fits a signed word of 64 bits. -/
def fits (n : Int) : Bool := -9223372036854775808 ≤ n && n ≤ 9223372036854775807

/-- A number as a size. -/
def ofInt (n : Int) : Except Fault Nat :=
  if fits n then
    if n < 0 then .error .negative else .ok n.toNat
  else .error .tooLarge

/-- A number as how often something is repeated; a negative number of times is none. -/
def repeats (n : Int) : Except Fault Nat :=
  if fits n then .ok n.toNat else .error .tooLarge

theorem fits_iff (n : Int) :
    fits n = true ↔ -9223372036854775808 ≤ n ∧ n ≤ 9223372036854775807 := by
  simp [fits]

end Count
end ChipEight
