/-!
# ChipEight.Slice

Ranges of cells whose bounds may be any integers. A negative bound counts from the end, and a bound
that still lies outside is moved to the nearest end.

* `Slice.bound`: where a bound falls in a row of `size` cells.
* `Slice.width`: the number of cells between two bounds.
-/

namespace ChipEight
namespace Slice

/-- The place of bound `b` in a row of `size` cells. -/
def bound (size : Nat) (b : Int) : Nat :=
  min (if b < 0 then b + size else b).toNat size

theorem bound_le (size : Nat) (b : Int) : bound size b ≤ size :=
  Nat.min_le_right ..

/-- A bound inside the row stands where it says. -/
theorem bound_of_mem {size : Nat} {b : Int} (h : 0 ≤ b) (h' : b ≤ size) :
    bound size b = b.toNat := by
  unfold bound
  rw [if_neg (by omega)]
  omega

/-- A bound below zero counts from the end, and no further back than to the beginning. -/
theorem bound_of_neg {size : Nat} {b : Int} (h : b < 0) :
    (bound size b : Int) = max 0 (b + size) := by
  unfold bound
  rw [if_pos h]
  omega

/-- The number of cells from `start` up to, but not including, `stop`. -/
def width (size : Nat) (start stop : Int) : Nat :=
  bound size stop - bound size start

/-- The cells of a row from `start` up to, but not including, `stop`. -/
def cells (row : Array α) (start stop : Int) : Array α :=
  row.extract (bound row.size start) (bound row.size stop)

/-- The elements of a list from the first up to, but not including, `stop`. -/
def initial (xs : List α) (stop : Int) : List α :=
  xs.take (bound xs.length stop)

end Slice
end ChipEight
