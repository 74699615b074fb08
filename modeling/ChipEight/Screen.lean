import ChipEight.Text.Hex

/-!
# ChipEight.Screen

The screen has 64 by 32 pixels, each lit or dark. Programs draw sprites on it: up to fifteen rows of
eight pixels, the first in the most significant bit. A sprite begins at a place that wraps around
the screen; what would reach beyond the right or the bottom edge is cut off. Drawing flips pixels,
and a collision is a lit pixel that goes dark.

* `Screen.covered`: the cells that a sprite flips, row by row.
* `Screen.draw`: flips them one after the other and says whether any was lit.
* `Screen.lit_flip_same`, `Screen.lit_flip_other`: flipping changes one cell.
-/

namespace ChipEight

/-- A place on the screen. -/
structure Cell where
  x : Fin 64
  y : Fin 32
deriving DecidableEq, Repr

/-- The place of a cell when the rows follow one another. -/
def Cell.index (c : Cell) : Fin 2048 := ⟨c.y.val * 64 + c.x.val, by omega⟩

theorem Cell.index_inj {c d : Cell} (h : c.index = d.index) : c = d := by
  cases c with | mk x y => cases d with | mk x' y' =>
  simp only [Cell.index, Fin.mk.injEq] at h
  congr 1 <;> apply Fin.ext <;> omega

/-- All cells, row by row from the top left. -/
def Cell.all : List Cell :=
  (List.finRange 32).flatMap fun y => (List.finRange 64).map fun x => ⟨x, y⟩

/-- The pixels of the screen, row by row from the top left. -/
structure Screen where
  cells : Vector Bool 2048
deriving DecidableEq, Repr

namespace Screen

/-- The width of the screen in pixels. -/
def width : Nat := 64

/-- The height of the screen in pixels. -/
def height : Nat := 32

/-- Why the screen refused an operation. -/
inductive Fault where
  /-- The sprite has more than fifteen rows. -/
  | tooTall
  /-- No pixel has this place. -/
  | outOfRange (place : Int)
deriving DecidableEq, Repr

/-- What a refused operation is reported as. -/
def Fault.message : Fault → String
  | .tooTall => "Sprites can be no more than 15 rows high"
  | .outOfRange _ => "The pixel lies outside the screen"

/-- The dark screen. -/
def blank : Screen := ⟨Vector.replicate 2048 false⟩

/-- Whether the pixel in a cell is lit. -/
def lit (s : Screen) (c : Cell) : Bool := s.cells[c.index]

/-- Flips the pixel in a cell. -/
def flip (s : Screen) (c : Cell) : Screen :=
  ⟨s.cells.set c.index (!s.cells[c.index])⟩

/-- Sets the pixel in a cell. -/
def paint (s : Screen) (c : Cell) (lit : Bool) : Screen := ⟨s.cells.set c.index lit⟩

@[simp] theorem lit_blank (c : Cell) : blank.lit c = false := by
  simp [lit, blank]

@[simp] theorem lit_flip_same (s : Screen) (c : Cell) : (s.flip c).lit c = !s.lit c := by
  simp [lit, flip]

theorem lit_flip_other (s : Screen) {c d : Cell} (h : c ≠ d) : (s.flip c).lit d = s.lit d := by
  have : c.index.val ≠ d.index.val := fun e => h (Cell.index_inj (Fin.ext e))
  simp [lit, flip, this]

/-- The pixel that a number counts from the top left, or from the end if it is negative. -/
def pixelAt (s : Screen) (place : Int) : Except Fault Bool :=
  let k := if place < 0 then place + 2048 else place
  if h : 0 ≤ k ∧ k < 2048 then .ok s.cells[k.toNat] else .error (.outOfRange place)

/-- The pixel in column `x` of row `y`, found by counting from the top left. -/
def pixel (s : Screen) (x y : Int) : Except Fault Bool :=
  s.pixelAt (y * 64 + x)

/-- Whether bit `7 - column` of a byte is set, so that column 0 is the most significant bit. -/
def bit (row : UInt8) (column : Nat) : Bool := row.toNat.testBit (7 - column)

/-- The cells of row `y` that one row of a sprite flips when it begins in column `x`. -/
def coveredRow (row : UInt8) (x : Nat) (y : Fin 32) : List Cell :=
  (List.range 8).filterMap fun column =>
    if h : x + column < 64 then
      if bit row column then some ⟨⟨x + column, h⟩, y⟩ else none
    else none

/-- The cells that a sprite flips when it begins in column `x` of row `y`. -/
def coveredFrom (x : Nat) : List UInt8 → Nat → List Cell
  | [], _ => []
  | row :: rest, y =>
    if h : y < 32 then coveredRow row x ⟨y, h⟩ ++ coveredFrom x rest (y + 1) else []

/-- The cells that a sprite flips. Its place wraps around the screen. -/
def covered (sprite : List UInt8) (x y : Int) : List Cell :=
  coveredFrom (x % 64).toNat sprite (y % 32).toNat

/-- Flips cells in order and says whether any of them was lit when its turn came. -/
def flipAll (s : Screen) (cells : List Cell) : Screen × Bool :=
  cells.foldl (fun (s, erased) c =>
    let was := s.lit c
    (s.flip c, erased || was)) (s, false)

/-- Draws a sprite and says whether a lit pixel went dark. -/
def draw (s : Screen) (sprite : List UInt8) (x y : Int) : Screen × Bool :=
  s.flipAll (covered sprite x y)

/-- Draws a sprite, unless it is too tall. -/
def draw? (s : Screen) (sprite : List UInt8) (x y : Int) : Except Fault (Screen × Bool) :=
  if sprite.length > 15 then .error .tooTall else .ok (s.draw sprite x y)

/-- The screen in 32 lines, with a mark for each lit pixel. -/
protected def toString (s : Screen) : String :=
  "\n".intercalate <| (List.finRange 32).map fun y =>
    String.ofList ((List.finRange 64).map fun x => if s.lit ⟨x, y⟩ then '#' else '.')

end Screen
end ChipEight
