import ChipEight.Count
import ChipEight.Host.Call
import ChipEight.Slice

/-!
# ChipEight.Display.Terminal

The screen in a terminal. The picture is kept on a pad: the title in the first line, and below it
each pixel as a row of inverted spaces as wide as the scale says. The pad has a column and a line
more than the picture, because the last cell of a pad cannot be written.

What the display makes of its pad is one thing, and what it asks of the terminal for that another. A
terminal may refuse a pad of a size that it does not have, and a text that reaches beyond the pad;
whoever deals with it then leaves the display as it was.

* `Pad`: the cells of a pad. What a terminal lets through outside it is lost.
* `Pad.cell?_put`: setting a cell changes that cell and no other.
* `TerminalDisplay.resize`: a new picture on a pad of its own.
* `TerminalDisplay.setTitle`: writes the title, unless the picture is wider than a count can say.
* `TerminalDisplay.refresh`: a changed terminal size is taken up first; the pad is then shown at the
  next refresh.
-/

namespace ChipEight

/-- A cell of a pad: a character, perhaps inverted. -/
structure PadCell where
  char : Char
  inverted : Bool
deriving DecidableEq, Repr

namespace PadCell

/-- The cell of a pad on which nothing is written. -/
def blank : PadCell := ⟨' ', false⟩

/-- How a cell is drawn as text: an inverted space as a hash sign, a plain one as a dot. -/
def glyph (c : PadCell) : Char :=
  if c.char = ' ' then (if c.inverted then '#' else '.') else c.char

end PadCell

/-- A pad of cells, line by line. -/
structure Pad where
  rows : Nat
  columns : Nat
  cells : Vector PadCell (rows * columns)
deriving DecidableEq, Repr

namespace Pad

/-- A pad of plain cells. -/
def blank (rows columns : Nat) : Pad := ⟨rows, columns, Vector.replicate (rows * columns) .blank⟩

/-- A pad of plain cells of a size given as numbers; a negative number of lines or columns is none. -/
def ofSize (rows columns : Int) : Pad := blank rows.toNat columns.toNat

/-- A cell of a line lies among all cells. -/
theorem place_lt {rows columns row column : Nat} (hr : row < rows) (hc : column < columns) :
    row * columns + column < rows * columns := by
  have : (row + 1) * columns ≤ rows * columns := Nat.mul_le_mul_right _ hr
  rw [Nat.succ_mul] at this
  omega

/-- Two cells in the same place are in the same line and column. -/
theorem place_inj {columns r c r' c' : Nat} (hc : c < columns) (hc' : c' < columns)
    (h : r * columns + c = r' * columns + c') : r = r' ∧ c = c' := by
  have hr : (r * columns + c) / columns = (r' * columns + c') / columns := by rw [h]
  have hm : (r * columns + c) % columns = (r' * columns + c') % columns := by rw [h]
  have hpos : 0 < columns := by omega
  rw [Nat.mul_comm r, Nat.mul_comm r', Nat.mul_add_div hpos, Nat.mul_add_div hpos,
    Nat.div_eq_of_lt hc, Nat.div_eq_of_lt hc'] at hr
  rw [Nat.mul_comm r, Nat.mul_comm r', Nat.mul_add_mod, Nat.mul_add_mod, Nat.mod_eq_of_lt hc,
    Nat.mod_eq_of_lt hc'] at hm
  exact ⟨by omega, hm⟩

/-- The cell in a line and a column, if the pad has it. -/
def cell? (p : Pad) (row column : Nat) : Option PadCell :=
  if h : row < p.rows ∧ column < p.columns then
    have := place_lt h.1 h.2
    some p.cells[row * p.columns + column]
  else none

/-- Sets a cell. -/
def put (p : Pad) (row column : Int) (c : PadCell) : Pad :=
  if h : (0 ≤ row ∧ row < p.rows) ∧ (0 ≤ column ∧ column < p.columns) then
    { p with
      cells := p.cells.set (row.toNat * p.columns + column.toNat) c
        (place_lt (by omega) (by omega)) }
  else p

/-- Setting a cell changes that cell and no other. -/
theorem cell?_put (p : Pad) (row column : Int) (c : PadCell) (r k : Nat) :
    (p.put row column c).cell? r k =
      if r < p.rows ∧ k < p.columns ∧ (r : Int) = row ∧ (k : Int) = column then some c
      else p.cell? r k := by
  unfold put
  by_cases h : (0 ≤ row ∧ row < p.rows) ∧ (0 ≤ column ∧ column < p.columns)
  · rw [dif_pos h]
    by_cases hr : r < p.rows ∧ k < p.columns
    · simp only [cell?, dif_pos hr, Vector.getElem_set]
      by_cases he : (r : Int) = row ∧ (k : Int) = column
      · have hp : row.toNat * p.columns + column.toNat = r * p.columns + k := by
          rw [← he.1, ← he.2]; rfl
        rw [if_pos hp, if_pos ⟨hr.1, hr.2, he.1, he.2⟩]
      · have hp : row.toNat * p.columns + column.toNat ≠ r * p.columns + k := by
          intro e
          have := place_inj (by omega) hr.2 e
          exact he ⟨by omega, by omega⟩
        rw [if_neg hp, if_neg (fun hc => he ⟨hc.2.2.1, hc.2.2.2⟩)]
    · rw [if_neg (fun hc => hr ⟨hc.1, hc.2.1⟩)]
      simp only [cell?, dif_neg hr]
  · rw [dif_neg h, if_neg]
    intro hc
    exact h ⟨⟨by omega, by omega⟩, ⟨by omega, by omega⟩⟩

@[simp] theorem rows_put (p : Pad) (row column : Int) (c : PadCell) :
    (p.put row column c).rows = p.rows := by
  unfold put
  split <;> rfl

@[simp] theorem columns_put (p : Pad) (row column : Int) (c : PadCell) :
    (p.put row column c).columns = p.columns := by
  unfold put
  split <;> rfl

/-- Writes a text from a cell on. -/
def write (p : Pad) (row column : Int) (text : List Char) (inverted : Bool) : Pad :=
  text.zipIdx.foldl (fun p (c, k) => p.put row (column + k) ⟨c, inverted⟩) p

/-- The cells of a line. -/
def line (p : Pad) (row : Nat) : List PadCell :=
  (List.range p.columns).filterMap fun column : Nat => p.cell? row column

/-- The lines of the pad as text, without the dots at their ends. -/
def lines (p : Pad) : List String :=
  (List.range p.rows).map fun row : Nat =>
    String.ofList (((p.line row).map PadCell.glyph).reverse.dropWhile (· == '.')).reverse

end Pad

/-- The terminal of the host. -/
structure Terminal where
  rows : Int
  columns : Int
  /-- Whether it can be told its size. -/
  resizable : Bool
deriving DecidableEq, Repr

/-- A display in a terminal. -/
structure TerminalDisplay where
  scale : Int
  width : Int
  height : Int
  pad : Pad
  /-- The pad has to be shown, whether or not the picture changes. -/
  pending : Bool
  /-- The size of the terminal at the last refresh, in rows and columns. -/
  lastSize : Int × Int
deriving DecidableEq, Repr

namespace TerminalDisplay

/-- The width of a pixel if none is given. -/
def usualScale : Int := 2

/-- The size of the pad for a picture. -/
def padSize (scale width height : Int) : Int × Int := (height + 2, width * scale + 1)

/-- Begins a picture of another size on a new pad. -/
def resize (d : TerminalDisplay) (width height : Int) : TerminalDisplay × List HostCall :=
  let (rows, columns) := padSize d.scale width height
  ({ d with width, height, pad := .ofSize rows columns }, [.newPad rows columns])

/-- Takes over the terminal. A scale that does not count columns is refused before that. -/
def start (scale : Option Int) : Except Count.Fault (TerminalDisplay × List HostCall) :=
  (Count.repeats (scale.getD usualScale)).map fun _ =>
    let d : TerminalDisplay := ⟨scale.getD usualScale, 0, 0, .blank 0 0, false, (-1, -1)⟩
    let (d, calls) := d.resize 0 0
    (d, [.takeTerminal, .cursor 0, .echoOff, .lineModeOff] ++ calls)

/-- The text of one pixel. -/
def pixelText (d : TerminalDisplay) : List Char := List.replicate d.scale.toNat ' '

/-- What drawing a pixel asks of the terminal. -/
def pixelRequest (d : TerminalDisplay) (x y : Int) (lit : Bool) : Request :=
  .write (y + 1) (x * d.scale) d.pixelText lit

/-- Draws a pixel. -/
def setPixel (d : TerminalDisplay) (x y : Int) (lit : Bool) : TerminalDisplay :=
  { d with pad := d.pad.write (y + 1) (x * d.scale) d.pixelText lit }

/-- The width of the picture in columns. -/
def columns (d : TerminalDisplay) : Int := d.width * d.scale

/-- The text of the title line: the title cut or filled up to the width of the picture. -/
def titleText (d : TerminalDisplay) (title : String) : List Char :=
  let cut := Slice.initial title.toList d.columns
  cut ++ List.replicate (d.columns.toNat - cut.length) ' '

/-- What writing a title asks of the terminal. -/
def titleRequest (d : TerminalDisplay) (title : String) : Request :=
  .write 0 0 (d.titleText title) true

/-- Writes the title. -/
def writeTitle (d : TerminalDisplay) (title : String) : TerminalDisplay :=
  { d with pad := d.pad.write 0 0 (d.titleText title) true, pending := true }

/-- Writes the title, if it can be filled up to the width of the picture. -/
def setTitle (d : TerminalDisplay) (title : String) : Except Count.Fault TerminalDisplay :=
  (Count.repeats d.columns).map fun _ => d.writeTitle title

/-- Shows the pad if that is due. If the size of the terminal has changed, the terminal is cleared
instead, and showing the pad stays due. -/
def refresh (d : TerminalDisplay) (t : Terminal) (changed : Bool) :
    TerminalDisplay × List HostCall :=
  if d.lastSize = (t.rows, t.columns) then
    if changed || d.pending then
      ({ d with pending := false }, [.showPad (t.rows - 1) (t.columns - 1)])
    else (d, [])
  else
    let resize := if t.resizable then [.resizeTerminal t.rows t.columns] else []
    ({ d with lastSize := (t.rows, t.columns), pending := true },
      [.clearTerminal] ++ resize ++ [.refreshTerminal])

/-- Gives the terminal back. A terminal whose cursor cannot be shown again is given back too. -/
def stop : List HostCall := [.lineModeOn, .echoOn, .cursor 1, .releaseTerminal]

end TerminalDisplay
end ChipEight
