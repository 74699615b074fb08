import ChipEight.Machine.Cycle
import ChipEight.Proofs.Drawing

/-!
# ChipEight.Proofs.OpcodeTable

The instruction set as a table: for each operation a pattern of four places, and what the row does
to a state that is written in plain numbers. Nothing here is taken from how the machine decodes or
runs an instruction.

* `Operation.pattern`, `Operation.Owns`: which words a row is about. A capital digit stands for
  itself, a small letter for an operand.
* `Figures`, `Machine.figures`: a state in plain numbers. Nothing of the machine is lost in it
  (`figures_inj`).
* `Figures.row`: what a row does. Every number on the right of a row is read off the state before
  it; registers are taken modulo 256, addresses behind the index register modulo 4096.
* `operation_eq_iff`: decoding finds the row that owns the word.
-/

namespace ChipEight

namespace Operation

/-- The words of a row, digit by digit. -/
def pattern : Operation → List Char
  | nop => ['0', '0', '0', '0']
  | clearScreen => ['0', '0', 'E', '0']
  | ret => ['0', '0', 'E', 'E']
  | jump => ['1', 'n', 'n', 'n']
  | call => ['2', 'n', 'n', 'n']
  | skipEqualByte => ['3', 'x', 'n', 'n']
  | skipNotEqualByte => ['4', 'x', 'n', 'n']
  | skipEqual => ['5', 'x', 'y', '0']
  | loadByte => ['6', 'x', 'n', 'n']
  | addByte => ['7', 'x', 'n', 'n']
  | copy => ['8', 'x', 'y', '0']
  | or => ['8', 'x', 'y', '1']
  | and => ['8', 'x', 'y', '2']
  | xor => ['8', 'x', 'y', '3']
  | add => ['8', 'x', 'y', '4']
  | sub => ['8', 'x', 'y', '5']
  | shiftRight => ['8', 'x', 'y', '6']
  | subFrom => ['8', 'x', 'y', '7']
  | shiftLeft => ['8', 'x', 'y', 'E']
  | skipNotEqual => ['9', 'x', 'y', '0']
  | loadIndex => ['A', 'n', 'n', 'n']
  | jumpOffset => ['B', 'n', 'n', 'n']
  | random => ['C', 'x', 'n', 'n']
  | draw => ['D', 'x', 'y', 'n']
  | skipKey => ['E', 'x', '9', 'E']
  | skipNotKey => ['E', 'x', 'A', '1']
  | readDelay => ['F', 'x', '0', '7']
  | waitKey => ['F', 'x', '0', 'A']
  | setDelay => ['F', 'x', '1', '5']
  | setSound => ['F', 'x', '1', '8']
  | addIndex => ['F', 'x', '1', 'E']
  | glyph => ['F', 'x', '2', '9']
  | decimal => ['F', 'x', '3', '3']
  | store => ['F', 'x', '5', '5']
  | load => ['F', 'x', '6', '5']
  | unknown => []

def digit? : Char → Option Nat
  | '0' => some 0
  | '1' => some 1
  | '2' => some 2
  | '3' => some 3
  | '4' => some 4
  | '5' => some 5
  | '6' => some 6
  | '7' => some 7
  | '8' => some 8
  | '9' => some 9
  | 'A' => some 10
  | 'B' => some 11
  | 'C' => some 12
  | 'D' => some 13
  | 'E' => some 14
  | 'F' => some 15
  | _ => none

/-- A digit of a word fits a place of a pattern. -/
def Fits (c : Char) (d : Nat) : Prop :=
  match digit? c with
  | some k => d = k
  | none => True

/-- A row is about a word: its four digits fit the pattern. -/
def Owns (op : Operation) (w : Nat) : Prop :=
  match op.pattern with
  | [a, b, c, d] =>
    Fits a (w / 0x1000 % 16) ∧ Fits b (w / 0x100 % 16) ∧ Fits c (w / 0x10 % 16) ∧ Fits d (w % 16)
  | _ => False

end Operation

namespace Instruction

theorem owns_raw {op : Operation} {i : Instruction} {a b c d : Char}
    (hp : op.pattern = [a, b, c, d]) :
    op.Owns i.raw ↔ Operation.Fits a i.family.val ∧ Operation.Fits b i.x.val ∧
      Operation.Fits c i.y.val ∧ Operation.Fits d i.n.val := by
  unfold Operation.Owns
  rw [hp]
  exact Iff.rfl

theorem operation_of_owns {op : Operation} {i : Instruction} (h : op.Owns i.raw) :
    i.operation = op := by
  -- the capital digits of a row are the numbers that decoding asks for
  cases op <;>
    first
      | exact h.elim
      | (rw [owns_raw rfl] at h
         simp only [Operation.Fits, Operation.digit?] at h
         simp only [operation, h])

theorem unknown_or_owns (i : Instruction) :
    i.operation = .unknown ∨ i.operation.Owns i.raw := by
  -- each branch of the decoder knows the digits that its row shows as capitals
  unfold operation
  split <;>
    first
      | exact .inl rfl
      | (refine .inr ((owns_raw rfl).mpr ⟨?_, ?_, ?_, ?_⟩) <;>
          first
            | exact trivial
            | (show _ = _; assumption))

/-- Decoding finds the row that owns the word. -/
theorem operation_eq_iff {op : Operation} {i : Instruction} (h : op ≠ .unknown) :
    i.operation = op ↔ op.Owns i.raw := by
  refine ⟨?_, operation_of_owns⟩
  rintro rfl
  exact (unknown_or_owns i).resolve_left h

/-- A word is unknown exactly if no row owns it. -/
theorem operation_eq_unknown_iff {i : Instruction} :
    i.operation = .unknown ↔ ∀ op : Operation, ¬ op.Owns i.raw := by
  constructor
  · intro h op ho
    have hop := operation_of_owns ho
    rw [h] at hop
    subst hop
    exact ho
  · intro h
    exact (unknown_or_owns i).resolve_right (h _)

end Instruction

/-! ## Rows -/

/-- A number names one of the sixteen registers. -/
theorem neZero_sixteen : NeZero (16 : Nat) := ⟨by decide⟩

attribute [local instance] neZero_sixteen

/-- The state of a machine in plain numbers. -/
structure Figures where
  v : Fin 16 → Nat
  index : Int
  pc : Int
  executing : Int
  calls : List Int
  delay : Int
  sound : Int
  lastTick : Float
  ram : Fin 4096 → Nat
  lit : Cell → Bool
  keys : Keypad
  word : Nat

namespace Figures

/-- The register that the second digit of the word selects. -/
def x (s : Figures) : Fin 16 := Fin.ofNat 16 (s.word / 0x100)

/-- The register that the third digit of the word selects. -/
def y (s : Figures) : Fin 16 := Fin.ofNat 16 (s.word / 0x10)

def n (s : Figures) : Nat := s.word % 0x10

def nn (s : Figures) : Nat := s.word % 0x100

def nnn (s : Figures) : Nat := s.word % 0x1000

/-- A word is taken up: the program counter moves past it. -/
def take (s : Figures) (keys : Keypad) (w : Nat) : Figures :=
  { s with keys, word := w, executing := s.pc, pc := s.pc + 2 }

def setV (s : Figures) (r : Fin 16) (a : Nat) : Figures := { s with v := Function.update s.v r a }

/-- Register F gets a flag. -/
def setVF (s : Figures) (flag : Bool) : Figures := s.setV 0xF flag.toNat

def setIndex (s : Figures) (index : Int) : Figures := { s with index }

def setRam (s : Figures) (ram : Fin 4096 → Nat) : Figures := { s with ram }

def setRegs (s : Figures) (v : Fin 16 → Nat) : Figures := { s with v }

def setLit (s : Figures) (lit : Cell → Bool) : Figures := { s with lit }

def skipIf (s : Figures) (b : Bool) : Figures := { s with pc := if b then s.pc + 2 else s.pc }

/-- How far an address lies behind the index register, around the end of memory. -/
def behind (s : Figures) (a : Fin 4096) : Nat := ((a.val - s.index) % 4096).toNat

/-- The address that lies `k` places behind the index register, around the end of memory. -/
def address (s : Figures) (k : Nat) : Fin 4096 := Fin.ofNat 4096 ((s.index + k) % 4096).toNat

def sprite (s : Figures) : List Nat := (List.range s.n).map fun k => s.ram (s.address k)

/-- A draw at the place in registers `x` and `y` covers a cell. -/
def Draws (s : Figures) (c : Cell) : Prop := Screen.Covers s.sprite (s.v s.x) (s.v s.y) c

instance (s : Figures) : DecidablePred s.Draws := fun c =>
  inferInstanceAs (Decidable (Screen.Covers s.sprite (s.v s.x) (s.v s.y) c))

/-- What a row of the table does, after its word has been taken up. -/
def row (op : Operation) (random : Nat) (s : Figures) : Figures :=
  let vx := s.v s.x
  let vy := s.v s.y
  match op with
  | .nop => s
  | .clearScreen => s.setLit fun _ => false
  | .ret => { s with pc := s.calls.headD 0, calls := s.calls.tail }
  | .jump => { s with pc := s.nnn }
  | .call => { s with pc := s.nnn, calls := s.pc :: s.calls }
  | .skipEqualByte => s.skipIf (vx = s.nn)
  | .skipNotEqualByte => s.skipIf (vx ≠ s.nn)
  | .skipEqual => s.skipIf (vx = vy)
  | .loadByte => s.setV s.x s.nn
  | .addByte => s.setV s.x ((vx + s.nn) % 256)
  | .copy => s.setV s.x vy
  | .or => (s.setV s.x (vx ||| vy)).setVF false
  | .and => (s.setV s.x (vx &&& vy)).setVF false
  | .xor => (s.setV s.x (vx ^^^ vy)).setVF false
  | .add => (s.setV s.x ((vx + vy) % 256)).setVF (255 < vx + vy)
  | .sub => (s.setV s.x (((vx : Int) - vy) % 256).toNat).setVF (vy ≤ vx)
  | .shiftRight => (s.setV s.x (vy / 2)).setVF (vx % 2 = 1)
  | .subFrom => (s.setV s.x (((vy : Int) - vx) % 256).toNat).setVF (vx ≤ vy)
  | .shiftLeft => (s.setV s.x (vy * 2 % 256)).setVF (vx / 128 % 2 = 1)
  | .skipNotEqual => s.skipIf (vx ≠ vy)
  | .loadIndex => s.setIndex s.nnn
  | .jumpOffset => { s with pc := s.nnn + s.v 0 }
  | .random => s.setV s.x (random &&& s.nn)
  | .draw =>
    (s.setLit fun c => s.lit c ^^ decide (s.Draws c)).setVF
      (Cell.all.any fun c => decide (s.Draws c) && s.lit c)
  | .skipKey => s.skipIf (s.keys.mask.testBit vx)
  | .skipNotKey => s.skipIf (!s.keys.mask.testBit vx)
  | .readDelay => s.setV s.x s.delay.toNat
  | .waitKey =>
    match s.keys.last with
    | none => { s with pc := s.pc - 2 }
    | some k => s.setV s.x k
  | .setDelay => { s with delay := vx }
  | .setSound => { s with sound := vx }
  | .addIndex => s.setIndex ((s.index + vx) % 4096)
  | .glyph => s.setIndex (5 * vx)
  | .decimal =>
    s.setRam fun a =>
      match s.behind a with
      | 0 => vx / 100
      | 1 => vx / 10 % 10
      | 2 => vx % 10
      | _ => s.ram a
  | .store =>
    (s.setRam fun a =>
      if s.behind a ≤ s.x then s.v (Fin.ofNat 16 (s.behind a)) else s.ram a).setIndex
      ((s.index + s.x + 1) % 4096)
  | .load =>
    (s.setRegs fun r => if r ≤ s.x then s.ram (s.address r) else s.v r).setIndex
      ((s.index + s.x + 1) % 4096)
  | .unknown => s

/-- Waiting goes back to its own word, or takes a key to a register. -/
theorem row_waitKey (s : Figures) (random : Nat) :
    s.row .waitKey random = { s with pc := s.pc - 2 } ∨
      ∃ k, s.row .waitKey random = s.setV s.x k := by
  cases hlast : s.keys.last with
  | none => exact .inl (by simp only [row, hlast])
  | some k => exact .inr ⟨k, by simp only [row, hlast]⟩

/-- No row touches the keys, the word that is running, where it came from or the time. -/
theorem row_fixed (s : Figures) (op : Operation) (random : Nat) :
    (s.row op random).keys = s.keys ∧ (s.row op random).word = s.word ∧
      (s.row op random).executing = s.executing ∧ (s.row op random).lastTick = s.lastTick := by
  cases op
  case waitKey =>
    obtain hw | ⟨k, hw⟩ := s.row_waitKey random
    · rw [hw]; exact ⟨rfl, rfl, rfl, rfl⟩
    · rw [hw]; exact ⟨rfl, rfl, rfl, rfl⟩
  all_goals exact ⟨rfl, rfl, rfl, rfl⟩

end Figures

/-- The machine in plain numbers. -/
def Machine.figures (m : Machine) : Figures where
  v := fun r => (m.reg r).toNat
  index := m.index
  pc := m.pc
  executing := m.executing
  calls := m.calls.items
  delay := m.delay
  sound := m.sound
  lastTick := m.lastTick
  ram := fun a => (m.memory.get a).toNat
  lit := m.screen.lit
  keys := m.keys
  word := m.instruction.raw

end ChipEight
