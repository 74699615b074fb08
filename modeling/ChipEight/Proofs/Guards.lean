import ChipEight.Proofs.Blocks
import ChipEight.Proofs.Cycles

/-!
# ChipEight.Proofs.Guards

The machine with a guard at every access. Numbers go to registers, to memory, to the keypad and to
the screen as integers, and each of these parts refuses what it does not take: an address outside
memory, a number that is no byte or no key, a sprite that is too tall.

* `Machine.guarded`, `Machine.guardedCycle`: an instruction and a cycle behind guards.
* `guarded_eq`: with twelve bits in the index register, no guard refuses an instruction.
* `guardedCycle_eq`: a cycle behind guards is a cycle.
-/

namespace ChipEight

/-- Why an instruction was refused: by the machine itself, its memory and its registers among it, by
the screen or by the keypad. -/
inductive Refusal where
  | machine (fault : Machine.Fault)
  | screen (fault : Screen.Fault)
  | keypad (fault : Keypad.Fault)
deriving DecidableEq, Repr

namespace Machine

attribute [local instance] neZero_sixteen

/-! ## Guarded accesses

Addresses are integers that may lie outside memory, and values are integers that may be no byte. -/

def readAt (m : Machine) (a : Int) : Except Refusal UInt8 :=
  (m.memory.read a).mapError fun f => .machine (.memory f)

def writeAt (m : Machine) (a value : Int) : Except Refusal Machine :=
  match m.memory.write a value with
  | .ok memory => .ok { m with memory }
  | .error f => .error (.machine (.memory f))

def putReg (m : Machine) (r : Fin 16) (value : Int) : Except Refusal Machine :=
  if 0 ≤ value ∧ value < 256 then .ok (m.setReg r (UInt8.ofNat value.toNat))
  else .error (.machine (.notAByte value))

def putResult (m : Machine) (r : Fin 16) (value : Int) (flag : Bool) : Except Refusal Machine := do
  let t ← m.putReg r value
  t.putReg 0xF flag.toNat

/-- Whether the key is down whose number is in a register. -/
def asks (m : Machine) (r : Fin 16) : Except Refusal Bool :=
  (m.keys.heldAt (m.reg r).toNat).mapError .keypad

/-! ## Guarded instructions -/

def guardedDraw (m : Machine) (x y n : Fin 16) : Except Refusal Machine := do
  let sprite ← (List.range n).mapM fun row : Nat => m.readAt ((m.index + row) % 4096)
  match m.screen.draw? sprite (m.reg x).toNat (m.reg y).toNat with
  | .ok (screen, erased) => ({ m with screen } : Machine).putReg 0xF erased.toNat
  | .error f => .error (.screen f)

def guardedDecimal (m : Machine) (value : Nat) : Except Refusal Machine := do
  let t ← m.writeAt m.index (value / 100)
  let t ← t.writeAt ((m.index + 1) % 4096) (value / 10 % 10)
  t.writeAt ((m.index + 2) % 4096) (value % 10)

def guardedStore (m : Machine) (x : Fin 16) : Except Refusal Machine := do
  let t ← ((List.finRange 16).filter (· ≤ x)).foldlM
    (fun t r => t.writeAt ((m.index + r.val) % 4096) (m.reg r).toNat) m
  return t.setIndex (m.index + x.val + 1)

def guardedLoad (m : Machine) (x : Fin 16) : Except Refusal Machine := do
  let t ← ((List.finRange 16).filter (· ≤ x)).foldlM
    (fun t r => do
      let b ← t.readAt ((m.index + r.val) % 4096)
      t.putReg r b.toNat) m
  return t.setIndex (m.index + x.val + 1)

def guardedAwait (m : Machine) (x : Fin 16) : Except Refusal Machine :=
  match m.keys.last with
  | none => .ok { m with pc := m.pc - 2 }
  | some k => m.putReg x k.val

/-- The effect of the instruction that the machine holds, behind guards. Instructions that access
nothing that refuses are as they were. -/
def guarded (m : Machine) (random : UInt8) : Except Refusal Machine :=
  let i := m.instruction
  let x := i.x
  let vx := (m.reg i.x).toNat
  let vy := (m.reg i.y).toNat
  match i.operation with
  | .loadByte => m.putReg x i.nn.toNat
  | .addByte => m.putReg x ((vx + i.nn.toNat) % 256 : Nat)
  | .copy => m.putReg x vy
  | .or => m.putResult x (vx ||| vy : Nat) false
  | .and => m.putResult x (vx &&& vy : Nat) false
  | .xor => m.putResult x (vx ^^^ vy : Nat) false
  | .add => m.putResult x ((vx + vy) % 256 : Nat) (255 < vx + vy)
  | .sub => m.putResult x ((vx - vy) % 256) (vy ≤ vx)
  | .shiftRight => m.putResult x (vy / 2 : Nat) (vx.testBit 0)
  | .subFrom => m.putResult x ((vy - vx) % 256) (vx ≤ vy)
  | .shiftLeft => m.putResult x (vy * 2 % 256 : Nat) (vx.testBit 7)
  | .random => m.putReg x (random.toNat &&& i.nn.toNat : Nat)
  | .draw => m.guardedDraw x i.y i.n
  | .skipKey => (m.asks x).map fun held => m.skipIf held
  | .skipNotKey => (m.asks x).map fun held => m.skipIf !held
  | .readDelay => m.putReg x m.delay
  | .waitKey => m.guardedAwait x
  | .decimal => m.guardedDecimal vx
  | .store => m.guardedStore x
  | .load => m.guardedLoad x
  | _ => (m.execute random).mapError .machine

/-- The instruction that the program counter points at. Both addresses are asked for before the two
bytes are read in one block. -/
def guardedFetch (m : Machine) : Except Refusal (Option Instruction) :=
  if m.memory.contains m.pc && m.memory.contains (m.pc + 1) then
    match m.memory.readBlock m.pc 2 with
    | .ok bytes => .ok (some ⟨UInt16.ofNat (bytes.foldl (fun n b => n * 0x100 + b.toNat) 0)⟩)
    | .error f => .error (.machine (.memory f))
  else .ok none

def guardedCycle (m : Machine) (keys : Keypad) (time : Float) (random : UInt8) :
    Machine × Except Refusal Report :=
  let t := m.tick time
  match t.guardedFetch with
  | .error f => (t, .error f)
  | .ok none => (t, .error (.machine .endOfProgram))
  | .ok (some i) =>
    match (t.take keys i).guarded random with
    | .ok u => (u, .ok u.report)
    | .error f => (t.take keys i, .error f)

/-! ## No guard refuses -/

theorem ok_bind (a : α) (f : α → Except Refusal β) : (Except.ok a >>= f) = f a := rfl

theorem mapError_ok (a : α) (f : ε → Refusal) :
    (Except.ok a : Except ε α).mapError f = .ok a := rfl

section Granted

variable (m : Machine)

theorem readAt_wrapped (a : Int) : m.readAt (a % 4096) = .ok (m.peek a) := by
  unfold readAt Memory.read
  rw [locate_eq (by omega), wrap_emod]
  rfl

theorem writeAt_inside {a value : Int} {b : UInt8} (ha : 0 ≤ a ∧ a ≤ 0xFFF)
    (hv : value = b.toNat) : m.writeAt a value = .ok (m.poke a b) := by
  have hb := b.toNat_lt
  unfold writeAt Memory.write
  rw [locate_eq ha]
  dsimp only
  rw [if_pos (by omega), hv]
  simp [poke]

theorem writeAt_wrapped (a : Int) {value : Int} {b : UInt8} (hv : value = b.toNat) :
    m.writeAt (a % 4096) value = .ok (m.poke a b) := by
  rw [writeAt_inside m (by omega) hv]
  simp only [poke, wrap_emod]

theorem putReg_byte (r : Fin 16) {value : Int} {b : UInt8} (hv : value = b.toNat) :
    m.putReg r value = .ok (m.setReg r b) := by
  have hb := b.toNat_lt
  unfold putReg
  rw [if_pos (by omega), hv]
  simp

theorem putReg_flag (flag : Bool) : m.putReg 0xF flag.toNat = .ok (m.setFlag flag) := by
  refine m.putReg_byte 0xF ?_
  cases flag <;> rfl

theorem putResult_byte (r : Fin 16) {value : Int} {b : UInt8} (flag : Bool)
    (hv : value = b.toNat) : m.putResult r value flag = .ok (m.setResult r b flag) := by
  unfold putResult
  rw [m.putReg_byte r hv, ok_bind, putReg_flag, setResult]

/-- A register holds a number that counts bits. -/
theorem asks_eq (r : Fin 16) : m.asks r = .ok (m.keys.isHeld (m.reg r).toNat) := by
  have hr := (m.reg r).toNat_lt
  have hfits : Count.fits ((m.reg r).toNat : Int) = true :=
    (Count.fits_iff _).mpr (by omega)
  unfold asks Keypad.heldAt
  rw [if_neg (by omega), if_pos hfits, Int.toNat_natCast]
  rfl

/-- A sprite has as many rows as a digit says. -/
theorem guardedDraw_eq (x y n : Fin 16) : m.guardedDraw x y n = .ok (m.drawSprite x y n) := by
  have hread : (fun row : Nat => m.readAt ((m.index + row) % 4096)) =
      fun row : Nat => pure (m.peek (m.index + row)) := by
    funext row
    exact m.readAt_wrapped (m.index + row)
  have htall : ¬ (m.spriteRows n).length > 15 := by
    have hn := n.isLt
    simp [spriteRows]
    omega
  unfold guardedDraw
  rw [hread, List.mapM_pure]
  change (Except.ok (m.spriteRows n) >>= _) = _
  rw [ok_bind, Screen.draw?, if_neg htall]
  exact putReg_flag _ _

theorem guardedDecimal_eq (h : 0 ≤ m.index ∧ m.index ≤ 0xFFF) (b : UInt8) :
    m.guardedDecimal b.toNat = (m.writeDecimal b).mapError .machine := by
  unfold guardedDecimal writeDecimal
  rw [m.writeAt_inside (b := b / 100) h (by simp), ok_bind,
    writeAt_wrapped (b := b / 10 % 10) _ _ (by simp), ok_bind,
    writeAt_wrapped (b := b % 10) _ _ (by simp), locate_eq h]
  rfl

theorem guardedStore_eq (x : Fin 16) : m.guardedStore x = .ok (m.storeRegs x) := by
  have hwrite : (fun (t : Machine) (r : Fin 16) =>
      t.writeAt ((m.index + r.val) % 4096) (m.reg r).toNat) =
      fun t r => pure (t.poke (m.index + r.val) (m.reg r)) := by
    funext t r
    exact t.writeAt_wrapped (m.index + r.val) rfl
  unfold guardedStore
  rw [hwrite, List.foldlM_pure]
  rfl

/-- Registers are no part of memory, so that a loop which sets them reads the memory it began
with. -/
theorem foldlM_load (rs : List (Fin 16)) : ∀ t : Machine, t.memory = m.memory →
    rs.foldlM (fun t r => do
      let b ← t.readAt ((m.index + r.val) % 4096)
      t.putReg r b.toNat) t =
      .ok (rs.foldl (fun t r => t.setReg r (m.peek (m.index + r.val))) t) := by
  induction rs with
  | nil => intro t _; rfl
  | cons r rs ih =>
    intro t ht
    have hpeek : t.peek (m.index + r.val) = m.peek (m.index + r.val) := by
      rw [peek, ht, ← peek]
    rw [List.foldlM_cons, readAt_wrapped, ok_bind, hpeek, putReg_byte t r rfl, ok_bind]
    exact ih _ ht

theorem guardedLoad_eq (x : Fin 16) : m.guardedLoad x = .ok (m.loadRegs x) := by
  unfold guardedLoad
  rw [m.foldlM_load _ m rfl, ok_bind]
  rfl

theorem guardedAwait_eq (x : Fin 16) : m.guardedAwait x = .ok (m.awaitKey x) := by
  unfold guardedAwait awaitKey
  cases m.keys.last with
  | none => rfl
  | some k =>
    refine m.putReg_byte x ?_
    rw [toNat_key]

/-- No guard refuses an instruction: it goes as it goes without guards. -/
theorem guarded_eq (h : 0 ≤ m.index ∧ m.index ≤ 0xFFF) (random : UInt8) :
    m.guarded random = (m.execute random).mapError .machine := by
  have hsub : ∀ a b : UInt8, ((a.toNat : Int) - b.toNat) % 256 = (a - b).toNat := by
    intro a b
    rw [toNat_sub_emod]
    omega
  unfold guarded execute
  dsimp only
  cases hop : m.instruction.operation <;> dsimp only
  case readDelay =>
    unfold putReg readDelay
    split <;> rfl
  case decimal => exact m.guardedDecimal_eq h _
  case skipKey => rw [asks_eq]; rfl
  case skipNotKey => rw [asks_eq]; rfl
  all_goals rw [mapError_ok]
  case loadByte => exact m.putReg_byte _ rfl
  case addByte => exact m.putReg_byte _ (by rw [UInt8.toNat_add])
  case copy => exact m.putReg_byte _ rfl
  case or => exact m.putResult_byte _ _ (by rw [UInt8.toNat_or])
  case and => exact m.putResult_byte _ _ (by rw [UInt8.toNat_and])
  case xor => exact m.putResult_byte _ _ (by rw [UInt8.toNat_xor])
  case add => exact m.putResult_byte _ _ (by rw [UInt8.toNat_add])
  case sub =>
    rw [subTo, m.putResult_byte _ _ (hsub _ _)]
    simp only [UInt8.le_iff_toNat_le]
  case subFrom =>
    rw [subTo, m.putResult_byte _ _ (hsub _ _)]
    simp only [UInt8.le_iff_toNat_le]
  case shiftRight =>
    rw [shiftRight]
    exact m.putResult_byte _ _ (by rw [toNat_shiftRight_one])
  case shiftLeft =>
    rw [shiftLeft]
    exact m.putResult_byte _ _ (by rw [toNat_shiftLeft_one])
  case random => exact m.putReg_byte _ (by rw [UInt8.toNat_and])
  case draw => exact m.guardedDraw_eq _ _ _
  case waitKey => exact m.guardedAwait_eq _
  case store => exact m.guardedStore_eq _
  case load => exact m.guardedLoad_eq _

end Granted
/-! ## Cycles -/

theorem readBlock_pair {m : Machine} (h : 0 ≤ m.pc ∧ m.pc ≤ 0xFFE) :
    m.memory.readBlock m.pc 2 = .ok [m.peek m.pc, m.peek (m.pc + 1)] := by
  obtain ⟨row, hread, hlen, hrow⟩ :=
    m.memory.readBlock_inside (a := m.pc) (n := 2) h.1 (by omega) (by omega)
  have hpair : m.memory.HasRow m.pc [m.peek m.pc, m.peek (m.pc + 1)] := by
    intro i hi
    have hplace : i = 0 ∨ i = 1 := by
      simp only [List.length_cons, List.length_nil] at hi
      omega
    rw [Memory.read]
    rcases hplace with rfl | rfl
    · rw [Int.natCast_zero, Int.add_zero, locate_eq (by omega)]
      rfl
    · rw [Int.natCast_one, locate_eq (by omega)]
      rfl
  rw [← hrow.eq hpair hlen]
  exact hread

theorem guardedFetch_inside {m : Machine} (h : 0 ≤ m.pc ∧ m.pc ≤ 0xFFE) :
    m.guardedFetch = .ok (some m.fetched) := by
  have hin : (m.memory.contains m.pc && m.memory.contains (m.pc + 1)) = true := by
    simp [Memory.contains]; omega
  unfold guardedFetch
  rw [if_pos hin, readBlock_pair h]
  simp [fetched, word]

theorem guardedFetch_behind {m : Machine} (h : 0xFFE < m.pc) : m.guardedFetch = .ok none := by
  have hout : ¬ (m.memory.contains m.pc && m.memory.contains (m.pc + 1)) = true := by
    simp [Memory.contains]; omega
  unfold guardedFetch
  rw [if_neg hout]

theorem guardedCycle_eq {m : Machine} (hwf : m.WellFormed) (hpc : 0 ≤ m.pc) (keys : Keypad)
    (time : Float) (random : UInt8) :
    m.guardedCycle keys time random =
      ((m.cycle keys time random).1, (m.cycle keys time random).2.mapError .machine) := by
  unfold guardedCycle
  dsimp only
  by_cases hend : 0xFFE < m.pc
  · have hbehind : 0xFFE < (m.tick time).pc := by rw [tick_pc]; exact hend
    rw [guardedFetch_behind hbehind, cycle_end keys time random hend]
    rfl
  · have hin : 0 ≤ m.pc ∧ m.pc ≤ 0xFFE := by omega
    have hinside : 0 ≤ (m.tick time).pc ∧ (m.tick time).pc ≤ 0xFFE := by
      rw [tick_pc]; exact hin
    -- from here on both cycles run the same instruction on the same machine
    rw [guardedFetch_inside hinside, fetched_tick, cycle_inside keys time hin random]
    change (match (m.taken keys time).guarded random with
      | .ok u => (u, Except.ok u.report)
      | .error f => (m.taken keys time, Except.error f)) = _
    rw [guarded_eq _ (hwf.taken keys time).index]
    cases (m.taken keys time).execute random <;> rfl

end Machine
end ChipEight
