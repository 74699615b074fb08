import Mathlib.Logic.Function.Basic
import Mathlib.Order.Fin.Basic
import ChipEight.Proofs.OpcodeTable

/-!
# ChipEight.Proofs.Handlers

Each instruction does what its row of the table says. The small changes of the machine become small
changes of its figures, the loops over registers get closed forms, and `figures_execute` puts the
thirty-five rows together: an instruction that is known, and does not return without a call,
happens, and the figures after it are those of its row.
-/

namespace ChipEight
namespace Machine

/-! ## Small changes -/

@[simp] theorem figures_setReg (m : Machine) (r : Fin 16) (b : UInt8) :
    (m.setReg r b).figures = m.figures.setV r b.toNat := by
  have hv : (fun q => ((m.setReg r b).reg q).toNat) =
      Function.update (fun q => (m.reg q).toNat) r b.toNat := by
    funext q
    by_cases hq : q = r
    · subst hq; simp
    · rw [Function.update_of_ne hq, reg_setReg_other m b (Ne.symm hq)]
  unfold figures Figures.setV
  rw [hv]
  rfl

@[simp] theorem figures_setFlag (m : Machine) (b : Bool) :
    (m.setFlag b).figures = m.figures.setVF b := by
  rw [setFlag, figures_setReg]
  cases b <;> rfl

@[simp] theorem figures_setResult (m : Machine) (r : Fin 16) (b : UInt8) (flag : Bool) :
    (m.setResult r b flag).figures = (m.figures.setV r b.toNat).setVF flag := by
  rw [setResult, figures_setFlag, figures_setReg]

@[simp] theorem figures_skipIf (m : Machine) (b : Bool) :
    (m.skipIf b).figures = m.figures.skipIf b := by
  cases b <;> rfl

@[simp] theorem figures_setIndex (m : Machine) (a : Int) :
    (m.setIndex a).figures = m.figures.setIndex (a % 4096) := by
  have ha : (((a % 4096).toNat : Nat) : Int) = a % 4096 := Int.toNat_of_nonneg (by omega)
  unfold setIndex wrap figures
  simp only [ha]
  rfl

@[simp] theorem figures_poke (m : Machine) (a : Int) (b : UInt8) :
    (m.poke a b).figures =
      m.figures.setRam (Function.update m.figures.ram (wrap a) b.toNat) := by
  have hr : (fun c => ((m.poke a b).memory.get c).toNat) =
      Function.update (fun c => (m.memory.get c).toNat) (wrap a) b.toNat := by
    funext c
    by_cases hc : c = wrap a
    · subst hc; simp [poke]
    · rw [Function.update_of_ne hc, poke, Memory.get_put_other _ b (Ne.symm hc)]
  unfold figures
  rw [hr]
  rfl

theorem figures_screen (m : Machine) (screen : Screen) :
    { m with screen }.figures = m.figures.setLit screen.lit := rfl

section Operands

variable (m : Machine)

theorem figures_x : m.figures.x = m.instruction.x := rfl

theorem figures_y : m.figures.y = m.instruction.y := rfl

theorem figures_nnn : m.figures.nnn = m.instruction.nnn := rfl

theorem figures_nn : m.figures.nn = m.instruction.nn.toNat := by
  simp [figures, Figures.nn, Instruction.nn]

theorem figures_pc : m.figures.pc = m.pc := rfl

theorem figures_calls : m.figures.calls = m.calls.items := rfl

theorem figures_v (r : Fin 16) : m.figures.v r = (m.reg r).toNat := rfl

end Operands

/-! ## Arithmetic -/

theorem toNat_sub_emod (a b : UInt8) :
    (a - b).toNat = (((a.toNat : Int) - b.toNat) % 256).toNat := by
  have ha := a.toNat_lt
  have hb := b.toNat_lt
  rw [UInt8.toNat_sub]
  omega

theorem toNat_shiftRight_one (a : UInt8) : (a >>> 1).toNat = a.toNat / 2 := by
  simp [Nat.shiftRight_eq_div_pow]

theorem toNat_shiftLeft_one (a : UInt8) : (a <<< 1).toNat = a.toNat * 2 % 256 := by
  simp [Nat.shiftLeft_eq]

theorem figures_addRegs (m : Machine) (x y : Fin 16) :
    (m.addRegs x y).figures =
      (m.figures.setV x (((m.reg x).toNat + (m.reg y).toNat) % 256)).setVF
        (255 < (m.reg x).toNat + (m.reg y).toNat) := by
  rw [addRegs, figures_setResult, UInt8.toNat_add]

theorem figures_subTo (m : Machine) (x : Fin 16) (a b : UInt8) :
    (m.subTo x a b).figures =
      (m.figures.setV x (((a.toNat : Int) - b.toNat) % 256).toNat).setVF (b.toNat ≤ a.toNat) := by
  rw [subTo, figures_setResult, toNat_sub_emod]
  simp only [UInt8.le_iff_toNat_le]

theorem figures_shiftRight (m : Machine) (x y : Fin 16) :
    (m.shiftRight x y).figures =
      (m.figures.setV x ((m.reg y).toNat / 2)).setVF ((m.reg x).toNat % 2 = 1) := by
  rw [shiftRight, figures_setResult, toNat_shiftRight_one, Nat.testBit_zero]

theorem figures_shiftLeft (m : Machine) (x y : Fin 16) :
    (m.shiftLeft x y).figures =
      (m.figures.setV x ((m.reg y).toNat * 2 % 256)).setVF ((m.reg x).toNat / 128 % 2 = 1) := by
  rw [shiftLeft, figures_setResult, toNat_shiftLeft_one, Nat.testBit_eq_decide_div_mod_eq]

/-! ## Memory -/

theorem locate_eq {m : Machine} {a : Int} (h : 0 ≤ a ∧ a ≤ 0xFFF) :
    m.memory.locate a = .ok (wrap a) := by
  unfold Memory.locate
  rw [dif_pos (by omega)]
  congr 1
  apply Fin.ext
  show a.toNat = (a % 4096).toNat
  omega

@[simp] theorem wrap_emod (a : Int) : wrap (a % 4096) = wrap a := by
  simp [wrap]

theorem address_eq (m : Machine) (k : Nat) : m.figures.address k = wrap (m.index + k) := by
  apply Fin.ext
  simp only [Figures.address, wrap, Fin.val_ofNat]
  exact Nat.mod_eq_of_lt (by show ((m.index + k) % 4096).toNat < 4096; omega)

/-- Of the addresses behind the index register, one per distance, `a` is the one at its own. -/
theorem wrap_add_eq_iff (m : Machine) {k : Nat} (hk : k < 4096) (a : Fin 4096) :
    wrap (m.index + k) = a ↔ m.figures.behind a = k := by
  have ha := a.isLt
  rw [Fin.ext_iff]
  show ((m.index + k) % 4096).toNat = a.val ↔ ((a.val - m.index) % 4096).toNat = k
  omega

theorem toNat_peek (m : Machine) (k : Nat) :
    (m.peek (m.index + k)).toNat = m.figures.ram (m.figures.address k) := by
  rw [address_eq]
  rfl

/-- A loop that stores registers of `m`: those among `rs`, each at its own distance. -/
theorem figures_foldl_poke (m : Machine) (rs : List (Fin 16)) : ∀ t : Machine,
    (rs.foldl (fun t r => t.poke (m.index + r.val) (m.reg r)) t).figures =
      t.figures.setRam fun a =>
        if m.figures.behind a < 16 ∧ Fin.ofNat 16 (m.figures.behind a) ∈ rs then
          m.figures.v (Fin.ofNat 16 (m.figures.behind a))
        else t.figures.ram a := by
  induction rs with
  | nil => intro t; simp [Figures.setRam]
  | cons r rest ih =>
    intro t
    rw [List.foldl_cons, ih, figures_poke]
    refine congrArg t.figures.setRam (funext fun a => ?_)
    show (if _ ∧ _ then _ else Function.update t.figures.ram (wrap (m.index + r.val)) _ a) = _
    have hr : wrap (m.index + r.val) = a ↔ m.figures.behind a = r.val :=
      wrap_add_eq_iff m (by omega) a
    -- distances differ, so a later store never hides the one of `r`
    by_cases hrest : m.figures.behind a < 16 ∧ Fin.ofNat 16 (m.figures.behind a) ∈ rest
    · rw [if_pos hrest, if_pos ⟨hrest.1, List.mem_cons_of_mem _ hrest.2⟩]
    · rw [if_neg hrest]
      by_cases ha : m.figures.behind a = r.val
      · have hself : Fin.ofNat 16 (m.figures.behind a) = r := by
          rw [ha]; exact Fin.ext (Nat.mod_eq_of_lt r.isLt)
        rw [if_pos ⟨by omega, by rw [hself]; exact List.mem_cons_self⟩, hself, ← hr.mpr ha]
        simp [figures_v]
      · have hne : a ≠ wrap (m.index + r.val) := fun e => ha (hr.mp e.symm)
        rw [Function.update_of_ne hne, if_neg]
        rintro ⟨hlt, hmem⟩
        rcases List.mem_cons.mp hmem with hself | hmem
        · exact ha (by rw [← hself]; exact (Nat.mod_eq_of_lt hlt).symm)
        · exact hrest ⟨hlt, hmem⟩

/-- A loop that loads registers from the memory of `m`: those among `rs`. -/
theorem figures_foldl_setReg (m : Machine) (rs : List (Fin 16)) : ∀ t : Machine,
    (rs.foldl (fun t r => t.setReg r (m.peek (m.index + r.val))) t).figures =
      t.figures.setRegs fun q =>
        if q ∈ rs then m.figures.ram (m.figures.address q) else t.figures.v q := by
  induction rs with
  | nil => intro t; simp [Figures.setRegs]
  | cons r rest ih =>
    intro t
    rw [List.foldl_cons, ih, figures_setReg, toNat_peek]
    refine congrArg t.figures.setRegs (funext fun q => ?_)
    show (if q ∈ rest then _ else Function.update t.figures.v r _ q) = _
    by_cases hq : q = r
    · subst hq
      simp
    · rw [Function.update_of_ne hq]
      simp [hq]

theorem mem_upTo {x r : Fin 16} : r ∈ (List.finRange 16).filter (· ≤ x) ↔ r ≤ x := by
  simp

theorem figures_storeRegs (m : Machine) (x : Fin 16) :
    (m.storeRegs x).figures =
      (m.figures.setRam fun a =>
        if m.figures.behind a ≤ x then m.figures.v (Fin.ofNat 16 (m.figures.behind a))
        else m.figures.ram a).setIndex ((m.index + x + 1) % 4096) := by
  unfold storeRegs
  rw [figures_setIndex, figures_foldl_poke]
  refine congrArg (Figures.setIndex · _) (congrArg m.figures.setRam (funext fun a => ?_))
  refine if_congr ?_ rfl rfl
  rw [mem_upTo, Fin.le_def, Fin.val_ofNat]
  omega

theorem figures_loadRegs (m : Machine) (x : Fin 16) :
    (m.loadRegs x).figures =
      (m.figures.setRegs fun r =>
        if r ≤ x then m.figures.ram (m.figures.address r) else m.figures.v r).setIndex
        ((m.index + x + 1) % 4096) := by
  unfold loadRegs
  rw [figures_setIndex, figures_foldl_setReg]
  simp only [mem_upTo]

/-- Three decimal digits at the first three distances. -/
theorem figures_writeDecimal {m : Machine} (hi : 0 ≤ m.index ∧ m.index ≤ 0xFFF) (b : UInt8) :
    ∃ t, m.writeDecimal b = .ok t ∧
      t.figures = m.figures.setRam fun a =>
        match m.figures.behind a with
        | 0 => b.toNat / 100
        | 1 => b.toNat / 10 % 10
        | 2 => b.toNat % 10
        | _ => m.figures.ram a := by
  refine ⟨((m.poke m.index (b / 100)).poke (m.index + 1) (b / 10 % 10)).poke (m.index + 2) (b % 10),
    ?_, ?_⟩
  · unfold writeDecimal
    rw [locate_eq hi]
  · simp only [figures_poke]
    refine congrArg m.figures.setRam (funext fun a => ?_)
    show Function.update (Function.update (Function.update m.figures.ram (wrap m.index) _)
      (wrap (m.index + 1)) _) (wrap (m.index + 2)) _ a = _
    have h0 : a = wrap m.index ↔ m.figures.behind a = 0 := by
      rw [← wrap_add_eq_iff m (by omega) a, Int.natCast_zero, Int.add_zero, eq_comm]
    have h1 : a = wrap (m.index + 1) ↔ m.figures.behind a = 1 := by
      rw [← wrap_add_eq_iff m (by omega) a, eq_comm]
      rfl
    have h2 : a = wrap (m.index + 2) ↔ m.figures.behind a = 2 := by
      rw [← wrap_add_eq_iff m (by omega) a, eq_comm]
      rfl
    simp only [Function.update_apply, h0, h1, h2]
    generalize m.figures.behind a = k
    match k with
    | 0 => simp
    | 1 => simp
    | 2 => simp
    | k + 3 => simp

/-! ## Drawing -/

theorem mem_all (c : Cell) : c ∈ Cell.all := by
  simp [Cell.all]

theorem map_toNat_spriteRows (m : Machine) :
    (m.spriteRows m.instruction.n).map UInt8.toNat = m.figures.sprite := by
  unfold spriteRows Figures.sprite
  rw [List.map_map]
  exact List.map_congr_left fun k _ => toNat_peek m k

theorem figures_drawSprite (m : Machine) :
    (m.drawSprite m.instruction.x m.instruction.y m.instruction.n).figures =
      (m.figures.setLit fun c => m.figures.lit c ^^ decide (m.figures.Draws c)).setVF
        (Cell.all.any fun c => decide (m.figures.Draws c) && m.figures.lit c) := by
  have hdraws : ∀ c, Screen.Covers ((m.spriteRows m.instruction.n).map UInt8.toNat)
      (m.reg m.instruction.x).toNat (m.reg m.instruction.y).toNat c ↔ m.figures.Draws c := by
    intro c
    rw [map_toNat_spriteRows]
    exact Iff.rfl
  have hlit : (m.screen.draw (m.spriteRows m.instruction.n) (m.reg m.instruction.x).toNat
      (m.reg m.instruction.y).toNat).1.lit =
        fun c => m.figures.lit c ^^ decide (m.figures.Draws c) := by
    funext c
    rw [Screen.lit_draw]
    simp only [hdraws]
    rfl
  have herased : (m.screen.draw (m.spriteRows m.instruction.n) (m.reg m.instruction.x).toNat
      (m.reg m.instruction.y).toNat).2 =
        Cell.all.any fun c => decide (m.figures.Draws c) && m.figures.lit c := by
    rw [Bool.eq_iff_iff, Screen.erased_draw, List.any_eq_true]
    simp only [hdraws, mem_all, true_and, Bool.and_eq_true, decide_eq_true_eq]
    rfl
  unfold drawSprite
  rw [figures_setFlag, figures_screen, hlit, herased]

/-! ## All rows -/

theorem beq_eq_decide (a b : UInt8) : (a == b) = decide (a.toNat = b.toNat) := by
  rw [Bool.eq_iff_iff, beq_iff_eq, decide_eq_true_eq, UInt8.toNat_inj]

theorem bne_eq_decide (a b : UInt8) : (a != b) = decide (a.toNat ≠ b.toNat) := by
  rw [bne, beq_eq_decide, decide_not]

theorem toNat_key (k : Key) : (UInt8.ofNat k.val).toNat = k.val :=
  UInt8.toNat_ofNat_of_lt' (by show k.val < 256; omega)

theorem figures_awaitKey (m : Machine) (x : Fin 16) :
    (m.awaitKey x).figures =
      match m.keys.last with
      | none => { m.figures with pc := m.figures.pc - 2 }
      | some k => m.figures.setV x k := by
  unfold awaitKey
  cases m.keys.last with
  | none => rfl
  | some k =>
    dsimp only
    rw [figures_setReg, toNat_key]

theorem sprite_eq (b : UInt8) : Font.sprite b = 5 * b.toNat := by
  simp [Font.sprite, Font.address, Font.height]

theorem isHeld_eq_testBit (p : Keypad) (k : Nat) : p.isHeld k = p.mask.testBit k := rfl

theorem execute_unknown {m : Machine} (h : m.operation = .unknown) (random : UInt8) :
    m.execute random = .error (.unknownInstruction m.instruction m.pc) := by
  unfold operation at h
  unfold execute
  dsimp only
  rw [h]

theorem execute_underflow {m : Machine} (h : m.operation = .ret) (hc : m.calls.items = [])
    (random : UInt8) : m.execute random = .error (.stack .underflow) := by
  unfold operation at h
  unfold execute
  dsimp only
  rw [h]
  simp only [returnBack, CallStack.pop, hc]

/-- **Every instruction does what its row says.** -/
theorem figures_execute {m : Machine} (hi : 0 ≤ m.index ∧ m.index ≤ 0xFFF)
    (hd : 0 ≤ m.delay ∧ m.delay ≤ 0xFF) (random : UInt8) (hu : m.operation ≠ .unknown)
    (hr : m.operation = .ret → m.calls.items ≠ []) :
    ∃ t, m.execute random = .ok t ∧ t.figures = m.figures.row m.operation random.toNat := by
  have hx := m.figures_v m.instruction.x
  have hy := m.figures_v m.instruction.y
  unfold operation at hu hr ⊢
  unfold execute Figures.row
  dsimp only
  rw [figures_x, figures_y, hx, hy, figures_nn, figures_nnn]
  cases hop : m.instruction.operation <;> dsimp only
  case unknown => exact absurd hop hu
  case ret =>
    obtain ⟨a, rest, hcalls⟩ := List.exists_cons_of_ne_nil (hr hop)
    refine ⟨{ m with calls := ⟨rest⟩, pc := a }, ?_, ?_⟩
    · simp only [returnBack, CallStack.pop, hcalls]
    · simp only [figures, hcalls]
      rfl
  case call => exact ⟨_, rfl, rfl⟩
  case decimal => exact figures_writeDecimal hi _
  case readDelay =>
    refine ⟨m.setReg m.instruction.x (UInt8.ofNat m.delay.toNat), ?_, ?_⟩
    · rw [readDelay, if_pos (by omega)]
    · rw [figures_setReg, UInt8.toNat_ofNat_of_lt' (by show m.delay.toNat < 256; omega)]
      rfl
  -- no other row can be refused
  all_goals refine ⟨_, rfl, ?_⟩
  case nop => rfl
  case clearScreen => rw [figures_screen, funext Screen.lit_blank]
  case jump => rfl
  case skipEqualByte => rw [figures_skipIf, beq_eq_decide]
  case skipNotEqualByte => rw [figures_skipIf, bne_eq_decide]
  case skipEqual => rw [figures_skipIf, beq_eq_decide]
  case skipNotEqual => rw [figures_skipIf, bne_eq_decide]
  case loadByte => rw [figures_setReg]
  case addByte => rw [figures_setReg, UInt8.toNat_add]
  case copy => rw [figures_setReg]
  case or => rw [figures_setResult, UInt8.toNat_or]
  case and => rw [figures_setResult, UInt8.toNat_and]
  case xor => rw [figures_setResult, UInt8.toNat_xor]
  case add => exact m.figures_addRegs _ _
  case sub => exact m.figures_subTo _ _ _
  case subFrom => exact m.figures_subTo _ _ _
  case shiftRight => exact m.figures_shiftRight _ _
  case shiftLeft => exact m.figures_shiftLeft _ _
  case loadIndex => rfl
  case jumpOffset => rfl
  case random => rw [figures_setReg, UInt8.toNat_and]
  case draw => exact m.figures_drawSprite
  case skipKey => rw [figures_skipIf, isHeld_eq_testBit]; rfl
  case skipNotKey => rw [figures_skipIf, isHeld_eq_testBit]; rfl
  case waitKey => exact m.figures_awaitKey _
  case setDelay => rfl
  case setSound => rfl
  case addIndex => rw [figures_setIndex]; rfl
  case glyph => rw [sprite_eq]; rfl
  case store => exact m.figures_storeRegs _
  case load => exact m.figures_loadRegs _

end Machine
end ChipEight
