import ChipEight.Proofs.Blocks
import ChipEight.Proofs.Handlers

/-!
# ChipEight.Proofs.Cycles

One cycle, from the tick of the timers to the report. What a cycle does is said here once, in four
cases; everything about single cycles and about runs follows from them.

* `cycle_end`: behind the last word of memory there is nothing to fetch, and only the timers move.
* `cycle_unknown`, `cycle_underflow`: a word that no row owns, and a return without a call. The word
  has been taken up, and that is all.
* `cycle_row`: every other word. The figures after the cycle are those of its row.
* `cycle_follows_table`: the same for one row of the table, with the report.
-/

namespace ChipEight

def Figures.tick (s : Figures) (time : Float) : Figures :=
  if time - s.lastTick ≥ Machine.timerInterval then
    { s with delay := max 0 (s.delay - 1), sound := max 0 (s.sound - 1), lastTick := time }
  else s

namespace Machine

/-- The ranges of what is stored as an integer. -/
structure WellFormed (m : Machine) : Prop where
  index : 0 ≤ m.index ∧ m.index ≤ 0xFFF
  delay : 0 ≤ m.delay ∧ m.delay ≤ 0xFF
  sound : 0 ≤ m.sound ∧ m.sound ≤ 0xFF

/-- The word at the program counter, its more significant byte first. -/
def word (m : Machine) : Nat := (m.peek m.pc).toNat * 0x100 + (m.peek (m.pc + 1)).toNat

def fetched (m : Machine) : Instruction := ⟨UInt16.ofNat m.word⟩

/-- The machine that is about to run the word at the program counter, its timers already ticked. -/
def taken (m : Machine) (keys : Keypad) (time : Float) : Machine :=
  (m.tick time).take keys m.fetched

/-! ## Nothing is lost in figures -/

theorem figures_inj {m t : Machine} (h : m.figures = t.figures) : m = t := by
  have hv : m.v = t.v := by
    apply Vector.ext
    intro r hr
    exact UInt8.toNat_inj.mp (congrFun (congrArg Figures.v h) ⟨r, hr⟩)
  have hmemory : m.memory = t.memory :=
    Memory.ext_get fun a => UInt8.toNat_inj.mp (congrFun (congrArg Figures.ram h) a)
  have hcalls : m.calls = t.calls := by
    have hitems : m.calls.items = t.calls.items := congrArg Figures.calls h
    cases hm : m.calls; cases ht : t.calls
    rw [hm, ht] at hitems
    exact congrArg CallStack.mk hitems
  have hinstruction : m.instruction = t.instruction := by
    have hraw : m.instruction.raw = t.instruction.raw := congrArg Figures.word h
    cases hm : m.instruction; cases ht : t.instruction
    rw [hm, ht] at hraw
    exact congrArg Instruction.mk (UInt16.toNat_inj.mp hraw)
  have hscreen : m.screen = t.screen :=
    Screen.ext_lit fun c => congrFun (congrArg Figures.lit h) c
  have hindex := congrArg Figures.index h
  have hpc := congrArg Figures.pc h
  have hexecuting := congrArg Figures.executing h
  have hdelay := congrArg Figures.delay h
  have hsound := congrArg Figures.sound h
  have hlast := congrArg Figures.lastTick h
  have hkeys := congrArg Figures.keys h
  cases m; cases t
  simp only [figures] at *
  subst_vars
  rfl

/-! ## The timers -/

section Tick

variable (m : Machine) (time : Float)

/-- A tick changes the timers and nothing else. -/
theorem tick_eq : ∃ delay sound lastTick, m.tick time = { m with delay, sound, lastTick } := by
  unfold tick
  split
  · exact ⟨_, _, _, rfl⟩
  · exact ⟨m.delay, m.sound, m.lastTick, rfl⟩

@[simp] theorem tick_pc : (m.tick time).pc = m.pc := by
  obtain ⟨_, _, _, h⟩ := m.tick_eq time
  rw [h]

@[simp] theorem tick_calls : (m.tick time).calls = m.calls := by
  obtain ⟨_, _, _, h⟩ := m.tick_eq time
  rw [h]

@[simp] theorem tick_memory : (m.tick time).memory = m.memory := by
  obtain ⟨_, _, _, h⟩ := m.tick_eq time
  rw [h]

end Tick

theorem countDown_eq {t : Int} (h : 0 ≤ t) : countDown t = max 0 (t - 1) := by
  unfold countDown
  split <;> omega

theorem figures_tick {m : Machine} (h : m.WellFormed) (time : Float) :
    (m.tick time).figures = m.figures.tick time := by
  have hd := countDown_eq h.delay.1
  have hs := countDown_eq h.sound.1
  unfold tick Figures.tick isDue
  simp only [decide_eq_true_eq]
  show Machine.figures (if time - m.lastTick ≥ timerInterval then _ else _) =
    if time - m.lastTick ≥ timerInterval then _ else _
  split
  · simp only [hd, hs]
    rfl
  · rfl

theorem WellFormed.tick {m : Machine} (h : m.WellFormed) (time : Float) :
    (m.tick time).WellFormed := by
  obtain ⟨hi, hd, hs⟩ := h
  unfold Machine.tick
  split
  · refine ⟨hi, ?_, ?_⟩
    · show 0 ≤ countDown m.delay ∧ countDown m.delay ≤ 0xFF
      rw [countDown_eq hd.1]; omega
    · show 0 ≤ countDown m.sound ∧ countDown m.sound ≤ 0xFF
      rw [countDown_eq hs.1]; omega
  · exact ⟨hi, hd, hs⟩

/-! ## Fetching -/

theorem locate_error {m : Machine} {a : Int} (h : a < 0 ∨ 0xFFF < a) :
    m.memory.locate a = .error (.outOfRange a) :=
  m.memory.locate_outside h

theorem word_lt (m : Machine) : m.word < 0x10000 := by
  have hh := (m.peek m.pc).toNat_lt
  have hl := (m.peek (m.pc + 1)).toNat_lt
  unfold word
  omega

theorem raw_fetched (m : Machine) : m.fetched.raw = m.word :=
  UInt16.toNat_ofNat_of_lt' m.word_lt

theorem fetch_inside {m : Machine} (h : 0 ≤ m.pc ∧ m.pc ≤ 0xFFE) : m.fetch = some m.fetched := by
  unfold fetch
  rw [locate_eq (by omega), locate_eq (by omega)]
  rfl

theorem fetch_outside {m : Machine} (h : ¬ (0 ≤ m.pc ∧ m.pc ≤ 0xFFE)) : m.fetch = none := by
  unfold fetch
  by_cases hneg : m.pc < 0
  · rw [locate_error (a := m.pc) (.inl hneg)]
  · rw [locate_error (a := m.pc + 1) (.inr (by omega))]
    split
    · rename_i hlow; cases hlow
    · rfl

theorem cycle_outside {m : Machine} (keys : Keypad) (time : Float)
    (h : ¬ (0 ≤ m.pc ∧ m.pc ≤ 0xFFE)) (random : UInt8) :
    m.cycle keys time random = (m.tick time, .error .endOfProgram) := by
  unfold cycle step
  rw [fetch_outside (by rw [tick_pc]; exact h)]

section Taken

variable (m : Machine) (keys : Keypad) (time : Float)

theorem figures_take (i : Instruction) : (m.take keys i).figures = m.figures.take keys i.raw := rfl

@[simp] theorem word_tick : (m.tick time).word = m.word := by
  unfold word peek
  rw [tick_memory, tick_pc]

@[simp] theorem fetched_tick : (m.tick time).fetched = m.fetched := by
  unfold fetched
  rw [word_tick]

@[simp] theorem taken_pc : (m.taken keys time).pc = m.pc + 2 := by
  show (m.tick time).pc + 2 = m.pc + 2
  rw [tick_pc]

@[simp] theorem taken_calls : (m.taken keys time).calls = m.calls := m.tick_calls time

theorem WellFormed.taken {m : Machine} (h : m.WellFormed) :
    (m.taken keys time).WellFormed := by
  obtain ⟨hi, hd, hs⟩ := h.tick time
  exact ⟨hi, hd, hs⟩

theorem figures_taken {m : Machine} (h : m.WellFormed) :
    (m.taken keys time).figures = (m.figures.tick time).take keys m.word := by
  rw [taken, figures_take, figures_tick h, raw_fetched]

/-- A cycle inside memory runs the word at the program counter. -/
theorem cycle_inside {m : Machine} (h : 0 ≤ m.pc ∧ m.pc ≤ 0xFFE) (random : UInt8) :
    m.cycle keys time random =
      match (m.taken keys time).execute random with
      | .ok t => (t, .ok t.report)
      | .error f => (m.taken keys time, .error f) := by
  have hfetch : (m.tick time).fetch = some m.fetched := by
    rw [← m.fetched_tick time]
    exact fetch_inside (by rw [tick_pc]; exact h)
  have htaken : (m.tick time).take keys m.fetched = m.taken keys time := rfl
  unfold cycle step perform
  rw [hfetch]
  dsimp only
  rw [htaken]
  cases (m.taken keys time).execute random <;> rfl

end Taken

/-- The font leaves room below the origin. -/
theorem font_below_origin : Font.address + Font.sprites.size ≤ origin := by
  rw [Font.size_sprites]
  decide

theorem get_image_above {program : Array UInt8} {a : Fin 4096} (ha : origin ≤ a.val) :
    (image program).get a = (program[a.val - origin]?).getD 0 := by
  have hfont := font_below_origin
  have hbehind : Font.sprites.size ≤ a.val - Font.address := by omega
  unfold image
  rw [Memory.get_overlay, if_neg (by omega), Memory.get_overlay, if_neg (by omega),
    Array.getElem?_eq_none hbehind]
  simp [Memory.zero, Memory.get]

theorem get_image {program : Array UInt8} {k : Nat} (hk : k < program.size)
    (hsize : program.size ≤ capacity) :
    (image program).get (wrap (origin + k)) = program[k] := by
  have hval : (wrap (origin + k)).val = origin + k := by
    show (((origin : Nat) + (k : Nat) : Int) % 4096).toNat = origin + k
    unfold capacity memorySize origin at *
    omega
  rw [get_image_above (by omega), hval, Nat.add_sub_cancel_left, Array.getElem?_eq_getElem hk]
  rfl

theorem word_boot {program : Array UInt8} {time : Float} (h : 1 < program.size)
    (hsize : program.size ≤ capacity) :
    (boot program time).word = program[0].toNat * 0x100 + program[1].toNat := by
  have hhigh : (boot program time).peek (boot program time).pc = program[0] :=
    get_image (k := 0) (by omega) hsize
  have hlow : (boot program time).peek ((boot program time).pc + 1) = program[1] :=
    get_image (k := 1) h hsize
  rw [word, hhigh, hlow]

theorem word_setReg (m : Machine) (r : Fin 16) (b : UInt8) : (m.setReg r b).word = m.word := rfl

/-! ## What a cycle does -/

/-- The four ways in which a cycle goes: what it leaves and what it answers. -/
inductive Outcome (m : Machine) (keys : Keypad) (time : Float) (random : UInt8) :
    Machine × Except Fault Report → Prop where
  | ended : 0xFFE < m.pc → Outcome m keys time random (m.tick time, .error .endOfProgram)
  | unknown : m.pc ≤ 0xFFE → (∀ op : Operation, ¬ op.Owns m.word) →
      Outcome m keys time random
        (m.taken keys time, .error (.unknownInstruction m.fetched (m.pc + 2)))
  | underflow : m.pc ≤ 0xFFE → Operation.ret.Owns m.word → m.calls.items = [] →
      Outcome m keys time random (m.taken keys time, .error (.stack .underflow))
  | row {op : Operation} {t : Machine} : m.pc ≤ 0xFFE → op.Owns m.word →
      (op = .ret → m.calls.items ≠ []) →
      t.figures = ((m.figures.tick time).take keys m.word).row op random.toNat →
      Outcome m keys time random (t, .ok t.report)

section Cycle

variable {m : Machine} (keys : Keypad) (time : Float) (random : UInt8)

theorem cycle_end (h : 0xFFE < m.pc) :
    m.cycle keys time random = (m.tick time, .error .endOfProgram) :=
  cycle_outside keys time (fun hin => by omega) random

theorem cycle_unknown (h : 0 ≤ m.pc ∧ m.pc ≤ 0xFFE) (hu : ∀ op : Operation, ¬ op.Owns m.word) :
    m.cycle keys time random =
      (m.taken keys time, .error (.unknownInstruction m.fetched (m.pc + 2))) := by
  have hop : (m.taken keys time).operation = .unknown :=
    Instruction.operation_eq_unknown_iff.mpr (by
      show ∀ op : Operation, ¬ op.Owns m.fetched.raw
      rw [raw_fetched]; exact hu)
  rw [cycle_inside keys time h, execute_unknown hop, taken_pc]
  rfl

theorem cycle_underflow (h : 0 ≤ m.pc ∧ m.pc ≤ 0xFFE) (hret : Operation.ret.Owns m.word)
    (hcalls : m.calls.items = []) :
    m.cycle keys time random = (m.taken keys time, .error (.stack .underflow)) := by
  have hop : (m.taken keys time).operation = .ret :=
    Instruction.operation_of_owns (by
      show Operation.ret.Owns m.fetched.raw
      rw [raw_fetched]; exact hret)
  rw [cycle_inside keys time h, execute_underflow hop (by rw [taken_calls]; exact hcalls)]

theorem cycle_row (hwf : m.WellFormed) (h : 0 ≤ m.pc ∧ m.pc ≤ 0xFFE) {op : Operation}
    (hop : op.Owns m.word) (hret : op = .ret → m.calls.items ≠ []) :
    ∃ t, m.cycle keys time random = (t, .ok t.report) ∧
      t.figures = ((m.figures.tick time).take keys m.word).row op random.toNat := by
  have htaken : (m.taken keys time).operation = op :=
    Instruction.operation_of_owns (by
      show op.Owns m.fetched.raw
      rw [raw_fetched]; exact hop)
  have hknown : op ≠ .unknown := by rintro rfl; exact hop
  obtain ⟨hi, hd, -⟩ := hwf.taken keys time
  obtain ⟨t, hexec, hfigures⟩ := figures_execute hi hd random (by rw [htaken]; exact hknown)
    (by rw [htaken, taken_calls]; exact hret)
  refine ⟨t, by rw [cycle_inside keys time h, hexec], ?_⟩
  rw [hfigures, htaken, figures_taken keys time hwf]

/-- Every cycle of a well-formed machine goes in one of the four ways. -/
theorem cycle_outcome (hwf : m.WellFormed) (hpc : 0 ≤ m.pc) :
    Outcome m keys time random (m.cycle keys time random) := by
  by_cases hend : 0xFFE < m.pc
  · rw [cycle_end keys time random hend]
    exact .ended hend
  · have hin : 0 ≤ m.pc ∧ m.pc ≤ 0xFFE := by omega
    by_cases hop : ∃ op : Operation, op.Owns m.word
    · obtain ⟨op, hop⟩ := hop
      by_cases hret : op = .ret ∧ m.calls.items = []
      · obtain ⟨rfl, hcalls⟩ := hret
        rw [cycle_underflow keys time random hin hop hcalls]
        exact .underflow hin.2 hop hcalls
      · have hret' : op = .ret → m.calls.items ≠ [] := fun e hc => hret ⟨e, hc⟩
        obtain ⟨t, hcycle, hfigures⟩ := cycle_row keys time random hwf hin hop hret'
        rw [hcycle]
        exact .row hin.2 hop hret' hfigures
    · have hnone : ∀ op : Operation, ¬ op.Owns m.word := fun op ho => hop ⟨op, ho⟩
      rw [cycle_unknown keys time random hin hnone]
      exact .unknown hin.2 hnone

/-- **One cycle is one row of the table.** If a row owns the word at the program counter, then the
state after the cycle is the state before it with the timers ticked, the word taken up and the row
applied, and the cycle answers with the screen, if the row draws on it, and with the buzzer. -/
theorem cycle_follows_table (hwf : m.WellFormed) (hpc : 0 ≤ m.pc ∧ m.pc ≤ 0xFFE) {op : Operation}
    (hop : op.Owns m.word) (hret : op = .ret → m.calls.items ≠ []) :
    (m.cycle keys time random).1.figures =
        ((m.figures.tick time).take keys m.word).row op random.toNat ∧
      (m.cycle keys time random).2 =
        .ok ⟨if op = .clearScreen ∨ op = .draw then some (m.cycle keys time random).1.screen
          else none, decide (0 < (m.cycle keys time random).1.sound)⟩ := by
  obtain ⟨t, hcycle, hfigures⟩ := cycle_row keys time random hwf hpc hop hret
  obtain ⟨-, hword, -, -⟩ := ((m.figures.tick time).take keys m.word).row_fixed op random.toNat
  have ht : t.operation = op :=
    Instruction.operation_of_owns (by
      show op.Owns t.figures.word
      rw [hfigures, hword]; exact hop)
  rw [hcycle]
  refine ⟨hfigures, ?_⟩
  show Except.ok t.report = _
  unfold report beeps
  rw [ht]
  unfold Operation.redraws
  simp only [Bool.or_eq_true, beq_iff_eq]

end Cycle

attribute [local instance] neZero_sixteen

/-- A machine that is about to add register F to itself, with a carry. -/
def doubling : Machine := (boot #[0x8F, 0xF4] 0).setReg 0xF 0x80

theorem word_doubling : doubling.word = 0x8FF4 := by
  rw [doubling, word_setReg, word_boot (by decide) (by decide)]
  rfl

/-- The sum goes to the register that takes the flag, and the flag stays. -/
theorem cycle_follows_table_doubling :
    doubling.word = 0x8FF4 ∧ (doubling.cycle .released 0 0).1.figures.v 0xF = 1 ∧
      (doubling.cycle .released 0 0).1.figures.pc = 0x202 := by
  have hwf : doubling.WellFormed := ⟨by decide, by decide, by decide⟩
  have hpc : 0 ≤ doubling.pc ∧ doubling.pc ≤ 0xFFE := by decide
  have hop : Operation.add.Owns doubling.word := by
    rw [word_doubling]
    exact ⟨rfl, trivial, trivial, rfl⟩
  have hret : Operation.add = .ret → doubling.calls.items ≠ [] := fun h => by cases h
  obtain ⟨hfigures, -⟩ := cycle_follows_table .released 0 0 hwf hpc hop hret
  refine ⟨word_doubling, ?_, ?_⟩
  · rw [hfigures, word_doubling]
    unfold Figures.tick
    split <;> rfl
  · rw [hfigures, word_doubling]
    unfold Figures.tick
    split <;> rfl

end Machine
end ChipEight
