import ChipEight.Proofs.Guards
import ChipEight.Proofs.Runs

/-!
# ChipEight.Proofs.Faults

When a cycle is refused, as what, and what it leaves.

* `cycle_error`: the three refusals of a machine in its ranges; `cycle_eq_end_iff`,
  `cycle_eq_unknown_iff` and `cycle_eq_underflow_iff` give the exact condition of each.
* `Machine.Refused`: what a cycle leaves that has taken up its word and was then refused.
* `after_end`: behind the last word of memory a machine stays where it is.
* `reachable_faults`: every reachable state, and nothing else is ever refused.
-/

namespace ChipEight

/-- The only word that returns. -/
theorem Operation.owns_ret_iff {w : Nat} (h : w < 0x10000) :
    Operation.ret.Owns w ↔ w = 0x00EE := by
  show (w / 0x1000 % 16 = 0 ∧ w / 0x100 % 16 = 0 ∧ w / 0x10 % 16 = 14 ∧ w % 16 = 14) ↔ _
  omega

namespace Machine

/-! ## The three refusals -/

section Refusals

variable {m : Machine} (keys : Keypad) (time : Float) (random : UInt8)

theorem cycle_error (hwf : m.WellFormed) (hpc : 0 ≤ m.pc) {f : Fault}
    (h : (m.cycle keys time random).2 = .error f) :
    (0xFFE < m.pc ∧ f = .endOfProgram) ∨
      (m.pc ≤ 0xFFE ∧ (∀ op : Operation, ¬ op.Owns m.word) ∧
        f = .unknownInstruction m.fetched (m.pc + 2)) ∨
      (m.pc ≤ 0xFFE ∧ m.word = 0x00EE ∧ m.calls.items = [] ∧ f = .stack .underflow) := by
  have hout := cycle_outcome keys time random hwf hpc
  generalize m.cycle keys time random = r at hout h
  cases hout with
  | ended hend =>
    cases h
    exact .inl ⟨hend, rfl⟩
  | unknown hin hnone =>
    cases h
    exact .inr (.inl ⟨hin, hnone, rfl⟩)
  | underflow hin hret hcalls =>
    cases h
    exact .inr (.inr ⟨hin, (Operation.owns_ret_iff m.word_lt).mp hret, hcalls, rfl⟩)
  | row => cases h

theorem cycle_eq_end_iff (hwf : m.WellFormed) (hpc : 0 ≤ m.pc) :
    (m.cycle keys time random).2 = .error .endOfProgram ↔ 0xFFE < m.pc := by
  constructor
  · intro h
    rcases cycle_error keys time random hwf hpc h with ⟨hend, -⟩ | ⟨-, -, hf⟩ | ⟨-, -, -, hf⟩
    · exact hend
    · cases hf
    · cases hf
  · intro hend
    rw [cycle_end keys time random hend]

theorem cycle_eq_unknown_iff (hwf : m.WellFormed) (hpc : 0 ≤ m.pc) {i : Instruction} {a : Int} :
    (m.cycle keys time random).2 = .error (.unknownInstruction i a) ↔
      m.pc ≤ 0xFFE ∧ (∀ op : Operation, ¬ op.Owns m.word) ∧ i.raw = m.word ∧ a = m.pc + 2 := by
  constructor
  · intro h
    rcases cycle_error keys time random hwf hpc h with ⟨-, hf⟩ | ⟨hin, hnone, hf⟩ | ⟨-, -, -, hf⟩
    · cases hf
    · cases hf
      exact ⟨hin, hnone, m.raw_fetched, rfl⟩
    · cases hf
  · rintro ⟨hin, hnone, hraw, rfl⟩
    have hi : i = m.fetched := by
      cases i
      exact congrArg Instruction.mk (UInt16.toNat_inj.mp (hraw.trans m.raw_fetched.symm))
    rw [cycle_unknown keys time random ⟨hpc, hin⟩ hnone, hi]

theorem cycle_eq_underflow_iff (hwf : m.WellFormed) (hpc : 0 ≤ m.pc) :
    (m.cycle keys time random).2 = .error (.stack .underflow) ↔
      m.pc ≤ 0xFFE ∧ m.word = 0x00EE ∧ m.calls.items = [] := by
  constructor
  · intro h
    rcases cycle_error keys time random hwf hpc h with
      ⟨-, hf⟩ | ⟨-, -, hf⟩ | ⟨hin, hword, hcalls, -⟩
    · cases hf
    · cases hf
    · exact ⟨hin, hword, hcalls⟩
  · rintro ⟨hin, hword, hcalls⟩
    have hret := (Operation.owns_ret_iff m.word_lt).mpr hword
    rw [cycle_underflow keys time random ⟨hpc, hin⟩ hret hcalls]

end Refusals

/-! ## What a refused cycle leaves -/

/-- What is left by a cycle that took up the word of an operation and was then refused: the word has
been taken up, and apart from the timers that is all. -/
structure Refused (m : Machine) (keys : Keypad) (op : Operation) (t : Machine) : Prop where
  v : t.v = m.v
  index : t.index = m.index
  calls : t.calls = m.calls
  memory : t.memory = m.memory
  screen : t.screen = m.screen
  pc : t.pc = m.pc + 2
  executing : t.executing = m.pc
  keys : t.keys = keys
  instruction : t.instruction.raw = m.word
  operation : t.operation = op

theorem fetched_unknown {m : Machine} (h : ∀ op : Operation, ¬ op.Owns m.word) :
    m.fetched.operation = .unknown :=
  Instruction.operation_eq_unknown_iff.mpr (by rw [raw_fetched]; exact h)

theorem refused_taken (m : Machine) (keys : Keypad) (time : Float) :
    m.Refused keys m.fetched.operation (m.taken keys time) := by
  obtain ⟨delay, sound, lastTick, ht⟩ := m.tick_eq time
  unfold taken
  rw [ht]
  exact ⟨rfl, rfl, rfl, rfl, rfl, rfl, rfl, rfl, m.raw_fetched, rfl⟩

section Left

variable {m : Machine} (keys : Keypad) (time : Float) (random : UInt8)

theorem refused_unknown (hwf : m.WellFormed) (hpc : 0 ≤ m.pc) {i : Instruction} {a : Int}
    (h : (m.cycle keys time random).2 = .error (.unknownInstruction i a)) :
    m.Refused keys .unknown (m.cycle keys time random).1 := by
  obtain ⟨hin, hnone, -, -⟩ := (cycle_eq_unknown_iff keys time random hwf hpc).mp h
  rw [cycle_unknown keys time random ⟨hpc, hin⟩ hnone, ← fetched_unknown hnone]
  exact m.refused_taken keys time

theorem refused_underflow (hwf : m.WellFormed) (hpc : 0 ≤ m.pc)
    (h : (m.cycle keys time random).2 = .error (.stack .underflow)) :
    m.Refused keys .ret (m.cycle keys time random).1 := by
  obtain ⟨hin, hword, hcalls⟩ := (cycle_eq_underflow_iff keys time random hwf hpc).mp h
  have hret := (Operation.owns_ret_iff m.word_lt).mpr hword
  have hop : m.fetched.operation = .ret :=
    Instruction.operation_of_owns (by rw [raw_fetched]; exact hret)
  rw [cycle_underflow keys time random ⟨hpc, hin⟩ hret hcalls, ← hop]
  exact m.refused_taken keys time

end Left

/-! ## Behind the last word -/

theorem after_end {m : Machine} (h : 0xFFE < m.pc) (ms : List Moment) :
    0xFFE < (m.after ms).pc := by
  induction ms generalizing m with
  | nil => exact h
  | cons c ms ih =>
    refine ih ?_
    show 0xFFE < (m.cycle c.keys c.time c.random).1.pc
    rw [cycle_end c.keys c.time c.random h, tick_pc]
    exact h

/-- **When a cycle of a reachable state is refused.** Behind the guards nothing else is ever
refused: no access to memory, no number for a register, no key and no sprite. -/
theorem reachable_faults {m : Machine} (h : m.Reachable) (c : Moment) :
    m.guardedCycle c.keys c.time c.random =
        ((m.cycleAt c).1, (m.cycleAt c).2.mapError .machine) ∧
      (∀ f, (m.cycleAt c).2 = .error f →
        f = .endOfProgram ∨ (∃ i a, f = .unknownInstruction i a) ∨ f = .stack .underflow) ∧
      ((m.cycleAt c).2 = .error .endOfProgram ↔ 0xFFE < m.pc) ∧
      (0xFFE < m.pc →
        (∃ delay sound lastTick, (m.cycleAt c).1 = { m with delay, sound, lastTick }) ∧
        ∀ later d, (((m.cycleAt c).1.after later).cycleAt d).2 = .error .endOfProgram) ∧
      (∀ i a, (m.cycleAt c).2 = .error (.unknownInstruction i a) ↔
        m.pc ≤ 0xFFE ∧ (∀ op : Operation, ¬ op.Owns m.word) ∧ i.raw = m.word ∧ a = m.pc + 2) ∧
      ((m.cycleAt c).2 = .error (.stack .underflow) ↔
        m.pc ≤ 0xFFE ∧ m.word = 0x00EE ∧ m.calls.items = []) ∧
      (∀ i a, (m.cycleAt c).2 = .error (.unknownInstruction i a) →
        m.Refused c.keys .unknown (m.cycleAt c).1) ∧
      ((m.cycleAt c).2 = .error (.stack .underflow) → m.Refused c.keys .ret (m.cycleAt c).1) := by
  obtain ⟨hwf, hpc, -, -⟩ := h.bounded
  refine ⟨guardedCycle_eq hwf hpc.1 _ _ _, ?_, cycle_eq_end_iff _ _ _ hwf hpc.1, ?_,
    fun i a => cycle_eq_unknown_iff _ _ _ hwf hpc.1, cycle_eq_underflow_iff _ _ _ hwf hpc.1,
    fun i a => refused_unknown _ _ _ hwf hpc.1, refused_underflow _ _ _ hwf hpc.1⟩
  · intro f hf
    rcases cycle_error _ _ _ hwf hpc.1 hf with ⟨-, rfl⟩ | ⟨-, -, rfl⟩ | ⟨-, -, -, rfl⟩
    · exact .inl rfl
    · exact .inr (.inl ⟨_, _, rfl⟩)
    · exact .inr (.inr rfl)
  · intro hend
    constructor
    · rw [cycleAt, cycle_end c.keys c.time c.random hend]
      exact m.tick_eq c.time
    · -- the timers may go on, but the program counter never comes back
      intro later d
      have hlater := after_end hend (c :: later)
      exact congrArg Prod.snd (cycle_end d.keys d.time d.random hlater)

/-- A machine that is about to return without having been called. -/
def stray : Machine := boot #[0x00, 0xEE] 0

theorem word_stray : stray.word = 0x00EE := by
  rw [stray, word_boot (by decide) (by decide)]
  rfl

/-- A machine in front of a word of no row. -/
def puzzled : Machine := boot #[0xFF, 0xFF] 0

theorem word_puzzled : puzzled.word = 0xFFFF := by
  rw [puzzled, word_boot (by decide) (by decide)]
  rfl

theorem puzzled_unowned (op : Operation) : ¬ op.Owns puzzled.word := by
  rw [word_puzzled]
  cases op <;>
    simp [Operation.Owns, Operation.pattern, Operation.Fits, Operation.digit?]

/-- A machine that has jumped to the last byte of memory. -/
def stranded : Machine := (boot #[0x1F, 0xFF] 0).after [⟨.released, 0, 0⟩]

theorem pc_stranded : stranded.pc = 0xFFF := by
  have hword : (boot #[0x1F, 0xFF] 0).word = 0x1FFF := by
    rw [word_boot (by decide) (by decide)]
    rfl
  have hop : Operation.jump.Owns (boot #[0x1F, 0xFF] 0).word := by
    rw [hword]
    exact ⟨rfl, trivial, trivial, trivial⟩
  rw [← figures_pc, stranded, figures_first _ hop (fun h => by cases h), hword]
  unfold Figures.tick
  split <;> rfl

/-- All three refusals: a return without a call, a word of no row, and no word at all. -/
theorem reachable_faults_three :
    (stray.Reachable ∧ (stray.cycleAt ⟨.released, 0, 0⟩).2 = .error (.stack .underflow) ∧
      (stray.cycleAt ⟨.released, 0, 0⟩).1.pc = 0x202) ∧
    (puzzled.Reachable ∧ (puzzled.cycleAt ⟨.released, 0, 0⟩).2 =
      .error (.unknownInstruction ⟨0xFFFF⟩ 0x202) ∧
      (puzzled.cycleAt ⟨.released, 0, 0⟩).1.executing = 0x200) ∧
    (stranded.Reachable ∧ (stranded.cycleAt ⟨.released, 0, 0⟩).2 = .error .endOfProgram ∧
      ∀ later d, (((stranded.cycleAt ⟨.released, 0, 0⟩).1.after later).cycleAt d).2 =
        .error .endOfProgram) := by
  have hstray : stray.Reachable := ⟨#[0x00, 0xEE], 0, _, rfl, [], rfl⟩
  have hpuzzled : puzzled.Reachable := ⟨#[0xFF, 0xFF], 0, _, rfl, [], rfl⟩
  have hstranded : stranded.Reachable := ⟨#[0x1F, 0xFF], 0, _, rfl, _, rfl⟩
  refine ⟨?_, ?_, ?_⟩
  · obtain ⟨-, -, -, -, -, hunderflow, -, hleft⟩ := reachable_faults hstray ⟨.released, 0, 0⟩
    have hfault := hunderflow.mpr ⟨by decide, word_stray, rfl⟩
    exact ⟨hstray, hfault, (hleft hfault).pc⟩
  · obtain ⟨-, -, -, -, hunknown, -, hleft, -⟩ := reachable_faults hpuzzled ⟨.released, 0, 0⟩
    have hfault := (hunknown ⟨0xFFFF⟩ 0x202).mpr
      ⟨by decide, puzzled_unowned, word_puzzled.symm, rfl⟩
    exact ⟨hpuzzled, hfault, (hleft _ _ hfault).executing⟩
  · obtain ⟨-, -, hend, hforever, -⟩ := reachable_faults hstranded ⟨.released, 0, 0⟩
    have hbehind : 0xFFE < stranded.pc := by rw [pc_stranded]; decide
    exact ⟨hstranded, hend.mpr hbehind, (hforever hbehind).2⟩

end Machine
end ChipEight
