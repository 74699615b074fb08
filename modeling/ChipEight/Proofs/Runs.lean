import ChipEight.Engine
import ChipEight.Proofs.Cycles

/-!
# ChipEight.Proofs.Runs

Runs of the machine: any number of cycles, each with its own keys, time and random byte, going on
after cycles that were refused.

* `Machine.after`, `Machine.Reachable`: the states that a program leads to. An engine, which takes
  times from a clock and bytes from dice, reaches no others (`Engine.reachable_of_load`).
* `Machine.Bounded`: the ranges that hold between cycles. They lean on each other: the program
  counter needs those of the return addresses, and these need the one of the fetch.
* `bounded_cycle`, `bounded_after`: one cycle keeps the ranges, and so does a run.
* `reachable_ranges`: the ranges of every reachable state in numbers.
-/

namespace ChipEight

/-! ## What a row keeps in range -/

namespace Figures

variable {s : Figures} (op : Operation) (random : Nat)

theorem row_index (hv : ∀ r, s.v r ≤ 0xFF) (h : 0 ≤ s.index ∧ s.index ≤ 0xFFF) :
    0 ≤ (s.row op random).index ∧ (s.row op random).index ≤ 0xFFF := by
  have hx := hv s.x
  cases op
  case loadIndex =>
    show 0 ≤ (s.nnn : Int) ∧ (s.nnn : Int) ≤ 0xFFF
    unfold nnn
    omega
  case addIndex =>
    show 0 ≤ (s.index + s.v s.x) % 4096 ∧ (s.index + s.v s.x) % 4096 ≤ 0xFFF
    omega
  case glyph =>
    show 0 ≤ 5 * (s.v s.x : Int) ∧ 5 * (s.v s.x : Int) ≤ 0xFFF
    omega
  case store =>
    show 0 ≤ (s.index + s.x + 1) % 4096 ∧ (s.index + s.x + 1) % 4096 ≤ 0xFFF
    omega
  case load =>
    show 0 ≤ (s.index + s.x + 1) % 4096 ∧ (s.index + s.x + 1) % 4096 ≤ 0xFFF
    omega
  case waitKey =>
    obtain hw | ⟨k, hw⟩ := s.row_waitKey random
    · rw [hw]; exact h
    · rw [hw]; exact h
  all_goals exact h

theorem row_delay (hv : ∀ r, s.v r ≤ 0xFF) (h : 0 ≤ s.delay ∧ s.delay ≤ 0xFF) :
    0 ≤ (s.row op random).delay ∧ (s.row op random).delay ≤ 0xFF := by
  have hx := hv s.x
  cases op
  case setDelay =>
    show 0 ≤ (s.v s.x : Int) ∧ (s.v s.x : Int) ≤ 0xFF
    omega
  case waitKey =>
    obtain hw | ⟨k, hw⟩ := s.row_waitKey random
    · rw [hw]; exact h
    · rw [hw]; exact h
  all_goals exact h

theorem row_sound (hv : ∀ r, s.v r ≤ 0xFF) (h : 0 ≤ s.sound ∧ s.sound ≤ 0xFF) :
    0 ≤ (s.row op random).sound ∧ (s.row op random).sound ≤ 0xFF := by
  have hx := hv s.x
  cases op
  case setSound =>
    show 0 ≤ (s.v s.x : Int) ∧ (s.v s.x : Int) ≤ 0xFF
    omega
  case waitKey =>
    obtain hw | ⟨k, hw⟩ := s.row_waitKey random
    · rw [hw]; exact h
    · rw [hw]; exact h
  all_goals exact h

/-- A call pushes the program counter, which has moved past its own word. -/
theorem row_calls (hpc : 2 ≤ s.pc ∧ s.pc ≤ 0x1000) (h : ∀ a ∈ s.calls, 2 ≤ a ∧ a ≤ 0x1000) :
    ∀ a ∈ (s.row op random).calls, 2 ≤ a ∧ a ≤ 0x1000 := by
  cases op
  case ret => exact fun a ha => h a (List.mem_of_mem_tail ha)
  case call =>
    intro a ha
    rcases List.mem_cons.mp ha with rfl | ha
    · exact hpc
    · exact h a ha
  case waitKey =>
    obtain hw | ⟨k, hw⟩ := s.row_waitKey random
    · rw [hw]; exact h
    · rw [hw]; exact h
  all_goals exact h

theorem skipIf_pc (hpc : 2 ≤ s.pc ∧ s.pc ≤ 0x1000) (b : Bool) :
    0 ≤ (s.skipIf b).pc ∧ (s.skipIf b).pc ≤ 0x10FE := by
  show 0 ≤ (if b then s.pc + 2 else s.pc) ∧ (if b then s.pc + 2 else s.pc) ≤ 0x10FE
  split <;> omega

/-- The farthest jump goes to the last address and 255 bytes on. -/
theorem row_pc (hv : ∀ r, s.v r ≤ 0xFF) (hpc : 2 ≤ s.pc ∧ s.pc ≤ 0x1000)
    (hcalls : ∀ a ∈ s.calls, 2 ≤ a ∧ a ≤ 0x1000) :
    0 ≤ (s.row op random).pc ∧ (s.row op random).pc ≤ 0x10FE := by
  have hnnn : s.nnn ≤ 0xFFF := by unfold nnn; omega
  have hzero := hv 0
  have hstay : 0 ≤ s.pc ∧ s.pc ≤ 0x10FE := by omega
  cases op
  case ret =>
    show 0 ≤ s.calls.headD 0 ∧ s.calls.headD 0 ≤ 0x10FE
    cases hs : s.calls with
    | nil => exact ⟨Int.le_refl 0, by decide⟩
    | cons a rest =>
      have ha := hcalls a (by rw [hs]; exact List.mem_cons_self)
      show 0 ≤ a ∧ a ≤ 0x10FE
      omega
  case jump =>
    show 0 ≤ (s.nnn : Int) ∧ (s.nnn : Int) ≤ 0x10FE
    omega
  case call =>
    show 0 ≤ (s.nnn : Int) ∧ (s.nnn : Int) ≤ 0x10FE
    omega
  case jumpOffset =>
    show 0 ≤ (s.nnn : Int) + s.v 0 ∧ (s.nnn : Int) + s.v 0 ≤ 0x10FE
    omega
  case skipEqualByte => exact skipIf_pc hpc _
  case skipNotEqualByte => exact skipIf_pc hpc _
  case skipEqual => exact skipIf_pc hpc _
  case skipNotEqual => exact skipIf_pc hpc _
  case skipKey => exact skipIf_pc hpc _
  case skipNotKey => exact skipIf_pc hpc _
  case waitKey =>
    obtain hw | ⟨k, hw⟩ := s.row_waitKey random
    · rw [hw]
      show 0 ≤ s.pc - 2 ∧ s.pc - 2 ≤ 0x10FE
      omega
    · rw [hw]
      exact hstay
  all_goals exact hstay

end Figures

/-! ## Runs -/

/-- What a cycle takes from outside. -/
structure Moment where
  keys : Keypad
  time : Float
  random : UInt8

namespace Machine

def cycleAt (m : Machine) (c : Moment) : Machine × Except Fault Report :=
  m.cycle c.keys c.time c.random

/-- The machine after a cycle at each of some moments, whatever the cycles answered. -/
def after (m : Machine) (ms : List Moment) : Machine := ms.foldl (fun t c => (t.cycleAt c).1) m

/-- The states that a program which fits leads to. -/
def Reachable (m : Machine) : Prop :=
  ∃ program time start, load? program time = .ok start ∧ ∃ ms, m = start.after ms

theorem after_append (m : Machine) (ms ns : List Moment) :
    m.after (ms ++ ns) = (m.after ms).after ns := List.foldl_append

theorem after_single (m : Machine) (c : Moment) :
    m.after [c] = (m.cycle c.keys c.time c.random).1 := rfl

theorem Reachable.after {m : Machine} (h : m.Reachable) (ns : List Moment) :
    (m.after ns).Reachable := by
  obtain ⟨program, time, start, hload, ms, rfl⟩ := h
  exact ⟨program, time, start, hload, ms ++ ns, (after_append start ms ns).symm⟩

theorem Reachable.cycleAt {m : Machine} (h : m.Reachable) (c : Moment) :
    (m.cycleAt c).1.Reachable := h.after [c]

theorem load?_eq_ok {program : Array UInt8} {time : Float} {m : Machine}
    (h : load? program time = .ok m) : m = boot program time := by
  unfold load? checkSize at h
  by_cases hbig : program.size > capacity
  · rw [if_pos hbig] at h
    simp [Except.map] at h
  · rw [if_neg hbig] at h
    exact (Except.ok.inj h).symm

/-! ## Ranges -/

/-- The ranges that hold between cycles. -/
structure Bounded (m : Machine) : Prop extends m.WellFormed where
  pc : 0 ≤ m.pc ∧ m.pc ≤ 0x10FE
  executing : 0 ≤ m.executing ∧ m.executing ≤ 0xFFE
  calls : ∀ a ∈ m.calls.items, 2 ≤ a ∧ a ≤ 0x1000

theorem bounded_boot (program : Array UInt8) (time : Float) : (boot program time).Bounded where
  index := by show (0 : Int) ≤ 0 ∧ (0 : Int) ≤ 0xFFF; decide
  delay := by show (0 : Int) ≤ 0 ∧ (0 : Int) ≤ 0xFF; decide
  sound := by show (0 : Int) ≤ 0 ∧ (0 : Int) ≤ 0xFF; decide
  pc := by show (0 : Int) ≤ 0x200 ∧ (0x200 : Int) ≤ 0x10FE; decide
  executing := by show (0 : Int) ≤ 0x200 ∧ (0x200 : Int) ≤ 0xFFE; decide
  calls := fun _ h => absurd h List.not_mem_nil

section Step

variable {m : Machine} (keys : Keypad) (time : Float) (random : UInt8)

theorem Bounded.tick (h : m.Bounded) : (m.tick time).Bounded := by
  have hwf := h.toWellFormed.tick time
  obtain ⟨_, _, _, ht⟩ := m.tick_eq time
  rw [ht] at hwf ⊢
  exact ⟨hwf, h.pc, h.executing, h.calls⟩

theorem Bounded.taken (h : m.Bounded) (hin : m.pc ≤ 0xFFE) : (m.taken keys time).Bounded := by
  refine ⟨h.toWellFormed.taken keys time, ?_, ?_, ?_⟩
  · have hpc := h.pc
    rw [taken_pc]; omega
  · show 0 ≤ (m.tick time).pc ∧ (m.tick time).pc ≤ 0xFFE
    rw [tick_pc]
    exact ⟨h.pc.1, hin⟩
  · rw [taken_calls]
    exact h.calls

theorem WellFormed.row {t : Machine} {op : Operation} {random : Nat} (h : m.WellFormed)
    (hfigures : t.figures = m.figures.row op random) : t.WellFormed := by
  have hv : ∀ r, m.figures.v r ≤ 0xFF := fun r => Nat.le_of_lt_succ (m.reg r).toNat_lt
  refine ⟨?_, ?_, ?_⟩
  · show 0 ≤ t.figures.index ∧ t.figures.index ≤ 0xFFF
    rw [hfigures]
    exact Figures.row_index op random hv h.index
  · show 0 ≤ t.figures.delay ∧ t.figures.delay ≤ 0xFF
    rw [hfigures]
    exact Figures.row_delay op random hv h.delay
  · show 0 ≤ t.figures.sound ∧ t.figures.sound ≤ 0xFF
    rw [hfigures]
    exact Figures.row_sound op random hv h.sound

/-- A row keeps the ranges of a machine that has moved past its word. -/
theorem Bounded.row {t : Machine} {op : Operation} {random : Nat} (h : m.Bounded)
    (hpc : 2 ≤ m.pc ∧ m.pc ≤ 0x1000) (hfigures : t.figures = m.figures.row op random) :
    t.Bounded := by
  have hv : ∀ r, m.figures.v r ≤ 0xFF := fun r => Nat.le_of_lt_succ (m.reg r).toNat_lt
  obtain ⟨-, -, hexecuting, -⟩ := m.figures.row_fixed op random
  refine ⟨h.toWellFormed.row hfigures, ?_, ?_, ?_⟩
  · show 0 ≤ t.figures.pc ∧ t.figures.pc ≤ 0x10FE
    rw [hfigures]
    exact Figures.row_pc op random hv hpc h.calls
  · show 0 ≤ t.figures.executing ∧ t.figures.executing ≤ 0xFFE
    rw [hfigures, hexecuting]
    exact h.executing
  · show ∀ a ∈ t.figures.calls, 2 ≤ a ∧ a ≤ 0x1000
    rw [hfigures]
    exact Figures.row_calls op random hpc h.calls

/-- One cycle keeps the ranges, also when it is refused. -/
theorem bounded_cycle (h : m.Bounded) : (m.cycle keys time random).1.Bounded := by
  have hout := cycle_outcome keys time random h.toWellFormed h.pc.1
  generalize m.cycle keys time random = r at hout
  cases hout with
  | ended hend => exact h.tick time
  | unknown hin hnone => exact h.taken keys time hin
  | underflow hin hret hcalls => exact h.taken keys time hin
  | row hin hop hret hfigures =>
    -- the row starts from the machine that has moved past its word, not from `m`
    have hpc := h.pc.1
    rw [← figures_taken keys time h.toWellFormed] at hfigures
    exact (h.taken keys time hin).row (by rw [taken_pc]; omega) hfigures

theorem wellFormed_cycle (h : m.WellFormed) (hpc : 0 ≤ m.pc) :
    (m.cycle keys time random).1.WellFormed := by
  have hout := cycle_outcome keys time random h hpc
  generalize m.cycle keys time random = r at hout
  cases hout with
  | ended hend => exact h.tick time
  | unknown hin hnone => exact h.taken keys time
  | underflow hin hret hcalls => exact h.taken keys time
  | row hin hop hret hfigures =>
    rw [← figures_taken keys time h] at hfigures
    exact (h.taken keys time).row hfigures

end Step

theorem bounded_after {m : Machine} (h : m.Bounded) (ms : List Moment) : (m.after ms).Bounded := by
  induction ms generalizing m with
  | nil => exact h
  | cons c ms ih => exact ih (bounded_cycle c.keys c.time c.random h)

theorem Reachable.bounded {m : Machine} (h : m.Reachable) : m.Bounded := by
  obtain ⟨program, time, start, hload, ms, rfl⟩ := h
  rw [load?_eq_ok hload]
  exact bounded_after (bounded_boot program time) ms

/-- The first cycle of a program runs its first word. -/
theorem figures_first {program : Array UInt8} {time : Float} (c : Moment) {op : Operation}
    (hop : op.Owns (boot program time).word) (hret : op ≠ .ret) :
    ((boot program time).after [c]).figures =
      (((boot program time).figures.tick c.time).take c.keys (boot program time).word).row op
        c.random.toNat := by
  have hb := bounded_boot program time
  have hpc : 0 ≤ (boot program time).pc ∧ (boot program time).pc ≤ 0xFFE := by
    show (0 : Int) ≤ 0x200 ∧ (0x200 : Int) ≤ 0xFFE
    decide
  obtain ⟨t, hcycle, hfigures⟩ := cycle_row c.keys c.time c.random hb.toWellFormed hpc hop
    (fun h => absurd h hret)
  rw [after_single, hcycle]
  exact hfigures

/-- **The ranges of every reachable state.** -/
theorem reachable_ranges {m : Machine} (h : m.Reachable) :
    (∀ r, (m.reg r).toNat ≤ 0xFF) ∧
      (0 ≤ m.delay ∧ m.delay ≤ 0xFF) ∧ (0 ≤ m.sound ∧ m.sound ≤ 0xFF) ∧
      (0 ≤ m.index ∧ m.index ≤ 0xFFF) ∧
      m.memory.toList.length = 0x1000 ∧
      (∀ c, (m.screen.lit c).toNat = 0 ∨ (m.screen.lit c).toNat = 1) ∧
      (0 ≤ m.pc ∧ m.pc ≤ 0x10FE) ∧ (0 ≤ m.executing ∧ m.executing ≤ 0xFFE) ∧
      ∀ a ∈ m.calls.items, 2 ≤ a ∧ a ≤ 0x1000 := by
  have hb := h.bounded
  refine ⟨fun r => Nat.le_of_lt_succ (m.reg r).toNat_lt, hb.delay, hb.sound, hb.index, ?_, ?_,
    hb.pc, hb.executing, hb.calls⟩
  · exact m.memory.bytes.size_toArray
  · intro c
    cases m.screen.lit c
    · exact .inl rfl
    · exact .inr rfl

/-- A machine that is about to call the subroutine behind the call. -/
def caller : Machine := boot #[0x22, 0x02] 0

def called : Machine := caller.after [⟨.released, 0, 0⟩]

theorem word_caller : caller.word = 0x2202 := by
  rw [caller, word_boot (by decide) (by decide)]
  rfl

theorem calls_called : called.calls.items = [0x202] := by
  have hop : Operation.call.Owns caller.word := by
    rw [word_caller]
    exact ⟨rfl, trivial, trivial, trivial⟩
  rw [← figures_calls, called, caller, figures_first _ hop (fun h => by cases h), ← caller,
    word_caller]
  unfold Figures.tick
  split <;> rfl

/-- A return address lies behind its call. -/
theorem reachable_ranges_called :
    called.Reachable ∧ called.calls.items = [0x202] ∧ (0 ≤ called.pc ∧ called.pc ≤ 0x10FE) ∧
      ∀ a ∈ called.calls.items, 2 ≤ a ∧ a ≤ 0x1000 := by
  have hr : called.Reachable := ⟨#[0x22, 0x02], 0, _, rfl, _, rfl⟩
  obtain ⟨-, -, -, -, -, -, hpc, -, hcalls⟩ := reachable_ranges hr
  exact ⟨hr, calls_called, hpc, hcalls⟩

end Machine

/-! ## Engines -/

namespace Engine

def after (e : Engine) (keypads : List Keypad) : Engine :=
  keypads.foldl (fun t keys => (t.cycle keys).1) e

/-- A cycle of an engine is one of its machine, unless the clock fails; then the machine waits. -/
theorem machine_cycle (e : Engine) (keys : Keypad) :
    ((e.cycle keys).1.machine = e.machine ∧ ∃ f, (e.cycle keys).2 = .error (.clock f)) ∨
      ∃ time random, (e.cycle keys).1.machine = (e.machine.cycle keys time random).1 ∧
        (e.cycle keys).2 = (e.machine.cycle keys time random).2.mapError .machine := by
  unfold cycle
  split
  · exact .inl ⟨rfl, _, rfl⟩
  · exact .inr ⟨_, _, rfl, rfl⟩

theorem machine_load {program : Array UInt8} {clock : Clock} {dice : List UInt8} {e : Engine}
    (h : load? program clock dice = .ok e) :
    ∃ time, Machine.load? program time = .ok e.machine := by
  unfold load? at h
  cases hsize : Machine.checkSize program with
  | error f =>
    rw [hsize] at h
    cases h
  | ok _ =>
    rw [hsize] at h
    dsimp only at h
    split at h
    · cases h
    · rename_i time _
      refine ⟨time, ?_⟩
      rw [← Except.ok.inj h, Machine.load?, hsize]
      rfl

theorem reachable_after {e : Engine} (h : e.machine.Reachable) (keypads : List Keypad) :
    (e.after keypads).machine.Reachable := by
  induction keypads generalizing e with
  | nil => exact h
  | cons keys keypads ih =>
    refine ih ?_
    rcases e.machine_cycle keys with ⟨heq, -⟩ | ⟨time, random, heq, -⟩
    · rw [heq]
      exact h
    · rw [heq]
      exact h.cycleAt ⟨keys, time, random⟩

/-- Whatever its clock and its dice say, an engine stays among the reachable states. -/
theorem reachable_of_load {program : Array UInt8} {clock : Clock} {dice : List UInt8} {e : Engine}
    (h : load? program clock dice = .ok e) (keypads : List Keypad) :
    (e.after keypads).machine.Reachable := by
  obtain ⟨time, hload⟩ := machine_load h
  exact reachable_after ⟨program, time, e.machine, hload, [], rfl⟩ keypads

end Engine
end ChipEight
