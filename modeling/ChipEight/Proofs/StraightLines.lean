import Mathlib.Data.List.Induction
import ChipEight.Proofs.Effects
import ChipEight.Proofs.Faults

/-!
# ChipEight.Proofs.StraightLines

Programs that go straight on run out of words. Nothing is asked of the words in memory: what counts
is what each cycle runs, so a program may write over itself while it goes on.

* `Operation.transfers`, `Figures.skips`: the rows that go on somewhere else than behind their word,
  and the rows that move past the next word as well.
* `Machine.Advance`, `cycle_advance`: a cycle that goes straight on. It moves the program counter by
  one word or by two, unless there is no word left.
* `advanced_or_behind`, `pc_after_le`: a run goes at least as far as one word for each cycle, and
  without skips no farther.
* `straight_lines_end`: how many cycles there are before the end.
-/

namespace ChipEight

/-- The operations that go on where their word or the stack says. -/
def Operation.transfers : Operation → Bool
  | .ret => true
  | .jump => true
  | .call => true
  | .jumpOffset => true
  | _ => false

namespace Figures

/-- Whether an operation moves past the next word as well. -/
def skips (s : Figures) : Operation → Bool
  | .skipEqualByte => s.v s.x = s.nn
  | .skipNotEqualByte => s.v s.x ≠ s.nn
  | .skipEqual => s.v s.x = s.v s.y
  | .skipNotEqual => s.v s.x ≠ s.v s.y
  | .skipKey => s.keys.mask.testBit (s.v s.x)
  | .skipNotKey => !s.keys.mask.testBit (s.v s.x)
  | _ => false

theorem skipIf_pc_eq (s : Figures) (b : Bool) :
    (s.skipIf b).pc = s.pc + if b then 2 else 0 := by
  cases b
  · exact (Int.add_zero s.pc).symm
  · rfl

theorem row_pc_eq {s : Figures} {op : Operation} (random : Nat) (hop : op.transfers = false)
    (hwait : op = .waitKey → s.keys.last ≠ none) :
    (s.row op random).pc = s.pc + if s.skips op then 2 else 0 := by
  cases op
  case ret | jump | call | jumpOffset => cases hop
  case skipEqualByte | skipNotEqualByte | skipEqual | skipNotEqual | skipKey | skipNotKey =>
    exact s.skipIf_pc_eq _
  case waitKey =>
    obtain ⟨k, hlast⟩ := Option.ne_none_iff_exists'.mp (hwait rfl)
    simp only [row, hlast]
    exact (Int.add_zero s.pc).symm
  all_goals exact (Int.add_zero s.pc).symm

theorem tick_eq (s : Figures) (time : Float) :
    ∃ delay sound lastTick, s.tick time = { s with delay, sound, lastTick } := by
  unfold tick
  split
  · exact ⟨_, _, _, rfl⟩
  · exact ⟨s.delay, s.sound, s.lastTick, rfl⟩

end Figures

namespace Machine

/-- The next cycle goes on somewhere else than behind its word: it jumps, calls or returns, or it
waits for a key that does not come. -/
def Diverts (m : Machine) (c : Moment) : Prop :=
  (∃ op : Operation, op.transfers = true ∧ m.Runs op) ∨ (m.Runs .waitKey ∧ c.keys.last = none)

/-- The next cycle moves past the word behind its own. -/
def Skips (m : Machine) (c : Moment) : Prop :=
  ∃ op : Operation, m.Runs op ∧ (m.figures.take c.keys m.word).skips op = true

/-! ## One cycle -/

/-- What a cycle that does not divert does to the program counter. -/
inductive Advance (m : Machine) (c : Moment) : Prop where
  | ended : 0xFFE < m.pc → (m.cycleAt c).2 = .error .endOfProgram →
      (m.cycleAt c).1.pc = m.pc → Advance m c
  | next : m.pc ≤ 0xFFE → (m.cycleAt c).2 ≠ .error .endOfProgram → ¬ m.Skips c →
      (m.cycleAt c).1.pc = m.pc + 2 → Advance m c
  | skip : m.pc ≤ 0xFFE → (m.cycleAt c).2 ≠ .error .endOfProgram → m.Skips c →
      (m.cycleAt c).1.pc = m.pc + 4 → Advance m c

section Cycle

variable {m : Machine} {c : Moment}

theorem skips_iff {op : Operation} (hop : m.Runs op) :
    m.Skips c ↔ (m.figures.take c.keys m.word).skips op = true := by
  constructor
  · rintro ⟨other, hother, hskips⟩
    rw [hop.unique hother]
    exact hskips
  · exact fun hskips => ⟨op, hop, hskips⟩

theorem not_diverts_of_runs {op : Operation} (hruns : m.Runs op) (hop : op.transfers = false)
    (hwait : op ≠ .waitKey) : ¬ m.Diverts c := by
  rintro (⟨other, htransfers, hother⟩ | ⟨hother, -⟩)
  · rw [← hruns.unique hother, hop] at htransfers
    cases htransfers
  · exact hwait (hruns.unique hother)

theorem not_diverts_of_behind (h : 0xFFE < m.pc) : ¬ m.Diverts c := by
  rintro (⟨_, -, hruns⟩ | ⟨hruns, -⟩)
  · exact absurd hruns.1.2 (Int.not_le.mpr h)
  · exact absurd hruns.1.2 (Int.not_le.mpr h)

theorem cycle_advance (hwf : m.WellFormed) (hpc : 0 ≤ m.pc) (hstraight : ¬ m.Diverts c) :
    Advance m c := by
  have hout : Outcome m c.keys c.time c.random (m.cycleAt c) :=
    cycle_outcome c.keys c.time c.random hwf hpc
  generalize hr : m.cycleAt c = r at hout
  cases hout with
  | ended hend =>
    exact .ended hend (by rw [hr]) (by rw [hr, tick_pc])
  | unknown hin hnone =>
    have hnot : ¬ m.Skips c := fun ⟨op, hruns, _⟩ => hnone op hruns.2
    refine .next hin ?_ hnot (by rw [hr, taken_pc])
    rw [hr]
    rintro ⟨⟩
  | underflow hin hret hcalls =>
    exact absurd (.inl ⟨.ret, rfl, ⟨hpc, hin⟩, hret⟩) hstraight
  | @row op t hin hop hret hfigures =>
    have hruns : m.Runs op := ⟨⟨hpc, hin⟩, hop⟩
    have htransfers : op.transfers = false := by
      cases htrue : op.transfers with
      | false => rfl
      | true => exact absurd (.inl ⟨op, htrue, hruns⟩) hstraight
    have hwait : op = .waitKey → c.keys.last ≠ none := by
      rintro rfl hnone
      exact hstraight (.inr ⟨hruns, hnone⟩)
    have hmoved : t.pc = m.pc + 2 + if (m.figures.take c.keys m.word).skips op then 2 else 0 := by
      -- the tick moves the timers, and neither the place nor a skip depends on them
      obtain ⟨_, _, _, htick⟩ := m.figures.tick_eq c.time
      rw [← figures_pc, hfigures, Figures.row_pc_eq _ htransfers hwait, htick]
      rfl
    have hanswer : (m.cycleAt c).2 ≠ .error .endOfProgram := by
      rw [hr]
      rintro ⟨⟩
    by_cases hskips : m.Skips c
    · rw [if_pos ((skips_iff hruns).mp hskips)] at hmoved
      exact .skip hin hanswer hskips (by rw [hr, hmoved]; omega)
    · rw [if_neg (mt (skips_iff hruns).mpr hskips)] at hmoved
      exact .next hin hanswer hskips (by rw [hr, hmoved]; omega)

theorem refused_of_straight (hwf : m.WellFormed) (hpc : 0 ≤ m.pc) (hstraight : ¬ m.Diverts c)
    {f : Fault} (h : (m.cycleAt c).2 = .error f) :
    f = .endOfProgram ∨ ∃ i a, f = .unknownInstruction i a := by
  rcases cycle_error c.keys c.time c.random hwf hpc h with
    ⟨-, rfl⟩ | ⟨-, -, rfl⟩ | ⟨hin, hword, -, -⟩
  · exact .inl rfl
  · exact .inr ⟨_, _, rfl⟩
  · have hret := (Operation.owns_ret_iff m.word_lt).mpr hword
    exact absurd (.inl ⟨.ret, rfl, ⟨hpc, hin⟩, hret⟩) hstraight

end Cycle

/-! ## Runs -/

/-- No cycle of a run diverts. -/
def GoesStraight : Machine → List Moment → Prop := Throughout fun t c => ¬ t.Diverts c

/-- No cycle of a run skips a word. -/
def NeverSkips : Machine → List Moment → Prop := Throughout fun t c => ¬ t.Skips c

section Run

variable {m : Machine} {ms : List Moment}

theorem wellFormed_after (hwf : m.WellFormed) (hpc : 0 ≤ m.pc) (hstraight : m.GoesStraight ms) :
    (m.after ms).WellFormed ∧ m.pc ≤ (m.after ms).pc := by
  induction ms using List.reverseRecOn with
  | nil => exact ⟨hwf, Int.le_refl _⟩
  | append_singleton ms c ih =>
    obtain ⟨hwf', hle⟩ := ih hstraight.left
    have hpc' : 0 ≤ (m.after ms).pc := by omega
    rw [after_concat]
    refine ⟨wellFormed_cycle c.keys c.time c.random hwf' hpc', ?_⟩
    cases cycle_advance hwf' hpc' hstraight.last with
    | ended _ _ hmoved => omega
    | next _ _ _ hmoved => omega
    | skip _ _ _ hmoved => omega

theorem advanced_or_behind (hwf : m.WellFormed) (hpc : 0 ≤ m.pc) (hstraight : m.GoesStraight ms) :
    m.pc + 2 * ms.length ≤ (m.after ms).pc ∨ 0xFFE < (m.after ms).pc := by
  induction ms using List.reverseRecOn with
  | nil => exact .inl (Int.le_of_eq (Int.add_zero m.pc))
  | append_singleton ms c ih =>
    have hfar := ih hstraight.left
    obtain ⟨hwf', hle⟩ := wellFormed_after hwf hpc hstraight.left
    rw [after_concat, List.length_append, List.length_singleton]
    cases cycle_advance hwf' (by omega) hstraight.last with
    | ended hend _ hmoved => omega
    | next _ _ _ hmoved => omega
    | skip _ _ _ hmoved => omega

theorem pc_after_le (hwf : m.WellFormed) (hpc : 0 ≤ m.pc) (hstraight : m.GoesStraight ms)
    (hskips : m.NeverSkips ms) : (m.after ms).pc ≤ m.pc + 2 * ms.length := by
  induction ms using List.reverseRecOn with
  | nil => exact Int.le_of_eq (Int.add_zero m.pc).symm
  | append_singleton ms c ih =>
    have hnear := ih hstraight.left hskips.left
    obtain ⟨hwf', hle⟩ := wellFormed_after hwf hpc hstraight.left
    rw [after_concat, List.length_append, List.length_singleton]
    cases cycle_advance hwf' (by omega) hstraight.last with
    | ended _ _ hmoved => omega
    | next _ _ _ hmoved => omega
    | skip _ _ hskip _ => exact absurd hskip hskips.last

end Run

/-- **Straight lines end.** If no cycle of a run jumps, calls, returns or waits for a key in vain,
then each cycle moves the program counter by one word, or by two if it skips, until there is no word
left. There are no more such cycles than words from the first on, and exactly as many if none of
them skips. What the program writes into its own words makes no difference. -/
theorem straight_lines_end {m : Machine} {ms : List Moment} (hwf : m.WellFormed)
    (hpc : 0 ≤ m.pc ∧ m.pc ≤ 0x1000) (hstraight : m.GoesStraight ms) :
    ∀ before c later, ms = before ++ c :: later →
      let t := m.after before
      let u := t.cycleAt c
      (∀ f, u.2 = .error f → f = .endOfProgram ∨ ∃ i a, f = .unknownInstruction i a) ∧
      (u.2 ≠ .error .endOfProgram →
        ¬ t.Skips c ∧ u.1.pc = t.pc + 2 ∨ t.Skips c ∧ u.1.pc = t.pc + 4) ∧
      (u.2 = .error .endOfProgram → u.1.pc = t.pc) ∧
      ((0x1000 - m.pc) / 2 ≤ before.length → u.2 = .error .endOfProgram) ∧
      (m.NeverSkips before →
        (u.2 = .error .endOfProgram ↔ (0x1000 - m.pc) / 2 ≤ before.length)) := by
  rintro before c later rfl
  have hbefore : m.GoesStraight before := hstraight.left
  have hc : ¬ (m.after before).Diverts c := hstraight before c later rfl
  obtain ⟨hwf', hle⟩ := wellFormed_after hwf hpc.1 hbefore
  have hpc' : 0 ≤ (m.after before).pc := by omega
  have hfar := advanced_or_behind hwf hpc.1 hbefore
  have hadvance := cycle_advance hwf' hpc' hc
  have hend : ((m.after before).cycleAt c).2 = .error .endOfProgram ↔
      0xFFE < (m.after before).pc := cycle_eq_end_iff c.keys c.time c.random hwf' hpc'
  -- with a word for each cycle gone, the program counter is behind the last word; without skips it
  -- is not there any sooner
  refine ⟨fun f hf => refused_of_straight hwf' hpc' hc hf, fun hgoes => ?_, fun hends => ?_,
    fun hcount => hend.mpr (by omega), fun hskips => ?_⟩
  · cases hadvance with
    | ended _ hends _ => exact absurd hends hgoes
    | next _ _ hskip hmoved => exact .inl ⟨hskip, hmoved⟩
    | skip _ _ hskip hmoved => exact .inr ⟨hskip, hmoved⟩
  · cases hadvance with
    | ended _ _ hmoved => exact hmoved
    | next _ hgoes _ _ => exact absurd hends hgoes
    | skip _ hgoes _ _ => exact absurd hends hgoes
  · have hnear := pc_after_le hwf hpc.1 hbefore hskips
    rw [hend]
    omega

attribute [local instance] neZero_sixteen

/-- A machine in front of the last two words of memory. The first of them stores two registers over
the second, which is a jump back to the first. -/
def overwriting : Machine :=
  { (boot #[] 0).setReg 0 0x60 with
    memory := (Memory.zero 4096).overlay 0xFFC #[0xF1, 0x55, 0x1F, 0xFC]
    pc := 0xFFC
    index := 0xFFE }

theorem wellFormed_overwriting : overwriting.WellFormed := ⟨by decide, by decide, by decide⟩

theorem get_overwriting {a : Fin 4096} {b : UInt8} (hstart : 0xFFC ≤ a.val)
    (hb : (#[0xF1, 0x55, 0x1F, 0xFC] : Array UInt8)[a.val - 0xFFC]? = some b) :
    overwriting.memory.get a = b := by
  show ((Memory.zero 4096).overlay 0xFFC #[0xF1, 0x55, 0x1F, 0xFC]).get a = b
  rw [Memory.get_overlay, if_neg (Nat.not_lt.mpr hstart), hb]
  rfl

theorem word_overwriting : overwriting.word = 0xF155 := by
  have hhigh : overwriting.peek overwriting.pc = 0xF1 :=
    get_overwriting (a := wrap 0xFFC) (by decide) (by decide)
  have hlow : overwriting.peek (overwriting.pc + 1) = 0x55 :=
    get_overwriting (a := wrap 0xFFD) (by decide) (by decide)
  rw [word, hhigh, hlow]
  rfl

theorem runs_overwriting : overwriting.Runs .store := by
  refine ⟨by decide, ?_⟩
  rw [word_overwriting]
  exact ⟨rfl, trivial, rfl, rfl⟩

/-- The word stores registers 0 and 1. -/
theorem ram_stored {s : Figures} (hword : s.word = 0xF155) (hindex : s.index = 0xFFE)
    (random : Nat) :
    (s.row .store random).ram (wrap 0xFFE) = s.v 0 ∧
      (s.row .store random).ram (wrap 0xFFF) = s.v 1 := by
  have hx : s.x = 1 := by unfold Figures.x; rw [hword]; rfl
  have hfirst : s.behind (wrap 0xFFE) = 0 := by unfold Figures.behind; rw [hindex]; rfl
  have hsecond : s.behind (wrap 0xFFF) = 1 := by unfold Figures.behind; rw [hindex]; rfl
  constructor
  · show (if s.behind _ ≤ s.x then s.v (Fin.ofNat 16 (s.behind _)) else _) = _
    rw [hfirst, hx]
    rfl
  · show (if s.behind _ ≤ s.x then s.v (Fin.ofNat 16 (s.behind _)) else _) = _
    rw [hsecond, hx]
    rfl

/-- The jump has become an instruction that loads a byte. -/
theorem runs_overwritten (c : Moment) : (overwriting.cycleAt c).1.Runs .loadByte := by
  obtain ⟨t, hcycle, hfigures⟩ := cycle_row c.keys c.time c.random wellFormed_overwriting
    runs_overwriting.1 runs_overwriting.2 (fun h => by cases h)
  have ht : (overwriting.cycleAt c).1 = t := congrArg Prod.fst hcycle
  obtain ⟨delay, sound, lastTick, htick⟩ := overwriting.figures.tick_eq c.time
  rw [htick, word_overwriting] at hfigures
  obtain ⟨hzero, hone⟩ := ram_stored
    (s := ({ overwriting.figures with delay, sound, lastTick } : Figures).take c.keys 0xF155)
    rfl rfl c.random.toNat
  rw [← hfigures] at hzero hone
  have hhigh : (t.peek 0xFFE).toNat = 0x60 := hzero
  have hlow : (t.peek 0xFFF).toNat = 0 := hone
  have hpc : t.pc = 0xFFE := by
    rw [← figures_pc, hfigures]
    rfl
  have hword : t.word = 0x6000 := by
    rw [word, hpc, hhigh, show (0xFFE + 1 : Int) = 0xFFF from rfl, hlow]
  rw [ht]
  refine ⟨by rw [hpc]; decide, ?_⟩
  rw [hword]
  exact ⟨rfl, trivial, trivial, trivial⟩

/-- The program that would go around for ever goes straight on: it has written over its jump. -/
theorem straight_lines_end_overwriting :
    let c : Moment := ⟨.released, 0, 0⟩
    overwriting.GoesStraight [c, c, c] ∧
      ((overwriting.after [c]).cycleAt c).2 ≠ .error .endOfProgram ∧
      ((overwriting.after [c, c]).cycleAt c).2 = .error .endOfProgram := by
  intro c
  have hfirst : ¬ overwriting.Diverts c :=
    not_diverts_of_runs runs_overwriting rfl (by decide)
  have hsecond : ¬ (overwriting.cycleAt c).1.Diverts c :=
    not_diverts_of_runs (runs_overwritten c) rfl (by decide)
  have hskips : overwriting.NeverSkips [c] :=
    throughout_cons (fun h => by cases (skips_iff runs_overwriting).mp h) throughout_nil
  have htwo : overwriting.GoesStraight [c, c] :=
    throughout_cons hfirst (throughout_cons hsecond throughout_nil)
  have hbehind : 0xFFE < ((overwriting.cycleAt c).1.cycleAt c).1.pc := by
    have hfar := advanced_or_behind wellFormed_overwriting (by decide) htwo
    rw [after_cons, after_cons, after_nil] at hfar
    rcases hfar with hfar | hend
    · exact lt_of_lt_of_le (by decide) hfar
    · exact hend
  have hstraight : overwriting.GoesStraight [c, c, c] :=
    throughout_cons hfirst (throughout_cons hsecond
      (throughout_cons (not_diverts_of_behind hbehind) throughout_nil))
  have hends := straight_lines_end wellFormed_overwriting (by decide) hstraight
  obtain ⟨-, -, -, -, hexact⟩ := hends [c] c [c] rfl
  obtain ⟨-, -, -, hatMost, -⟩ := hends [c, c] c [] rfl
  exact ⟨hstraight, mt (hexact hskips).mp (by decide), hatMost (by decide)⟩

end Machine
end ChipEight
