import Mathlib.Data.List.Induction
import ChipEight.Proofs.Faults
import ChipEight.Proofs.Histories
import ChipEight.Proofs.Timers

/-!
# ChipEight.Proofs.UnknownWords

A console in front of a word of no row, and what its setting for such words is good for.

* `Console.MeetsUnknown`: the next cycle takes up a word of no row. No other cycle is refused for
  that reason (`Console.meetsUnknown_of_refused`).
* `Console.cycle_skips`, `Console.cycle_halts`: the cycle under either setting. It leaves the same
  console, but for the setting; what it sends and what it answers differ.
* `Console.cycle_setSkip`: every other cycle does not look at the setting.
* `Console.unknown_words`: both, for single cycles and for histories.
-/

namespace ChipEight

namespace Machine

variable {m : Machine}

theorem unknown_of_execute {random : UInt8} {i : Instruction} {a : Int}
    (h : m.execute random = .error (.unknownInstruction i a)) : m.operation = .unknown := by
  unfold operation
  unfold execute at h
  dsimp only at h
  cases hop : m.instruction.operation <;> rw [hop] at h <;> dsimp only at h
  case ret =>
    unfold returnBack at h
    split at h <;> cases h
  case call =>
    unfold callTo at h
    split at h <;> cases h
  case readDelay =>
    unfold readDelay at h
    split at h <;> cases h
  case decimal =>
    unfold writeDecimal at h
    split at h <;> cases h
  all_goals cases h

theorem unknown_of_cycle {keys : Keypad} {time : Float} {random : UInt8} {i : Instruction} {a : Int}
    (h : (m.cycle keys time random).2 = .error (.unknownInstruction i a)) :
    (0 ≤ m.pc ∧ m.pc ≤ 0xFFE) ∧ ∀ op : Operation, ¬ op.Owns m.word := by
  by_cases hin : 0 ≤ m.pc ∧ m.pc ≤ 0xFFE
  · rw [cycle_inside keys time hin] at h
    cases hexec : (m.taken keys time).execute random with
    | ok t =>
      rw [hexec] at h
      cases h
    | error f =>
      rw [hexec] at h
      cases h
      have hop : m.fetched.operation = .unknown := unknown_of_execute hexec
      refine ⟨hin, ?_⟩
      rw [← raw_fetched]
      exact Instruction.operation_eq_unknown_iff.mp hop
  · rw [cycle_outside keys time hin] at h
    cases h

end Machine

namespace Console

/-! ## The setting -/

/-- A console that skips unknown words, or halts at them. -/
def setSkip (c : Console) (skip : Bool) : Console := { c with skipUnknown := skip }

/-- The next cycle takes up a word of no row. -/
def MeetsUnknown (c : Console) : Prop :=
  c.fetches = true ∧ ∀ op : Operation, ¬ op.Owns c.engine.machine.word

section Cycle

variable {c : Console}

theorem exists_read (h : c.fetches = true) :
    (∃ clock time, c.engine.clock.read = (clock, .ok time)) ∧
      0 ≤ c.engine.machine.pc ∧ c.engine.machine.pc ≤ 0xFFE := by
  unfold fetches at h
  rw [Bool.and_eq_true, decide_eq_true_eq] at h
  obtain ⟨hclock, hin⟩ := h
  refine ⟨?_, hin⟩
  rcases hread : c.engine.clock.read with ⟨clock, f | time⟩
  · rw [hread] at hclock
    cases hclock
  · exact ⟨clock, time, rfl⟩

theorem engine_cycle_unknown (h : c.MeetsUnknown) {clock : Clock} {time : Float}
    (hread : c.engine.clock.read = (clock, .ok time)) :
    c.engine.cycle c.keys =
      (⟨c.engine.machine.taken c.keys time, clock, c.engine.dice⟩,
        .error (.machine (.unknownInstruction c.engine.machine.fetched
          (c.engine.machine.pc + 2)))) := by
  obtain ⟨hfetches, hnone⟩ := h
  obtain ⟨-, hin⟩ := exists_read hfetches
  -- only one row takes a random byte, and no row owns the word
  have hwants : c.engine.machine.wantsRandom = false := by
    unfold Machine.wantsRandom
    rw [Machine.fetch_inside hin, Option.any_some, Machine.fetched_unknown hnone]
    rfl
  unfold Engine.cycle
  rw [hread]
  dsimp only
  rw [hwants]
  unfold Engine.withDice
  dsimp only
  rw [Machine.cycle_unknown c.keys time _ hin hnone]
  rfl

theorem meetsUnknown_of_refused {i : Instruction} {a : Int}
    (h : (c.engine.cycle c.keys).2 = .error (.machine (.unknownInstruction i a))) :
    c.MeetsUnknown := by
  by_cases hclock : c.engine.clock.read.2.isOk = true
  · obtain ⟨time, random, -, hanswer⟩ := Engine.cycle_of_isOk c.keys hclock
    rw [hanswer] at h
    cases hcycle : (c.engine.machine.cycle c.keys time random).2 with
    | ok r =>
      rw [hcycle] at h
      cases h
    | error f =>
      rw [hcycle] at h
      cases h
      obtain ⟨hin, hnone⟩ := Machine.unknown_of_cycle hcycle
      refine ⟨?_, hnone⟩
      unfold fetches
      rw [hclock, decide_eq_true hin]
      rfl
  · obtain ⟨f, -, hanswer⟩ := Engine.cycle_of_not_isOk c.keys hclock
    rw [hanswer] at h
    cases h

/-- Where no unknown word is met, the setting is not looked at. -/
theorem cycle_setSkip (h : ¬ c.MeetsUnknown) (skip : Bool) :
    (c.setSkip skip).cycle = (c.cycle.1.setSkip skip, c.cycle.2.1, c.cycle.2.2) := by
  rcases hcycle : c.engine.cycle c.keys with ⟨e, f | r⟩
  · have hset : (c.setSkip skip).engine.cycle (c.setSkip skip).keys = (e, .error f) := hcycle
    unfold cycle
    rw [hcycle, hset]
    cases f with
    | clock f => rfl
    | machine f =>
      -- of all faults this one alone asks for the setting
      cases f with
      | unknownInstruction i a => exact absurd (meetsUnknown_of_refused (by rw [hcycle])) h
      | _ => rfl
  · have hset : (c.setSkip skip).engine.cycle (c.setSkip skip).keys = (e, .ok r) := hcycle
    unfold cycle
    rw [hcycle, hset]
    dsimp only
    unfold showReport
    cases r.screen <;> rfl

theorem cycle_skips (h : c.MeetsUnknown) {clock : Clock} {time : Float}
    (hread : c.engine.clock.read = (clock, .ok time)) :
    let t := c.engine.machine.taken c.keys time
    (c.setSkip true).cycle =
      ({ c.setSkip true with engine := ⟨t, clock, c.engine.dice⟩, keys := c.keys.forget },
        [.print (skipMessage (unknownReport t c.engine.machine.fetched (c.engine.machine.pc + 2))),
          .buzzer t.beeps], .ok true) := by
  have hcycle : (c.setSkip true).engine.cycle (c.setSkip true).keys = _ :=
    engine_cycle_unknown h hread
  unfold cycle
  rw [hcycle]
  rfl

theorem cycle_halts (h : c.MeetsUnknown) {clock : Clock} {time : Float}
    (hread : c.engine.clock.read = (clock, .ok time)) :
    let t := c.engine.machine.taken c.keys time
    (c.setSkip false).cycle =
      ({ c.setSkip false with engine := ⟨t, clock, c.engine.dice⟩, keys := c.keys.forget },
        [], .error (.halted (unknownReport t c.engine.machine.fetched
          (c.engine.machine.pc + 2)))) := by
  have hcycle : (c.setSkip false).engine.cycle (c.setSkip false).keys = _ :=
    engine_cycle_unknown h hread
  unfold cycle
  rw [hcycle]
  rfl

end Cycle

/-! ## Histories -/

/-- What an event answers. Only cycles do. -/
def answered (c : Console) : Event → List (Except Fault Bool)
  | .cycle => [c.cycle.2.2]
  | _ => []

/-- What the cycles of a history answer, the first of them first. -/
def answers (c : Console) (es : List Event) : List (Except Fault Bool) :=
  (c.steps es).flatMap fun s => s.1.answered s.2

/-- No cycle of a history meets an unknown word. -/
def Known (c : Console) (es : List Event) : Prop :=
  ∀ s ∈ c.steps es, s.2 = .cycle → ¬ s.1.MeetsUnknown

theorem answers_concat (c : Console) (es : List Event) (e : Event) :
    c.answers (es ++ [e]) = c.answers es ++ (c.after es).answered e := by
  simp [answers, steps_concat]

theorem known_concat {c : Console} {es : List Event} {e : Event} :
    c.Known (es ++ [e]) ↔ c.Known es ∧ (e = .cycle → ¬ (c.after es).MeetsUnknown) := by
  unfold Known
  rw [steps_concat, List.forall_mem_append, List.forall_mem_singleton]

theorem apply_setSkip {c : Console} {e : Event} (h : e = .cycle → ¬ c.MeetsUnknown)
    (skip : Bool) :
    (c.setSkip skip).apply e = ((c.apply e).1.setSkip skip, (c.apply e).2) := by
  cases e with
  | cycle =>
    unfold apply
    dsimp only
    rw [cycle_setSkip (h rfl)]
  | refresh => rfl
  | press k => rfl
  | release k => rfl

theorem answered_setSkip {c : Console} {e : Event} (h : e = .cycle → ¬ c.MeetsUnknown)
    (skip : Bool) : (c.setSkip skip).answered e = c.answered e := by
  cases e with
  | cycle =>
    unfold answered
    dsimp only
    rw [cycle_setSkip (h rfl)]
  | refresh => rfl
  | press k => rfl
  | release k => rfl

section History

variable {c : Console} {es : List Event}

theorem after_setSkip (h : c.Known es) (skip : Bool) :
    (c.setSkip skip).after es = (c.after es).setSkip skip := by
  induction es using List.reverseRecOn with
  | nil => rfl
  | append_singleton es e ih =>
    obtain ⟨hbefore, hlast⟩ := known_concat.mp h
    rw [after_concat, after_concat, ih hbefore, apply_setSkip hlast]

theorem signals_setSkip (h : c.Known es) (skip : Bool) :
    (c.setSkip skip).signals es = c.signals es := by
  induction es using List.reverseRecOn with
  | nil => rfl
  | append_singleton es e ih =>
    obtain ⟨hbefore, hlast⟩ := known_concat.mp h
    rw [signals_concat, signals_concat, ih hbefore, after_setSkip hbefore, apply_setSkip hlast]

theorem answers_setSkip (h : c.Known es) (skip : Bool) :
    (c.setSkip skip).answers es = c.answers es := by
  induction es using List.reverseRecOn with
  | nil => rfl
  | append_singleton es e ih =>
    obtain ⟨hbefore, hlast⟩ := known_concat.mp h
    rw [answers_concat, answers_concat, ih hbefore, after_setSkip hbefore, answered_setSkip hlast]

end History

/-- **Unknown words.** A cycle that meets one takes it up, and apart from the timers that is all it
does to the machine; it draws nothing and forgets the last key. The console that skips says so and
goes on, with the buzzer as the sound timer has it. The console that halts answers with the same
report and leaves the buzzer alone. As long as no unknown word is met, the two do the same. -/
theorem unknown_words (c : Console) :
    (c.MeetsUnknown →
      ∃ clock time t, c.engine.clock.read = (clock, .ok time) ∧
        c.engine.machine.Refused c.keys .unknown t ∧
        (∀ τ : Timer, t.timer τ =
          if c.engine.machine.isDue time ∧ 0 < c.engine.machine.timer τ
          then c.engine.machine.timer τ - 1 else c.engine.machine.timer τ) ∧
        t.lastTick =
          (if c.engine.machine.isDue time then time else c.engine.machine.lastTick) ∧
        let report := (Machine.Fault.unknownInstruction c.engine.machine.fetched
          (c.engine.machine.pc + 2)).message ++ "\n" ++ t.dump
        let d := { c with engine := ⟨t, clock, c.engine.dice⟩, keys := c.keys.forget }
        (c.setSkip true).cycle =
          (d.setSkip true, [.print ("Skipping unknown instruction. " ++ report),
            .buzzer (decide (0 < t.sound))], .ok true) ∧
        (c.setSkip false).cycle = (d.setSkip false, [], .error (.halted report))) ∧
    ∀ es, c.Known es → ∀ skip,
      (c.setSkip skip).after es = (c.after es).setSkip skip ∧
        (c.setSkip skip).signals es = c.signals es ∧
        (c.setSkip skip).answers es = c.answers es := by
  refine ⟨fun h => ?_, fun es h skip =>
    ⟨after_setSkip h skip, signals_setSkip h skip, answers_setSkip h skip⟩⟩
  obtain ⟨⟨clock, time, hread⟩, -⟩ := exists_read h.1
  have hrefused := c.engine.machine.refused_taken c.keys time
  rw [Machine.fetched_unknown h.2] at hrefused
  refine ⟨clock, time, c.engine.machine.taken c.keys time, hread, hrefused, fun τ => ?_, ?_,
    cycle_skips h hread, cycle_halts h hread⟩
  · have htick : (c.engine.machine.taken c.keys time).timer τ =
        (c.engine.machine.tick time).timer τ := by
      cases τ <;> rfl
    rw [htick, Machine.timer_tick]
    unfold Machine.countDown
    by_cases hdue : c.engine.machine.isDue time = true
    · simp only [hdue, if_true, true_and]
    · simp only [hdue, if_false, false_and, Bool.false_eq_true]
  · exact c.engine.machine.lastTick_tick time

theorem meetsUnknown_puzzled : (switchedOn #[0xFF, 0xFF]).MeetsUnknown :=
  ⟨rfl, Machine.puzzled_unowned⟩

theorem known_calling : (switchedOn #[0x22, 0x02]).Known [.press 5, .cycle] := by
  have hcall : Operation.call.Owns Machine.caller.word := by
    rw [Machine.word_caller]
    exact ⟨rfl, trivial, trivial, trivial⟩
  intro s hs hcycle hmeets
  rcases List.mem_cons.mp hs with rfl | hs
  · cases hcycle
  · rw [List.mem_singleton.mp hs] at hmeets
    exact hmeets.2 .call hcall

/-- The program counter has moved past the word under both settings, and a press in front of a call
is no matter for either. -/
theorem unknown_words_puzzled :
    (∃ (report : String) (d : Console), d.engine.machine.pc = 0x202 ∧
      ((switchedOn #[0xFF, 0xFF]).setSkip true).cycle =
        (d.setSkip true, [.print ("Skipping unknown instruction. " ++ report), .buzzer false],
          .ok true) ∧
      ((switchedOn #[0xFF, 0xFF]).setSkip false).cycle =
        (d.setSkip false, [], .error (.halted report))) ∧
    ((switchedOn #[0x22, 0x02]).setSkip true).answers [.press 5, .cycle] =
      (switchedOn #[0x22, 0x02]).answers [.press 5, .cycle] := by
  obtain ⟨clock, time, t, hread, hrefused, htimers, -, hskips, hhalts⟩ :=
    (unknown_words (switchedOn #[0xFF, 0xFF])).1 meetsUnknown_puzzled
  have hsound : t.sound = 0 := by
    have h := htimers .sound
    rw [if_neg fun hdue => absurd hdue.2 (by decide)] at h
    exact h
  rw [hsound] at hskips
  exact ⟨⟨_, _, hrefused.pc, hskips, hhalts⟩,
    ((unknown_words (switchedOn #[0x22, 0x02])).2 _ known_calling true).2.2⟩

end Console
end ChipEight
