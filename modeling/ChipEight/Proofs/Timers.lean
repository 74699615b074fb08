import ChipEight.Proofs.Noninterference

/-!
# ChipEight.Proofs.Timers

The two timers over a run. A timer is set by one operation and counted down by the ticks, and what
ticks is a matter of the readings of the clock alone.

* `ticks`, `lastTickAfter`: which of some readings tick, and when the last tick was. Neither knows of
  a machine.
* `timer_cycleAt`, `timer_of_runs`: one cycle, for a timer that it does not set and for one that it
  sets.
* `timer_after`: a timer over a run in which nothing sets it, by induction on the run.
* `timer_law`: both timers at every point of every run, cycles that are refused among them.
-/

namespace ChipEight

/-- One of the two timers. -/
inductive Timer where
  | delay
  | sound
deriving DecidableEq, Repr

/-- The operation that sets a timer. -/
def Timer.setter : Timer → Operation
  | .delay => .setDelay
  | .sound => .setSound

namespace Machine

/-! ## Readings -/

/-- Whether the timers count down at a reading. -/
def due (last time : Float) : Bool := time - last ≥ timerInterval

/-- The time of the last tick after a reading. -/
def lastTickAt (last time : Float) : Float := if due last time then time else last

/-- Which of some readings tick, the first of them first. -/
def ticks (last : Float) : List Float → List Bool
  | [] => []
  | time :: times => due last time :: ticks (lastTickAt last time) times

/-- The time of the last tick after some readings. -/
def lastTickAfter (last : Float) (times : List Float) : Float := times.foldl lastTickAt last

/-- Which cycles of a run tick, the first of them first. -/
def ticking (m : Machine) : List Moment → List Bool
  | [] => []
  | c :: ms => m.isDue c.time :: (m.cycleAt c).1.ticking ms

theorem ticking_append (m : Machine) (ms ns : List Moment) :
    m.ticking (ms ++ ns) = m.ticking ms ++ (m.after ms).ticking ns := by
  induction ms generalizing m with
  | nil => rfl
  | cons c ms ih => rw [List.cons_append, ticking, ticking, ih, after_cons, List.cons_append]

theorem length_ticking (m : Machine) (ms : List Moment) : (m.ticking ms).length = ms.length := by
  induction ms generalizing m with
  | nil => rfl
  | cons c ms ih => simp [ticking, ih]

/-! ## One cycle -/

def timer (m : Machine) : Timer → Int
  | .delay => m.delay
  | .sound => m.sound

@[simp] theorem timer_sound (m : Machine) : m.timer .sound = m.sound := rfl

/-- The byte that an instruction which sets a timer would copy to it. -/
def operand (m : Machine) : UInt8 := m.reg m.fetched.x

theorem timer_tick (m : Machine) (time : Float) (τ : Timer) :
    (m.tick time).timer τ = if m.isDue time then countDown (m.timer τ) else m.timer τ := by
  unfold tick
  cases τ <;> split <;> rfl

theorem lastTick_tick (m : Machine) (time : Float) :
    (m.tick time).lastTick = lastTickAt m.lastTick time := by
  unfold tick lastTickAt
  show (if due m.lastTick time then _ else m).lastTick = _
  split <;> rfl

theorem Kept.timer {op : Operation} {m t : Machine} (h : Kept op m t) (τ : Timer)
    (hop : op ≠ τ.setter) : t.timer τ = m.timer τ := by
  cases τ with
  | delay => exact h.delay hop
  | sound => exact h.sound hop

section Cycle

variable (m : Machine) (c : Moment) (τ : Timer)

/-- What became of the word is no matter for the last tick. -/
theorem lastTick_cycleAt : (m.cycleAt c).1.lastTick = lastTickAt m.lastTick c.time := by
  rw [← lastTick_tick]
  unfold cycleAt
  by_cases hin : 0 ≤ m.pc ∧ m.pc ≤ 0xFFE
  · rw [cycle_inside _ _ hin]
    cases hexec : (m.taken c.keys c.time).execute c.random with
    | ok t => exact (execute_kept hexec).lastTick
    | error f => rfl
  · rw [cycle_outside _ _ hin]

variable {m c τ}

/-- A cycle that does not set a timer leaves it to the tick, also if it is refused. -/
theorem timer_cycleAt (h : ¬ m.Runs τ.setter) :
    (m.cycleAt c).1.timer τ = (m.tick c.time).timer τ := by
  unfold cycleAt
  by_cases hin : 0 ≤ m.pc ∧ m.pc ≤ 0xFFE
  · have hop : (m.taken c.keys c.time).operation ≠ τ.setter := fun hop =>
      h ((taken_operation_eq_iff _ _ (by cases τ <;> decide) hin).mp hop)
    have htaken : (m.taken c.keys c.time).timer τ = (m.tick c.time).timer τ := by
      cases τ <;> rfl
    rw [cycle_inside _ _ hin]
    cases hexec : (m.taken c.keys c.time).execute c.random with
    | ok t => exact ((execute_kept hexec).timer τ hop).trans htaken
    | error f => exact htaken
  · rw [cycle_outside _ _ hin]

/-- The tick of a cycle comes before its own write, so the byte is left as it was written. -/
theorem timer_of_runs (h : m.Runs τ.setter) :
    (m.cycleAt c).1.timer τ = m.operand.toNat ∧ ∃ r, (m.cycleAt c).2 = .ok r := by
  have hop := (taken_operation_eq_iff c.keys c.time (by cases τ <;> decide) h.1).mpr h
  have hreg : (m.taken c.keys c.time).reg m.fetched.x = m.operand := by
    obtain ⟨_, _, _, ht⟩ := m.tick_eq c.time
    unfold taken
    rw [ht]
    rfl
  unfold cycleAt
  rw [cycle_inside _ _ h.1]
  unfold operation at hop
  unfold execute
  cases τ with
  | delay =>
    simp only [hop, Timer.setter]
    exact ⟨congrArg (fun b : UInt8 => (b.toNat : Int)) hreg, _, rfl⟩
  | sound =>
    simp only [hop, Timer.setter]
    exact ⟨congrArg (fun b : UInt8 => (b.toNat : Int)) hreg, _, rfl⟩

end Cycle

/-! ## Runs -/

theorem ticking_eq_ticks (m : Machine) (ms : List Moment) :
    m.ticking ms = ticks m.lastTick (ms.map Moment.time) := by
  induction ms generalizing m with
  | nil => rfl
  | cons c ms ih =>
    rw [ticking, ih, lastTick_cycleAt]
    rfl

theorem lastTick_after (m : Machine) (ms : List Moment) :
    (m.after ms).lastTick = lastTickAfter m.lastTick (ms.map Moment.time) := by
  induction ms generalizing m with
  | nil => rfl
  | cons c ms ih =>
    rw [after_cons, ih, lastTick_cycleAt]
    rfl

theorem never_cons {m : Machine} {op : Operation} {c : Moment} {ms : List Moment} :
    m.Never op (c :: ms) ↔ ¬ m.Runs op ∧ (m.cycleAt c).1.Never op ms := by
  unfold Never Runs
  rw [words]
  by_cases hin : 0 ≤ m.pc ∧ m.pc ≤ 0xFFE
  · simp [hin]
  · simp [hin]

/-- Each tick takes one off, and nothing goes below zero. -/
theorem timer_after {m : Machine} {τ : Timer} {ms : List Moment} (h : 0 ≤ m.timer τ)
    (hnever : m.Never τ.setter ms) :
    (m.after ms).timer τ = max 0 (m.timer τ - (m.ticking ms).count true) := by
  induction ms generalizing m with
  | nil =>
    show m.timer τ = max 0 (m.timer τ - 0)
    omega
  | cons c ms ih =>
    obtain ⟨hruns, hrest⟩ := never_cons.mp hnever
    have hfirst : (m.cycleAt c).1.timer τ =
        if m.isDue c.time then max 0 (m.timer τ - 1) else m.timer τ := by
      rw [timer_cycleAt hruns, timer_tick, countDown_eq h]
    rw [after_cons, ticking, List.count_cons]
    cases hdue : m.isDue c.time with
    | true =>
      rw [hdue, if_pos rfl] at hfirst
      rw [ih (by omega) hrest, hfirst]
      simp only [BEq.rfl, if_true]
      omega
    | false =>
      rw [hdue, if_neg (by decide)] at hfirst
      rw [ih (by omega) hrest, hfirst]
      simp

/-- **The law of the timers.** Which cycles of a run tick, and when the last tick was, follows from
the time of the last tick before the run and the readings of the clock. At every point a timer is
what was last written to it less the number of ticks since, or zero; if nothing was written to it,
its value before the run counts as written. The buzzer of a cycle that answers sounds exactly if the
sound timer that the cycle leaves is not zero. -/
theorem timer_law {m : Machine} (hwf : m.WellFormed) (ms : List Moment) :
    m.ticking ms = ticks m.lastTick (ms.map Moment.time) ∧
      (m.after ms).lastTick = lastTickAfter m.lastTick (ms.map Moment.time) ∧
      (∀ τ : Timer,
        (m.Never τ.setter ms →
          (m.after ms).timer τ = max 0 (m.timer τ - (m.ticking ms).count true)) ∧
        ∀ before c later, ms = before ++ c :: later → (m.after before).Runs τ.setter →
          (m.after (before ++ [c])).Never τ.setter later →
          (m.after ms).timer τ = max 0 (((m.after before).operand.toNat : Int) -
            ((m.ticking ms).drop (before.length + 1)).count true)) ∧
      ∀ c r, ((m.after ms).cycleAt c).2 = .ok r →
        r.beep = decide (0 < (m.after (ms ++ [c])).sound) := by
  refine ⟨m.ticking_eq_ticks ms, m.lastTick_after ms, fun τ => ⟨timer_after ?_, ?_⟩, ?_⟩
  · cases τ with
    | delay => exact hwf.delay.1
    | sound => exact hwf.sound.1
  · rintro before c later rfl hruns hnever
    obtain ⟨hset, -⟩ := timer_of_runs (c := c) hruns
    rw [← after_concat] at hset
    have hticking : (m.ticking (before ++ c :: later)).drop (before.length + 1) =
        (m.after (before ++ [c])).ticking later := by
      rw [List.append_cons, ticking_append, List.drop_left']
      rw [length_ticking, List.length_append, List.length_singleton]
    rw [hticking, List.append_cons, after_append, timer_after (by omega) hnever, hset]
  · intro c r hr
    rw [after_concat]
    have hexec := (cycle_eq_ok c.keys c.time hr).1
    unfold cycleAt at hr ⊢
    rw [cycle_inside _ _ hexec] at hr ⊢
    cases hok : ((m.after ms).taken c.keys c.time).execute c.random with
    | ok t =>
      rw [hok] at hr
      cases hr
      rfl
    | error f => rw [hok] at hr; cases hr

/-- Behind the last word of memory nothing is executed any more. -/
theorem never_behind {m : Machine} (h : 0xFFE < m.pc) (op : Operation) (ms : List Moment) :
    m.Never op ms := by
  induction ms generalizing m with
  | nil =>
    intro w hw
    cases hw
  | cons c ms ih =>
    refine never_cons.mpr ⟨fun hruns => ?_, ih ?_⟩
    · have hin := hruns.1.2
      omega
    · unfold cycleAt
      rw [cycle_end _ _ _ h, tick_pc]
      exact h

attribute [local instance] neZero_sixteen

/-- A machine that is about to set its sound timer to two, with the last word of memory. -/
def humming : Machine :=
  { (((boot #[] 0).poke 0xFFE 0xF5).poke 0xFFF 0x18).setReg 5 2 with pc := 0xFFE }

theorem word_humming : humming.word = 0xF518 := by
  have hhigh : humming.peek humming.pc = 0xF5 := by
    show ((_ : Memory 4096).put (wrap 0xFFF) 0x18).get (wrap 0xFFE) = 0xF5
    rw [Memory.get_put_other _ _ (by decide)]
    exact Memory.get_put_same _ _ _
  have hlow : humming.peek (humming.pc + 1) = 0x18 := Memory.get_put_same _ _ _
  rw [word, hhigh, hlow]
  rfl

theorem runs_humming : humming.Runs .setSound := by
  refine ⟨by decide, ?_⟩
  rw [word_humming]
  exact ⟨rfl, trivial, rfl, rfl⟩

theorem wellFormed_humming : humming.WellFormed := ⟨by decide, by decide, by decide⟩

theorem pc_hummed (keys : Keypad) (time : Float) (random : UInt8) :
    (humming.cycle keys time random).1.pc = 0x1000 := by
  obtain ⟨t, hcycle, hfigures⟩ := cycle_row keys time random wellFormed_humming runs_humming.1
    runs_humming.2 (fun h => by cases h)
  rw [hcycle, ← figures_pc, hfigures, word_humming]
  unfold Figures.tick
  split <;> rfl

/-- The byte is written after the first tick, and of the two cycles that are refused then one
ticks. -/
theorem timer_law_humming :
    humming.WellFormed ∧
      humming.ticking [⟨.released, 1, 0⟩, ⟨.released, 1.001, 0⟩, ⟨.released, 2, 0⟩] =
        [true, false, true] ∧
      (humming.after [⟨.released, 1, 0⟩, ⟨.released, 1.001, 0⟩, ⟨.released, 2, 0⟩]).sound = 1 := by
  obtain ⟨hticks, -, htimers, -⟩ := timer_law wellFormed_humming
    [⟨.released, 1, 0⟩, ⟨.released, 1.001, 0⟩, ⟨.released, 2, 0⟩]
  have hticking : humming.ticking
      [⟨.released, 1, 0⟩, ⟨.released, 1.001, 0⟩, ⟨.released, 2, 0⟩] = [true, false, true] := by
    rw [hticks]
    exact (by decide : ticks 0 [1, 1.001, 2] = [true, false, true])
  have hoperand : humming.operand = 2 := by
    unfold operand fetched
    rw [word_humming]
    rfl
  have hsound := (htimers .sound).2 [] _ _ rfl runs_humming
    (never_behind (by rw [List.nil_append, after_single, pc_hummed]; decide) _ _)
  rw [hticking, after_nil, hoperand, timer_sound] at hsound
  exact ⟨wellFormed_humming, hticking, hsound⟩

end Machine
end ChipEight
