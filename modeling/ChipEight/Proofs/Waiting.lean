import ChipEight.Proofs.KeyDelivery
import ChipEight.Proofs.Redraws

/-!
# ChipEight.Proofs.Waiting

A program that waits for a key. It runs the same word at every cycle, and as long as no key goes down
nothing comes of it; keys that are held from before do not count, and keys may go up.

* `Machine.StandsStill`: nothing that a program can tell has changed, apart from the timers.
* `Machine.TakesKey`: a key has been taken, and the program has gone on.
* `Machine.cycle_waits`, `Machine.cycle_takes_key`: the two ways in which a cycle that waits goes.
* `Console.still_after`: waiting for any number of cycles.
* `Console.wait_for_key`: the first cycle behind a press takes the key and goes on.
-/

namespace ChipEight
namespace Machine

/-- The registers, the program and the place in it, the stack and the screen are the same. -/
structure StandsStill (m t : Machine) : Prop where
  v : t.v = m.v
  index : t.index = m.index
  pc : t.pc = m.pc
  calls : t.calls = m.calls
  memory : t.memory = m.memory
  screen : t.screen = m.screen

namespace StandsStill

variable {m t u : Machine}

theorem refl (m : Machine) : m.StandsStill m := ⟨rfl, rfl, rfl, rfl, rfl, rfl⟩

theorem trans (h : m.StandsStill t) (h' : t.StandsStill u) : m.StandsStill u :=
  ⟨h'.v.trans h.v, h'.index.trans h.index, h'.pc.trans h.pc, h'.calls.trans h.calls,
    h'.memory.trans h.memory, h'.screen.trans h.screen⟩

theorem word (h : m.StandsStill t) : t.word = m.word := by
  unfold Machine.word peek
  rw [h.memory, h.pc]

theorem fetched (h : m.StandsStill t) : t.fetched = m.fetched := by
  unfold Machine.fetched
  rw [h.word]

theorem reg (h : m.StandsStill t) (r : Fin 16) : t.reg r = m.reg r := by
  unfold Machine.reg
  rw [h.v]

theorem runs (h : m.StandsStill t) {op : Operation} (hruns : m.Runs op) : t.Runs op := by
  unfold Runs at hruns ⊢
  rw [h.pc, h.word]
  exact hruns

end StandsStill

/-- A key has gone to the register of the word, the place in the program to the next word, and
nothing else has changed. -/
structure TakesKey (m : Machine) (k : Key) (t : Machine) : Prop where
  target : t.reg m.fetched.x = UInt8.ofNat k
  others : ∀ r, r ≠ m.fetched.x → t.reg r = m.reg r
  pc : t.pc = m.pc + 2
  index : t.index = m.index
  calls : t.calls = m.calls
  memory : t.memory = m.memory
  screen : t.screen = m.screen

/-- To have stood still before makes no difference. -/
theorem StandsStill.takesKey {m t u : Machine} {k : Key} (h : m.StandsStill t)
    (h' : t.TakesKey k u) : m.TakesKey k u where
  target := by
    rw [← h.fetched]
    exact h'.target
  others r hr := by
    rw [← h.fetched] at hr
    exact (h'.others r hr).trans (h.reg r)
  pc := by rw [h'.pc, h.pc]
  index := h'.index.trans h.index
  calls := h'.calls.trans h.calls
  memory := h'.memory.trans h.memory
  screen := h'.screen.trans h.screen

section Cycle

variable {m : Machine} (keys : Keypad) (time : Float) (random : UInt8)

theorem not_redraws_of_waitKey (h : m.Runs .waitKey) : ¬ m.Redraws := by
  intro hredraws
  have hwait := (taken_operation_eq_iff .released 0 (by decide) h.1).mpr h
  have hop := (taken_redraws_iff .released 0 h.1).mpr hredraws
  rw [hwait] at hop
  cases hop

/-- A cycle that waits goes back to its word, or puts a key into its register. -/
theorem cycle_waitKey (h : m.Runs .waitKey) :
    ∃ r, m.cycle keys time random =
      ((m.taken keys time).awaitKey m.fetched.x, .ok r) ∧ r.screen = none := by
  have hop : (m.taken keys time).instruction.operation = .waitKey :=
    (taken_operation_eq_iff keys time (by decide) h.1).mpr h
  have hexec : (m.taken keys time).execute random =
      .ok ((m.taken keys time).awaitKey m.fetched.x) := by
    unfold execute
    simp only [hop]
    rfl
  obtain ⟨-, hscreen⟩ := cycle_keeps_screen keys time random (not_redraws_of_waitKey h)
  have hcycle := cycle_inside keys time h.1 random
  rw [hexec] at hcycle
  rw [hcycle] at hscreen
  exact ⟨_, hcycle, hscreen _ rfl⟩

theorem cycle_waits (h : m.Runs .waitKey) (hlast : keys.last = none) :
    m.StandsStill (m.cycle keys time random).1 := by
  obtain ⟨r, hcycle, -⟩ := cycle_waitKey keys time random h
  obtain ⟨_, _, _, htick⟩ := m.tick_eq time
  have hback : (m.taken keys time).awaitKey m.fetched.x =
      { m.taken keys time with pc := m.pc + 2 - 2 } := by
    have hnone : (m.taken keys time).keys.last = none := hlast
    unfold awaitKey
    rw [hnone, taken_pc]
  rw [hcycle, hback]
  unfold taken
  rw [htick]
  exact ⟨rfl, rfl, Int.add_sub_cancel m.pc 2, rfl, rfl, rfl⟩

theorem cycle_takes_key (h : m.Runs .waitKey) {k : Key} (hlast : keys.last = some k) :
    m.TakesKey k (m.cycle keys time random).1 := by
  obtain ⟨r, hcycle, -⟩ := cycle_waitKey keys time random h
  obtain ⟨_, _, _, htick⟩ := m.tick_eq time
  have htaken : (m.taken keys time).awaitKey m.fetched.x =
      (m.taken keys time).setReg m.fetched.x (UInt8.ofNat k) := by
    have hsome : (m.taken keys time).keys.last = some k := hlast
    unfold awaitKey
    rw [hsome]
  have hothers : ∀ r, (m.taken keys time).reg r = m.reg r := by
    intro r
    unfold taken
    rw [htick]
    rfl
  rw [hcycle, htaken]
  refine ⟨reg_setReg_same _ _ _, fun r hr => ?_, ?_, ?_, ?_, ?_, ?_⟩
  · rw [reg_setReg_other _ _ (Ne.symm hr), hothers]
  all_goals
    unfold taken
    rw [htick]
    rfl

end Cycle

end Machine

namespace Console

variable {c : Console}

theorem after_append (c : Console) (es fs : List Event) :
    c.after (es ++ fs) = (c.after es).after fs := List.foldl_append

/-! ## Waiting -/

/-- A cycle that waits asks nothing of the host but its buzzer, and the program goes on. -/
theorem cycle_goes_on (hruns : c.engine.machine.Runs .waitKey)
    (hclock : c.engine.clock.read.2.isOk = true) :
    c.cycle.2.2 = .ok true ∧ pixelCount c.cycle.2.1 = 0 := by
  obtain ⟨time, random, -, hanswer⟩ := Engine.cycle_of_isOk c.keys hclock
  obtain ⟨r, hcycle, hscreen⟩ := Machine.cycle_waitKey c.keys time random hruns
  rw [hcycle] at hanswer
  have hok : c.engine.cycle c.keys = ((c.engine.cycle c.keys).1, .ok r) := Prod.ext rfl hanswer
  have hsignals := (cycle_of_ok hok).2
  refine ⟨?_, ?_⟩
  · unfold cycle
    rw [hok]
  · rw [hsignals]
    exact (showReport_quiet hscreen).1

theorem still_cycle (hruns : c.engine.machine.Runs .waitKey) (hlast : c.keys.last = none) :
    c.engine.machine.StandsStill c.cycle.1.engine.machine := by
  rw [engine_cycle]
  rcases c.engine.machine_cycle c.keys with ⟨hmachine, -⟩ | ⟨time, random, hmachine, -⟩
  · rw [hmachine]
    exact .refl _
  · rw [hmachine]
    exact Machine.cycle_waits c.keys time random hruns hlast

/-- Without a press a console that waits goes on waiting. -/
theorem still_after (hruns : c.engine.machine.Runs .waitKey) (hlast : c.keys.last = none)
    (es : List Event) (hes : ∀ k, .press k ∉ es) :
    c.engine.machine.StandsStill (c.after es).engine.machine ∧ (c.after es).keys.last = none := by
  induction es using List.reverseRecOn with
  | nil => exact ⟨.refl _, hlast⟩
  | append_singleton es e ih =>
    obtain ⟨hstill, hnone⟩ := ih fun k hk => hes k (List.mem_append_left _ hk)
    rw [after_concat]
    cases e with
    | cycle =>
      refine ⟨hstill.trans (still_cycle (hstill.runs hruns) hnone), ?_⟩
      show (c.after es).cycle.1.keys.last = none
      rw [keys_cycle]
      rfl
    | refresh => exact ⟨hstill, hnone⟩
    | press k => exact absurd (List.mem_append_right _ List.mem_cons_self) (hes k)
    | release k => exact ⟨hstill, hnone⟩

/-! ## Key events -/

/-- The clock is read once in every cycle, and only there. -/
theorem clock_after (c : Console) (es : List Event) :
    (c.after es).engine.clock = (fun k => k.read.1)^[es.count .cycle] c.engine.clock := by
  induction es using List.reverseRecOn with
  | nil => rfl
  | append_singleton es e ih =>
    rw [after_concat, List.count_append]
    cases e with
    | cycle =>
      rw [List.count_singleton_self, Function.iterate_succ_apply', ← ih, ← Engine.clock_cycle,
        ← engine_cycle]
      rfl
    | refresh => exact ih
    | press k => exact ih
    | release k => exact ih

/-- Between two cycles the engine rests. -/
theorem engine_after_of_no_cycle (es : List Event) (h : .cycle ∉ es) :
    (c.after es).engine = c.engine := by
  induction es using List.reverseRecOn with
  | nil => rfl
  | append_singleton es e ih =>
    have hbefore := ih fun hmem => h (List.mem_append_left _ hmem)
    rw [after_concat, ← hbefore]
    cases e with
    | cycle => exact absurd (List.mem_append_right _ List.mem_cons_self) h
    | refresh => rfl
    | press k => rfl
    | release k => rfl

theorem last_after_press (before later : List Event) (k : Key) (hcycle : .cycle ∉ later)
    (hpress : ∀ j, .press j ∉ later) :
    (c.after (before ++ .press k :: later)).keys.last = some k := by
  induction later using List.reverseRecOn with
  | nil =>
    rw [after_concat]
    rfl
  | append_singleton later e ih =>
    have hearlier := ih (fun hmem => hcycle (List.mem_append_left _ hmem))
      fun j hmem => hpress j (List.mem_append_left _ hmem)
    rw [← List.cons_append, ← List.append_assoc, after_concat]
    cases e with
    | cycle => exact absurd (List.mem_append_right _ List.mem_cons_self) hcycle
    | refresh => exact hearlier
    | press j => exact absurd (List.mem_append_right _ List.mem_cons_self) (hpress j)
    | release j => exact hearlier

/-- **Waiting for a key.** A console is about to run the word that waits for a key, and no press is
pending. As long as no key goes down, every cycle for which the clock answers says that the program
goes on, and sends no pixel; the registers, the program, the place in it, the stack and the screen
stay as they are, after any number of cycles. The first cycle behind some presses puts the key of the
last of them into the register of the word and moves on to the next word, and nothing else changes. -/
theorem wait_for_key (hruns : c.engine.machine.Runs .waitKey) (hlast : c.keys.last = none)
    (quiet : List Event) (hquiet : ∀ k, .press k ∉ quiet) :
    let m := c.engine.machine
    (m.StandsStill (c.after quiet).engine.machine ∧
      m.StandsStill (c.after quiet).cycle.1.engine.machine ∧
      ((c.after quiet).engine.clock.read.2.isOk = true →
        (c.after quiet).cycle.2.2 = .ok true ∧ pixelCount (c.after quiet).cycle.2.1 = 0)) ∧
    ∀ (before later : List Event) (k : Key), .cycle ∉ before → .cycle ∉ later →
      (∀ j, .press j ∉ later) →
      let d := c.after (quiet ++ before ++ .press k :: later)
      d.engine.clock.read.2.isOk = true →
        d.cycle.2.2 = .ok true ∧ pixelCount d.cycle.2.1 = 0 ∧
          m.TakesKey k d.cycle.1.engine.machine := by
  intro m
  obtain ⟨hstill, hnone⟩ := still_after hruns hlast quiet hquiet
  have hwaits := hstill.runs hruns
  refine ⟨⟨hstill, hstill.trans (still_cycle hwaits hnone), cycle_goes_on hwaits⟩, ?_⟩
  intro before later k hbefore hlater hpress d hclock
  have hevents : .cycle ∉ before ++ .press k :: later := by
    simp [hbefore, hlater]
  have hd : d = (c.after quiet).after (before ++ .press k :: later) := by
    rw [← after_append, ← List.append_assoc]
  have hready : m.StandsStill d.engine.machine := by
    rw [hd, engine_after_of_no_cycle _ hevents]
    exact hstill
  have hnext := hready.runs hruns
  have hkey : d.keys.last = some k := last_after_press (quiet ++ before) later k hlater hpress
  obtain ⟨hgoes, hpixels⟩ := cycle_goes_on hnext hclock
  obtain ⟨time, random, hmachine, -⟩ := Engine.cycle_of_isOk d.keys hclock
  refine ⟨hgoes, hpixels, hready.takesKey ?_⟩
  rw [engine_cycle, hmachine]
  exact Machine.cycle_takes_key d.keys time random hnext hkey

attribute [local instance] neZero_sixteen in
/-- A console that waits with key 3 down from before. -/
def waitingHeld : Console := { waiting with keys := Keypad.forget (Keypad.released.press 3) }

/-- The key that is down is let go during the wait; of the two that go down behind it the second one
is taken. -/
theorem wait_for_key_held :
    waitingHeld.keys.isHeld 3 = true ∧
    let d := waitingHeld.after [.cycle, .release 3, .cycle, .press 3, .press 5, .release 5]
    d.engine.clock.read.2.isOk = true ∧ d.cycle.2.2 = .ok true ∧
      d.cycle.1.engine.machine.reg 0 = 5 ∧ d.cycle.1.engine.machine.pc = 0x202 := by
  have hword : waitingHeld.engine.machine.word = 0xF00A := by
    show (Machine.boot #[0xF0, 0x0A] 0).word = 0xF00A
    rw [Machine.word_boot (by decide) (by decide)]
    rfl
  have hruns : waitingHeld.engine.machine.Runs .waitKey := by
    unfold Machine.Runs
    rw [hword]
    exact ⟨by decide, rfl, trivial, rfl, rfl⟩
  have hx : waitingHeld.engine.machine.fetched.x = 0 := by
    unfold Machine.fetched
    rw [hword]
    rfl
  obtain ⟨-, hpressed⟩ := wait_for_key hruns rfl [.cycle, .release 3, .cycle] (by decide)
  have htake := hpressed [.press 3] [.release 5] 5 (by decide) (by decide) (by decide)
  simp only [List.cons_append, List.nil_append] at htake
  have hclock : (waitingHeld.after [.cycle, .release 3, .cycle, .press 3, .press 5, .release 5]
      ).engine.clock.read.2.isOk = true := by
    rw [clock_after]
    rfl
  obtain ⟨hgoes, -, htakes⟩ := htake hclock
  have hreg := htakes.target
  rw [hx] at hreg
  exact ⟨by decide, hclock, hgoes, hreg, htakes.pc⟩

end Console
end ChipEight
