import ChipEight.Proofs.Histories

/-!
# ChipEight.Proofs.Redraws

What the host has been shown agrees with the screen of the machine. Only clearing and drawing change
the screen, and a cycle that does either sends every pixel of it.

* `Signal.litAt`, `lastLit`: what a list of signals says about a cell, the last word counting.
* `Mirrors`: the signals so far tell the screen. `mirrors_pixels` and `Mirrors.quiet` are its steps.
* `Machine.cycle_redraws`, `Machine.cycle_keeps_screen`: a cycle either hands out the screen that it
  leaves or leaves the screen alone.
* `host_sees_screen`: the signals of every history, and the flag that the next refresh sends.
-/

namespace ChipEight

/-! ## Signals about pixels -/

namespace Signal

def isPixel : Signal → Bool
  | .pixel _ _ => true
  | _ => false

/-- What a signal says about a cell. -/
def litAt (cell : Cell) : Signal → Option Bool
  | .pixel c lit => if c = cell then some lit else none
  | _ => none

theorem litAt_of_not_isPixel {s : Signal} (h : ¬ s.isPixel = true) (cell : Cell) :
    s.litAt cell = none := by
  cases s with
  | pixel c lit => exact absurd rfl h
  | _ => rfl

end Signal

/-- How many pixels a list of signals sends. -/
def pixelCount (signals : List Signal) : Nat := signals.countP Signal.isPixel

/-- The last that a list of signals says about a cell. -/
def lastLit (signals : List Signal) (cell : Cell) : Option Bool :=
  (signals.filterMap (Signal.litAt cell)).getLast?

theorem pixelCount_append (xs ys : List Signal) :
    pixelCount (xs ++ ys) = pixelCount xs + pixelCount ys := List.countP_append

theorem lastLit_append (xs ys : List Signal) (cell : Cell) :
    lastLit (xs ++ ys) cell = (lastLit ys cell).or (lastLit xs cell) := by
  unfold lastLit
  rw [List.filterMap_append, List.getLast?_append]

theorem lastLit_of_pixelCount_eq_zero {signals : List Signal} (h : pixelCount signals = 0)
    (cell : Cell) : lastLit signals cell = none := by
  have hnone : signals.filterMap (Signal.litAt cell) = [] :=
    List.filterMap_eq_nil_iff.mpr fun s hs =>
      Signal.litAt_of_not_isPixel (List.countP_eq_zero.mp h s hs) cell
  rw [lastLit, hnone]
  rfl

namespace Console

theorem pixelCount_pixels (s : Screen) : pixelCount (pixels s) = 2048 := by
  have hall : pixelCount (pixels s) = (pixels s).length :=
    List.countP_eq_length.mpr fun p hp => by
      obtain ⟨c, -, rfl⟩ := List.mem_map.mp hp
      rfl
  rw [hall, pixels, List.length_map]
  simp [Cell.all]

/-- Whatever a screen says about a cell is right, and it says something about each. -/
theorem lastLit_pixels (s : Screen) (cell : Cell) : lastLit (pixels s) cell = some (s.lit cell) := by
  have hsaid : s.lit cell ∈ (pixels s).filterMap (Signal.litAt cell) :=
    List.mem_filterMap.mpr
      ⟨.pixel cell (s.lit cell), List.mem_map_of_mem (Machine.mem_all cell), if_pos rfl⟩
  have hright : ∀ b ∈ (pixels s).filterMap (Signal.litAt cell), b = s.lit cell := by
    intro b hb
    obtain ⟨p, hp, hlit⟩ := List.mem_filterMap.mp hb
    obtain ⟨c, -, rfl⟩ := List.mem_map.mp hp
    by_cases hc : c = cell
    · rw [Signal.litAt, if_pos hc, hc] at hlit
      exact (Option.some.inj hlit).symm
    · rw [Signal.litAt, if_neg hc] at hlit
      cases hlit
  unfold lastLit
  cases hlast : ((pixels s).filterMap (Signal.litAt cell)).getLast? with
  | none =>
    rw [List.getLast?_eq_none_iff.mp hlast] at hsaid
    cases hsaid
  | some b => rw [hright b (List.mem_of_getLast? hlast)]

/-- The signals so far tell the screen: each cell was last told as it is. Without a pixel among them
the screen is blank. -/
structure Mirrors (signals : List Signal) (s : Screen) : Prop where
  blank : pixelCount signals = 0 → s = .blank
  lit : pixelCount signals ≠ 0 → ∀ cell, lastLit signals cell = some (s.lit cell)

theorem Mirrors.quiet {signals more : List Signal} {s : Screen} (h : Mirrors signals s)
    (hmore : pixelCount more = 0) : Mirrors (signals ++ more) s := by
  have hcount : pixelCount (signals ++ more) = pixelCount signals := by
    rw [pixelCount_append, hmore, Nat.add_zero]
  refine ⟨fun hzero => h.blank (hcount ▸ hzero), fun hne cell => ?_⟩
  rw [lastLit_append, lastLit_of_pixelCount_eq_zero hmore, Option.none_or]
  exact h.lit (hcount ▸ hne) cell

theorem mirrors_pixels (signals : List Signal) (s : Screen) : Mirrors (signals ++ pixels s) s := by
  constructor
  · intro hzero
    rw [pixelCount_append, pixelCount_pixels] at hzero
    omega
  · intro _ cell
    rw [lastLit_append, lastLit_pixels, Option.some_or]

end Console

/-! ## Cycles of the machine -/

namespace Machine

/-- The next cycle takes up the word that clears the screen, or one that draws on it. -/
def Redraws (m : Machine) : Prop :=
  (0 ≤ m.pc ∧ m.pc ≤ 0xFFE) ∧ (m.word = 0x00E0 ∨ m.word / 0x1000 = 0xD)

instance (m : Machine) : Decidable m.Redraws := inferInstanceAs (Decidable ((_ ∧ _) ∧ (_ ∨ _)))

section Cycle

variable {m : Machine} (keys : Keypad) (time : Float) (random : UInt8)

theorem redraws_iff : m.Redraws ↔ m.Runs .clearScreen ∨ m.Runs .draw := by
  unfold Redraws Runs
  rw [Operation.owns_clearScreen_iff m.word_lt, Operation.owns_draw_iff m.word_lt, and_or_left]

theorem taken_redraws_iff (hin : 0 ≤ m.pc ∧ m.pc ≤ 0xFFE) :
    (m.taken keys time).operation.redraws = true ↔ m.Redraws := by
  rw [redraws_iff, ← taken_operation_eq_iff keys time (by decide) hin,
    ← taken_operation_eq_iff keys time (by decide) hin, Operation.redraws, Bool.or_eq_true,
    beq_iff_eq, beq_iff_eq]

theorem taken_screen : (m.taken keys time).screen = m.screen := by
  obtain ⟨_, _, _, ht⟩ := m.tick_eq time
  show (m.tick time).screen = m.screen
  rw [ht]

/-- A cycle that redraws succeeds and hands out the screen that it leaves. -/
theorem cycle_redraws (h : m.Redraws) :
    ∃ beep, (m.cycle keys time random).2 =
      .ok ⟨some (m.cycle keys time random).1.screen, beep⟩ := by
  have hop := (taken_redraws_iff keys time h.1).mpr h
  have hexec : ∃ t, (m.taken keys time).execute random = .ok t := by
    rcases redraws_iff.mp h with hclear | hdraw
    · exact ⟨_, execute_clearScreen
        ((taken_operation_eq_iff keys time (by decide) h.1).mpr hclear) random⟩
    · exact ⟨_, execute_draw
        ((taken_operation_eq_iff keys time (by decide) h.1).mpr hdraw) random⟩
  obtain ⟨t, ht⟩ := hexec
  have hsame : t.operation = (m.taken keys time).operation :=
    congrArg Instruction.operation (execute_kept ht).instruction
  rw [cycle_inside keys time h.1, ht]
  refine ⟨t.beeps, ?_⟩
  show Except.ok t.report = _
  rw [report, hsame, if_pos hop]

/-- Any other cycle leaves the screen alone and hands out none. -/
theorem cycle_keeps_screen (h : ¬ m.Redraws) :
    (m.cycle keys time random).1.screen = m.screen ∧
      ∀ r, (m.cycle keys time random).2 = .ok r → r.screen = none := by
  by_cases hin : 0 ≤ m.pc ∧ m.pc ≤ 0xFFE
  · have hop : ¬ (m.taken keys time).operation.redraws = true :=
      fun hredraws => h ((taken_redraws_iff keys time hin).mp hredraws)
    rw [cycle_inside keys time hin]
    cases hexec : (m.taken keys time).execute random with
    | ok t =>
      have hkept := execute_kept hexec
      have hsame : t.operation = (m.taken keys time).operation :=
        congrArg Instruction.operation hkept.instruction
      refine ⟨?_, ?_⟩
      · show t.screen = m.screen
        rw [hkept.screen (fun hclear => hop (by rw [hclear]; rfl))
          (fun hdraw => hop (by rw [hdraw]; rfl)), taken_screen]
      · rintro r ⟨⟩
        show (if t.operation.redraws then some t.screen else none) = none
        rw [hsame, if_neg hop]
    | error f => exact ⟨taken_screen keys time, fun r hr => by cases hr⟩
  · rw [cycle_outside keys time hin]
    refine ⟨?_, fun r hr => by cases hr⟩
    obtain ⟨_, _, _, ht⟩ := m.tick_eq time
    show (m.tick time).screen = m.screen
    rw [ht]

end Cycle

end Machine

/-! ## Histories of a console -/

namespace Console

/-- An event is a cycle that executes the clearing of the screen or a draw. -/
def redraws (c : Console) (e : Event) : Bool :=
  decide (e = .cycle) && c.engine.clock.read.2.isOk && decide c.engine.machine.Redraws

/-- How many cycles of a history clear the screen or draw on it. -/
def redrawCount (c : Console) (es : List Event) : Nat :=
  (c.steps es).countP fun s => s.1.redraws s.2

section Step

variable {c : Console}

theorem redrawCount_concat (es : List Event) (e : Event) :
    c.redrawCount (es ++ [e]) =
      c.redrawCount es + if (c.after es).redraws e = true then 1 else 0 := by
  rw [redrawCount, steps_concat, List.countP_append, List.countP_singleton, redrawCount]

theorem pixelCount_listing : pixelCount c.listing = 0 := by
  unfold listing
  split <;> rfl

theorem cycle_of_ok {e : Engine} {r : Machine.Report} (h : c.engine.cycle c.keys = (e, .ok r)) :
    c.cycle.1 = (({ c with engine := e, keys := c.keys.forget } : Console).showReport r).1 ∧
      c.cycle.2.1 = (({ c with engine := e, keys := c.keys.forget } : Console).showReport r).2 := by
  unfold cycle
  rw [h]
  exact ⟨rfl, rfl⟩

/-- A cycle that redraws sends every pixel of the screen that it leaves, and nothing later about
any. -/
theorem apply_redraws {e : Event} (h : c.redraws e = true) :
    (c.apply e).1.changed = true ∧
      ∃ first last, (c.apply e).2 = first ++ pixels (c.apply e).1.engine.machine.screen ++ last ∧
        pixelCount first = 0 ∧ pixelCount last = 0 := by
  unfold redraws at h
  simp only [Bool.and_eq_true, decide_eq_true_eq] at h
  obtain ⟨⟨rfl, hclock⟩, hredraws⟩ := h
  show c.cycle.1.changed = true ∧ ∃ first last, c.cycle.2.1 =
    first ++ pixels c.cycle.1.engine.machine.screen ++ last ∧ _
  obtain ⟨time, random, hmachine, hanswer⟩ := Engine.cycle_of_isOk c.keys hclock
  obtain ⟨beep, hreport⟩ := Machine.cycle_redraws c.keys time random hredraws
  rw [hreport, ← hmachine] at hanswer
  obtain ⟨hconsole, hsignals⟩ := cycle_of_ok (Prod.ext rfl hanswer)
  rw [hsignals, engine_cycle, hconsole]
  exact ⟨rfl, _, [.buzzer beep], rfl, pixelCount_listing, rfl⟩

/-- A report without a screen is one without pixels. -/
theorem showReport_quiet {r : Machine.Report} (h : r.screen = none) :
    pixelCount (c.showReport r).2 = 0 ∧ (c.showReport r).1.changed = c.changed := by
  unfold showReport
  rw [h]
  dsimp only
  rw [pixelCount_append, pixelCount_listing]
  exact ⟨rfl, rfl⟩

theorem meetUnknown_quiet (i : Instruction) (pc : Int) :
    pixelCount (c.meetUnknown i pc).2.1 = 0 ∧ (c.meetUnknown i pc).1.changed = c.changed := by
  unfold meetUnknown
  dsimp only
  split <;> exact ⟨rfl, rfl⟩

theorem cycle_of_error {e : Engine} {f : Engine.Fault}
    (h : c.engine.cycle c.keys = (e, .error f)) :
    pixelCount c.cycle.2.1 = 0 ∧ c.cycle.1.changed = c.changed := by
  unfold cycle
  rw [h]
  dsimp only
  split
  · rename_i hok
    cases hok
  · exact ⟨rfl, rfl⟩
  · exact meetUnknown_quiet _ _
  · exact ⟨rfl, rfl⟩
  · exact ⟨rfl, rfl⟩

theorem cycle_quiet (h : ¬ c.redraws .cycle = true) :
    pixelCount c.cycle.2.1 = 0 ∧ c.cycle.1.changed = c.changed ∧
      c.cycle.1.engine.machine.screen = c.engine.machine.screen := by
  rw [engine_cycle]
  by_cases hclock : c.engine.clock.read.2.isOk = true
  · have hredraws : ¬ c.engine.machine.Redraws := by
      intro hredraws
      refine h ?_
      unfold redraws
      rw [hclock, decide_eq_true hredraws]
      rfl
    obtain ⟨time, random, hmachine, hanswer⟩ := Engine.cycle_of_isOk c.keys hclock
    obtain ⟨hscreen, hreport⟩ := Machine.cycle_keeps_screen c.keys time random hredraws
    rw [hmachine, hscreen]
    cases hcycle : (c.engine.machine.cycle c.keys time random).2 with
    | ok r =>
      rw [hcycle] at hanswer
      obtain ⟨hconsole, hsignals⟩ := cycle_of_ok (Prod.ext rfl hanswer)
      obtain ⟨hcount, hchanged⟩ := showReport_quiet (hreport r hcycle)
      rw [hsignals, hconsole]
      exact ⟨hcount, hchanged, rfl⟩
    | error f =>
      rw [hcycle] at hanswer
      obtain ⟨hcount, hchanged⟩ := cycle_of_error (Prod.ext rfl hanswer)
      exact ⟨hcount, hchanged, rfl⟩
  · obtain ⟨f, hmachine, hanswer⟩ := Engine.cycle_of_not_isOk c.keys hclock
    obtain ⟨hcount, hchanged⟩ := cycle_of_error (Prod.ext rfl hanswer)
    rw [hmachine]
    exact ⟨hcount, hchanged, rfl⟩

/-- Anything else sends no pixel and leaves the screen alone, and the flag stays up to the next
refresh. -/
theorem apply_quiet {e : Event} (h : ¬ c.redraws e = true) :
    pixelCount (c.apply e).2 = 0 ∧
      (c.apply e).1.engine.machine.screen = c.engine.machine.screen ∧
      (e ≠ .refresh → (c.apply e).1.changed = c.changed) := by
  cases e with
  | cycle =>
    obtain ⟨hcount, hchanged, hscreen⟩ := cycle_quiet h
    exact ⟨hcount, hscreen, fun _ => hchanged⟩
  | refresh => exact ⟨rfl, rfl, fun hne => absurd rfl hne⟩
  | press k => exact ⟨rfl, rfl, fun _ => rfl⟩
  | release k => exact ⟨rfl, rfl, fun _ => rfl⟩

theorem redraws_refresh : ¬ c.redraws .refresh = true := by
  unfold redraws
  simp

end Step

section History

variable {c : Console}

/-- Whatever has been sent before, the signals of a history go on telling the screen. -/
theorem mirrors_after {sent : List Signal} (h : Mirrors sent c.engine.machine.screen)
    (es : List Event) : Mirrors (sent ++ c.signals es) (c.after es).engine.machine.screen := by
  induction es using List.reverseRecOn with
  | nil =>
    rw [signals, steps, List.flatMap_nil, List.append_nil]
    exact h
  | append_singleton es e ih =>
    rw [signals_concat, after_concat, ← List.append_assoc]
    by_cases he : (c.after es).redraws e = true
    · obtain ⟨-, first, last, hsignals, -, hlast⟩ := apply_redraws he
      rw [hsignals, ← List.append_assoc, ← List.append_assoc]
      -- a whole screen has just been sent, so what was sent before does not matter
      exact (mirrors_pixels _ _).quiet hlast
    · obtain ⟨hcount, hscreen, -⟩ := apply_quiet he
      rw [hscreen]
      exact ih.quiet hcount

theorem pixelCount_signals (es : List Event) :
    pixelCount (c.signals es) = 2048 * c.redrawCount es := by
  induction es using List.reverseRecOn with
  | nil => rfl
  | append_singleton es e ih =>
    rw [signals_concat, redrawCount_concat, pixelCount_append, ih]
    by_cases he : (c.after es).redraws e = true
    · obtain ⟨-, first, last, hsignals, hfirst, hlast⟩ := apply_redraws he
      rw [if_pos he, hsignals, pixelCount_append, pixelCount_append, pixelCount_pixels, hfirst,
        hlast]
      omega
    · rw [if_neg he, (apply_quiet he).1, Nat.add_zero, Nat.add_zero]

theorem changed_after (hstart : c.changed = false) (es : List Event) :
    (c.after es).changed = true ↔
      Since (fun before e => (c.after before).redraws e = true) (· = .refresh) es := by
  refine since_iff_of_step (Q := fun es => (c.after es).changed = true) ?_ (fun es e => ?_) es
  · show ¬ c.changed = true
    simp [hstart]
  · rw [after_concat]
    by_cases he : (c.after es).redraws e = true
    · exact iff_of_true (apply_redraws he).1 (.inl he)
    · by_cases hrefresh : e = .refresh
      · -- a refresh lowers the flag, whether it was raised or not
        subst hrefresh
        have hlowered : ((c.after es).apply .refresh).1.changed = false := rfl
        simp [hlowered, he]
      · rw [(apply_quiet he).2.2 hrefresh]
        simp [he, hrefresh]

end History

theorem start_eq_ok {e : Engine} {live skipUnknown : Bool} {clockSpeed : Option Int} {c : Console}
    {sent : List Signal} (h : start e live skipUnknown clockSpeed = .ok (c, sent)) :
    c.engine = e ∧ c.changed = false ∧ pixelCount sent = 0 := by
  unfold start at h
  cases hinterval : intervalOf clockSpeed with
  | error f =>
    rw [hinterval] at h
    cases h
  | ok interval =>
    rw [hinterval] at h
    cases h
    exact ⟨rfl, rfl, rfl⟩

/-- **What the host was shown is the screen.** After any history of a console that is switched on
with a program, each cell was last sent as it is on the screen; if no pixel was sent at all, the
screen is blank. Every cycle that cleared the screen or drew on it has sent 2048 pixels, and nothing
else has sent any. The next refresh says that pixels have changed exactly if there was such a cycle
since the last refresh. -/
theorem host_sees_screen {program : Array UInt8} {clock : Clock} {dice : List UInt8} {e : Engine}
    {live skipUnknown : Bool} {clockSpeed : Option Int} {c : Console} {sent : List Signal}
    (hload : Engine.load? program clock dice = .ok e)
    (hstart : start e live skipUnknown clockSpeed = .ok (c, sent)) (es : List Event) :
    (pixelCount (sent ++ c.signals es) = 0 → (c.after es).engine.machine.screen = .blank) ∧
    (pixelCount (sent ++ c.signals es) ≠ 0 → ∀ cell : Cell,
      lastLit (sent ++ c.signals es) cell = some ((c.after es).engine.machine.screen.lit cell)) ∧
    pixelCount (sent ++ c.signals es) = 2048 * c.redrawCount es ∧
    ∃ changed, ((c.after es).apply .refresh).2 = [.refresh changed] ∧
      (changed = true ↔
        Since (fun before e => (c.after before).redraws e = true) (· = .refresh) es) := by
  obtain ⟨hengine, hchanged, hsent⟩ := start_eq_ok hstart
  obtain ⟨time, hmachine⟩ := Engine.machine_load hload
  have hblank : c.engine.machine.screen = .blank := by
    rw [hengine, Machine.load?_eq_ok hmachine]
    rfl
  have hmirrors := mirrors_after ⟨fun _ => hblank, fun hne => absurd hsent hne⟩ es
  refine ⟨hmirrors.blank, hmirrors.lit, ?_, (c.after es).changed, rfl, changed_after hchanged es⟩
  rw [pixelCount_append, hsent, pixelCount_signals, Nat.zero_add]

/-- A console whose program draws the first row of the first glyph. -/
def drawing : Console := switchedOn #[0xD0, 0x01]

theorem word_drawing : drawing.engine.machine.word = 0xD001 := by
  show (Machine.boot #[0xD0, 0x01] 0).word = 0xD001
  rw [Machine.word_boot (by decide) (by decide)]
  rfl

theorem redraws_drawing : drawing.redraws .cycle = true := by
  have hredraws : drawing.engine.machine.Redraws := ⟨by decide, .inr (by rw [word_drawing])⟩
  unfold redraws
  rw [decide_eq_true hredraws]
  rfl

theorem ram_boot (program : Array UInt8) (time : Float) (a : Fin 4096) :
    (Machine.boot program time).figures.ram a = ((Machine.image program).get a).toNat := by
  simp only [Machine.figures, Machine.boot]

theorem after_cycle (c : Console) : c.after [.cycle] = c.cycle.1 := rfl

/-- One row that is all lit on the left, drawn in the corner of a dark screen. -/
theorem lit_corner {s : Figures} (keys : Keypad) (random : Nat) (hram : s.ram 0 = 0xF0)
    (hindex : s.index = 0) (hv : s.v 0 = 0) (hlit : s.lit ⟨0, 0⟩ = false) :
    ((s.take keys 0xD001).row .draw random).lit ⟨0, 0⟩ = true := by
  have hsprite : (s.take keys 0xD001).sprite = [0xF0] := by
    simp [Figures.sprite, Figures.n, Figures.take, Figures.address, hindex, hram]
  have hx : (s.take keys 0xD001).x = 0 := by
    show Fin.ofNat 16 (0xD001 / 0x100) = 0
    decide
  have hy : (s.take keys 0xD001).y = 0 := by
    show Fin.ofNat 16 (0xD001 / 0x10) = 0
    decide
  have hdraws : (s.take keys 0xD001).Draws ⟨0, 0⟩ := by
    unfold Figures.Draws
    rw [hsprite, hx, hy]
    show Screen.Covers [0xF0] (s.v 0) (s.v 0) ⟨0, 0⟩
    rw [hv]
    decide
  show (s.lit ⟨0, 0⟩ ^^ decide ((s.take keys 0xD001).Draws ⟨0, 0⟩)) = true
  rw [decide_eq_true hdraws, hlit]
  rfl

theorem lit_drawing : (drawing.after [.cycle]).engine.machine.screen.lit ⟨0, 0⟩ = true := by
  have hwf : drawing.engine.machine.WellFormed := (Machine.bounded_boot _ _).toWellFormed
  have hop : Operation.draw.Owns drawing.engine.machine.word :=
    (Operation.owns_draw_iff (Machine.word_lt _)).mpr (by rw [word_drawing])
  have hclock : drawing.engine.clock.read.2.isOk = true := rfl
  obtain ⟨time, random, hmachine, -⟩ := Engine.cycle_of_isOk drawing.keys hclock
  obtain ⟨t, hcycle, hfigures⟩ := Machine.cycle_row drawing.keys time random hwf (by decide) hop
    (fun hret => by cases hret)
  have hram : drawing.engine.machine.figures.ram 0 = 0xF0 := by
    show (Machine.boot #[0xD0, 0x01] 0).figures.ram 0 = 0xF0
    rw [ram_boot]
    unfold Machine.image
    rw [Memory.get_overlay, if_pos (by decide), Memory.get_overlay, if_neg (by decide)]
    rfl
  have hindex : drawing.engine.machine.figures.index = 0 := rfl
  have hv : drawing.engine.machine.figures.v 0 = 0 := rfl
  have hlit : drawing.engine.machine.figures.lit ⟨0, 0⟩ = false := Screen.lit_blank _
  rw [after_cycle, engine_cycle, hmachine, hcycle]
  show t.figures.lit ⟨0, 0⟩ = true
  rw [hfigures, word_drawing]
  generalize drawing.engine.machine.figures = s at hram hindex hv hlit
  unfold Figures.tick
  split
  · exact lit_corner _ _ hram hindex hv hlit
  · exact lit_corner _ _ hram hindex hv hlit

/-- The signals of a console that is switched on. -/
def greeting : List Signal := [.resolution Screen.width Screen.height, .report 0 0]

/-- A draw sends the screen, with the corner lit. The next refresh says so, and the one behind it
does not say so again. -/
theorem host_sees_screen_drawing :
    start drawing.engine false false none = .ok (drawing, greeting) ∧
      lastLit (greeting ++ drawing.signals [.cycle]) ⟨0, 0⟩ = some true ∧
      pixelCount (greeting ++ drawing.signals [.cycle]) = 2048 ∧
      ((drawing.after [.cycle]).apply .refresh).2 = [.refresh true] ∧
      ((drawing.after [.cycle, .refresh]).apply .refresh).2 = [.refresh false] := by
  have hload : Engine.load? #[0xD0, 0x01] ⟨fun _ => .ok 0, 0, 10⟩ [] = .ok drawing.engine := rfl
  have hstart : start drawing.engine false false none = .ok (drawing, greeting) := rfl
  obtain ⟨-, hlit, hcount, changed, hfirst, hsince⟩ := host_sees_screen hload hstart [.cycle]
  obtain ⟨-, -, -, changed', hsecond, hsince'⟩ := host_sees_screen hload hstart [.cycle, .refresh]
  have hone : drawing.redrawCount [.cycle] = 1 := by
    simp [redrawCount, steps, redraws_drawing]
  rw [hone] at hcount
  have hraised : changed = true :=
    hsince.mpr ⟨[], .cycle, [], rfl, redraws_drawing, fun d hd => by cases hd⟩
  have hlowered : changed' = false := by
    rw [Bool.eq_false_iff]
    intro htrue
    have hhistory : Since _ _ ([Event.cycle] ++ [.refresh]) := hsince'.mp htrue
    rcases since_concat.mp hhistory with hredraws | ⟨hends, -⟩
    · exact redraws_refresh hredraws
    · exact hends rfl
  refine ⟨hstart, ?_, hcount, ?_, ?_⟩
  · rw [hlit (by rw [hcount]; decide), lit_drawing]
  · rw [hfirst, hraised]
  · rw [hsecond, hlowered]

end Console
end ChipEight
