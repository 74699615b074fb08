import Mathlib.Data.List.Induction
import ChipEight.Session.Progress
import ChipEight.Proofs.Effects

/-!
# ChipEight.Proofs.Histories

A console under any history of cycles, refreshes and key events, going on after cycles that failed.

* `Console.Event`, `Console.after`, `Console.signals`: histories, where they lead, and what they
  send to the host.
* `Since`: something has happened in a history, and nothing later has ended it. `since_concat` is
  its step. `LastOn`: the same for a switch that is set on or off.
* `Engine.cycle_of_isOk`: a cycle for which the clock answers is one of the machine.
* `keys_cycle`: however a cycle ends, the console forgets its last key and no other.
-/

namespace ChipEight

/-! ## Since -/

/-- An entry of a history has a property, together with what came before it, and nothing later ends
it. -/
def Since (P : List α → α → Prop) (ends : α → Prop) (es : List α) : Prop :=
  ∃ before e later, es = before ++ e :: later ∧ P before e ∧ ∀ d ∈ later, ¬ ends d

section Since

variable {P : List α → α → Prop} {ends : α → Prop}

theorem not_since_nil : ¬ Since P ends [] := by
  rintro ⟨before, e, later, h, -⟩
  cases before <;> cases h

/-- The last entry is what counts, or it ends nothing. -/
theorem since_concat {es : List α} {e : α} :
    Since P ends (es ++ [e]) ↔ P es e ∨ (¬ ends e ∧ Since P ends es) := by
  constructor
  · rintro ⟨before, d, later, hsplit, hP, hlater⟩
    -- what counts is the new entry itself, or it lies before it
    rcases List.eq_nil_or_concat later with rfl | ⟨later, b, rfl⟩
    · obtain ⟨rfl, hd⟩ := List.append_inj' hsplit rfl
      cases hd
      exact .inl hP
    · rw [List.concat_eq_append] at hsplit hlater
      rw [← List.cons_append, ← List.append_assoc] at hsplit
      obtain ⟨rfl, hb⟩ := List.append_inj' hsplit rfl
      cases hb
      refine .inr ⟨hlater e (by simp), before, d, later, rfl, hP, fun a ha => ?_⟩
      exact hlater a (List.mem_append_left _ ha)
  · rintro (hP | ⟨hends, before, d, later, rfl, hP, hlater⟩)
    · exact ⟨es, e, [], rfl, hP, fun d hd => by cases hd⟩
    · refine ⟨before, d, later ++ [e], by simp, hP, fun a ha => ?_⟩
      rcases List.mem_append.mp ha with ha | ha
      · exact hlater a ha
      · rw [List.mem_singleton.mp ha]
        exact hends

/-- What one more entry does to a property of histories decides when it holds. -/
theorem since_iff_of_step {Q : List α → Prop} (hnil : ¬ Q [])
    (hstep : ∀ es e, Q (es ++ [e]) ↔ P es e ∨ (¬ ends e ∧ Q es)) (es : List α) :
    Q es ↔ Since P ends es := by
  induction es using List.reverseRecOn with
  | nil => exact iff_of_false hnil not_since_nil
  | append_singleton es e ih => rw [hstep, ih, since_concat]

end Since

/-- A switch has been set in a history, and the last time it was set on. -/
def LastOn (set : Bool → α) (es : List α) : Prop :=
  Since (fun _ e => e = set true) (fun e => ∃ on, e = set on) es

section LastOn

variable {set : Bool → α} {es : List α}

theorem not_lastOn_nil : ¬ LastOn set [] := not_since_nil

theorem lastOn_concat {e : α} :
    LastOn set (es ++ [e]) ↔ e = set true ∨ ((∀ on, e ≠ set on) ∧ LastOn set es) := by
  unfold LastOn
  rw [since_concat, not_exists]

theorem lastOn_concat_of_ne {e : α} (h : ∀ on, e ≠ set on) :
    LastOn set (es ++ [e]) ↔ LastOn set es := by
  rw [lastOn_concat]
  simp [h]

theorem lastOn_concat_set {on : Bool} (h : set false ≠ set true) :
    LastOn set (es ++ [set on]) ↔ on = true := by
  rw [lastOn_concat]
  cases on <;> simp [h]

end LastOn

/-! ## Cycles of an engine -/

namespace Engine

variable {e : Engine} (keys : Keypad)

theorem clock_cycle (e : Engine) (keys : Keypad) : (e.cycle keys).1.clock = e.clock.read.1 := by
  unfold cycle
  rcases e.clock.read with ⟨clock, f | time⟩
  · rfl
  · rfl

theorem cycle_of_isOk (h : e.clock.read.2.isOk = true) :
    ∃ time random, (e.cycle keys).1.machine = (e.machine.cycle keys time random).1 ∧
      (e.cycle keys).2 = (e.machine.cycle keys time random).2.mapError .machine := by
  unfold cycle
  split
  · rename_i hread
    rw [hread] at h
    cases h
  · exact ⟨_, _, rfl, rfl⟩

theorem cycle_of_not_isOk (h : ¬ e.clock.read.2.isOk = true) :
    ∃ f, (e.cycle keys).1.machine = e.machine ∧ (e.cycle keys).2 = .error (.clock f) := by
  unfold cycle
  split
  · exact ⟨_, rfl, rfl⟩
  · rename_i hread
    rw [hread] at h
    exact absurd rfl h

end Engine

/-! ## Consoles -/

namespace Console

/-- What is done with a console. -/
inductive Event where
  | cycle
  | refresh
  | press (key : Key)
  | release (key : Key)
deriving DecidableEq, Repr

/-- The console after an event, and the signals to its host. What a cycle answers plays no part. -/
def apply (c : Console) : Event → Console × List Signal
  | .cycle => (c.cycle.1, c.cycle.2.1)
  | .refresh => c.refresh
  | .press k => ({ c with keys := c.keys.press k }, [])
  | .release k => ({ c with keys := c.keys.release k }, [])

/-- The console after a history of events, the first of them first. -/
def after (c : Console) (es : List Event) : Console := es.foldl (fun d e => (d.apply e).1) c

/-- The events of a history, each with the console that it meets. -/
def steps (c : Console) : List Event → List (Console × Event)
  | [] => []
  | e :: es => (c, e) :: (c.apply e).1.steps es

/-- The signals of a history to the host. -/
def signals (c : Console) (es : List Event) : List Signal :=
  (c.steps es).flatMap fun s => (s.1.apply s.2).2

theorem after_concat (c : Console) (es : List Event) (e : Event) :
    c.after (es ++ [e]) = ((c.after es).apply e).1 := List.foldl_append

theorem steps_concat (c : Console) (es : List Event) (e : Event) :
    c.steps (es ++ [e]) = c.steps es ++ [(c.after es, e)] := by
  induction es generalizing c with
  | nil => rfl
  | cons d es ih =>
    rw [List.cons_append, steps, ih]
    rfl

theorem signals_concat (c : Console) (es : List Event) (e : Event) :
    c.signals (es ++ [e]) = c.signals es ++ ((c.after es).apply e).2 := by
  simp [signals, steps_concat]

/-- The next cycle takes up a word: the clock answers, and the program counter points at one. -/
def fetches (c : Console) : Bool :=
  c.engine.clock.read.2.isOk && decide (0 ≤ c.engine.machine.pc ∧ c.engine.machine.pc ≤ 0xFFE)

/-- A console that has just been switched on with a program. Its clock stands still. -/
def switchedOn (program : Array UInt8) : Console where
  engine := ⟨.boot program 0, ⟨fun _ => .ok 0, 1, 9⟩, []⟩
  keys := .released
  live := false
  skipUnknown := false
  interval := none
  changed := false
  nextDisplay := 0
  nextReport := 0
  frames := 0
  operations := 0

section Cycle

variable (c : Console)

theorem keys_showReport (r : Machine.Report) : (c.showReport r).1.keys = c.keys := by
  unfold showReport
  split <;> rfl

theorem keys_meetUnknown (i : Instruction) (pc : Int) : (c.meetUnknown i pc).1.keys = c.keys := by
  unfold meetUnknown
  dsimp only
  split <;> rfl

/-- However a cycle ends, the last key is forgotten, and no key goes up or down. -/
theorem keys_cycle : c.cycle.1.keys = c.keys.forget := by
  unfold cycle
  dsimp only
  split
  · exact keys_showReport _ _
  · rfl
  · exact keys_meetUnknown _ _ _
  · rfl
  · rfl

end Cycle

end Console
end ChipEight
