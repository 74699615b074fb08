import ChipEight.Proofs.Histories
import ChipEight.Proofs.Turns

/-!
# ChipEight.Proofs.Listings

A console that lists every instruction against one that does not.

* `Console.Executes`: the cycles that execute an instruction; `executes_iff` says which these are for
  a machine in its ranges.
* `Console.lines`: what is listed for a cycle.
* `Console.cycle_eq_setLive`: a cycle is one of the console that lists nothing, with the line of the
  cycle in front of its signals.
* `Console.after_setLive`, `Console.signals_setLive`: the same for histories.
-/

namespace ChipEight
namespace Console

/-! ## Cycles -/

/-- A console that lists its instructions, or does not. -/
def setLive (c : Console) (live : Bool) : Console := { c with live }

/-- The next cycle takes up the word of a row and executes it without a fault. -/
def Executes (c : Console) : Prop :=
  (∃ op, c.engine.machine.Runs op) ∧ (c.engine.cycle c.keys).2.isOk = true

section Cycle

variable {c : Console}

theorem executes_of_isOk (h : (c.engine.cycle c.keys).2.isOk = true) : c.Executes := by
  refine ⟨?_, h⟩
  rcases c.engine.machine_cycle c.keys with ⟨-, f, hanswer⟩ | ⟨time, random, -, hanswer⟩
  · rw [hanswer] at h
    cases h
  · cases hcycle : (c.engine.machine.cycle c.keys time random).2 with
    | error f =>
      rw [hanswer, hcycle] at h
      cases h
    | ok r =>
      obtain ⟨hin, hexec⟩ := Machine.cycle_eq_ok c.keys time hcycle
      have hknown : (c.engine.machine.taken c.keys time).operation ≠ .unknown := by
        intro hunknown
        rw [Machine.execute_unknown hunknown] at hexec
        cases hexec
      exact ⟨_, (Machine.taken_operation_eq_iff c.keys time hknown hin).mp rfl⟩

instance : Decidable c.Executes :=
  decidable_of_iff ((c.engine.cycle c.keys).2.isOk = true) ⟨executes_of_isOk, And.right⟩

/-- For a machine in its ranges this asks that the clock answers, and that the word is that of a row
and no return without a call. -/
theorem executes_iff (hwf : c.engine.machine.WellFormed) :
    c.Executes ↔ c.engine.clock.read.2.isOk = true ∧
      ∃ op, c.engine.machine.Runs op ∧ (op = .ret → c.engine.machine.calls.items ≠ []) := by
  constructor
  · rintro ⟨⟨op, hruns⟩, hok⟩
    by_cases hclock : c.engine.clock.read.2.isOk = true
    · refine ⟨hclock, op, hruns, ?_⟩
      rintro rfl hcalls
      obtain ⟨time, random, -, hanswer⟩ := Engine.cycle_of_isOk c.keys hclock
      rw [hanswer, Machine.cycle_underflow c.keys time random hruns.1 hruns.2 hcalls] at hok
      cases hok
    · obtain ⟨f, -, hanswer⟩ := Engine.cycle_of_not_isOk c.keys hclock
      rw [hanswer] at hok
      cases hok
  · rintro ⟨hclock, op, hruns, hret⟩
    obtain ⟨time, random, -, hanswer⟩ := Engine.cycle_of_isOk c.keys hclock
    obtain ⟨t, hcycle, -⟩ := Machine.cycle_row c.keys time random hwf hruns.1 hruns.2 hret
    refine ⟨⟨op, hruns⟩, ?_⟩
    rw [hanswer, hcycle]
    rfl

end Cycle

/-- What is listed for the next cycle: the machine as the cycle leaves it, if it executes an
instruction. -/
def lines (c : Console) : List String :=
  if c.Executes then [c.cycle.1.engine.machine.line] else []

/-- What is listed for an event. -/
def listed (c : Console) : Event → List String
  | .cycle => c.lines
  | _ => []

theorem live_cycle (c : Console) : c.cycle.1.live = c.live := by
  obtain ⟨_, _, _, hcycle⟩ := c.cycle_eq
  rw [hcycle]

theorem lines_of_ok {c : Console} {e : Engine} {r : Machine.Report}
    (h : c.engine.cycle c.keys = (e, .ok r)) : c.lines = [e.machine.line] := by
  have hexecutes : c.Executes := executes_of_isOk (by rw [h]; rfl)
  rw [lines, if_pos hexecutes, engine_cycle, h]

theorem lines_of_error {c : Console} {e : Engine} {f : Engine.Fault}
    (h : c.engine.cycle c.keys = (e, .error f)) : c.lines = [] := by
  refine if_neg ?_
  rintro ⟨-, hok⟩
  rw [h] at hok
  cases hok

/-- What a console sends for its listing. -/
def prints (lines : List String) : List Signal := lines.map .print

theorem lines_setLive (c : Console) (live : Bool) : (c.setLive live).lines = c.lines := by
  unfold lines
  rw [engine_cycle, engine_cycle]
  rfl

theorem showReport_setLive (c : Console) (r : Machine.Report) :
    c.showReport r = (((c.setLive false).showReport r).1.setLive c.live,
      c.listing ++ ((c.setLive false).showReport r).2) := by
  unfold showReport
  cases r.screen with
  | none => rfl
  | some s =>
    show (_, c.listing ++ pixels s ++ _) = _
    rw [List.append_assoc]
    rfl

theorem meetUnknown_setLive (c : Console) (i : Instruction) (pc : Int) :
    c.meetUnknown i pc = (((c.setLive false).meetUnknown i pc).1.setLive c.live,
      ((c.setLive false).meetUnknown i pc).2) := by
  have hsame : (c.setLive false).skipUnknown = c.skipUnknown := rfl
  unfold meetUnknown
  dsimp only
  rw [hsame]
  split <;> rfl

/-- A cycle is one of the console that lists nothing, with the line of the cycle in front of its
signals. -/
theorem cycle_eq_setLive (c : Console) :
    c.cycle = ((c.setLive false).cycle.1.setLive c.live,
      prints (if c.live then c.lines else []) ++ (c.setLive false).cycle.2.1,
      (c.setLive false).cycle.2.2) := by
  rcases hcycle : c.engine.cycle c.keys with ⟨e, f | r⟩
  · have hquiet : (c.setLive false).engine.cycle (c.setLive false).keys = (e, .error f) := hcycle
    rw [lines_of_error hcycle, ite_self]
    unfold cycle
    rw [hcycle, hquiet]
    cases f with
    | clock f => rfl
    | machine f =>
      cases f with
      | unknownInstruction i pc =>
        dsimp only
        rw [meetUnknown_setLive]
        rfl
      | _ => rfl
  · have hquiet : (c.setLive false).engine.cycle (c.setLive false).keys = (e, .ok r) := hcycle
    rw [lines_of_ok hcycle]
    unfold cycle
    rw [hcycle, hquiet]
    dsimp only
    rw [showReport_setLive]
    unfold listing
    cases c.live <;> rfl

/-! ## Histories -/

theorem setLive_eq_self {c : Console} {live : Bool} (h : c.live = live) : c.setLive live = c := by
  cases c
  cases h
  rfl

theorem apply_setLive {c : Console} (h : c.live = false) (e : Event) :
    (c.setLive true).apply e =
      ((c.apply e).1.setLive true, prints (c.listed e) ++ (c.apply e).2) := by
  cases e with
  | cycle =>
    have hquiet : (c.setLive true).setLive false = c := setLive_eq_self h
    unfold apply
    dsimp only
    rw [cycle_eq_setLive (c.setLive true), hquiet, lines_setLive]
    rfl
  | refresh => rfl
  | press k => rfl
  | release k => rfl

theorem live_after (c : Console) (es : List Event) : (c.after es).live = c.live := by
  induction es using List.reverseRecOn with
  | nil => rfl
  | append_singleton es e ih =>
    rw [after_concat, ← ih]
    cases e with
    | cycle => exact live_cycle _
    | refresh => rfl
    | press k => rfl
    | release k => rfl

theorem after_setLive {c : Console} (h : c.live = false) (es : List Event) :
    (c.setLive true).after es = (c.after es).setLive true := by
  induction es using List.reverseRecOn with
  | nil => rfl
  | append_singleton es e ih =>
    have hquiet : (c.after es).live = false := (c.live_after es).trans h
    rw [after_concat, after_concat, ih, apply_setLive hquiet]

theorem signals_setLive {c : Console} (h : c.live = false) (es : List Event) :
    (c.setLive true).signals es =
      (c.steps es).flatMap fun p => prints (p.1.listed p.2) ++ (p.1.apply p.2).2 := by
  induction es using List.reverseRecOn with
  | nil => rfl
  | append_singleton es e ih =>
    have hquiet : (c.after es).live = false := (c.live_after es).trans h
    rw [signals_concat, ih, after_setLive h, apply_setLive hquiet, steps_concat,
      List.flatMap_append, List.flatMap_singleton]

end Console
end ChipEight
