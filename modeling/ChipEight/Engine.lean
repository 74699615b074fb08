import ChipEight.Machine.Listing
import ChipEight.Time.Clock

/-!
# ChipEight.Engine

The machine together with what it takes from outside at every cycle: the time from a clock, and
random bytes, which are zero when no more are left.

* `Engine.load?`: loads a program; the clock is read only if the program fits.
* `Engine.cycle`: one cycle. The clock is read first, and a random byte is taken only by an
  instruction that wants one.
-/

namespace ChipEight

/-- A machine with its clock and its random bytes. -/
structure Engine where
  machine : Machine
  clock : Clock
  dice : List UInt8

namespace Engine

/-- Why an engine cannot go on. -/
inductive Fault where
  | machine (fault : Machine.Fault)
  | clock (fault : Clock.Fault)
deriving DecidableEq, Repr

/-- Why an engine cannot be built. -/
inductive LoadFault where
  | tooBig (fault : Machine.TooBig)
  | clock (fault : Clock.Fault)
deriving DecidableEq, Repr

/-- An engine with a program in memory. -/
def load? (program : Array UInt8) (clock : Clock) (dice : List UInt8) : Except LoadFault Engine :=
  match Machine.checkSize program with
  | .error f => .error (.tooBig f)
  | .ok () =>
    match clock.read with
    | (_, .error f) => .error (.clock f)
    | (clock, .ok time) => .ok ⟨Machine.boot program time, clock, dice⟩

/-- Counts the timers down if they are due. -/
def tick (e : Engine) : Engine × Except Fault Unit :=
  match e.clock.read with
  | (clock, .error f) => ({ e with clock }, .error (.clock f))
  | (clock, .ok time) => ({ e with machine := e.machine.tick time, clock }, .ok ())

/-- Runs an instruction, with a random byte if it wants one. -/
def withDice (e : Engine) (wants : Bool) (run : UInt8 → Machine × Except Machine.Fault α) :
    Engine × Except Fault α :=
  let (t, result) := run (if wants then e.dice.headD 0 else 0)
  let dice := if wants then e.dice.tail else e.dice
  ({ e with machine := t, dice }, result.mapError .machine)

/-- One cycle. -/
def cycle (e : Engine) (keys : Keypad) : Engine × Except Fault Machine.Report :=
  match e.clock.read with
  | (clock, .error f) => ({ e with clock }, .error (.clock f))
  | (clock, .ok time) =>
    { e with clock }.withDice e.machine.wantsRandom (e.machine.cycle keys time)

/-- Runs one instruction in place, without fetching it. -/
def perform (e : Engine) (i : Instruction) : Engine × Except Fault Bool :=
  e.withDice (i.operation == .random) { e.machine with instruction := i }.perform

end Engine
end ChipEight
