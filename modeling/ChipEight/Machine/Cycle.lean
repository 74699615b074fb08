import ChipEight.Machine.Execute

/-!
# ChipEight.Machine.Cycle

One cycle of the machine: the timers, fetching, and the instruction. The timers go first and count
down also when the cycle then fails.

* `Machine.tick`: both timers count down at most once in a sixtieth of a second.
* `Machine.fetch`: the instruction that the program counter points at.
* `Machine.step`: fetches and runs one instruction. A failed step still leaves the machine that it
  reached.
* `Machine.cycle`: a tick and a step.
-/

namespace ChipEight
namespace Machine

/-- The least time between two counts of the timers, in seconds. -/
def timerInterval : Float := 1.0 / 60.0

/-- A timer after one count. -/
def countDown (t : Int) : Int := if 0 < t then t - 1 else t

/-- Whether the timers count down at a time. -/
def isDue (m : Machine) (time : Float) : Bool := time - m.lastTick ≥ timerInterval

/-- Counts the timers down if a sixtieth of a second has passed. -/
def tick (m : Machine) (time : Float) : Machine :=
  if m.isDue time then
    { m with delay := countDown m.delay, sound := countDown m.sound, lastTick := time }
  else m

/-- The instruction that the program counter points at, if both its bytes lie in memory. -/
def fetch (m : Machine) : Option Instruction :=
  match m.memory.locate m.pc, m.memory.locate (m.pc + 1) with
  | .ok high, .ok low => some (.ofBytes (m.memory.get high) (m.memory.get low))
  | _, _ => none

/-- Whether the next instruction takes a random byte. -/
def wantsRandom (m : Machine) : Bool := m.fetch.any (·.operation == .random)

/-- What a cycle leaves for the host: the screen, if it has to be shown again, and the buzzer. -/
structure Report where
  screen : Option Screen
  beep : Bool
deriving DecidableEq

/-- Whether the buzzer sounds. -/
def beeps (m : Machine) : Bool := 0 < m.sound

/-- The report after an instruction that went well. -/
def report (m : Machine) : Report :=
  ⟨if m.operation.redraws then some m.screen else none, m.beeps⟩

/-- Runs the instruction that the machine holds, and says whether the screen has to be shown
again. -/
def perform (m : Machine) (random : UInt8) : Machine × Except Fault Bool :=
  match m.execute random with
  | .ok t => (t, .ok t.operation.redraws)
  | .error f => (m, .error f)

/-- The machine with an instruction taken up and the program counter moved past it. -/
def take (m : Machine) (keys : Keypad) (i : Instruction) : Machine :=
  { m with keys, instruction := i, executing := m.pc, pc := m.pc + 2 }

/-- Fetches and runs one instruction. -/
def step (m : Machine) (keys : Keypad) (random : UInt8) : Machine × Except Fault Report :=
  match m.fetch with
  | none => (m, .error .endOfProgram)
  | some i =>
    match (m.take keys i).perform random with
    | (t, .ok _) => (t, .ok t.report)
    | (t, .error f) => (t, .error f)

/-- One cycle at a time, with the keys that are down and a random byte. -/
def cycle (m : Machine) (keys : Keypad) (time : Float) (random : UInt8) :
    Machine × Except Fault Report :=
  (m.tick time).step keys random

end Machine
end ChipEight
