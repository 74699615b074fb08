import ChipEight.Engine
import ChipEight.Product

/-!
# ChipEight.Console

The console connects the machine to a host: it hands the keys to each cycle, and says what is to be
shown, heard and printed. It holds no host; what it wants of one are signals, in order.

* `Console.start`: a console that is switched on.
* `Console.cycle`: one cycle of the machine with what follows from it. The last key that went down
  is forgotten afterwards, however the cycle ends, so that one press is seen by one cycle only.
* `Console.refresh`: asks for the screen to be shown.
-/

namespace ChipEight

/-- What the console wants of its host. -/
inductive Signal where
  | resolution (width height : Nat)
  | pixel (cell : Cell) (lit : Bool)
  | refresh (changed : Bool)
  /-- The counts since the last report, which the title shows. -/
  | report (frames operations : Int)
  | buzzer (on : Bool)
  | print (text : String)
deriving DecidableEq, Repr

/-- A console with its machine and the keys of its host. -/
structure Console where
  engine : Engine
  keys : Keypad
  /-- Every instruction is listed. -/
  live : Bool
  /-- Unknown instructions are reported and skipped. -/
  skipUnknown : Bool
  /-- The time between two cycles in seconds, unless they follow at once. -/
  interval : Option Float
  /-- Pixels were drawn since the last refresh. -/
  changed : Bool
  nextDisplay : Float
  nextReport : Float
  /-- Refreshes since the last report. -/
  frames : Int
  /-- Cycles since the last report. -/
  operations : Int

namespace Console

/-- Why a console cannot go on. -/
inductive Fault where
  | machine (fault : Machine.Fault)
  | clock (fault : Clock.Fault)
  | key (fault : Keypad.Fault)
  /-- An unknown instruction was met, with the report on it. -/
  | halted (report : String)
deriving DecidableEq, Repr

/-- What an unknown instruction is reported as when it ends the program. -/
def haltMessage (report : String) : String :=
  "Emulation halted.\n\n" ++ Product.intro ++ "Debug info:\n" ++ report

/-- What a fault of the console is reported as. -/
def Fault.message : Fault → String
  | .machine f => f.message
  | .clock f => f.message
  | .key f => f.message
  | .halted report => haltMessage report

/-- What an unknown instruction is reported as when it is skipped. -/
def skipMessage (report : String) : String :=
  "Skipping unknown instruction. " ++ report

/-- The report on an unknown instruction. -/
def unknownReport (m : Machine) (i : Instruction) (pc : Int) : String :=
  (Machine.Fault.unknownInstruction i pc).message ++ "\n" ++ m.dump

/-- The time between two refreshes of the screen in seconds. -/
def displayInterval : Float := 1.0 / 60.0

/-- The time between two cycles at a number of them per second. Without a positive number they
follow at once. -/
def intervalOf (clockSpeed : Option Int) : Except Quotient.Fault (Option Float) :=
  match clockSpeed with
  | none => .ok none
  | some n => if n ≤ 0 then .ok none else (Quotient.ofInt n).map fun speed => some (1.0 / speed)

/-- A console that is switched on. -/
def start (engine : Engine) (live skipUnknown : Bool) (clockSpeed : Option Int) :
    Except Quotient.Fault (Console × List Signal) :=
  (intervalOf clockSpeed).map fun interval =>
    (⟨engine, .released, live, skipUnknown, interval, false, 0.0, 0.0, 0, 0⟩,
      [.resolution Screen.width Screen.height, .report 0 0])

/-- The signals that show a screen, pixel by pixel. -/
def pixels (s : Screen) : List Signal := Cell.all.map fun c => .pixel c (s.lit c)

/-- Draws a screen. -/
def draw (c : Console) (s : Screen) : Console × List Signal :=
  ({ c with changed := true }, pixels s)

/-- Asks for the screen to be shown. -/
def refresh (c : Console) : Console × List Signal :=
  ({ c with changed := false }, [.refresh c.changed])

/-- The listing of the last instruction, if instructions are listed. -/
def listing (c : Console) : List Signal :=
  if c.live then [.print c.engine.machine.line] else []

/-- What follows from a cycle that went well. -/
def showReport (c : Console) (r : Machine.Report) : Console × List Signal :=
  match r.screen with
  | none => (c, c.listing ++ [.buzzer r.beep])
  | some s =>
    let (d, drawing) := c.draw s
    (d, c.listing ++ drawing ++ [.buzzer r.beep])

/-- What follows from an unknown instruction. -/
def meetUnknown (c : Console) (i : Instruction) (pc : Int) :
    Console × List Signal × Except Fault Bool :=
  let text := unknownReport c.engine.machine i pc
  if c.skipUnknown then
    (c, [.print (skipMessage text), .buzzer c.engine.machine.beeps], .ok true)
  else (c, [], .error (.halted text))

/-- One cycle. It answers whether the program goes on. -/
def cycle (c : Console) : Console × List Signal × Except Fault Bool :=
  let (engine, result) := c.engine.cycle c.keys
  let c := { c with engine, keys := c.keys.forget }
  match result with
  | .ok r =>
    let (c, signals) := c.showReport r
    (c, signals, .ok true)
  | .error (.machine .endOfProgram) => (c, [], .ok false)
  | .error (.machine (.unknownInstruction i pc)) => c.meetUnknown i pc
  | .error (.machine f) => (c, [], .error (.machine f))
  | .error (.clock f) => (c, [], .error (.clock f))

end Console
end ChipEight
