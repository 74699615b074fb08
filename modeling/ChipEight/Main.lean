import ChipEight.Options.Parse
import ChipEight.Startup.Launch

/-!
# ChipEight.Main

The command line. There is no window system here and no terminal is taken over, so programs run
headless: with `-r null` they run in real time and print what they have to say.
-/

namespace ChipEight
namespace CommandLine

/-- The time in seconds. -/
def seconds : IO Float := do
  return Float.ofNat (← IO.monoNanosNow) / 1000000000.0

/-- A clock that shows one time as often as a turn reads it. -/
def still (time : Float) : Clock := ⟨fun _ => .ok time, 0, 4⟩

/-- Waits until a time has come. -/
partial def waitUntil (time : Float) : IO Unit := do
  if (← seconds) < time then waitUntil time

/-- Prints what a host has written down and forgets it. -/
def flush (a : Attached) : IO Attached := do
  IO.print a.frontend.printed
  return { a with frontend := { a.frontend with printed := "", calls := #[] } }

/-- Turns of a session in real time until its end. The session itself does not wait; between two
turns this loop does. -/
partial def turns (interval : Option Float) (s : Session Attached) :
    IO (Except Startup.Fault Unit) := do
  let time ← seconds
  let random ← IO.rand 0 255
  let c := s.console
  let engine := { c.engine with clock := still time, dice := [UInt8.ofNat random] }
  let s : Session Attached := { s with console := { c with engine, interval := none } }
  let (s, ending) := s.turnAtUntil Attached.isDown time
  let host ← flush s.host
  match ending with
  | some e => return Startup.conclude host e
  | none =>
    match interval with
    | none => pure ()
    | some d => waitUntil (time + d)
    turns interval { s with host }

/-- The surroundings of a program whose file has been read. -/
def surroundings (time : Float) (file : Except ProgramFile.Fault (Array UInt8)) :
    Startup.Surroundings where
  windows := false
  terminals := false
  file _ := file
  terminal := ⟨0, 0, false⟩
  typed := []
  events := []
  clock := still time
  dice := []
  answers := .obliging

/-- The contents of a file, if it can be read. -/
def contents (name : String) : IO (Except ProgramFile.Fault (Array UInt8)) := do
  try
    return .ok (← IO.FS.readBinFile name).data
  catch _ => return .error (ProgramFile.elsewhere name)

/-- The session that a program is about to run. -/
def opened (s : Settings) (e : Startup.Surroundings) :
    Except Startup.Fault (Session Attached) := do
  let plan ← (Startup.prepare s e).2
  (Startup.enter s e plan (.shut e.answers)).1

/-- Runs a program with the options of a command line, and gives the exit status. -/
def run (o : Options) : IO UInt32 := do
  IO.print Startup.banner
  let e := surroundings (← seconds) (← contents o.filename)
  match opened (.ofOptions o) e with
  | .error f =>
    IO.eprintln f.message
    return 1
  | .ok s =>
    match ← turns s.console.interval s with
    | .error f =>
      IO.eprintln f.message
      return 1
    | .ok () => return 0

end CommandLine
end ChipEight

open ChipEight in
/-- Reads the command line and runs the program that it names. -/
def main (words : List String) : IO UInt32 := do
  match Options.parse words with
  | .ok o => CommandLine.run o
  | .error .help =>
    IO.println "usage: chip-eight [options] filename"
    IO.println ("options: " ++ ", ".intercalate (Flag.all.map Flag.title))
    return 0
  | .error f =>
    IO.eprintln ("error: " ++ f.message)
    return UInt32.ofNat f.status
