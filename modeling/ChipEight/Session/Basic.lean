import ChipEight.Console

/-!
# ChipEight.Session.Basic

A session runs a console on a host until the host asks to quit, the program ends, or something
fails. Each turn reads the clock first; the title, the keys and the screen have their turn only when
their time has come, and at the end of a turn the session waits for the next one.

A host may be down, so that a session cannot go on with it. What that means is the host's own
business; a session only looks whether it is so behind each stage that had to do with the host.

* `Host`: what a session needs of a host.
* `Session.turnUntil`, `Session.runUntil`: one turn, and turns until the end, on a host that may go
  down. Every turn reads the clock, so how often it can still be asked bounds the number of turns.
* `Session.turn`, `Session.run`: the same on a host that does not.
-/

namespace ChipEight

/-- What a host that is asked for its keys gives: the keys, the clock as it was left, and whether to
quit. -/
structure Polled (σ : Type) where
  host : σ
  keys : Keypad
  clock : Clock
  result : Except Console.Fault Bool

/-- A host takes signals and is asked for its keys. -/
class Host (σ : Type) where
  send : σ → Signal → σ
  poll : σ → Keypad → Clock → Polled σ
  /-- Asking may read the clock, which gives no question back. -/
  remaining_poll_le : ∀ (host : σ) (keys : Keypad) (clock : Clock),
    (poll host keys clock).clock.remaining ≤ clock.remaining

/-- A console on a host. -/
structure Session (σ : Type) where
  console : Console
  host : σ

namespace Session

/-- How a session ended. -/
inductive Ending where
  | quit
  | finished
  | failed (fault : Console.Fault)
  /-- The host has gone down. -/
  | stranded
deriving DecidableEq, Repr

variable {σ : Type} [Host σ]

/-- Sends signals to the host in order. -/
def send (s : Session σ) (signals : List Signal) : Session σ :=
  { s with host := signals.foldl Host.send s.host }

/-- A session with another console, whose signals have been sent. -/
def advance (s : Session σ) (next : Console × List Signal) : Session σ :=
  Session.send ⟨next.1, s.host⟩ next.2

/-- A session with another clock. -/
def setClock (s : Session σ) (clock : Clock) : Session σ :=
  { s with console := { s.console with engine := { s.console.engine with clock } } }

/-- The clock of a session. -/
def clock (s : Session σ) : Clock := s.console.engine.clock

/-- A finite time without its fraction. -/
def wholeSeconds (time : Float) : Float := if time < 0.0 then time.ceil else time.floor

/-- Reports the counts and begins new ones, if it is time. The next time for that is found first, and
there is none behind an infinite one. -/
def measure (s : Session σ) (time : Float) : Session σ × Option Ending :=
  if time ≥ s.console.nextReport then
    if time.isFinite then
      let c := s.console
      (s.advance ({ c with nextReport := wholeSeconds time + 1.0, frames := 0, operations := 0 },
        [.report c.frames c.operations]), none)
    else (s, some (.failed (.clock .infinite)))
  else (s, none)

/-- Shows the screen. -/
def refresh (s : Session σ) : Session σ := s.advance s.console.refresh

/-- Asks the host for its keys. -/
def poll (s : Session σ) : Session σ × Except Console.Fault Bool :=
  let p := Host.poll s.host s.console.keys s.clock
  (({ s with host := p.host, console := { s.console with keys := p.keys } } : Session σ).setClock
    p.clock, p.result)

/-- Asks for keys and shows the screen, if it is time. -/
def display (s : Session σ) (time : Float) : Session σ × Option Ending :=
  if time ≥ s.console.nextDisplay then
    match s.poll with
    | (s, .error f) => (s, some (.failed f))
    | (s, .ok true) => (s, some .quit)
    | (s, .ok false) =>
      let c := s.console
      let s := ({ s with console := { c with nextDisplay := time + Console.displayInterval } } :
        Session σ).refresh
      ({ s with console := { s.console with frames := s.console.frames + 1 } }, none)
  else (s, none)

/-- Runs one cycle of the machine. -/
def operate (s : Session σ) : Session σ × Option Ending :=
  let (c, signals, result) := s.console.cycle
  let s := s.advance (c, signals)
  match result with
  | .error f => (s, some (.failed f))
  | .ok false => (s.refresh.send [.print "Program finished."], some .finished)
  | .ok true =>
    ({ s with console := { s.console with operations := s.console.operations + 1 } }, none)

/-- Waits until the next turn of a turn that began at a time. -/
def wait (s : Session σ) (time : Float) : Session σ × Option Ending :=
  match s.console.interval with
  | none => (s, none)
  | some interval =>
    let (clock, fault) := s.clock.waitUntil (time + interval)
    (s.setClock clock, fault.map fun f => .failed (.clock f))

/-- What a stage has led to. Behind a stage that has left its host down, a session is stranded. -/
def heed (down : σ → Bool) (r : Session σ × Option Ending) : Session σ × Option Ending :=
  if down r.1.host then (r.1, some .stranded) else r

/-- One turn, which began at a time, on a host that may go down. -/
def turnAtUntil (down : σ → Bool) (s : Session σ) (time : Float) : Session σ × Option Ending :=
  match heed down (s.measure time) with
  | (s, some e) => (s, some e)
  | (s, none) =>
    match heed down (s.display time) with
    | (s, some e) => (s, some e)
    | (s, none) =>
      match heed down s.operate with
      | (s, some e) => (s, some e)
      | (s, none) => s.wait time

/-- One turn on a host that may go down. It ends the session or leads to the next turn. -/
def turnUntil (down : σ → Bool) (s : Session σ) : Session σ × Option Ending :=
  match s.clock.read with
  | (clock, .error f) => (s.setClock clock, some (.failed (.clock f)))
  | (clock, .ok time) => (s.setClock clock).turnAtUntil down time

/-- At most `n` turns. When none is left, the clock can be asked no more. -/
def runForUntil (down : σ → Bool) : Nat → Session σ → Session σ × Ending
  | 0, s => (s, .failed (.clock .exhausted))
  | n + 1, s =>
    match s.turnUntil down with
    | (s, some e) => (s, e)
    | (s, none) => runForUntil down n s

/-- Turns until the end, or until the host is down. -/
def runUntil (down : σ → Bool) (s : Session σ) : Session σ × Ending :=
  runForUntil down (s.clock.remaining + 1) s

/-- A host that does not go down. -/
def upright : σ → Bool := fun _ => false

/-- One turn, which began at a time. -/
def turnAt (s : Session σ) (time : Float) : Session σ × Option Ending := s.turnAtUntil upright time

/-- One turn. -/
def turn (s : Session σ) : Session σ × Option Ending := s.turnUntil upright

/-- At most `n` turns. -/
def runFor (n : Nat) (s : Session σ) : Session σ × Ending := runForUntil upright n s

/-- Turns until the end. -/
def run (s : Session σ) : Session σ × Ending := s.runUntil upright

/-- The stages of a turn. -/
theorem turnAt_eq (s : Session σ) (time : Float) :
    s.turnAt time =
      match s.measure time with
      | (s, some e) => (s, some e)
      | (s, none) =>
        match s.display time with
        | (s, some e) => (s, some e)
        | (s, none) =>
          match s.operate with
          | (s, some e) => (s, some e)
          | (s, none) => s.wait time := rfl

theorem turn_eq (s : Session σ) :
    s.turn =
      match s.clock.read with
      | (clock, .error f) => (s.setClock clock, some (.failed (.clock f)))
      | (clock, .ok time) => (s.setClock clock).turnAt time := rfl

theorem runFor_succ (n : Nat) (s : Session σ) :
    runFor (n + 1) s =
      match s.turn with
      | (s, some e) => (s, e)
      | (s, none) => runFor n s := rfl

end Session
end ChipEight
