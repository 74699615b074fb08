import ChipEight.Startup.Basic

/-!
# ChipEight.Startup.Launch

Opening the host, running the program on it, and closing what was opened. The host may refuse any
request; then the program fails where it stands, and what has been opened until then is closed in the
opposite order.

* `Startup.OpenHost`: the host, as far as it has been opened.
* `Startup.enter`: everything up to the first turn.
* `Startup.stay`: the program until it begins to close its host.
* `Startup.launch`: the whole program.
-/

namespace ChipEight
namespace Startup

/-- The parts of a host, in the order in which they are opened. -/
inductive Part where
  | display
  | keyboard
  | speaker
deriving DecidableEq, Repr

/-- A part that is open. -/
inductive OpenPart where
  | display (d : Display)
  | keyboard (k : Keyboard)
  | speaker (s : Speaker)

namespace OpenPart

def part : OpenPart → Part
  | .display _ => .display
  | .keyboard _ => .keyboard
  | .speaker _ => .speaker

/-- What closing a part asks of the host. The listener of a terminal ends by itself. -/
def stop : OpenPart → List HostCall
  | .display d => d.stop
  | .keyboard _ => []
  | .speaker s => s.stop

/-- The display, if the part is one. -/
def display? : OpenPart → Option Display
  | .display d => some d
  | _ => none

end OpenPart

/-- What happens on the host while the program runs. -/
inductive Event where
  | asked (reply : Reply)
  | opened (part : Part)
  | closed (part : Part)

/-- The host, as far as it has been opened. -/
structure OpenHost where
  answers : Answers
  /-- How many requests have been made. -/
  asked : Nat
  events : List Event
  /-- The parts that are open, the last one first. -/
  parts : List OpenPart

namespace OpenHost

/-- A host of which nothing has been opened. -/
def shut (answers : Answers) : OpenHost := ⟨answers, 0, [], []⟩

/-- The host behind requests to which it has replied. -/
def hear (h : OpenHost) (replies : List Reply) : OpenHost :=
  { h with asked := h.asked + replies.length, events := h.events ++ replies.map .asked }

/-- The host with one more part open. -/
def hold (h : OpenHost) (p : OpenPart) : OpenHost :=
  { h with events := h.events ++ [.opened p.part], parts := p :: h.parts }

/-- The host behind the closing of a part. -/
def drop (h : OpenHost) (p : OpenPart) : OpenHost :=
  { h with events := h.events ++ [.closed p.part] }

/-- Makes calls in order, until one is refused. -/
def call (h : OpenHost) (calls : List HostCall) : OpenHost × Option HostRefusal :=
  let (replies, refused) := h.answers.ask h.asked (calls.map .call)
  (h.hear replies, refused)

/-- The display that is open. -/
def display? (h : OpenHost) : Option Display := h.parts.findSome? OpenPart.display?

/-- Closes parts in order, until the host refuses to. -/
def close (h : OpenHost) : List OpenPart → OpenHost × Option HostRefusal
  | [] => (h, none)
  | p :: rest =>
    match (h.drop p).call p.stop with
    | (h, some r) => (h, some r)
    | (h, none) => h.close rest

end OpenHost

/-- A step of opening the host. Where it fails, it leaves the host as far as it came. -/
abbrev Opening := ExceptT Fault (StateM OpenHost)

/-- Opens a part: makes the calls for it, and has the part if they are granted and it does not fail
behind them. -/
def openPart (wrap : α → OpenPart) (opening : List HostCall × Except Fault α) : Opening α := fun h =>
  match h.call opening.1 with
  | (h, some r) => (.error (.host r.fault), h)
  | (h, none) =>
    match opening.2 with
    | .error f => (.error f, h)
    | .ok a => (.ok a, h.hold (wrap a))

/-! ## The parts -/

/-- Opens a display in a terminal. -/
def openTerminal (scale : Option Int) : List HostCall × Except Fault Display :=
  match TerminalDisplay.start scale with
  | .error f => ([], .error (.scale f))
  | .ok (d, calls) => (calls, .ok (.terminal d))

/-- Opens a display in a window. -/
def openWindow (p : Plan) (scale : Option Int) : List HostCall × Except Fault Display :=
  let (calls, result) := WindowDisplay.start scale p.background p.foreground Product.name
  (calls, (result.map .window).mapError .palette)

/-- Opens the display. A blank scale fails where the size of the display is needed. -/
def openDisplay (p : Plan) : List HostCall × Except Fault Display :=
  match p.kind, p.scale.known with
  | .headless, scale => ([], .ok (.startHeadless (scale.getD none)))
  | .terminal, some scale => openTerminal scale
  | .terminal, none => ([], .error .blankScale)
  | .window, some scale => openWindow p scale
  | .window, none => (WindowDisplay.opening Product.name, .error .blankScale)

/-- Opens the keyboard. That of a terminal starts its listener, which reads from then on beside
everything else. -/
def openKeyboard (p : Plan) (e : Surroundings) : List HostCall × Except Fault Keyboard :=
  let codes := match p.kind with
    | .terminal => Keymap.Codes.characters
    | _ => Keymap.Codes.keys
  match p.keymap.map (Keymap.parse codes) with
  | none => ([], .error .blankKeymap)
  | some (.error f) => ([], .error (.keymap f))
  | some (.ok keymap) =>
    match p.kind with
    | .headless => ([], .ok (.headless keymap))
    | .window => ([], .ok (.window keymap e.events))
    | .terminal => ([.startListener true], .ok (.startTerminal keymap e.typed))

/-- Opens the speaker. -/
def openSpeaker (p : Plan) : List HostCall × Except Fault Speaker :=
  let (calls, result) := Speaker.start p.speaker none
  (calls, result.mapError .speaker)

/-! ## The run -/

/-- The settings that only the console needs. -/
def consoleSettings (s : Settings) : Except Fault (Bool × Bool) := do
  let debug ← need s.debug "debug"
  let skipUnknown ← need s.skipUnknown "skip_unknown"
  return (debug.resolve false false, skipUnknown.resolve false false)

/-- Switches the console on. -/
def openConsole (s : Settings) (p : Plan) : Except Fault (Console × List Signal) :=
  match consoleSettings s with
  | .error f => .error f
  | .ok (debug, skipUnknown) =>
    (Console.start p.engine debug skipUnknown (some p.clockSpeed)).mapError .clockSpeed

/-- Why an open host is down. -/
def hostFault? (a : Attached) : Option Fault :=
  match a.refused with
  | some r => some (.host r.fault)
  | none => a.frontend.refusal.map .display

/-- Everything up to the first turn: opens the host part by part, switches the console on, and sends
its first signals. -/
def enter (s : Settings) (e : Surroundings) (p : Plan) : Opening (Session Attached) := do
  let display ← openPart .display (openDisplay p)
  let keyboard ← openPart .keyboard (openKeyboard p e)
  let speaker ← openPart .speaker (openSpeaker p)
  let (console, signals) ← openConsole s p
  let host ← get
  let attached := Attached.start (.start display keyboard speaker e.terminal) host.answers host.asked
  return (⟨console, attached⟩ : Session Attached).send signals

/-- What the end of a session means for the program. -/
def conclude (a : Attached) (ending : Session.Ending) : Except Fault Unit :=
  match hostFault? a, ending with
  | some f, _ => .error f
  | none, .failed f => .error (.console f)
  | none, _ => .ok ()

/-- Runs a session, unless its host has gone down already. -/
def operate (s : Session Attached) : Session Attached × Except Fault Unit :=
  match hostFault? s.host with
  | some f => (s, .error f)
  | none =>
    let (s, ending) := s.runUntil Attached.isDown
    (s, conclude s.host ending)

/-- The host that a session leaves behind, with what was asked of it in the session. -/
def OpenHost.leave (h : OpenHost) (a : Attached) : OpenHost where
  answers := h.answers
  asked := a.asked
  events := h.events ++ a.replies.map .asked
  parts := [.speaker a.frontend.speaker, .keyboard a.frontend.keyboard, .display a.frontend.display]

/-- The program when it begins to close its host. -/
structure Stay where
  host : OpenHost
  printed : String
  clock : Clock
  result : Except Fault Unit

/-- Runs the program until it begins to close its host. -/
def stay (s : Settings) (e : Surroundings) (p : Plan) : Stay :=
  match enter s e p (.shut e.answers) with
  | (.error f, host) => ⟨host, "", p.engine.clock, .error f⟩
  | (.ok session, host) =>
    let (session, result) := operate session
    ⟨host.leave session.host, session.host.frontend.printed, session.clock, result⟩

/-- How the program ended. -/
structure Outcome where
  printed : String
  events : List Event
  clock : Clock
  display : Option Display
  /-- What the host refused while it was being closed. -/
  shutdown : Option HostRefusal
  result : Except Fault Unit

/-- The calls to the host, whether granted or not, without openings and closings. -/
def Outcome.calls (o : Outcome) : List HostCall :=
  o.events.filterMap fun
    | .asked reply => reply.call?
    | _ => none

/-- The first line that is printed. -/
def banner : String := Product.banner ++ "\n"

/-- Starts the program, runs it, and closes what was opened. A refusal while that happens is what the
program fails with, and leaves the rest open. -/
def launch (s : Settings) (e : Surroundings) : Outcome :=
  match prepare s e with
  | (clock, .error f) => ⟨banner, [], clock, none, none, .error f⟩
  | (_, .ok p) =>
    let t := stay s e p
    let (host, shutdown) := t.host.close t.host.parts
    let result := match shutdown with
      | some r => .error (.host r.fault)
      | none => t.result
    ⟨banner ++ t.printed, host.events, t.clock, t.host.display?, shutdown, result⟩

end Startup
end ChipEight
