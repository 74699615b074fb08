import ChipEight.Input.Layout
import ChipEight.ProgramFile
import ChipEight.Session.Attached
import ChipEight.Startup.Settings

/-!
# ChipEight.Startup.Basic

What the program finds out before it opens its host. Everything that can be checked without the host
is checked before its display is taken over.

* `Startup.choose`: which kind of host the settings ask for.
* `Startup.prepare`: the plan of a program, or why there is none.
-/

namespace ChipEight
namespace Startup

/-- The surroundings in which the program starts. -/
structure Surroundings where
  /-- A window system is there. -/
  windows : Bool
  /-- A terminal can be taken over. -/
  terminals : Bool
  /-- The contents of files. -/
  file : String → Except ProgramFile.Fault (Array UInt8)
  terminal : Terminal
  /-- What is typed at the terminal, one list for each time that the program asks for keys. -/
  typed : List (List Int)
  /-- The events that the window system reports, one list for each time it is asked. -/
  events : List (List WindowEvent)
  clock : Clock
  dice : List UInt8
  /-- How the host answers what it is asked. -/
  answers : Answers

/-- Why the program did not run to its end. -/
inductive Fault where
  | missing (setting : Setting.Missing)
  | noWindows
  | noTerminals
  | noFrontend
  | layout (fault : Layout.Unknown)
  /-- No file was named. -/
  | noFilename
  /-- The name leads to no file. -/
  | file (name : String) (fault : ProgramFile.Fault)
  | tooBig (fault : Machine.TooBig)
  | clock (fault : Clock.Fault)
  /-- No kind of host has this name. -/
  | unknownRenderer (name : String)
  /-- The scale of a display is a blank. -/
  | blankScale
  /-- The scale does not count columns. -/
  | scale (fault : Count.Fault)
  | palette (fault : Palette.Fault)
  /-- The keymap is a blank. -/
  | blankKeymap
  | keymap (fault : Keymap.Fault)
  | speaker (fault : Wave.Fault)
  /-- The clock speed is too large a number. -/
  | clockSpeed (fault : Quotient.Fault)
  /-- The display does not take the size of the screen, or a title. -/
  | display (fault : Display.Fault)
  | console (fault : Console.Fault)
  /-- The host has refused a request. -/
  | host (fault : HostFault)
deriving DecidableEq, Repr

/-- What a program that did not run to its end reports. -/
def Fault.message : Fault → String
  | .missing s => "The setting " ++ s.name ++ " is missing"
  | .noWindows => "PyGame does not appear to be installed."
  | .noTerminals => "Curses (or Windows-Curses) does not appear to be installed."
  | .noFrontend => "Neither PyGame nor Curses (or Windows-Curses) appear to be installed."
  | .layout f => f.message
  | .noFilename => "No file was named"
  | .file name f => f.message name
  | .tooBig f => f.message
  | .clock f => f.message
  | .unknownRenderer name => "There is no renderer " ++ name
  | .blankScale => "The scale needs a value"
  | .scale f => f.message
  | .palette f => f.message
  | .blankKeymap => "The keymap needs a value"
  | .keymap f => f.message
  | .speaker f => f.message
  | .clockSpeed f => f.message
  | .display f => f.message
  | .console f => f.message
  | .host f => f.text

/-- The kinds of host. -/
inductive HostKind where
  | headless
  | terminal
  | window
deriving DecidableEq, Repr

/-- The host that a name asks for. Without a name it is a window, or else a terminal; a name that no
host has is an error only later. -/
def choose (renderer : Argument String) (e : Surroundings) : Except Fault (Option HostKind) :=
  match renderer with
  | .absent =>
    if e.windows then .ok (some .window)
    else if e.terminals then .ok (some .terminal)
    else .error .noFrontend
  | .value "pygame" => if e.windows then .ok (some .window) else .error .noWindows
  | .value "curses" => if e.terminals then .ok (some .terminal) else .error .noTerminals
  | .value "null" => .ok (some .headless)
  | _ => .ok none

/-- The speaker of a host. A window sounds unless it is muted, a terminal only if it is told not to
be muted, and a headless host never. A blank does not mute. -/
def speakerKind (kind : HostKind) (mute : Argument Bool) : SpeakerKind :=
  match kind with
  | .headless => .silent
  | .terminal => if mute.resolve true false then .silent else .bell
  | .window => if mute.resolve false false then .silent else .tone

/-- Instructions per second if no number is given. -/
def usualClockSpeed : Int := 1000

/-- What the program has before it opens its host. -/
structure Plan where
  kind : HostKind
  speaker : SpeakerKind
  /-- The text of the keymap, unless it is a blank. -/
  keymap : Option String
  engine : Engine
  clockSpeed : Int
  scale : Argument Int
  foreground : Argument String
  background : Argument String

/-- The argument of a needed setting. -/
def need (s : Setting α) (name : String) : Except Fault (Argument α) :=
  (s.get name).mapError .missing

/-- The name of a layout. Nothing, a blank and an empty name stand for the usual layout. -/
def layoutName (layout : Argument String) : String :=
  let name := layout.resolve "" ""
  if name.isEmpty then Layout.qwerty.name else name

/-- The keymap: the one that is given, which may be a blank, or that of the layout. -/
def keymapText (s : Settings) : Except Fault (Option String) := do
  match ← need s.keymap "keymap" with
  | .value text => return some text
  | .blank => return none
  | .absent =>
    let layout ← need s.layout "layout"
    return some (← (Layout.named (layoutName layout)).mapError .layout).keymap

/-- The program file. -/
def program (s : Settings) (e : Surroundings) : Except Fault (Array UInt8) := do
  match ← need s.filename "filename" with
  | .absent | .blank => throw .noFilename
  | .value name =>
    (ProgramFile.checkName name).mapError (.file name)
    (e.file name).mapError (.file name)

/-- What is found out before the clock is read for the first time. -/
def preflight (s : Settings) (e : Surroundings) :
    Except Fault (Option HostKind × Argument Bool × Option String × Engine) := do
  let renderer ← need s.renderer "renderer"
  let mute ← need s.mute "mute"
  let kind ← choose renderer e
  let keymap ← keymapText s
  let bytes ← program s e
  let engine ← (Engine.load? bytes e.clock e.dice).mapError fun
    | .tooBig f => .tooBig f
    | .clock f => .clock f
  return (kind, mute, keymap, engine)

/-- What is found out after that, still without the host. A blank clock speed sets no pace. -/
def complete (s : Settings)
    (found : Option HostKind × Argument Bool × Option String × Engine) : Except Fault Plan := do
  let (kind, mute, keymap, engine) := found
  let clockSpeed ← need s.clockSpeed "clock_speed"
  match kind with
  | none => throw (.unknownRenderer ((← need s.renderer "renderer").resolve "" ""))
  | some kind =>
    let scale ← need s.scale "scale"
    let foreground ← need s.foreground "fg"
    let background ← need s.background "bg"
    return ⟨kind, speakerKind kind mute, keymap, engine, clockSpeed.resolve usualClockSpeed 0,
      scale, foreground, background⟩

/-- Everything that does not need the host, with the clock as it was left. -/
def prepare (s : Settings) (e : Surroundings) : Clock × Except Fault Plan :=
  match preflight s e with
  | .error f => (e.clock, .error f)
  | .ok found => (found.2.2.2.clock, complete s found)

end Startup
end ChipEight
