import ChipEight.Options.Argument

/-!
# ChipEight.Options.Basic

What the command line can say: a file, options with a value, and switches.

* `Options`: the values that were given.
* `Flag`: the options by name; `Flag.all` gives the order in which they are listed.
-/

namespace ChipEight

/-- The values that a command line gives. -/
structure Options where
  filename : String
  clockSpeed : Argument Int
  renderer : Argument String
  scale : Argument Int
  mute : Argument Int
  layout : Argument String
  keymap : Argument String
  foreground : Argument String
  background : Argument String
  skipUnknown : Bool
  debug : Bool
deriving DecidableEq, Repr

/-- An option of the command line. -/
inductive Flag where
  | help
  | clockSpeed
  | renderer
  | scale
  | mute
  | layout
  | keymap
  | foreground
  | background
  | skipUnknown
  | debug
deriving DecidableEq, Repr

namespace Flag

/-- All options in the order in which they are listed. -/
def all : List Flag := [help, clockSpeed, renderer, scale, mute, layout, keymap, foreground,
  background, skipUnknown, debug]

/-- The spellings of an option, the short one first. -/
def names : Flag → List String
  | help => ["-h", "--help"]
  | clockSpeed => ["-c", "--clock_speed"]
  | renderer => ["-r", "--renderer"]
  | scale => ["-s", "--scale"]
  | mute => ["-m", "--mute"]
  | layout => ["-l", "--layout"]
  | keymap => ["-k", "--keymap"]
  | foreground => ["--fg"]
  | background => ["--bg"]
  | skipUnknown => ["--skip_unknown"]
  | debug => ["-d", "--debug"]

/-- What kind of value an option takes. -/
inductive Value where
  /-- The option is a switch. -/
  | none
  | integer
  | integerOf (choices : List Int)
  | text
  | textOf (choices : List String)

/-- What an option takes. -/
def value : Flag → Value
  | help | skipUnknown | debug => .none
  | clockSpeed | scale => .integer
  | mute => .integerOf [0, 1]
  | renderer => .textOf ["pygame", "curses", "null"]
  | layout => .textOf ["qwerty", "colemak"]
  | keymap | foreground | background => .text

/-- Whether an option is a switch. -/
def isSwitch (f : Flag) : Bool :=
  match f.value with
  | .none => true
  | _ => false

/-- All spellings with their options, in the order in which they are listed. -/
def spellings : List (String × Flag) := all.flatMap fun f => f.names.map (·, f)

/-- The option with a spelling. -/
def named? (name : String) : Option Flag := spellings.lookup name

/-- All spellings of an option, as messages show them. -/
def title (f : Flag) : String := "/".intercalate f.names

end Flag
end ChipEight
