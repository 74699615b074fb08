import ChipEight.Options.Basic

/-!
# ChipEight.Startup.Settings

What the program is started with. Each setting has an argument, or is not there at all, which is an
error only when the setting is needed.

* `Setting.get`: the argument of a setting that is needed.
* `Settings.ofOptions`: the settings of a command line, which gives them all.
-/

namespace ChipEight

/-- One setting. -/
inductive Setting (α : Type) where
  | missing
  | found (argument : Argument α)
deriving DecidableEq, Repr

namespace Setting

/-- A setting with a value. -/
def given (a : α) : Setting α := .found (.value a)

/-- A needed setting is not there. -/
structure Missing where
  name : String
deriving DecidableEq, Repr

/-- The argument of a needed setting. -/
def get (s : Setting α) (name : String) : Except Missing (Argument α) :=
  match s with
  | .missing => .error ⟨name⟩
  | .found a => .ok a

end Setting

/-- All settings of the program. -/
structure Settings where
  filename : Setting String
  clockSpeed : Setting Int
  renderer : Setting String
  scale : Setting Int
  mute : Setting Bool
  layout : Setting String
  keymap : Setting String
  foreground : Setting String
  background : Setting String
  skipUnknown : Setting Bool
  debug : Setting Bool

namespace Settings

/-- The settings of a command line. -/
def ofOptions (o : Options) : Settings where
  filename := .given o.filename
  clockSpeed := .found o.clockSpeed
  renderer := .found o.renderer
  scale := .found o.scale
  mute := .found (o.mute.map (· != 0))
  layout := .found o.layout
  keymap := .found o.keymap
  foreground := .found o.foreground
  background := .found o.background
  skipUnknown := .given o.skipUnknown
  debug := .given o.debug

end Settings
end ChipEight
