import ChipEight.Input.Keymap

/-!
# ChipEight.Input.Window

Keys from a window system, which reports each key going down and up. Closing the window asks to
quit, and so does letting go of the escape key.

* `WindowKeys.event`: what one event does.
* `WindowKeys.poll`: all pending events in order. A request to quit does not stop the others.
-/

namespace ChipEight

/-- What a window system reports. -/
inductive WindowEvent where
  | down (code : Int)
  | up (code : Int)
  | close
  | other
deriving DecidableEq, Repr

namespace WindowKeys

/-- The code of the escape key. -/
def escape : Int := 27

/-- The keypad after one event, and whether the event asks to quit. -/
def event (keymap : Keymap) (keys : Keypad) : WindowEvent → Keypad × Bool
  | .close => (keys, true)
  | .other => (keys, false)
  | .down code =>
    match keymap.key? code with
    | some k => (keys.press k, false)
    | none => (keys, false)
  | .up code =>
    if code = escape then (keys, true)
    else
      match keymap.key? code with
      | some k => (keys.release k, false)
      | none => (keys, false)

/-- The keypad after events in order, and whether one of them asks to quit. -/
def poll (keymap : Keymap) (keys : Keypad) (events : List WindowEvent) : Keypad × Bool :=
  events.foldl (fun (keys, quit) e =>
    let (keys, q) := event keymap keys e
    (keys, quit || q)) (keys, false)

end WindowKeys
end ChipEight
