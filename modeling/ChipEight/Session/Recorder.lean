import ChipEight.Session.Basic

/-!
# ChipEight.Session.Recorder

A host without display and sound. It writes down what it is sent and plays keys from a script, one
frame for each time it is asked; when the script is over, it asks to quit.

* `Recorder.take`: one signal. Pixels go to a canvas and are counted, all else is written down.
* `Recorder.play`: the events of one frame.
-/

namespace ChipEight

/-- What a script does to the keys. -/
inductive ScriptEvent where
  | press (key : Int)
  | release (key : Int)
  | quit
deriving DecidableEq, Repr

/-- A host that writes down what it is sent. -/
structure Recorder where
  frames : List (List ScriptEvent)
  /-- Signals other than pixels and text, in order. -/
  log : Array Signal
  /-- The number of pixels drawn. -/
  writes : Nat
  canvas : Screen
  printed : String

namespace Recorder

/-- A recorder that has seen nothing. -/
def fresh : Recorder := ⟨[], #[], 0, .blank, ""⟩

/-- Writes down one signal. -/
def take (r : Recorder) : Signal → Recorder
  | .pixel cell lit => { r with writes := r.writes + 1, canvas := r.canvas.paint cell lit }
  | .print text => { r with printed := r.printed ++ text ++ "\n" }
  | signal => { r with log := r.log.push signal }

/-- The keys after the events of a frame, and whether one of them asks to quit. The events before a
wrong one have happened. -/
def play (keys : Keypad) : List ScriptEvent → Keypad × Except Keypad.Fault Bool
  | [] => (keys, .ok false)
  | .quit :: rest =>
    let (keys, result) := play keys rest
    (keys, result.map fun _ => true)
  | .press k :: rest =>
    match keys.pressAt k with
    | .error f => (keys, .error f)
    | .ok keys => play keys rest
  | .release k :: rest =>
    match keys.releaseAt k with
    | .error f => (keys, .error f)
    | .ok keys => play keys rest

/-- Plays the next frame. -/
def poll (r : Recorder) (keys : Keypad) (clock : Clock) : Polled Recorder :=
  match r.frames with
  | [] => ⟨r, keys, clock, .ok true⟩
  | frame :: rest =>
    let (keys, result) := play keys frame
    ⟨{ r with frames := rest }, keys, clock, result.mapError .key⟩

/-- A script takes no time. -/
theorem clock_poll (r : Recorder) (keys : Keypad) (clock : Clock) :
    (r.poll keys clock).clock = clock := by
  unfold poll
  split <;> rfl

instance : Host Recorder where
  send := take
  poll := poll
  remaining_poll_le r keys clock :=
    Nat.le_of_eq (congrArg Clock.remaining (r.clock_poll keys clock))

end Recorder
end ChipEight
