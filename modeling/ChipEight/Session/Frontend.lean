import ChipEight.Display.Basic
import ChipEight.Input.Terminal
import ChipEight.Input.Window
import ChipEight.Session.Basic
import ChipEight.Sound.Speaker

/-!
# ChipEight.Session.Frontend

A host made of a display, a keyboard and a speaker. It answers signals by calls to the terminal, the
window system and the mixer, which are kept in order. Once the display has refused a signal, no
later one does anything.

* `Keyboard`: the three kinds of keyboard. A headless one has no keys and never asks to quit. Beside
  that of a terminal the listener reads; when its reading ends, the keyboard only hears no more.
* `Frontend.react`: what one signal does, and what it asks for.
* `Frontend.take`: the same where all that is asked for is granted.
* `Frontend.take_of_refusal`: nothing follows a refusal.
-/

namespace ChipEight

/-- A keyboard of one of the three kinds. That of a window knows the events to come, one list for
each time it is asked. That of a terminal knows in the same way what will be typed, and whether its
listener is still reading. -/
inductive Keyboard where
  | headless (keymap : Keymap)
  | terminal (keys : TerminalKeys) (listening : Bool) (typed : List (List Int))
  | window (keymap : Keymap) (events : List (List WindowEvent))

namespace Keyboard

/-- A keyboard of a terminal whose listener has just been started. -/
def startTerminal (keymap : Keymap) (typed : List (List Int)) : Keyboard :=
  .terminal (.start keymap) true typed

/-- What is asked of the host before a keyboard can be asked for its keys. -/
def requests : Keyboard → List Request
  | .window _ _ => [.takeEvents]
  | _ => []

/-- Asks a keyboard for its keys. Only that of a terminal reads the clock. What has been typed since
the last time has reached its listener by then. -/
def poll (keyboard : Keyboard) (keys : Keypad) (clock : Clock) : Polled Keyboard :=
  match keyboard with
  | .headless _ => ⟨keyboard, keys, clock, .ok false⟩
  | .window _ [] => ⟨keyboard, keys, clock, .ok false⟩
  | .window keymap (events :: rest) =>
    let (keys, quit) := WindowKeys.poll keymap keys events
    ⟨.window keymap rest, keys, clock, .ok quit⟩
  | .terminal t listening typed =>
    let (t, listening) := if listening then t.hear (typed.headD []) else (t, false)
    match clock.read with
    | (clock, .error f) => ⟨.terminal t listening typed.tail, keys, clock, .error (.clock f)⟩
    | (clock, .ok time) =>
      let (t, keys, quit) := t.poll keys time
      ⟨.terminal t listening typed.tail, keys, clock, .ok quit⟩

theorem remaining_poll_le (keyboard : Keyboard) (keys : Keypad) (clock : Clock) :
    (keyboard.poll keys clock).clock.remaining ≤ clock.remaining := by
  cases keyboard with
  | headless keymap => exact Nat.le_refl _
  | window keymap events => cases events <;> exact Nat.le_refl _
  | terminal t listening typed =>
    have hr := clock.remaining_read_le
    unfold poll
    cases h : clock.read with
    | mk after result =>
      rw [h] at hr
      cases result with
      | error f => exact hr
      | ok time => exact hr

end Keyboard

/-- A display, a keyboard and a speaker, with what they asked of the host so far. -/
structure Frontend where
  display : Display
  keyboard : Keyboard
  speaker : Speaker
  terminal : Terminal
  calls : Array HostCall
  printed : String
  /-- Why the display refused a signal, if it did. -/
  refusal : Option Display.Fault

namespace Frontend

/-- A host that has not been asked for anything. -/
def start (display : Display) (keyboard : Keyboard) (speaker : Speaker) (terminal : Terminal) :
    Frontend :=
  ⟨display, keyboard, speaker, terminal, #[], "", none⟩

/-- Adds calls to those made so far. -/
def record (f : Frontend) (calls : List HostCall) : Frontend :=
  { f with calls := calls.foldl Array.push f.calls }

theorem toList_record (f : Frontend) (calls : List HostCall) :
    (f.record calls).calls.toList = f.calls.toList ++ calls := by
  simp [record]

/-- What a signal makes of the three, and what is asked of the host for it. A pixel that the display
does not have is left out. -/
def react (f : Frontend) : Signal → Frontend × List Request
  | .resolution width height =>
    let (display, calls, refusal) := f.display.resize width height
    ({ f with display, refusal }, calls.map .call)
  | .pixel cell lit =>
    ({ f with display := f.display.drawPixel cell.x.val cell.y.val lit },
      f.display.pixelRequests cell.x.val cell.y.val lit)
  | .refresh changed =>
    let (display, calls) := f.display.refresh f.terminal changed
    ({ f with display }, calls.map .call)
  | .report frames operations =>
    let title := Product.title frames operations
    match f.display.setTitle title with
    | .error fault => ({ f with refusal := some fault }, [])
    | .ok (display, calls) =>
      ({ f with display }, f.display.titleRequests title ++ calls.map .call)
  | .buzzer on =>
    let (speaker, calls) := f.speaker.set on
    ({ f with speaker }, calls.map .call)
  | .print text => ({ f with printed := f.printed ++ text ++ "\n" }, [.print text])

/-- Does what a signal asks for. -/
def perform (f : Frontend) (s : Signal) : Frontend :=
  let (f, requests) := f.react s
  f.record (requests.filterMap Request.call?)

/-- Does what a signal asks for, unless an earlier one was refused. -/
def take (f : Frontend) (s : Signal) : Frontend := if f.refusal.isSome then f else f.perform s

/-- Nothing follows a refusal. -/
theorem take_of_refusal {f : Frontend} (h : f.refusal.isSome) (s : Signal) : f.take s = f :=
  if_pos h

/-- Asks the keyboard for its keys. -/
def poll (f : Frontend) (keys : Keypad) (clock : Clock) : Polled Frontend :=
  let p := f.keyboard.poll keys clock
  ⟨{ f with keyboard := p.host }, p.keys, p.clock, p.result⟩

instance : Host Frontend where
  send := take
  poll := poll
  remaining_poll_le f := f.keyboard.remaining_poll_le

end Frontend
end ChipEight
