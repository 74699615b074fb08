import ChipEight.Input.Keymap

/-!
# ChipEight.Input.Terminal

Keys from a terminal, which reports characters only. A listener reads them and puts the keys they
stand for into a queue; a poll empties the queue. A key counts as held for a short time after its
character, so that the repeats of the keyboard keep it down.

* `Listener.read`: one character. A mapped one puts its key into the queue, unless it is full; the
  escape character and the interrupt put a request to quit there and end the reading.
* `Listener.take?`: the oldest item.
* `TerminalKeys.hear`: the listener reads what is typed.
* `TerminalKeys.poll`: takes all items up to a request to quit, and lets go of the keys whose time
  is up.
-/

namespace ChipEight

/-- What waits in the queue: a key, or a request to quit. -/
inductive QueueItem where
  | key (k : Key)
  | quit
deriving DecidableEq, Repr

/-- The queue between the listener and the polls. -/
structure Listener where
  keymap : Keymap
  /-- The items that wait, oldest first. -/
  queue : List QueueItem
  /-- A request to quit that found the queue full and waits for room. -/
  quitWaits : Bool
  /-- The listener is asked to end. -/
  stopRequested : Bool
deriving DecidableEq, Repr

namespace Listener

/-- The number of items that the queue holds at most. -/
def capacity : Nat := 16

/-- A listener that has read nothing. -/
def start (keymap : Keymap) : Listener := ⟨keymap, [], false, false⟩

/-- Whether the queue has no room. -/
def isFull (l : Listener) : Bool := capacity ≤ l.queue.length

/-- Puts a key into the queue; one that finds no room is lost. -/
def offer (l : Listener) (k : Key) : Listener :=
  if l.isFull then l else { l with queue := l.queue ++ [.key k] }

/-- Puts a request to quit into the queue; one that finds no room waits. -/
def requestQuit (l : Listener) : Listener :=
  if l.isFull then { l with quitWaits := true } else { l with queue := l.queue ++ [.quit] }

/-- The characters that ask to quit: escape and the interrupt. -/
def asksToQuit (code : Int) : Bool := code == 27 || code == 3

/-- How reading one character ended. -/
inductive Outcome where
  /-- The listener goes on. -/
  | goesOn
  /-- The character asked to quit, and the listener reads no more. -/
  | quits
  /-- The character has no lower case, and the listener reads no more. -/
  | fails (fault : LowerCase.Fault)
deriving DecidableEq, Repr

/-- Reads one character. A negative number stands for none. -/
def read (l : Listener) (char : Int) : Listener × Outcome :=
  if char < 0 then (l, .goesOn)
  else
    match LowerCase.ofNumber char with
    | .error f => (l, .fails f)
    | .ok code =>
      if asksToQuit code then (l.requestQuit, .quits)
      else
        match l.keymap.key? code with
        | some k => (l.offer k, .goesOn)
        | none => (l, .goesOn)

/-- Reads characters until one of them ends the reading. -/
def readAll (l : Listener) : List Int → Listener × Outcome
  | [] => (l, .goesOn)
  | char :: rest =>
    match l.read char with
    | (t, .goesOn) => readAll t rest
    | (t, .quits) => (t, .quits)
    | (t, .fails f) => (t, .fails f)

/-- Listens to characters, unless asked to end. -/
def listen (l : Listener) (chars : List Int) : Listener × Outcome :=
  if l.stopRequested then (l, .goesOn) else l.readAll chars

/-- Takes the oldest item. A request to quit that waits for room then has it. -/
def take? (l : Listener) : Option (QueueItem × Listener) :=
  match l.queue with
  | [] => none
  | item :: rest =>
    if l.quitWaits then some (item, { l with queue := rest ++ [.quit], quitWaits := false })
    else some (item, { l with queue := rest })

/-- Asks the listener to end. -/
def requestStop (l : Listener) : Listener := { l with stopRequested := true }

end Listener

/-- The keys of a terminal: its listener, and when each key is let go. A time of zero stands for
none. -/
structure TerminalKeys where
  listener : Listener
  releaseAt : Vector Float 16

namespace TerminalKeys

/-- How long a key counts as held after its character, in seconds. -/
def holdTime : Float := 0.2

/-- Keys of a terminal before the first character. -/
def start (keymap : Keymap) : TerminalKeys := ⟨.start keymap, Vector.replicate 16 0.0⟩

/-- The listener reads characters, and says whether it goes on to the next ones. Whatever ends its
reading ends nothing else. -/
def hear (t : TerminalKeys) (chars : List Int) : TerminalKeys × Bool :=
  let (listener, outcome) := t.listener.listen chars
  ({ t with listener }, outcome == .goesOn)

/-- Puts a key down, unless it is down, and holds it from a time on. -/
def hold (t : TerminalKeys) (keys : Keypad) (k : Key) (time : Float) : TerminalKeys × Keypad :=
  ({ t with releaseAt := t.releaseAt.set k (time + holdTime) },
    if keys.isHeld k then keys else keys.press k)

/-- Takes at most `n` items, up to a request to quit. -/
def drainFor (time : Float) : Nat → TerminalKeys → Keypad → TerminalKeys × Keypad × Bool
  | 0, t, keys => (t, keys, false)
  | n + 1, t, keys =>
    match t.listener.take? with
    | none => (t, keys, false)
    | some (.quit, listener) => ({ t with listener }, keys, true)
    | some (.key k, listener) =>
      let (t, keys) := hold { t with listener } keys k time
      drainFor time n t keys

/-- Takes all items, up to a request to quit. -/
def drain (t : TerminalKeys) (keys : Keypad) (time : Float) : TerminalKeys × Keypad × Bool :=
  drainFor time (t.listener.queue.length + 1) t keys

/-- Whether a key is to be let go at a time. -/
def isOver (t : TerminalKeys) (k : Key) (time : Float) : Bool :=
  t.releaseAt[k] != 0.0 && t.releaseAt[k] ≤ time

/-- Lets go of a key if its time is up. -/
def expire (time : Float) (s : TerminalKeys × Keypad) (k : Key) : TerminalKeys × Keypad :=
  if s.1.isOver k time then
    ({ s.1 with releaseAt := s.1.releaseAt.set k 0.0 }, s.2.release k)
  else s

/-- Takes the keys that wait and says whether to quit. Keys are let go only if not. -/
def poll (t : TerminalKeys) (keys : Keypad) (time : Float) : TerminalKeys × Keypad × Bool :=
  match t.drain keys time with
  | (t, keys, true) => (t, keys, true)
  | (t, keys, false) =>
    let (t, keys) := (List.finRange 16).foldl (expire time) (t, keys)
    (t, keys, false)

end TerminalKeys
end ChipEight
