import ChipEight.Sound.Wave

/-!
# ChipEight.Host.Call

What the program asks of its host: of a terminal, of a window system with its sound mixer, and of
the thread that listens to the terminal. The host may refuse whatever it is asked.

* `HostCall`, `Request`: what can be asked.
* `Answers.ask`: requests in order, up to one that is refused. A refusal that may be passed over ends
  nothing.
* `Answers.ask_append`: what is asked first decides whether the rest is asked.
-/

namespace ChipEight

/-- A picture that is sent to a window: its pixels in three bytes each, stretched to a size. -/
structure Picture where
  bytes : Nat
  width : Int
  height : Int
  checksum : Nat
  scaledWidth : Int
  scaledHeight : Int
deriving DecidableEq, Repr

/-- One call to the host. -/
inductive HostCall where
  /-- Takes over the terminal. -/
  | takeTerminal
  /-- Shows (1) or hides (0) the cursor. -/
  | cursor (visibility : Nat)
  | echoOff
  | echoOn
  /-- Characters are read as they are typed. -/
  | lineModeOff
  | lineModeOn
  /-- Gives the terminal back. -/
  | releaseTerminal
  | beep
  | resizeTerminal (rows columns : Int)
  | newPad (rows columns : Int)
  /-- Shows the pad from its top left corner, from the first cell of the terminal to a last one. -/
  | showPad (lastRow lastColumn : Int)
  | clearTerminal
  | refreshTerminal
  /-- Starts the listener, which ends with the program if `daemon`. -/
  | startListener (daemon : Bool)
  /-- Takes over the display. -/
  | takeDisplay
  /-- Gives the display back. -/
  | releaseDisplay
  | caption (text : String)
  | openWindow (width height : Int)
  | blit (picture : Picture)
  | flip
  /-- Asks for a mixer with one channel of eight-bit samples and nothing else. -/
  | prepareMixer (rate : Nat)
  | openMixer
  | closeMixer
  | loadSound (wave : Wave)
  | setVolume (volume : Float)
  /-- Plays the sound over and over. -/
  | playSound
  | stopSound

/-- What is asked of the host. Besides calls that is text, and what nothing is seen of from outside. -/
inductive Request where
  | call (call : HostCall)
  /-- Writes a text on the pad from a cell on. The terminal shows it only with the pad. -/
  | write (row column : Int) (text : List Char) (inverted : Bool)
  /-- Takes the events that the window system has gathered. -/
  | takeEvents
  /-- Prints a line. -/
  | print (text : String)

namespace Request

/-- The call that is asked for. -/
def call? : Request → Option HostCall
  | .call c => some c
  | _ => none

@[simp] theorem filterMap_call? (calls : List HostCall) :
    (calls.map Request.call).filterMap call? = calls := by
  rw [List.filterMap_map]
  exact List.filterMap_some

/-- Whether a refusal may be passed over: a terminal that cannot show its cursor again is given back
all the same. -/
def isOptional : Request → Bool
  | .call (.cursor 1) => true
  | _ => false

end Request

/-- Why the host refuses a request. -/
structure HostFault where
  text : String
deriving DecidableEq, Repr

/-- A request that the host has refused. -/
structure HostRefusal where
  request : Request
  fault : HostFault

/-- What the host has said to a request. -/
inductive Reply where
  | granted (request : Request)
  | refused (refusal : HostRefusal)

namespace Reply

/-- The call that was made, whether it was granted or not. -/
def call? : Reply → Option HostCall
  | .granted r => r.call?
  | .refused r => r.request.call?

/-- The call that was granted. -/
def grantedCall? : Reply → Option HostCall
  | .granted r => r.call?
  | .refused _ => none

end Reply

/-- How a host answers. A request is refused or not, depending on how many came before it. -/
abbrev Answers := Nat → Request → Option HostFault

namespace Answers

/-- A host that refuses nothing. -/
def obliging : Answers := fun _ _ => none

/-- Makes requests in order, the first of them behind `asked` others, until one is refused. -/
def ask (answers : Answers) (asked : Nat) : List Request → List Reply × Option HostRefusal
  | [] => ([], none)
  | r :: rest =>
    match answers asked r with
    | none =>
      let (replies, refusal) := ask answers (asked + 1) rest
      (.granted r :: replies, refusal)
    | some f =>
      if r.isOptional then
        let (replies, refusal) := ask answers (asked + 1) rest
        (.refused ⟨r, f⟩ :: replies, refusal)
      else ([.refused ⟨r, f⟩], some ⟨r, f⟩)

variable {answers : Answers}

/-- A host that refuses nothing grants everything. -/
theorem ask_eq {requests : List Request} (h : ∀ n, ∀ r ∈ requests, answers n r = none) (n : Nat) :
    answers.ask n requests = (requests.map .granted, none) := by
  induction requests generalizing n with
  | nil => rfl
  | cons r rest ih =>
    rw [ask, h n r List.mem_cons_self, ih fun n r hr => h n r (List.mem_cons_of_mem _ hr)]
    rfl

/-- Requests are made one after the other, so the later ones are made if nothing stops the first. -/
theorem ask_append (answers : Answers) (n : Nat) (requests later : List Request) :
    answers.ask n (requests ++ later) =
      match answers.ask n requests with
      | (replies, some refusal) => (replies, some refusal)
      | (replies, none) =>
        let (more, refusal) := answers.ask (n + replies.length) later
        (replies ++ more, refusal) := by
  induction requests generalizing n with
  | nil => rfl
  | cons r rest ih =>
    rw [List.cons_append, ask, ask, ih]
    cases answers n r with
    | none =>
      dsimp only
      rcases answers.ask (n + 1) rest with ⟨replies, _ | refusal⟩
      · simp [Nat.add_assoc, Nat.add_comm 1]
      · rfl
    | some f =>
      dsimp only
      split
      · rcases answers.ask (n + 1) rest with ⟨replies, _ | refusal⟩
        · simp [Nat.add_assoc, Nat.add_comm 1]
        · rfl
      · rfl

end Answers
end ChipEight
