import ChipEight.Session.Frontend

/-!
# ChipEight.Session.Attached

A front end attached to a host that may refuse what it is asked. What a signal makes of the front end
holds once the host has granted all that is asked for it. With the first refusal the host is down: the
front end stays as it was, and whoever runs a session on it sees that behind the stage in which it
happened.

* `Attached.take`: what one signal does.
* `Attached.isDown`: the host has refused a request, or the display a signal.
* `Attached.take_of_isDown`: nothing follows that.
-/

namespace ChipEight

/-- A front end with the host to which it is attached. -/
structure Attached where
  frontend : Frontend
  answers : Answers
  /-- How many requests have been made of the host, those before the front end included. -/
  asked : Nat
  refused : Option HostRefusal

namespace Attached

/-- A front end that has just been attached, behind some requests. -/
def start (frontend : Frontend) (answers : Answers) (asked : Nat) : Attached :=
  ⟨frontend, answers, asked, none⟩

/-- Nothing more can be done with the host. -/
def isDown (a : Attached) : Bool := a.refused.isSome || a.frontend.refusal.isSome

/-- What the host has said, as far as it is written down: the calls that it granted, and what it
refused. -/
def replies (a : Attached) : List Reply :=
  a.frontend.calls.toList.map (fun c => .granted (.call c)) ++ a.refused.toList.map .refused

/-- Makes requests for a change of the front end. The calls that are granted are written down. -/
def request (a : Attached) (changed : Frontend) (requests : List Request) : Attached :=
  let (replies, refused) := a.answers.ask a.asked requests
  let frontend := match refused with
    | none => changed
    | some _ =>
      { a.frontend with display := a.frontend.display.whenRefused changed.display }
  { a with
    frontend := frontend.record (replies.filterMap Reply.grantedCall?)
    asked := a.asked + replies.length
    refused }

/-- Does what a signal asks for, unless the host is down. -/
def take (a : Attached) (s : Signal) : Attached :=
  if a.isDown then a
  else
    let (changed, requests) := a.frontend.react s
    a.request changed requests

/-- Nothing follows a refusal. -/
theorem take_of_isDown {a : Attached} (h : a.isDown = true) (s : Signal) : a.take s = a := if_pos h

/-- Makes the requests that come before the keyboard can be asked for its keys. -/
def approach (a : Attached) : Attached :=
  if a.isDown then a else a.request a.frontend a.frontend.keyboard.requests

/-- Asks the keyboard for its keys. If the host does not let it, nobody looks at the answer. -/
def poll (a : Attached) (keys : Keypad) (clock : Clock) : Polled Attached :=
  let a := a.approach
  if a.isDown then ⟨a, keys, clock, .ok true⟩
  else
    let p := a.frontend.poll keys clock
    ⟨{ a with frontend := p.host }, p.keys, p.clock, p.result⟩

instance : Host Attached where
  send := take
  poll := poll
  remaining_poll_le a keys clock := by
    unfold poll
    dsimp only
    split
    · exact Nat.le_refl _
    · exact Keyboard.remaining_poll_le _ _ _

end Attached
end ChipEight
