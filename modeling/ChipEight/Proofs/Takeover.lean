import ChipEight.Proofs.Grants
import ChipEight.Proofs.Turns

/-!
# ChipEight.Proofs.Takeover

Which calls take the host over and give it back, and who makes them.

* `HostCall.release?`: the call that gives back what a call takes over.
* `Idle`: calls that do neither. Displays and speakers that are open make no others.
* `GripsOf`: calls of which only that of a display does so.
* `Display.stop_eq`: closing a display gives back last what opening it took over.
* `Attached.Quiet`: once the display is open, nothing more is taken over or given back, and the
  display stays of its kind. A signal keeps that (`quiet_take`), and so does a whole run
  (`quiet_operate`).
-/

namespace ChipEight

/-! ## Calls that take over the host -/

namespace HostCall

/-- The call that gives back what a call takes over. -/
@[simp] def release? : HostCall → Option HostCall
  | .takeTerminal => some .releaseTerminal
  | .takeDisplay => some .releaseDisplay
  | _ => none

theorem release?_eq_some {take release : HostCall} (h : take.release? = some release) :
    release = .releaseTerminal ∨ release = .releaseDisplay := by
  cases take <;> cases h
  · exact .inl rfl
  · exact .inr rfl

/-- Whether a call takes the host over or gives it back. -/
@[simp] def isGrip : HostCall → Bool
  | .takeTerminal | .releaseTerminal | .takeDisplay | .releaseDisplay => true
  | _ => false

section

variable {take release : HostCall} (h : take.release? = some release)
include h

theorem isGrip_take : take.isGrip = true := by
  cases take <;> first | rfl | cases h

theorem isGrip_release : release.isGrip = true := by
  cases take <;> cases h <;> rfl

theorem release?_release : release.release? = none := by
  cases take <;> cases h <;> rfl

theorem isOptional_release : (Request.call release).isOptional = false := by
  cases take <;> cases h <;> rfl

end

end HostCall

/-- None of some calls takes anything over. -/
def TakesNothing (calls : List HostCall) : Prop := ∀ c ∈ calls, c.release? = none

/-- None of some calls takes anything over or gives it back. -/
def Idle (calls : List HostCall) : Prop := ∀ c ∈ calls, c.isGrip = false

theorem Idle.append {xs ys : List HostCall} (hx : Idle xs) (hy : Idle ys) : Idle (xs ++ ys) :=
  List.forall_mem_append.mpr ⟨hx, hy⟩

theorem TakesNothing.append {xs ys : List HostCall} (hx : TakesNothing xs) (hy : TakesNothing ys) :
    TakesNothing (xs ++ ys) := List.forall_mem_append.mpr ⟨hx, hy⟩

theorem Idle.takesNothing {calls : List HostCall} (h : Idle calls) : TakesNothing calls := by
  intro c hc
  cases hrelease : c.release? with
  | none => rfl
  | some release =>
    have hidle := h c hc
    rw [HostCall.isGrip_take hrelease] at hidle
    cases hidle

/-- Only the call with which a display took the host over takes it over or gives it back. -/
def GripsOf (held : Option HostCall) (calls : List HostCall) : Prop :=
  ∀ c ∈ calls, c.isGrip = true → held = some c

namespace GripsOf

variable {held : Option HostCall} {calls : List HostCall} {take release : HostCall}

theorem append {ys : List HostCall} (h : GripsOf held calls) (hys : Idle ys) :
    GripsOf held (calls ++ ys) := by
  intro c hc hgrip
  rcases List.mem_append.mp hc with hc | hc
  · exact h c hc hgrip
  · rw [hys c hc] at hgrip
    cases hgrip

theorem takesNothing (h : GripsOf none calls) : TakesNothing calls := by
  intro c hc
  cases hrelease : c.release? with
  | none => rfl
  | some release => cases h c hc (HostCall.isGrip_take hrelease)

section

variable (h : GripsOf (some take) calls) (hrelease : take.release? = some release)
include h hrelease

theorem release_eq {c r : HostCall} (hc : c ∈ calls) (hr : c.release? = some r) : r = release := by
  cases h c hc (HostCall.isGrip_take hr)
  exact Option.some.inj (hr.symm.trans hrelease)

theorem release_notMem : release ∉ calls := by
  intro hmem
  cases h release hmem (HostCall.isGrip_release hrelease)
  have hnone := HostCall.release?_release hrelease
  rw [hrelease] at hnone
  cases hnone

end

end GripsOf

namespace Display

/-- The call with which a display of this kind takes over its host. -/
def takeover? : Display → Option HostCall
  | .headless _ => none
  | .terminal _ => some .takeTerminal
  | .window _ => some .takeDisplay

variable (d : Display)

theorem idle_refresh_window (d : WindowDisplay) (changed : Bool) : Idle (d.refresh changed) := by
  unfold WindowDisplay.refresh
  split <;> simp [Idle]

theorem idle_resize (width height : Int) :
    Idle (d.resize width height).2.1 ∧ (d.resize width height).1.takeover? = d.takeover? := by
  cases d with
  | headless d => exact ⟨by simp [resize, Idle], rfl⟩
  | terminal d => exact ⟨by simp [resize, TerminalDisplay.resize, Idle], rfl⟩
  | window d =>
    refine ⟨?_, rfl⟩
    unfold resize WindowDisplay.resize
    dsimp only
    split
    · simp [Idle]
    · exact idle_refresh_window _ _

theorem idle_refresh (terminal : Terminal) (changed : Bool) :
    Idle (d.refresh terminal changed).2 ∧
      (d.refresh terminal changed).1.takeover? = d.takeover? := by
  cases d with
  | headless d => exact ⟨by simp [refresh, Idle], rfl⟩
  | terminal d =>
    refine ⟨?_, rfl⟩
    unfold refresh TerminalDisplay.refresh
    dsimp only
    split
    · split <;> simp [Idle]
    · split <;> simp [Idle]
  | window d => exact ⟨idle_refresh_window d changed, rfl⟩

theorem idle_setTitle {title : String} {t : Display} {calls : List HostCall}
    (h : d.setTitle title = .ok (t, calls)) : Idle calls ∧ t.takeover? = d.takeover? := by
  cases d with
  | headless d =>
    cases h
    exact ⟨by simp [Idle], rfl⟩
  | terminal d =>
    have htitle : ((d.setTitle title).map fun d => (terminal d, [])).mapError Fault.columns =
        .ok (t, calls) := h
    cases hset : d.setTitle title with
    | error f =>
      rw [hset] at htitle
      cases htitle
    | ok d' =>
      rw [hset] at htitle
      cases htitle
      exact ⟨by simp [Idle], rfl⟩
  | window d =>
    cases h
    exact ⟨by simp [Idle], rfl⟩

theorem takeover?_drawPixel (x y : Int) (lit : Bool) :
    (d.drawPixel x y lit).takeover? = d.takeover? := by
  cases d <;> rfl

theorem takeover?_whenRefused (changed : Display) :
    (d.whenRefused changed).takeover? = changed.takeover? ∨
      (d.whenRefused changed).takeover? = d.takeover? := by
  cases changed with
  | headless c => exact .inr rfl
  | terminal c => exact .inr rfl
  | window c => exact .inl rfl

/-- Closing a display gives back last what opening it took over. -/
theorem stop_eq {take : HostCall} (h : d.takeover? = some take) :
    ∃ release init, take.release? = some release ∧ d.stop = init ++ [release] ∧ Idle init := by
  cases d with
  | headless d => cases h
  | terminal d =>
    cases h
    exact ⟨.releaseTerminal, [.lineModeOn, .echoOn, .cursor 1], rfl, rfl, by simp [Idle]⟩
  | window d =>
    cases h
    exact ⟨.releaseDisplay, [], rfl, rfl, by simp [Idle]⟩

theorem takesNothing_stop : TakesNothing d.stop := by
  cases d <;> simp [stop, TerminalDisplay.stop, WindowDisplay.stop, TakesNothing]

end Display

namespace Speaker

theorem idle_calls (s : Speaker) (on : Bool) : Idle (s.calls on) := by
  unfold calls
  cases s.kind with
  | silent => simp [Idle]
  | bell =>
    dsimp only
    split <;> simp [Idle]
  | tone =>
    dsimp only
    split
    · simp [Idle]
    · split <;> simp [Idle]

theorem idle_start (kind : SpeakerKind) (frequency : Option Float) :
    Idle (start kind frequency).1 := by
  cases kind with
  | silent => simp [start, Idle]
  | bell => simp [start, Idle]
  | tone =>
    unfold start
    dsimp only
    split <;> simp [Idle]

theorem idle_stop (s : Speaker) : Idle s.stop := by
  unfold stop
  split <;> simp [Idle]

end Speaker

namespace Answers

theorem idle_granted {answers : Answers} {n : Nat} {requests : List Request}
    (h : Idle (requests.filterMap Request.call?)) :
    Idle ((answers.ask n requests).1.filterMap Reply.grantedCall?) := by
  intro c hc
  have hmem := mem_requests_of_granted (Reply.mem_granted.mp hc)
  exact h c (List.mem_filterMap.mpr ⟨_, hmem, rfl⟩)

end Answers

/-! ## An open host -/

namespace Frontend

/-- A signal takes nothing over and gives nothing back. -/
theorem idle_react (f : Frontend) (signal : Signal) :
    Idle ((f.react signal).2.filterMap Request.call?) ∧
      (f.react signal).1.display.takeover? = f.display.takeover? ∧
      (f.react signal).1.calls = f.calls := by
  cases signal with
  | resolution width height =>
    obtain ⟨hcalls, hdisplay⟩ := f.display.idle_resize width height
    refine ⟨?_, hdisplay, rfl⟩
    unfold react
    dsimp only
    rw [Request.filterMap_call?]
    exact hcalls
  | pixel cell lit =>
    refine ⟨?_, f.display.takeover?_drawPixel _ _ _, rfl⟩
    unfold react
    dsimp only
    rw [Display.calls_pixelRequests]
    simp [Idle]
  | refresh changed =>
    obtain ⟨hcalls, hdisplay⟩ := f.display.idle_refresh f.terminal changed
    refine ⟨?_, hdisplay, rfl⟩
    unfold react
    dsimp only
    rw [Request.filterMap_call?]
    exact hcalls
  | report frames operations =>
    unfold react
    dsimp only
    cases htitle : f.display.setTitle (Product.title frames operations) with
    | error fault => exact ⟨by simp [Idle], rfl, rfl⟩
    | ok shown =>
      obtain ⟨hcalls, hdisplay⟩ := f.display.idle_setTitle htitle
      refine ⟨?_, hdisplay, rfl⟩
      dsimp only
      rw [List.filterMap_append, Display.calls_titleRequests, Request.filterMap_call?]
      exact hcalls
  | buzzer on =>
    refine ⟨?_, rfl, rfl⟩
    unfold react Speaker.set
    dsimp only
    rw [Request.filterMap_call?]
    exact f.speaker.idle_calls on
  | print text => exact ⟨by simp [react, Request.call?, Idle], rfl, rfl⟩

end Frontend

namespace Attached

variable {held : Option HostCall} {a : Attached}

/-- A host with a display of the kind that took something over, and that has taken nothing and given
nothing back since. -/
structure Quiet (held : Option HostCall) (a : Attached) : Prop where
  display : a.frontend.display.takeover? = held
  calls : Idle a.frontend.calls.toList

theorem quiet_start (display : Display) (keyboard : Keyboard) (speaker : Speaker)
    (terminal : Terminal) (answers : Answers) (asked : Nat) :
    (start (.start display keyboard speaker terminal) answers asked).Quiet display.takeover? :=
  ⟨rfl, by simp [start, Frontend.start, Idle]⟩

section

variable (h : a.Quiet held)
include h

theorem quiet_request {changed : Frontend} {requests : List Request}
    (hrequests : Idle (requests.filterMap Request.call?))
    (hdisplay : changed.display.takeover? = a.frontend.display.takeover?)
    (hcalls : changed.calls = a.frontend.calls) : (a.request changed requests).Quiet held := by
  have hgranted : Idle ((a.answers.ask a.asked requests).1.filterMap Reply.grantedCall?) :=
    Answers.idle_granted hrequests
  unfold request
  generalize a.answers.ask a.asked requests = asking at hgranted ⊢
  obtain ⟨replies, _ | refusal⟩ := asking
  · refine ⟨hdisplay.trans h.display, ?_⟩
    rw [Frontend.toList_record, hcalls]
    exact h.calls.append hgranted
  · refine ⟨?_, ?_⟩
    · rcases a.frontend.display.takeover?_whenRefused changed.display with hkind | hkind
      · exact hkind.trans (hdisplay.trans h.display)
      · exact hkind.trans h.display
    · rw [Frontend.toList_record]
      exact h.calls.append hgranted

theorem quiet_take (signal : Signal) : (a.take signal).Quiet held := by
  by_cases hdown : a.isDown = true
  · rw [take_of_isDown hdown]
    exact h
  · obtain ⟨hrequests, hdisplay, hcalls⟩ := a.frontend.idle_react signal
    unfold take
    rw [if_neg hdown]
    exact quiet_request h hrequests hdisplay hcalls

theorem quiet_approach : a.approach.Quiet held := by
  unfold approach
  split
  · exact h
  · refine quiet_request h ?_ rfl rfl
    cases a.frontend.keyboard <;> simp [Keyboard.requests, Request.call?, Idle]

theorem quiet_poll (keys : Keypad) (clock : Clock) : (a.poll keys clock).host.Quiet held := by
  have happroach := quiet_approach h
  unfold poll
  dsimp only
  split
  · exact happroach
  · exact ⟨happroach.display, happroach.calls⟩

theorem idle_replies : Idle (a.replies.filterMap Reply.grantedCall?) := by
  intro c hc
  rcases List.mem_append.mp (Reply.mem_granted.mp hc) with hmem | hmem
  · obtain ⟨d, hd, heq⟩ := List.mem_map.mp hmem
    cases heq
    exact h.calls _ hd
  · simp at hmem

end

end Attached

namespace Startup

variable {held : Option HostCall} {session : Session Attached} (h : session.host.Quiet held)
include h

theorem quiet_send (signals : List Signal) : (session.send signals).host.Quiet held :=
  Session.host_send (P := Attached.Quiet held) (fun _ x ha => Attached.quiet_take ha x) h signals

theorem quiet_operate : (operate session).1.host.Quiet held := by
  unfold operate
  split
  · exact h
  · exact Session.host_runUntil (P := Attached.Quiet held)
      (fun _ x ha => Attached.quiet_take ha x)
      (fun _ keys clock ha => Attached.quiet_poll ha keys clock) h _

end Startup
end ChipEight
