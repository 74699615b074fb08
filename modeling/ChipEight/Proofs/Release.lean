import ChipEight.Proofs.Histories
import ChipEight.Proofs.Shutdown
import ChipEight.Proofs.Takeover

/-!
# ChipEight.Proofs.Release

What the program takes over of its host, and whether it gives it back.

* `Attends`: only the display has taken the host over, and the display is what will be closed last.
  So closing the host gives back what opening it took.
* `Held`: the host has been taken over and not given back.
* `Opens`: the ways in which opening a display can end.
* `held_stop`: a display gives back what it took over, unless the host refuses that.
* `host_held_iff`: the program leaves the host taken over exactly if the display does not open behind
  the call that takes it over, or closing is refused. A host that refuses nothing is left so exactly
  if a window fails to open.
-/

namespace ChipEight
namespace Startup

variable {s : Settings} {e : Surroundings} {p : Plan}

/-! ## The host before it is closed -/

/-- A host whose display is open. Only the call with which the display took it over has taken it over,
nothing has given it back, and the display is what will be closed last. -/
structure Attends (held : Option HostCall) (host : OpenHost) : Prop where
  opened : .opened .display ∈ host.events
  grips : GripsOf held (grantedCalls host.events)
  parts : ∃ front d, host.parts = front ++ [.display d] ∧ (∀ p ∈ front, Idle p.stop) ∧
    d.takeover? = held

namespace Attends

variable {held : Option HostCall} {host : OpenHost} (h : Attends held host)
include h

theorem hear {replies : List Reply} (hidle : Idle (replies.filterMap Reply.grantedCall?)) :
    Attends held (host.hear replies) where
  opened := List.mem_append_left _ h.opened
  grips := by
    rw [grantedCalls_hear]
    exact h.grips.append hidle
  parts := h.parts

theorem hold {p : OpenPart} (hidle : Idle p.stop) : Attends held (host.hold p) where
  opened := List.mem_append_left _ h.opened
  grips := by
    rw [grantedCalls_hold]
    exact h.grips
  parts := by
    obtain ⟨front, d, hparts, hfront, hkind⟩ := h.parts
    refine ⟨p :: front, d, congrArg (p :: ·) hparts, ?_, hkind⟩
    exact List.forall_mem_cons.mpr ⟨hidle, hfront⟩

theorem openPart (wrap : α → OpenPart) {opening : List HostCall × Except Fault α}
    (hopening : Idle opening.1) (hwrap : ∀ a, Idle (wrap a).stop) :
    Attends held (openPart wrap opening host).2 := by
  have hgranted : Idle ((host.answers.ask host.asked (opening.1.map .call)).1.filterMap
      Reply.grantedCall?) := by
    apply Answers.idle_granted
    rw [Request.filterMap_call?]
    exact hopening
  have hopens := opensPart wrap opening host
  generalize Startup.openPart wrap opening host = opened at hopens ⊢
  cases hopens with
  | refused hask =>
    rw [hask] at hgranted
    exact h.hear hgranted
  | failed hask =>
    rw [hask] at hgranted
    exact h.hear hgranted
  | opened hask =>
    rw [hask] at hgranted
    exact (h.hear hgranted).hold (hwrap _)

theorem leave {a : Attached} (ha : a.Quiet held) : Attends held (host.leave a) where
  opened := List.mem_append_left _ h.opened
  grips := (h.hear (Attached.idle_replies ha)).grips
  parts := by
    refine ⟨[.speaker a.frontend.speaker, .keyboard a.frontend.keyboard], a.frontend.display, rfl,
      ?_, ha.display⟩
    simp only [List.mem_cons, List.not_mem_nil, or_false, forall_eq_or_imp, forall_eq]
    exact ⟨a.frontend.speaker.idle_stop, by simp [OpenPart.stop, Idle]⟩

end Attends

theorem idle_openKeyboard (p : Plan) (e : Surroundings) : Idle (openKeyboard p e).1 := by
  unfold openKeyboard
  dsimp only
  split
  · simp [Idle]
  · simp [Idle]
  · split <;> simp [Idle]

theorem attends_stay {display : Display} {host : OpenHost}
    (hopen : openPart .display (openDisplay p) (.shut e.answers) = (.ok display, host))
    (h : Attends display.takeover? host) : Attends display.takeover? (stay s e p).host := by
  unfold stay
  rw [enter_eq, hopen]
  dsimp only
  have hkeyboard := h.openPart .keyboard (idle_openKeyboard p e)
    fun _ => by simp [OpenPart.stop, Idle]
  generalize openPart .keyboard (openKeyboard p e) host = opened at hkeyboard ⊢
  obtain ⟨f | keyboard, two⟩ := opened
  · exact hkeyboard
  dsimp only at hkeyboard ⊢
  have hopening : Idle (openSpeaker p).1 := Speaker.idle_start p.speaker none
  have hspeaker := hkeyboard.openPart .speaker hopening Speaker.idle_stop
  generalize openPart .speaker (openSpeaker p) two = opened at hspeaker ⊢
  obtain ⟨f | speaker, three⟩ := opened
  · exact hspeaker
  dsimp only at hspeaker ⊢
  cases openConsole s p with
  | error f => exact hspeaker
  | ok opened =>
    exact hspeaker.leave (quiet_operate (quiet_send (Attached.quiet_start _ _ _ _ _ _) _))

/-! ## Taken over and not given back -/

/-- Some calls take the host over, and later ones do not give it back. -/
def Held (calls : List HostCall) : Prop :=
  ∃ take release, take.release? = some release ∧
    Since (fun _ c => c = take) (· = release) calls

theorem not_held_nil : ¬ Held [] := fun ⟨_, _, _, h⟩ => not_since_nil h

section

variable {xs ys : List HostCall}

theorem not_takesNothing_of_held (h : Held xs) : ¬ TakesNothing xs := by
  obtain ⟨_, release, hrelease, before, take, later, rfl, rfl, -⟩ := h
  intro hnothing
  rw [hnothing take (by simp)] at hrelease
  cases hrelease

/-- Calls that take the host over and give nothing back. -/
theorem held_of_takes (htakes : ¬ TakesNothing xs)
    (hkeeps : ∀ take ∈ xs, ∀ release, take.release? = some release → release ∉ xs) : Held xs := by
  obtain ⟨take, htake, hsome⟩ : ∃ take ∈ xs, take.release? ≠ none := by
    simpa [TakesNothing] using htakes
  obtain ⟨release, h⟩ := Option.ne_none_iff_exists'.mp hsome
  have hkept := hkeeps take htake release h
  obtain ⟨before, later, rfl⟩ := List.append_of_mem htake
  refine ⟨take, release, h, before, take, later, rfl, rfl, ?_⟩
  rintro _ hmem rfl
  exact hkept (List.mem_append_right _ (List.mem_cons_of_mem _ hmem))

/-- Behind what takes over the host, all of it is given back. -/
theorem not_held_append (hys : TakesNothing ys)
    (h : ∀ take ∈ xs, ∀ release, take.release? = some release → release ∈ ys) :
    ¬ Held (xs ++ ys) := by
  rintro ⟨_, release, hrelease, before, take, later, hsplit, rfl, hlater⟩
  have hnot : take ∉ ys := by
    intro hmem
    rw [hys take hmem] at hrelease
    cases hrelease
  -- the call lies in the first part, so the whole second part comes later
  rcases List.append_eq_append_iff.mp hsplit with ⟨as, -, hys'⟩ | ⟨bs, hxs, hrest⟩
  · exact hnot (by rw [hys']; simp)
  · cases bs with
    | nil => exact hnot (by rw [← List.nil_append ys, ← hrest]; simp)
    | cons b bs =>
      obtain ⟨rfl, rfl⟩ := List.cons.inj hrest
      have hmem := h take (by rw [hxs]; simp) release hrelease
      exact hlater _ (List.mem_append_right _ hmem) rfl

end

/-! ## Opening the display -/

/-- A window is taken over, and then a blank is found where the size of the display should be, or
text that is no colour. -/
def Plan.FailsOpen (p : Plan) : Prop :=
  p.kind = .window ∧
    (p.scale = .blank ∨ ∃ f, Palette.read p.background p.foreground = .error f)

/-- What opening the display asks of the host, and what comes of it if that is granted. It is refused
before that, fails behind it, or leads to a display of the kind that was taken over. -/
inductive Opens (p : Plan) : List HostCall → Except Fault Display → Prop where
  | refused {f : Fault} (hnot : ¬ p.FailsOpen) : Opens p [] (.error f)
  | failed {calls : List HostCall} {f : Fault} (hfails : p.FailsOpen)
      (htake : .takeDisplay ∈ calls) (hfault : f = .blankScale ∨ ∃ g, f = .palette g) :
      Opens p calls (.error f)
  | opened {calls : List HostCall} {display : Display} (hnot : ¬ p.FailsOpen)
      (htake : GripsOf display.takeover? calls) :
      Opens p calls (.ok display)

theorem openTerminal_cases (scale : Option Int) :
    (∃ f, openTerminal scale = ([], .error f)) ∨
      ∃ d rows columns, openTerminal scale =
        ([.takeTerminal, .cursor 0, .echoOff, .lineModeOff, .newPad rows columns],
          .ok (.terminal d)) := by
  unfold openTerminal TerminalDisplay.start
  cases Count.repeats (scale.getD TerminalDisplay.usualScale) with
  | error f => exact .inl ⟨_, rfl⟩
  | ok _ => exact .inr ⟨_, _, _, rfl⟩

theorem opens_terminal (hnot : ¬ p.FailsOpen) (scale : Option Int) :
    Opens p (openTerminal scale).1 (openTerminal scale).2 := by
  rcases openTerminal_cases scale with ⟨f, h⟩ | ⟨d, rows, columns, h⟩
  · rw [h]
    exact .refused hnot
  · rw [h]
    exact .opened hnot (by simp [Display.takeover?, GripsOf])

theorem opens_window (hkind : p.kind = .window) (hscale : p.scale ≠ .blank) (scale : Option Int) :
    Opens p (openWindow p scale).1 (openWindow p scale).2 := by
  unfold openWindow WindowDisplay.start WindowDisplay.opening
  dsimp only
  cases hread : Palette.read p.background p.foreground with
  | error f => exact .failed ⟨hkind, .inr ⟨f, hread⟩⟩ (by simp) (.inr ⟨f, rfl⟩)
  | ok palette =>
    have hnot : ¬ p.FailsOpen := by
      rintro ⟨-, hblank | ⟨f, hfault⟩⟩
      · exact hscale hblank
      · rw [hread] at hfault
        cases hfault
    exact .opened hnot (by simp [Display.takeover?, GripsOf])

theorem opens (p : Plan) : Opens p (openDisplay p).1 (openDisplay p).2 := by
  unfold openDisplay
  cases hkind : p.kind with
  | headless =>
    have hnot : ¬ p.FailsOpen := fun hfails => by cases hkind.symm.trans hfails.1
    exact .opened hnot nofun
  | terminal =>
    have hnot : ¬ p.FailsOpen := fun hfails => by cases hkind.symm.trans hfails.1
    cases p.scale with
    | absent => exact opens_terminal hnot none
    | blank => exact .refused hnot
    | value scale => exact opens_terminal hnot (some scale)
  | window =>
    cases hscale : p.scale with
    | absent => exact opens_window hkind (by simp [hscale]) none
    | blank => exact .failed ⟨hkind, .inl hscale⟩ List.mem_cons_self (.inl rfl)
    | value scale => exact opens_window hkind (by simp [hscale]) (some scale)

/-- Nothing is given back while the display is opened, however far that gets. -/
theorem openDisplay_keeps (p : Plan) {take release : HostCall} (h : take.release? = some release) :
    release ∉ (openDisplay p).1 := by
  have hrelease := HostCall.release?_eq_some h
  unfold openDisplay
  split
  · simp
  · rename_i scale _ _
    rcases openTerminal_cases scale with ⟨f, hcalls⟩ | ⟨d, rows, columns, hcalls⟩
    · simp [hcalls]
    · rcases hrelease with rfl | rfl <;> simp [hcalls]
  · simp
  · unfold openWindow WindowDisplay.start WindowDisplay.opening
    rcases hrelease with rfl | rfl <;> simp
  · unfold WindowDisplay.opening
    rcases hrelease with rfl | rfl <;> simp

/-- An opening that breaks off behind the call that takes over the host leaves it so. -/
theorem held_of_broken_off {calls : List HostCall} (hbroken : ∀ c ∈ calls, c ∈ (openDisplay p).1)
    (htakes : ¬ TakesNothing calls) : Held calls :=
  held_of_takes htakes fun _ _ _ h hmem => openDisplay_keeps p h (hbroken _ hmem)

section

variable {answers : Answers} {host : OpenHost}

/-- A display that does not open leaves nothing open, and has asked for nothing of its own. -/
theorem host_unopened {f : Fault}
    (h : openPart .display (openDisplay p) (.shut answers) = (.error f, host)) :
    host.parts = [] ∧ .opened .display ∉ host.events ∧
      ∀ c ∈ grantedCalls host.events, c ∈ (openDisplay p).1 := by
  have hopens := opensPart .display (openDisplay p) (.shut answers)
  rw [h] at hopens
  obtain ⟨replies, refused, hask, rfl⟩ : ∃ replies refused,
      answers.ask 0 ((openDisplay p).1.map .call) = (replies, refused) ∧
        host = (OpenHost.shut answers).hear replies := by
    cases hopens with
    | refused hask => exact ⟨_, _, hask, rfl⟩
    | failed hask => exact ⟨_, _, hask, rfl⟩
  refine ⟨rfl, by simp [OpenHost.hear, OpenHost.shut], fun c hc => ?_⟩
  rw [grantedCalls_hear] at hc
  have hgranted : c ∈ (answers.ask 0 ((openDisplay p).1.map .call)).1.filterMap
      Reply.grantedCall? := by
    rw [hask]
    exact hc
  exact Answers.mem_of_grantedCall hgranted

theorem attends_opened {display : Display}
    (h : openPart .display (openDisplay p) (.shut answers) = (.ok display, host)) :
    Attends display.takeover? host := by
  have hmem := @Answers.mem_of_grantedCall answers 0 (openDisplay p).1
  have hparts := opens p
  have hopens := opensPart .display (openDisplay p) (.shut answers)
  rw [h] at hopens
  cases hopens with
  | opened hask hresult =>
    change answers.ask 0 _ = _ at hask
    rw [hask] at hmem
    rw [hresult] at hparts
    generalize (openDisplay p).1 = calls at hparts hmem
    cases hparts with
    | opened hnot htake =>
      refine ⟨?_, fun c hc hgrip => ?_, [], display, rfl, nofun, rfl⟩
      · simp [OpenHost.hold, OpenPart.part]
      · rw [grantedCalls_hold, grantedCalls_hear] at hc
        exact htake c (hmem hc) hgrip

end

/-! ## Start and end -/

section

variable {calls earlier : List HostCall} {take release : HostCall} {answers : Answers} {n : Nat}
  (h : GripsOf (some take) calls) (hrelease : take.release? = some release)
  (hlater : TakesNothing ((answers.ask n (earlier.map .call ++ [.call release])).1.filterMap
    Reply.grantedCall?))
include h hrelease hlater

/-- What was taken over is given back if the host grants the last call for that. -/
theorem not_held_of_released
    (hnone : (answers.ask n (earlier.map .call ++ [.call release])).2 = none) :
    ¬ Held (calls ++ (answers.ask n (earlier.map .call ++ [.call release])).1.filterMap
      Reply.grantedCall?) := by
  refine not_held_append hlater fun c hc r hr => ?_
  rw [h.release_eq hrelease hc hr]
  exact Reply.mem_granted.mpr (Answers.granted_of_mem hnone (by simp)
    (HostCall.isOptional_release hrelease))

/-- What was taken over is kept if the host refuses one of the calls for that. -/
theorem held_of_not_released (hidle : Idle earlier)
    (hrefused : (answers.ask n (earlier.map .call ++ [.call release])).2 ≠ none)
    (hsome : ¬ TakesNothing (calls ++
      (answers.ask n (earlier.map .call ++ [.call release])).1.filterMap Reply.grantedCall?)) :
    Held (calls ++ (answers.ask n (earlier.map .call ++ [.call release])).1.filterMap
      Reply.grantedCall?) := by
  have hfirst : Request.call release ∉ earlier.map Request.call := by
    intro hmem
    obtain ⟨c, hc, heq⟩ := List.mem_map.mp hmem
    cases heq
    have hgrip := hidle release hc
    rw [HostCall.isGrip_release hrelease] at hgrip
    cases hgrip
  refine held_of_takes hsome fun c hc r hr hmem => ?_
  rcases List.mem_append.mp hc with hc | hc
  · rw [h.release_eq hrelease hc hr] at hmem
    rcases List.mem_append.mp hmem with hmem | hmem
    · exact h.release_notMem hrelease hmem
    · exact Answers.notMem_of_refused hrefused hfirst (Reply.mem_granted.mp hmem)
  · rw [hlater c hc] at hr
    cases hr

end

/-- A display that has taken the host over gives it back as the last thing it asks for. -/
theorem held_stop {d : Display} {calls front : List HostCall} (answers : Answers) (n : Nat)
    (h : GripsOf d.takeover? calls) (hfront : Idle front) :
    Held (calls ++ (answers.ask n ((front ++ d.stop).map .call)).1.filterMap Reply.grantedCall?) ↔
      ¬ TakesNothing
          (calls ++ (answers.ask n ((front ++ d.stop).map .call)).1.filterMap Reply.grantedCall?) ∧
        (answers.ask n ((front ++ d.stop).map .call)).2 ≠ none := by
  have hlater : TakesNothing
      ((answers.ask n ((front ++ d.stop).map .call)).1.filterMap Reply.grantedCall?) :=
    fun c hc => hfront.takesNothing.append d.takesNothing_stop c (Answers.mem_of_grantedCall hc)
  cases hkind : d.takeover? with
  | none =>
    rw [hkind] at h
    have hnothing := h.takesNothing.append hlater
    exact ⟨fun h => absurd hnothing (not_takesNothing_of_held h), fun h => absurd hnothing h.1⟩
  | some take =>
    rw [hkind] at h
    obtain ⟨release, init, hrelease, hstop, hinit⟩ := d.stop_eq hkind
    have hrequests : (front ++ d.stop).map Request.call =
        (front ++ init).map Request.call ++ [.call release] := by
      rw [hstop, ← List.append_assoc, List.map_append]
      rfl
    rw [hrequests] at hlater ⊢
    constructor
    · intro hheld
      refine ⟨not_takesNothing_of_held hheld, fun hnone => ?_⟩
      exact not_held_of_released h hrelease hlater hnone hheld
    · rintro ⟨hsome, hrefused⟩
      exact held_of_not_released h hrelease hlater (hfront.append hinit) hrefused hsome

/-- An open display that has taken the host over gives it back, unless the host refuses that. -/
theorem held_close {held : Option HostCall} {host : OpenHost} (h : Attends held host) :
    Held (grantedCalls (host.close host.parts).1.events) ↔
      ¬ TakesNothing (grantedCalls (host.close host.parts).1.events) ∧
        (host.close host.parts).2 ≠ none := by
  obtain ⟨front, d, hparts, hfront, rfl⟩ := h.parts
  obtain ⟨hcalls, hrefused⟩ := grantedCalls_close host host.parts
  have hstops : host.parts.flatMap OpenPart.stop = front.flatMap OpenPart.stop ++ d.stop := by
    rw [hparts, List.flatMap_append, List.flatMap_singleton]
    rfl
  have hidle : Idle (front.flatMap OpenPart.stop) := by
    intro c hc
    obtain ⟨p, hp, hc⟩ := List.mem_flatMap.mp hc
    exact hfront p hp c hc
  rw [hcalls, hrefused, hstops]
  exact held_stop host.answers host.asked h.grips hidle

/-- A display that does not open is the end of the program, and nothing is closed. -/
theorem launch_unopened {p : Plan} {host : OpenHost} {f : Fault} (hplan : (prepare s e).2 = .ok p)
    (hopen : openPart .display (openDisplay p) (.shut e.answers) = (.error f, host)) :
    (launch s e).events = host.events ∧ (launch s e).result = .error f := by
  obtain ⟨hevents, hshutdown, hresult⟩ := launch_of_prepare hplan
  obtain ⟨hparts, -, -⟩ := host_unopened hopen
  have hstay : stay s e p = ⟨host, "", p.engine.clock, .error f⟩ := by
    unfold stay
    rw [enter_eq, hopen]
  rw [hstay] at hevents hshutdown hresult
  dsimp only at hevents hshutdown
  rw [hparts] at hevents hshutdown
  exact ⟨hevents, hresult hshutdown⟩

theorem attends_launch {p : Plan} {host : OpenHost} {display : Display}
    (hplan : (prepare s e).2 = .ok p)
    (hopen : openPart .display (openDisplay p) (.shut e.answers) = (.ok display, host)) :
    .opened .display ∈ (launch s e).events ∧
      (Held (grantedCalls (launch s e).events) ↔
        ¬ TakesNothing (grantedCalls (launch s e).events) ∧ (launch s e).shutdown ≠ none) := by
  obtain ⟨hevents, hshutdown, -⟩ := launch_of_prepare hplan
  have hattends := attends_stay (s := s) hopen (attends_opened hopen)
  obtain ⟨after, hafter, -⟩ := close_events (stay s e p).host (stay s e p).host.parts
  rw [hevents, hshutdown]
  refine ⟨?_, held_close hattends⟩
  rw [hafter]
  exact List.mem_append_left _ hattends.opened

theorem held_launch {p : Plan} (hplan : (prepare s e).2 = .ok p) :
    Held (grantedCalls (launch s e).events) ↔
      ¬ TakesNothing (grantedCalls (launch s e).events) ∧
        (.opened .display ∉ (launch s e).events ∨ (launch s e).shutdown ≠ none) := by
  rcases hopen : openPart .display (openDisplay p) (.shut e.answers) with ⟨f | display, host⟩
  · obtain ⟨hevents, -⟩ := launch_unopened hplan hopen
    obtain ⟨-, hclosed, hcalls⟩ := host_unopened hopen
    rw [hevents]
    exact ⟨fun h => ⟨not_takesNothing_of_held h, .inl hclosed⟩,
      fun h => held_of_broken_off hcalls h.1⟩
  · obtain ⟨hopened, hheld⟩ := attends_launch hplan hopen
    rw [hheld]
    simp only [hopened, not_true, false_or]

section

variable (hobliging : ∀ n r, e.answers n r = none)
include hobliging

theorem openPart_obliging (wrap : α → OpenPart) (opening : List HostCall × Except Fault α) :
    openPart wrap opening (.shut e.answers) =
      match opening.2 with
      | .error f =>
        (.error f, (OpenHost.shut e.answers).hear ((opening.1.map Request.call).map .granted))
      | .ok a =>
        (.ok a, ((OpenHost.shut e.answers).hear
          ((opening.1.map Request.call).map .granted)).hold (wrap a)) := by
  have hask : (OpenHost.shut e.answers).answers.ask (OpenHost.shut e.answers).asked
      (opening.1.map .call) = ((opening.1.map Request.call).map .granted, none) :=
    Answers.ask_eq (fun n r _ => hobliging n r) 0
  unfold openPart OpenHost.call
  rewrite [hask]
  cases opening.2 <;> rfl

/-- On a host that refuses nothing, all is granted that a display asks for which does not open. -/
theorem launch_unopened_obliging {p : Plan} {calls : List HostCall} {f : Fault}
    (hplan : (prepare s e).2 = .ok p) (hdisplay : openDisplay p = (calls, .error f)) :
    grantedCalls (launch s e).events = calls ∧ (launch s e).result = .error f := by
  have hfault : (openDisplay p).2 = .error f := congrArg Prod.snd hdisplay
  have hopen := openPart_obliging hobliging .display (openDisplay p)
  rw [hfault] at hopen
  obtain ⟨hevents, hresult⟩ := launch_unopened hplan hopen
  refine ⟨?_, hresult⟩
  rw [hevents, hdisplay]
  exact (grantedCalls_hear _ _).trans (Reply.filterMap_granted calls)

theorem launch_opened_obliging {p : Plan} {calls : List HostCall} {display : Display}
    (hplan : (prepare s e).2 = .ok p) (hdisplay : openDisplay p = (calls, .ok display)) :
    ¬ Held (grantedCalls (launch s e).events) := by
  have hok : (openDisplay p).2 = .ok display := congrArg Prod.snd hdisplay
  have hopen := openPart_obliging hobliging .display (openDisplay p)
  rw [hok] at hopen
  obtain ⟨-, hheld⟩ := attends_launch hplan hopen
  rw [hheld]
  exact fun h => h.2 (shutdown_eq_none fun n _ _ _ => hobliging n _)

/-- A host that refuses nothing is left taken over if a window fails to open, and else not. -/
theorem held_launch_obliging {p : Plan} (hplan : (prepare s e).2 = .ok p) :
    (Held (grantedCalls (launch s e).events) ↔ p.FailsOpen) ∧
      (p.FailsOpen → (launch s e).result = .error .blankScale ∨
        ∃ f, (launch s e).result = .error (.palette f)) := by
  have hopens := opens p
  rcases hdisplay : openDisplay p with ⟨calls, result⟩
  rw [hdisplay] at hopens
  cases hopens with
  | refused hnot =>
    obtain ⟨hcalls, -⟩ := launch_unopened_obliging hobliging hplan hdisplay
    rw [hcalls]
    exact ⟨iff_of_false not_held_nil hnot, fun hfails => absurd hfails hnot⟩
  | failed hfails htake hfault =>
    obtain ⟨hcalls, hresult⟩ := launch_unopened_obliging hobliging hplan hdisplay
    have hheld : Held calls := by
      refine held_of_broken_off (p := p) (fun c hc => ?_) fun hnothing => ?_
      · rw [hdisplay]
        exact hc
      · cases hnothing _ htake
    rw [hcalls, hresult]
    refine ⟨iff_of_true hheld hfails, fun _ => ?_⟩
    rcases hfault with rfl | ⟨g, rfl⟩
    · exact .inl rfl
    · exact .inr ⟨g, rfl⟩
  | opened hnot =>
    have hgiven := launch_opened_obliging (s := s) hobliging hplan hdisplay
    exact ⟨iff_of_false hgiven hnot, fun hfails => absurd hfails hnot⟩

end

/-- **The host is left taken over exactly if the display does not open behind the call that takes it
over, or if the host refuses to be closed.** If the host refuses nothing, that is so exactly if a
window fails to open, and the program then fails with what is wrong about the size or the colours.
Whatever else might break off the opening of a display behind the call that takes over the host,
would leave it so too. -/
theorem host_held_iff (s : Settings) (e : Surroundings) :
    (Held (grantedCalls (launch s e).events) ↔
        ¬ TakesNothing (grantedCalls (launch s e).events) ∧
          (.opened .display ∉ (launch s e).events ∨ (launch s e).shutdown ≠ none)) ∧
      ((∀ n r, e.answers n r = none) →
        (Held (grantedCalls (launch s e).events) ↔ ∃ p, (prepare s e).2 = .ok p ∧ p.FailsOpen) ∧
          (Held (grantedCalls (launch s e).events) → (launch s e).result = .error .blankScale ∨
            ∃ f, (launch s e).result = .error (.palette f))) ∧
      ∀ p calls, calls <+: (openDisplay p).1 → ¬ TakesNothing calls → Held calls := by
  refine ⟨?_, fun hobliging => ?_, fun p calls hbroken => held_of_broken_off fun _ => hbroken.mem⟩
  · cases hplan : (prepare s e).2 with
    | error f =>
      rw [events_of_prepare hplan]
      exact iff_of_false not_held_nil fun h => h.1 nofun
    | ok p => exact held_launch hplan
  · cases hplan : (prepare s e).2 with
    | error f =>
      rw [events_of_prepare hplan]
      exact ⟨iff_of_false not_held_nil (by simp), fun h => absurd h not_held_nil⟩
    | ok p =>
      obtain ⟨hheld, hresult⟩ := held_launch_obliging hobliging hplan
      refine ⟨?_, fun h => hresult (hheld.mp h)⟩
      rw [hheld]
      exact ⟨fun h => ⟨p, rfl, h⟩, fun ⟨_, heq, h⟩ => Except.ok.inj heq ▸ h⟩

/-- Settings that ask for a window and name the colour of lit pixels by a word. -/
def wordColoured : Settings where
  filename := .given ""
  clockSpeed := .found .absent
  renderer := .given "pygame"
  scale := .found .absent
  mute := .found .absent
  layout := .found .absent
  keymap := .found .absent
  foreground := .given "red"
  background := .found .absent
  skipUnknown := .given false
  debug := .given false

/-- Surroundings with a window system and an empty file. -/
def windowed : Surroundings := { crowded with windows := true, file := fun _ => .ok #[] }

/-- **A colour that is none leaves the display taken over.** -/
theorem window_left_open :
    (launch wordColoured windowed).result = .error (.palette (.colour .form)) ∧
      (launch wordColoured windowed).events =
        [.takeDisplay, .caption Product.name, .openWindow 512 256].map
          (fun c => .asked (.granted (.call c))) ∧
      Held (grantedCalls (launch wordColoured windowed).events) := by
  have hevents : (launch wordColoured windowed).events =
      [.takeDisplay, .caption Product.name, .openWindow 512 256].map
        (fun c => .asked (.granted (.call c))) := rfl
  refine ⟨rfl, hevents, ?_⟩
  rw [hevents]
  refine held_of_takes (fun hnothing => ?_) fun take _ release h => ?_
  · cases hnothing .takeDisplay List.mem_cons_self
  · rcases HostCall.release?_eq_some h with rfl | rfl <;>
      simp [grantedCalls, Reply.grantedCall?, Request.call?]

end Startup
end ChipEight
