import ChipEight.Proofs.Keymaps
import ChipEight.Proofs.Loading
import ChipEight.Startup.Launch

/-!
# ChipEight.Proofs.Shutdown

What the program checks before it opens its host, and what it closes of it.

* `preflight_eq_ok`: what has to go well before anything is opened. `launch_of_preflight` is the case
  that it does not.
* `preflight_of_tooLong`: which faults a program that is too long can lead to.
* `HasOpened`: all that has been opened is open. Opening a part keeps that, whether the part opens or
  not (`openPart_attempt`).
* `guarded`: what is opened, and how the program ends, as if nothing were to be closed. It counts the
  requests to the host, since what the host refuses may depend on that.
* `Unwinds`, `unwinds_launch`: openings, and behind all of them closings in the opposite order.
* `checked_first_closed_last`: nothing is opened for a layout or a program that is refused, and what
  is opened is closed.
-/

namespace ChipEight
namespace Startup

variable {s : Settings} {e : Surroundings}

/-! ## Before the host -/

/-- No keymap is given, and no layout has the name that is given. -/
def UnknownLayout (s : Settings) : Prop :=
  (s.keymap = .missing ∨ s.keymap = .found .absent) ∧
    ∃ name, s.layout = .given name ∧ name ≠ "" ∧ ∀ l ∈ Layout.all, l.name ≠ LowerCase.ofText name

/-- The file that is named holds these bytes. -/
def Readable (s : Settings) (e : Surroundings) (bytes : Array UInt8) : Prop :=
  ∃ name, s.filename = .given name ∧ '\x00' ∉ name.toList ∧ e.file name = .ok bytes

/-- A keymap is given, or else a layout that has a name is one that there is. -/
def Acceptable (s : Settings) : Prop :=
  ∃ k, s.keymap = .found k ∧ (k = .absent → ∃ layout, s.layout = .found layout ∧
    ∀ name, layout = .value name → name ≠ "" → ∃ l ∈ Layout.all, l.name = LowerCase.ofText name)

/-- The faults that are the start's own. -/
def Fault.isOfStart : Fault → Bool
  | .noWindows | .noTerminals | .noFrontend | .tooBig _ => true
  | _ => false

theorem bind_eq_ok {x : Except ε α} {f : α → Except ε β} {b : β} :
    (x >>= f) = .ok b ↔ ∃ a, x = .ok a ∧ f a = .ok b := by
  cases x with
  | error _ =>
    constructor
    · intro h
      cases h
    · rintro ⟨_, h, -⟩
      cases h
  | ok a =>
    constructor
    · intro h
      exact ⟨a, rfl, h⟩
    · rintro ⟨_, h, hf⟩
      cases h
      exact hf

theorem ok_bind (a : α) (f : α → Except ε β) : (Except.ok a >>= f) = f a := rfl

theorem need_eq_ok {x : Setting α} {name : String} {a : Argument α} :
    need x name = .ok a ↔ x = .found a := by
  unfold need
  rw [mapError_eq_ok]
  cases x <;> simp [Setting.get]

theorem exists_found {x : Setting α} (h : x ≠ .missing) : ∃ a, x = .found a := by
  cases x with
  | missing => exact absurd rfl h
  | found a => exact ⟨a, rfl⟩

theorem isOk_named_iff {name : String} :
    (∃ l, Layout.named name = .ok l) ↔ ∃ l ∈ Layout.all, l.name = LowerCase.ofText name := by
  unfold Layout.named
  cases hfind : Layout.all.find? (·.name == LowerCase.ofText name) with
  | none =>
    rw [List.find?_eq_none] at hfind
    simpa using hfind
  | some l =>
    have hmem := List.mem_of_find?_eq_some hfind
    have hname := List.find?_some hfind
    exact ⟨fun _ => ⟨l, hmem, by simpa using hname⟩, fun _ => ⟨l, rfl⟩⟩

theorem preflight_eq_ok {found} (h : preflight s e = .ok found) :
    ∃ keymap bytes engine, keymapText s = .ok keymap ∧ program s e = .ok bytes ∧
      Engine.load? bytes e.clock e.dice = .ok engine := by
  unfold preflight at h
  obtain ⟨_, _, h⟩ := bind_eq_ok.mp h
  obtain ⟨_, _, h⟩ := bind_eq_ok.mp h
  obtain ⟨_, _, h⟩ := bind_eq_ok.mp h
  obtain ⟨keymap, hkeymap, h⟩ := bind_eq_ok.mp h
  obtain ⟨bytes, hbytes, h⟩ := bind_eq_ok.mp h
  obtain ⟨engine, hengine, -⟩ := bind_eq_ok.mp h
  exact ⟨keymap, bytes, engine, hkeymap, hbytes, mapError_eq_ok.mp hengine⟩

theorem program_eq_ok_iff {bytes : Array UInt8} :
    program s e = .ok bytes ↔ Readable s e bytes := by
  unfold program Readable
  rw [bind_eq_ok]
  simp only [need_eq_ok]
  constructor
  · rintro ⟨a, hname, h⟩
    cases a with
    | absent => cases h
    | blank => cases h
    | value name =>
      obtain ⟨_, hcheck, hfile⟩ := bind_eq_ok.mp h
      refine ⟨name, hname, ?_, mapError_eq_ok.mp hfile⟩
      intro hzero
      rw [mapError_eq_ok] at hcheck
      simp [ProgramFile.checkName, hzero] at hcheck
  · rintro ⟨name, hname, hzero, hfile⟩
    have hcheck : ProgramFile.checkName name = .ok () := by
      simp [ProgramFile.checkName, hzero]
    refine ⟨.value name, hname, bind_eq_ok.mpr ⟨(), mapError_eq_ok.mpr hcheck, ?_⟩⟩
    exact mapError_eq_ok.mpr hfile

theorem layoutName_value {name : String} (h : name ≠ "") : layoutName (.value name) = name := by
  simp [layoutName, Argument.resolve, String.isEmpty_iff, h]

theorem keymapText_ne_ok (h : UnknownLayout s) (keymap : Option String) :
    keymapText s ≠ .ok keymap := by
  obtain ⟨hkeymap, name, hlayout, hne, hunknown⟩ := h
  intro htext
  unfold keymapText at htext
  obtain ⟨a, ha, htext⟩ := bind_eq_ok.mp htext
  rw [need_eq_ok] at ha
  rcases hkeymap with hkeymap | hkeymap
  · rw [hkeymap] at ha
    cases ha
  · rw [hkeymap] at ha
    cases ha
    obtain ⟨b, hb, htext⟩ := bind_eq_ok.mp htext
    rw [need_eq_ok, hlayout] at hb
    cases hb
    obtain ⟨l, hl, -⟩ := bind_eq_ok.mp htext
    rw [mapError_eq_ok, layoutName_value hne] at hl
    obtain ⟨l, hmem, hname⟩ := isOk_named_iff.mp ⟨l, hl⟩
    exact hunknown l hmem hname

theorem exists_named (layout : Argument String)
    (h : ∀ name, layout = .value name → name ≠ "" →
      ∃ l ∈ Layout.all, l.name = LowerCase.ofText name) :
    ∃ l, Layout.named (layoutName layout) = .ok l := by
  cases layout with
  | absent => exact ⟨_, rfl⟩
  | blank => exact ⟨_, rfl⟩
  | value name =>
    by_cases hne : name = ""
    · subst hne
      exact ⟨_, rfl⟩
    · rw [layoutName_value hne]
      exact isOk_named_iff.mpr (h name rfl hne)

theorem keymapText_eq_ok (h : Acceptable s) : ∃ keymap, keymapText s = .ok keymap := by
  obtain ⟨k, hk, habsent⟩ := h
  have hneed : need s.keymap "keymap" = .ok k := need_eq_ok.mpr hk
  unfold keymapText
  cases k with
  | value text => exact ⟨some text, bind_eq_ok.mpr ⟨_, hneed, rfl⟩⟩
  | blank => exact ⟨none, bind_eq_ok.mpr ⟨_, hneed, rfl⟩⟩
  | absent =>
    obtain ⟨layout, hlayout, hknown⟩ := habsent rfl
    obtain ⟨l, hl⟩ := exists_named layout hknown
    refine ⟨some l.keymap, bind_eq_ok.mpr ⟨_, hneed, bind_eq_ok.mpr
      ⟨layout, need_eq_ok.mpr hlayout, bind_eq_ok.mpr ⟨l, ?_, rfl⟩⟩⟩⟩
    rw [hl]
    rfl

theorem readable_unique {bytes bytes' : Array UInt8} (h : Readable s e bytes)
    (h' : Readable s e bytes') : bytes = bytes' := by
  rw [← program_eq_ok_iff] at h h'
  exact Except.ok.inj (h.symm.trans h')

/-- What is refused before the host is opened. -/
theorem preflight_ne_ok
    (h : UnknownLayout s ∨ (∀ bytes, ¬ Readable s e bytes) ∨
      ∃ bytes, Readable s e bytes ∧ 3584 < bytes.size) (found) :
    preflight s e ≠ .ok found := by
  intro hok
  obtain ⟨keymap, bytes, engine, hkeymap, hbytes, hengine⟩ := preflight_eq_ok hok
  have hreadable := program_eq_ok_iff.mp hbytes
  rcases h with hlayout | hnone | ⟨bytes', hlong, hsize⟩
  · exact keymapText_ne_ok hlayout keymap hkeymap
  · exact hnone bytes hreadable
  · rw [readable_unique hreadable hlong, Engine.load?_of_tooLong hsize] at hengine
    cases hengine

theorem launch_of_preflight {f : Fault} (h : preflight s e = .error f) :
    launch s e = ⟨banner, [], e.clock, none, none, .error f⟩ := by
  unfold launch prepare
  rw [h]

theorem isOfStart_of_choose {renderer : Argument String} {f : Fault}
    (h : choose renderer e = .error f) : f.isOfStart = true := by
  unfold choose at h
  split at h
  · split at h
    · cases h
    · split at h <;> cases h
      rfl
  · split at h <;> cases h
    rfl
  · split at h <;> cases h
    rfl
  · cases h
  · cases h

/-- A program that is too long is what stops the start, unless there is no host for it. -/
theorem preflight_of_tooLong {bytes : Array UInt8} (hread : Readable s e bytes)
    (hsize : 3584 < bytes.size) (hacceptable : Acceptable s) (hrenderer : s.renderer ≠ .missing)
    (hmute : s.mute ≠ .missing) : ∃ f, preflight s e = .error f ∧ f.isOfStart = true := by
  obtain ⟨renderer, hr⟩ := exists_found hrenderer
  obtain ⟨mute, hm⟩ := exists_found hmute
  obtain ⟨keymap, hkeymap⟩ := keymapText_eq_ok hacceptable
  have hbytes := program_eq_ok_iff.mpr hread
  unfold preflight
  rw [need_eq_ok.mpr hr, ok_bind, need_eq_ok.mpr hm, ok_bind]
  cases hchoose : choose renderer e with
  | error f => exact ⟨f, rfl, isOfStart_of_choose hchoose⟩
  | ok kind =>
    rw [ok_bind, hkeymap, ok_bind, hbytes, ok_bind, Engine.load?_of_tooLong hsize]
    exact ⟨_, rfl, rfl⟩

/-! ## Openings and closings -/

/-- The parts that are opened, in order. -/
def openings (es : List Event) : List Part :=
  es.filterMap fun
    | .opened p => some p
    | _ => none

/-- The parts that are closed, in order. -/
def closings (es : List Event) : List Part :=
  es.filterMap fun
    | .closed p => some p
    | _ => none

/-- Some parts are opened, and after the last of them some parts are closed. -/
def Unwinds (es : List Event) (opens closes : List Part) : Prop :=
  ∃ before after, es = before ++ after ∧ openings before = opens ∧ closings before = [] ∧
    openings after = [] ∧ closings after = closes

@[simp] theorem openings_append (es fs : List Event) :
    openings (es ++ fs) = openings es ++ openings fs := List.filterMap_append

@[simp] theorem closings_append (es fs : List Event) :
    closings (es ++ fs) = closings es ++ closings fs := List.filterMap_append

@[simp] theorem openings_asked (replies : List Reply) : openings (replies.map .asked) = [] := by
  unfold openings
  rw [List.filterMap_map]
  exact List.filterMap_eq_nil_iff.mpr fun _ _ => rfl

@[simp] theorem closings_asked (replies : List Reply) : closings (replies.map .asked) = [] := by
  unfold closings
  rw [List.filterMap_map]
  exact List.filterMap_eq_nil_iff.mpr fun _ _ => rfl

theorem mem_openings {es : List Event} {part : Part} : part ∈ openings es ↔ .opened part ∈ es := by
  unfold openings
  rw [List.mem_filterMap]
  constructor
  · rintro ⟨event, hmem, hpart⟩
    cases event <;> cases hpart
    exact hmem
  · intro hmem
    exact ⟨_, hmem, rfl⟩

theorem openings_of_unwinds {es : List Event} {opens closes : List Part}
    (h : Unwinds es opens closes) : openings es = opens := by
  obtain ⟨before, after, rfl, hopens, -, hnone, -⟩ := h
  rw [openings_append, hopens, hnone, List.append_nil]

/-- A host of which some parts have been opened, in order, and all of them are still open. -/
structure HasOpened (host : OpenHost) (answers : Answers) (asked : Nat) (opens : List Part) :
    Prop where
  answers : host.answers = answers
  asked : host.asked = asked
  openings : openings host.events = opens
  closings : closings host.events = []
  parts : host.parts.map OpenPart.part = opens.reverse

namespace HasOpened

variable {host : OpenHost} {answers : Answers} {asked : Nat} {opens : List Part}

theorem shut (answers : Answers) : HasOpened (.shut answers) answers 0 [] :=
  ⟨rfl, rfl, rfl, rfl, rfl⟩

theorem hear (h : HasOpened host answers asked opens) (replies : List Reply) :
    HasOpened (host.hear replies) answers (asked + replies.length) opens where
  answers := h.answers
  asked := congrArg (· + replies.length) h.asked
  openings := by simp [OpenHost.hear, h.openings]
  closings := by simp [OpenHost.hear, h.closings]
  parts := h.parts

theorem hold (h : HasOpened host answers asked opens) (p : OpenPart) :
    HasOpened (host.hold p) answers asked (opens ++ [p.part]) where
  answers := h.answers
  asked := h.asked
  openings := by
    rw [OpenHost.hold, openings_append, h.openings]
    rfl
  closings := by
    rw [OpenHost.hold, closings_append, h.closings]
    rfl
  parts := by
    rw [OpenHost.hold, List.map_cons, h.parts, List.reverse_append]
    rfl

theorem leave (h : HasOpened host answers asked [.display, .keyboard, .speaker]) (a : Attached) :
    HasOpened (host.leave a) answers a.asked [.display, .keyboard, .speaker] where
  answers := h.answers
  asked := rfl
  openings := by simp [OpenHost.leave, h.openings]
  closings := by simp [OpenHost.leave, h.closings]
  parts := rfl

end HasOpened

/-- Closing opens nothing. Unless the host refuses, every part is closed. -/
theorem close_events (host : OpenHost) (parts : List OpenPart) :
    ∃ after, (host.close parts).1.events = host.events ++ after ∧ openings after = [] ∧
      closings after <+: parts.map OpenPart.part ∧
      ((host.close parts).2 = none → closings after = parts.map OpenPart.part) := by
  induction parts generalizing host with
  | nil => exact ⟨[], (List.append_nil _).symm, rfl, List.prefix_rfl, fun _ => rfl⟩
  | cons p rest ih =>
    rw [OpenHost.close, OpenHost.call]
    rcases (host.drop p).answers.ask (host.drop p).asked (p.stop.map .call) with ⟨replies, _ | r⟩
    · obtain ⟨after, hevents, hopens, hcloses, hall⟩ := ih ((host.drop p).hear replies)
      refine ⟨.closed p.part :: replies.map .asked ++ after, ?_, ?_, ?_, fun hnone => ?_⟩
      · simpa [OpenHost.hear, OpenHost.drop] using hevents
      · rw [openings_append, hopens, List.append_nil]
        exact openings_asked replies
      · rw [closings_append, List.map_cons]
        have hfirst : closings (.closed p.part :: replies.map .asked) = [p.part] :=
          congrArg (p.part :: ·) (closings_asked replies)
        rw [hfirst]
        exact List.prefix_cons_inj _ |>.mpr hcloses
      · rw [closings_append, List.map_cons, hall hnone]
        exact congrArg (· ++ _) (congrArg (p.part :: ·) (closings_asked replies))
    · refine ⟨.closed p.part :: replies.map .asked, ?_, openings_asked replies, ?_, nofun⟩
      · simp [OpenHost.hear, OpenHost.drop]
      · rw [List.map_cons]
        exact ⟨_, congrArg (p.part :: · ++ _) (closings_asked replies)⟩

/-! ## Opening the host -/

theorem bind_apply (x : Opening α) (f : α → Opening β) (host : OpenHost) :
    (x >>= f) host = match x host with
      | (.ok a, host) => f a host
      | (.error fault, host) => (.error fault, host) := by
  change (ExceptT.bindCont f (x host).1) (x host).2 = _
  rcases x host with ⟨fault | a, host⟩
  · rfl
  · rfl

/-- The steps of entering. -/
theorem enter_eq (s : Settings) (e : Surroundings) (p : Plan) (host : OpenHost) :
    enter s e p host =
      match openPart .display (openDisplay p) host with
      | (.error f, host) => (.error f, host)
      | (.ok display, host) =>
        match openPart .keyboard (openKeyboard p e) host with
        | (.error f, host) => (.error f, host)
        | (.ok keyboard, host) =>
          match openPart .speaker (openSpeaker p) host with
          | (.error f, host) => (.error f, host)
          | (.ok speaker, host) =>
            match openConsole s p with
            | .error f => (.error f, host)
            | .ok (console, signals) =>
              let attached := Attached.start (.start display keyboard speaker e.terminal)
                host.answers host.asked
              (.ok ((⟨console, attached⟩ : Session Attached).send signals), host) := by
  unfold enter
  rw [bind_apply]
  rcases openPart .display (openDisplay p) host with ⟨f | display, host⟩
  · rfl
  dsimp only
  rw [bind_apply]
  rcases openPart .keyboard (openKeyboard p e) host with ⟨f | keyboard, host⟩
  · rfl
  dsimp only
  rw [bind_apply]
  rcases openPart .speaker (openSpeaker p) host with ⟨f | speaker, host⟩
  · rfl
  dsimp only
  cases openConsole s p with
  | error f => rfl
  | ok opened => rfl

/-- The ways in which opening a part can end. -/
inductive OpensPart (wrap : α → OpenPart) (opening : List HostCall × Except Fault α)
    (host : OpenHost) : Except Fault α × OpenHost → Prop where
  | refused {replies : List Reply} {refusal : HostRefusal}
      (hask : host.answers.ask host.asked (opening.1.map .call) = (replies, some refusal)) :
      OpensPart wrap opening host (.error (.host refusal.fault), host.hear replies)
  | failed {replies : List Reply} {f : Fault}
      (hask : host.answers.ask host.asked (opening.1.map .call) = (replies, none))
      (hresult : opening.2 = .error f) :
      OpensPart wrap opening host (.error f, host.hear replies)
  | opened {replies : List Reply} {a : α}
      (hask : host.answers.ask host.asked (opening.1.map .call) = (replies, none))
      (hresult : opening.2 = .ok a) :
      OpensPart wrap opening host (.ok a, (host.hear replies).hold (wrap a))

theorem opensPart (wrap : α → OpenPart) (opening : List HostCall × Except Fault α)
    (host : OpenHost) : OpensPart wrap opening host (openPart wrap opening host) := by
  unfold openPart OpenHost.call
  rcases hask : host.answers.ask host.asked (opening.1.map .call) with ⟨replies, _ | refusal⟩
  · dsimp only
    cases hresult : opening.2 with
    | error f => exact .failed hask hresult
    | ok a => exact .opened hask hresult
  · exact .refused hask

/-- How often the host has been asked once a part has been opened, and what has come of the part. -/
def attempt (answers : Answers) (asked : Nat) (opening : List HostCall × Except Fault α) :
    Nat × Except Fault α :=
  match answers.ask asked (opening.1.map .call) with
  | (replies, some r) => (asked + replies.length, .error (.host r.fault))
  | (replies, none) => (asked + replies.length, opening.2)

theorem openPart_attempt {host : OpenHost} {answers : Answers} {n : Nat} {opens : List Part}
    (h : HasOpened host answers n opens) (wrap : α → OpenPart)
    (opening : List HostCall × Except Fault α) :
    ∃ next, openPart wrap opening host = ((attempt answers n opening).2, next) ∧
      HasOpened next answers (attempt answers n opening).1
        (match (attempt answers n opening).2 with
        | .error _ => opens
        | .ok a => opens ++ [(wrap a).part]) := by
  obtain rfl := h.answers
  obtain rfl := h.asked
  have hopens := opensPart wrap opening host
  unfold attempt
  generalize openPart wrap opening host = opened at hopens ⊢
  cases hopens with
  | refused hask =>
    rw [hask]
    exact ⟨_, rfl, h.hear _⟩
  | failed hask hresult =>
    rw [hask, hresult]
    exact ⟨_, rfl, h.hear _⟩
  | opened hask hresult =>
    rw [hask, hresult]
    exact ⟨_, rfl, (h.hear _).hold _⟩

/-- How the program ends once all of its host is open. -/
def managed (s : Settings) (p : Plan) (a : Attached) : Except Fault Unit :=
  match openConsole s p with
  | .error f => .error f
  | .ok (console, signals) => (operate ((⟨console, a⟩ : Session Attached).send signals)).2

/-- The parts that are opened, and how the program ends with them, if nothing were to be closed. -/
def guarded (s : Settings) (e : Surroundings) (p : Plan) : List Part × Except Fault Unit :=
  match attempt e.answers 0 (openDisplay p) with
  | (_, .error f) => ([], .error f)
  | (n, .ok display) =>
    match attempt e.answers n (openKeyboard p e) with
    | (_, .error f) => ([.display], .error f)
    | (n, .ok keyboard) =>
      match attempt e.answers n (openSpeaker p) with
      | (_, .error f) => ([.display, .keyboard], .error f)
      | (n, .ok speaker) =>
        ([.display, .keyboard, .speaker],
          managed s p (.start (.start display keyboard speaker e.terminal) e.answers n))

/-- What is opened if the speaker is not. -/
theorem guarded_of_silent {p : Plan} {n m k : Nat} {display : Display} {keyboard : Keyboard}
    {f : Fault} (hdisplay : attempt e.answers 0 (openDisplay p) = (n, .ok display))
    (hkeyboard : attempt e.answers n (openKeyboard p e) = (m, .ok keyboard))
    (hspeaker : attempt e.answers m (openSpeaker p) = (k, .error f)) :
    guarded s e p = ([.display, .keyboard], .error f) := by
  unfold guarded
  rw [hdisplay]
  dsimp only
  rw [hkeyboard]
  dsimp only
  rw [hspeaker]

/-- When the program begins to close its host, what it has opened is open. -/
theorem stay_guarded (s : Settings) (e : Surroundings) (p : Plan) :
    (∃ asked, HasOpened (stay s e p).host e.answers asked (guarded s e p).1) ∧
      (stay s e p).result = (guarded s e p).2 := by
  unfold stay guarded
  rw [enter_eq]
  have hnone := HasOpened.shut e.answers
  obtain ⟨one, hopen, hone⟩ := openPart_attempt hnone .display (openDisplay p)
  rw [hopen]
  generalize attempt e.answers 0 (openDisplay p) = attempted at hone ⊢
  obtain ⟨n, f | display⟩ := attempted
  · exact ⟨⟨n, hone⟩, rfl⟩
  dsimp only at hone ⊢
  obtain ⟨two, hopen, htwo⟩ := openPart_attempt hone .keyboard (openKeyboard p e)
  rw [hopen]
  generalize attempt e.answers n (openKeyboard p e) = attempted at htwo ⊢
  obtain ⟨n, f | keyboard⟩ := attempted
  · exact ⟨⟨n, htwo⟩, rfl⟩
  dsimp only at htwo ⊢
  obtain ⟨three, hopen, hthree⟩ := openPart_attempt htwo .speaker (openSpeaker p)
  rw [hopen]
  generalize attempt e.answers n (openSpeaker p) = attempted at hthree ⊢
  obtain ⟨n, f | speaker⟩ := attempted
  · exact ⟨⟨n, hthree⟩, rfl⟩
  dsimp only at hthree ⊢
  rw [hthree.answers, hthree.asked]
  unfold managed
  cases openConsole s p with
  | error f => exact ⟨⟨n, hthree⟩, rfl⟩
  | ok opened => exact ⟨⟨_, hthree.leave _⟩, rfl⟩

theorem openings_guarded (s : Settings) (e : Surroundings) (p : Plan) :
    (guarded s e p).1 <+: [.display, .keyboard, .speaker] := by
  unfold guarded
  split
  · exact List.nil_prefix
  · split
    · exact ⟨[.keyboard, .speaker], rfl⟩
    · split
      · exact ⟨[.speaker], rfl⟩
      · exact List.prefix_rfl

/-- A program that has a plan stays, and then closes its host. -/
theorem launch_of_prepare {p : Plan} (hplan : (prepare s e).2 = .ok p) :
    (launch s e).events = ((stay s e p).host.close (stay s e p).host.parts).1.events ∧
      (launch s e).shutdown = ((stay s e p).host.close (stay s e p).host.parts).2 ∧
      ((launch s e).shutdown = none → (launch s e).result = (stay s e p).result) := by
  unfold launch
  rcases hprepare : prepare s e with ⟨clock, f | q⟩
  · rw [hprepare] at hplan
    cases hplan
  · rw [hprepare] at hplan
    cases hplan
    refine ⟨rfl, rfl, fun hnone => ?_⟩
    dsimp only at hnone ⊢
    rw [hnone]

/-- What is opened is closed in the opposite order, until the host refuses to close it. -/
theorem unwinds_launch {p : Plan} (hplan : (prepare s e).2 = .ok p) :
    ∃ closes, closes <+: (guarded s e p).1.reverse ∧
      Unwinds (launch s e).events (guarded s e p).1 closes ∧
      ((launch s e).shutdown = none →
        closes = (guarded s e p).1.reverse ∧ (launch s e).result = (guarded s e p).2) := by
  obtain ⟨⟨asked, hopened⟩, hguarded⟩ := stay_guarded s e p
  obtain ⟨hclose, hshutdown, hresult⟩ := launch_of_prepare hplan
  obtain ⟨after, hevents, hopens, hcloses, hall⟩ :=
    close_events (stay s e p).host (stay s e p).host.parts
  rw [hopened.parts] at hcloses hall
  refine ⟨closings after, hcloses, ?_, fun hnone => ⟨?_, (hresult hnone).trans hguarded⟩⟩
  · exact ⟨_, after, hclose.trans hevents, hopened.openings, hopened.closings, hopens, rfl⟩
  · exact hall (hshutdown.symm.trans hnone)

theorem openings_launch {p : Plan} (hplan : (prepare s e).2 = .ok p) :
    openings (launch s e).events = (guarded s e p).1 := by
  obtain ⟨closes, -, hunwinds, -⟩ := unwinds_launch hplan
  exact openings_of_unwinds hunwinds

/-- What `guarded` opens is opened, and with it the display if that is the first. -/
theorem opened_launch {p : Plan} {later : List Part} (hplan : (prepare s e).2 = .ok p)
    (hguarded : (guarded s e p).1 = .display :: later) :
    openings (launch s e).events = .display :: later ∧ .opened .display ∈ (launch s e).events := by
  have hopens := (openings_launch hplan).trans hguarded
  refine ⟨hopens, ?_⟩
  rw [← mem_openings, hopens]
  exact List.mem_cons_self

theorem events_of_prepare {f : Fault} (h : (prepare s e).2 = .error f) :
    (launch s e).events = [] := by
  unfold launch
  rcases hprepare : prepare s e with ⟨clock, g | p⟩
  · rfl
  · rw [hprepare] at h
    cases h

/-! ## A host that does not refuse to be closed -/

/-- A host that refuses nothing while it is closed. -/
def Obliges (answers : Answers) : Prop :=
  ∀ n (p : OpenPart), ∀ c ∈ p.stop, answers n (.call c) = none

theorem close_obliging {host : OpenHost} (h : Obliges host.answers) (parts : List OpenPart) :
    (host.close parts).2 = none := by
  induction parts generalizing host with
  | nil => rfl
  | cons p rest ih =>
    have hstop : ∀ n, ∀ r ∈ p.stop.map Request.call, (host.drop p).answers n r = none := by
      intro n r hr
      obtain ⟨c, hc, rfl⟩ := List.mem_map.mp hr
      exact h n p c hc
    rw [OpenHost.close, OpenHost.call, Answers.ask_eq hstop]
    exact ih h

theorem shutdown_eq_none (h : Obliges e.answers) : (launch s e).shutdown = none := by
  unfold launch
  rcases prepare s e with ⟨clock, f | p⟩
  · rfl
  · obtain ⟨⟨asked, hopened⟩, -⟩ := stay_guarded s e p
    rw [← hopened.answers] at h
    exact close_obliging h _

/-! ## Start and end -/

/-- **Checked first, closed last.** If no keymap is given and the layout is unknown, if the program
cannot be read, or if it is longer than the memory behind the origin, the program fails before
anything of the host is opened; with a keymap or a layout that is accepted, and with the settings for
the renderer and for muting, a program that is too long fails as the start's own fault. Once the
display is open, and if the host does not refuse to be closed, exactly what was opened is closed, each
part once, the speaker first and the display last, after everything else; and the program ends as it
would without closing anything, whether a part did not open, the host refused a request, or the run
came to an end of its own. -/
theorem checked_first_closed_last (s : Settings) (e : Surroundings) :
    ((UnknownLayout s ∨ (∀ bytes, ¬ Readable s e bytes) ∨
        ∃ bytes, Readable s e bytes ∧ 3584 < bytes.size) →
      (launch s e).events = [] ∧ ∃ f, (launch s e).result = .error f) ∧
      (∀ bytes, Readable s e bytes → 3584 < bytes.size → Acceptable s →
        s.renderer ≠ .missing → s.mute ≠ .missing →
        ∃ f, (launch s e).result = .error f ∧ f.isOfStart = true) ∧
      (.opened .display ∈ (launch s e).events → (launch s e).shutdown = none →
        openings (launch s e).events <+: [.display, .keyboard, .speaker] ∧
          Unwinds (launch s e).events (openings (launch s e).events)
            (openings (launch s e).events).reverse ∧
          ∃ p, (prepare s e).2 = .ok p ∧
            guarded s e p = (openings (launch s e).events, (launch s e).result)) := by
  refine ⟨fun h => ?_, fun bytes hread hsize hacceptable hrenderer hmute => ?_,
    fun hopen hshutdown => ?_⟩
  · cases hpreflight : preflight s e with
    | ok found => exact absurd hpreflight (preflight_ne_ok h found)
    | error f =>
      rw [launch_of_preflight hpreflight]
      exact ⟨rfl, f, rfl⟩
  · obtain ⟨f, hpreflight, hstart⟩ :=
      preflight_of_tooLong hread hsize hacceptable hrenderer hmute
    rw [launch_of_preflight hpreflight]
    exact ⟨f, rfl, hstart⟩
  · cases hplan : (prepare s e).2 with
    | error f =>
      rw [events_of_prepare hplan] at hopen
      cases hopen
    | ok p =>
      obtain ⟨closes, -, hunwinds, hclosed⟩ := unwinds_launch hplan
      obtain ⟨rfl, hresult⟩ := hclosed hshutdown
      rw [openings_of_unwinds hunwinds, hresult]
      exact ⟨openings_guarded s e p, hunwinds, p, rfl, rfl⟩

/-- Surroundings in which every file holds one byte more than there is room for. -/
def crowded : Surroundings where
  windows := false
  terminals := false
  file := fun _ => .ok (Array.replicate 3585 0)
  terminal := ⟨24, 80, true⟩
  typed := []
  events := []
  clock := ⟨fun _ => .ok 0, 1, 9⟩
  dice := []
  answers := .obliging

/-- Surroundings with a terminal, at which a character is typed that no listener survives. -/
def dotted : Surroundings :=
  { crowded with terminals := true, file := fun _ => .ok #[], typed := [[304]] }

/-- Surroundings with a window system that has no mixer. -/
def muffled : Surroundings :=
  { crowded with
    windows := true
    file := fun _ => .ok #[]
    answers := fun _ r => match r with
      | .call .openMixer => some ⟨"No audio device"⟩
      | _ => none }

theorem openMixer_notMem_stop (p : OpenPart) : .openMixer ∉ p.stop := by
  cases p with
  | display d => cases d <;> simp [OpenPart.stop, Display.stop, TerminalDisplay.stop,
      WindowDisplay.stop]
  | keyboard k => simp [OpenPart.stop]
  | speaker s =>
    unfold OpenPart.stop Speaker.stop
    dsimp only
    split <;> simp

theorem obliges_muffled : Obliges muffled.answers := by
  intro n p c hc
  cases c with
  | openMixer => exact absurd hc (openMixer_notMem_stop p)
  | _ => rfl

/-- Settings that ask for the headless host, and say nothing about muting. -/
def unmuted : Settings where
  filename := .given "long"
  clockSpeed := .found .absent
  renderer := .given "null"
  scale := .found .absent
  mute := .missing
  layout := .given "qwerty"
  keymap := .found .absent
  foreground := .found .absent
  background := .found .absent
  skipUnknown := .given false
  debug := .given false

/-- Settings that ask for one kind of host, with sound where it has any. -/
def sounding (renderer : String) : Settings :=
  { unmuted with renderer := .given renderer, mute := .given false }

theorem readable_crowded (name : String) (h : '\x00' ∉ name.toList) (s : Settings)
    (hs : s.filename = .given name) : Readable s crowded (Array.replicate 3585 0) :=
  ⟨name, hs, h, rfl⟩

theorem acceptable_unmuted : Acceptable unmuted := by
  refine ⟨.absent, rfl, fun _ => ⟨.value "qwerty", rfl, ?_⟩⟩
  intro name hname _
  cases hname
  exact ⟨Layout.qwerty, List.mem_cons_self, by decide⟩

theorem crowded_tooLong : 3584 < (Array.replicate 3585 (0 : UInt8)).size := by
  rw [Array.size_replicate]
  decide

/-- Without a mixer no tone is opened. -/
theorem attempt_muffled {p : Plan} (hspeaker : p.speaker = .tone) (n : Nat) :
    attempt muffled.answers n (openSpeaker p) = (n + 2, .error (.host ⟨"No audio device"⟩)) := by
  unfold openSpeaker Speaker.start
  rw [hspeaker]
  dsimp only
  cases Wave.ofFrequency _ <;> rfl

theorem guarded_muffled :
    ∃ p, (prepare (sounding "pygame") muffled).2 = .ok p ∧
      guarded (sounding "pygame") muffled p =
        ([.display, .keyboard], .error (.host ⟨"No audio device"⟩)) :=
  ⟨_, rfl, guarded_of_silent rfl rfl (attempt_muffled rfl _)⟩

theorem guarded_dotted :
    ∃ p, (prepare (sounding "curses") dotted).2 = .ok p ∧
      (guarded (sounding "curses") dotted p).1 = [.display, .keyboard, .speaker] :=
  ⟨_, rfl, rfl⟩

/-- With the setting for muting, a program that is one byte too long is what is reported. A terminal
is closed with its keyboard and its speaker, though the listener has not survived what was typed; a
window without a mixer is closed with its keyboard, and the mixer is what is reported. -/
theorem checked_first_closed_last_crowded :
    ((launch { unmuted with mute := .found .absent } crowded).events = [] ∧
      ∃ f, (launch { unmuted with mute := .found .absent } crowded).result = .error f ∧
        f.isOfStart = true) ∧
      Unwinds (launch (sounding "curses") dotted).events [.display, .keyboard, .speaker]
        [.speaker, .keyboard, .display] ∧
      Unwinds (launch (sounding "pygame") muffled).events [.display, .keyboard]
        [.keyboard, .display] ∧
      (launch (sounding "pygame") muffled).result = .error (.host ⟨"No audio device"⟩) := by
  refine ⟨?_, ?_, ?_⟩
  · have hread : Readable { unmuted with mute := .found .absent } crowded
        (Array.replicate 3585 0) := readable_crowded "long" (by decide) _ rfl
    obtain ⟨hrefused, htooLong, -⟩ :=
      checked_first_closed_last { unmuted with mute := .found .absent } crowded
    refine ⟨(hrefused (.inr (.inr ⟨_, hread, crowded_tooLong⟩))).1, ?_⟩
    exact htooLong _ hread crowded_tooLong acceptable_unmuted (by decide) (by decide)
  · obtain ⟨p, hplan, hguarded⟩ := guarded_dotted
    obtain ⟨hopens, hopen⟩ := opened_launch hplan hguarded
    have hshutdown := shutdown_eq_none (s := sounding "curses") (e := dotted) fun _ _ _ _ => rfl
    obtain ⟨-, -, hclosed⟩ := checked_first_closed_last (sounding "curses") dotted
    obtain ⟨-, hunwinds, -⟩ := hclosed hopen hshutdown
    rw [hopens] at hunwinds
    exact hunwinds
  · obtain ⟨p, hplan, hguarded⟩ := guarded_muffled
    obtain ⟨hopens, hopen⟩ := opened_launch hplan (congrArg Prod.fst hguarded)
    have hshutdown := shutdown_eq_none (s := sounding "pygame") obliges_muffled
    obtain ⟨-, -, hclosed⟩ := checked_first_closed_last (sounding "pygame") muffled
    obtain ⟨-, hunwinds, q, hplan', hguarded'⟩ := hclosed hopen hshutdown
    rw [hopens] at hunwinds
    rw [hplan] at hplan'
    cases hplan'
    rw [hguarded] at hguarded'
    exact ⟨hunwinds, (Prod.mk.inj hguarded').2.symm⟩

/-- Without it, the setting that is missing is reported instead. -/
theorem too_long_without_mute :
    Readable unmuted crowded (Array.replicate 3585 0) ∧
      3584 < (Array.replicate 3585 (0 : UInt8)).size ∧ Acceptable unmuted ∧
      ¬ ∃ f, (launch unmuted crowded).result = .error f ∧ f.isOfStart = true := by
  have hpreflight : preflight unmuted crowded = .error (.missing ⟨"mute"⟩) := rfl
  refine ⟨readable_crowded "long" (by decide) _ rfl, crowded_tooLong, acceptable_unmuted, ?_⟩
  rintro ⟨f, hresult, hstart⟩
  rw [launch_of_preflight hpreflight] at hresult
  cases hresult
  cases hstart

end Startup
end ChipEight
