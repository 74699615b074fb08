import ChipEight.Session.Progress

/-!
# ChipEight.Proofs.Turns

What a session does, deed by deed. Beside each stage of a turn stands the list of what the stage
does to the outside: the signals that it sends, the keys that it asks for, the cycle that it runs,
and the readings with which it waits.

* `Console.cycle_eq`, `Console.output_cycle`: what a cycle leaves alone of its console, and what
  signals it sends.
* `Session.turns`, `Session.deeds`: the turns of a run, and all that is done in them.
* `Session.Runs`: a run turn by turn. `runs_run` says that every run is one.
* `Session.Composes`: a property of deeds that holds stage by stage. `Composes.run` is the induction
  that carries it over a whole run.
* `Session.host_runUntil`: what sending and asking keep of a host is kept by a run.
-/

namespace ChipEight

/-! ## Cycles of a console -/

/-- A cycle sends pixels, texts and the state of the buzzer. -/
def Signal.isOutput : Signal → Bool
  | .pixel _ _ | .buzzer _ | .print _ => true
  | _ => false

namespace Console

theorem cycle_eq (c : Console) :
    ∃ engine keys changed, c.cycle.1 = { c with engine, keys, changed } := by
  unfold cycle
  dsimp only
  split
  · unfold showReport
    split <;> exact ⟨_, _, _, rfl⟩
  · exact ⟨_, _, _, rfl⟩
  · unfold meetUnknown
    dsimp only
    split <;> exact ⟨_, _, _, rfl⟩
  · exact ⟨_, _, _, rfl⟩
  · exact ⟨_, _, _, rfl⟩

theorem output_listing (c : Console) : ∀ x ∈ c.listing, x.isOutput = true := by
  unfold listing
  split <;> simp [Signal.isOutput]

theorem output_showReport (c : Console) (r : Machine.Report) :
    ∀ x ∈ (c.showReport r).2, x.isOutput = true := by
  intro x hx
  unfold showReport at hx
  split at hx
  · rcases List.mem_append.mp hx with hx | hx
    · exact c.output_listing x hx
    · rw [List.mem_singleton.mp hx]
      rfl
  · rcases List.mem_append.mp hx with hx | hx
    · rcases List.mem_append.mp hx with hx | hx
      · exact c.output_listing x hx
      · obtain ⟨cell, -, rfl⟩ := List.mem_map.mp hx
        rfl
    · rw [List.mem_singleton.mp hx]
      rfl

theorem output_meetUnknown (c : Console) (i : Instruction) (pc : Int) :
    ∀ x ∈ (c.meetUnknown i pc).2.1, x.isOutput = true := by
  unfold meetUnknown
  dsimp only
  split <;> simp [Signal.isOutput]

theorem output_cycle (c : Console) : ∀ x ∈ c.cycle.2.1, x.isOutput = true := by
  unfold cycle
  dsimp only
  split
  · exact output_showReport _ _
  · simp
  · exact output_meetUnknown _ _ _
  · simp
  · simp

end Console

/-! ## Deeds -/

/-- One thing that a session does. -/
inductive Deed where
  | sends (signal : Signal)
  /-- The host is asked for its keys, and answers whether to quit. -/
  | polls (answer : Except Console.Fault Bool)
  /-- The machine has run a cycle. -/
  | cycles (answer : Except Console.Fault Bool)
  /-- The clock is read to wait for the next turn. -/
  | waits (time : Float)

/-- The readings of a clock up to the first one that is not less than a time, but at most `n`. -/
def Clock.readingsFor (time : Float) : Nat → Clock → List Float
  | 0, _ => []
  | n + 1, c =>
    match c.read with
    | (_, .error _) => []
    | (d, .ok t) => t :: if t < time then readingsFor time n d else []

def Clock.readingsUntil (c : Clock) (time : Float) : List Float :=
  readingsFor time (c.remaining + 1) c

namespace Session

variable {σ : Type}

/-! ## The deeds of a turn -/

section Deeds

variable (s : Session σ) (time : Float)

def measureDeeds : List Deed :=
  if time ≥ s.console.nextReport then
    if time.isFinite then [.sends (.report s.console.frames s.console.operations)] else []
  else []

def waitDeeds : List Deed :=
  match s.console.interval with
  | none => []
  | some interval => (s.clock.readingsUntil (time + interval)).map .waits

/-- A program that has ended is shown once more. -/
def operateDeeds : List Deed :=
  let (c, signals, answer) := s.console.cycle
  signals.map .sends ++ .cycles answer ::
    match answer with
    | .ok false => [.sends (.refresh c.changed), .sends (.print "Program finished.")]
    | _ => []

variable [Host σ]

def displayDeeds : List Deed :=
  if time ≥ s.console.nextDisplay then
    match s.poll with
    | (s, .ok false) => [.polls (.ok false), .sends (.refresh s.console.changed)]
    | (_, answer) => [.polls answer]
  else []

/-- What a turn that began at a time does behind its display stage. -/
def cycleDeeds : List Deed :=
  s.operateDeeds ++
    match s.operate with
    | (_, some _) => []
    | (s, none) => s.waitDeeds time

/-- What a turn that began at a time does behind its first stage. -/
def showDeeds : List Deed :=
  s.displayDeeds time ++
    match s.display time with
    | (_, some _) => []
    | (s, none) => s.cycleDeeds time

def turnDeeds : List Deed :=
  s.measureDeeds time ++
    match s.measure time with
    | (_, some _) => []
    | (s, none) => s.showDeeds time

end Deeds

/-! ## The turns of a run -/

/-- A turn: the session once the clock has been read, and the reading. -/
structure Turn (σ : Type) where
  start : Session σ
  time : Float

namespace Turn

variable [Host σ]

def deeds (t : Turn σ) : List Deed := t.start.turnDeeds t.time

/-- The session after a turn, and whether that was the last one. -/
def result (t : Turn σ) : Session σ × Option Ending := t.start.turnAt t.time

end Turn

variable [Host σ]

def turnsFor : Nat → Session σ → List (Turn σ)
  | 0, _ => []
  | n + 1, s =>
    match s.clock.read with
    | (_, .error _) => []
    | (clock, .ok time) =>
      ⟨s.setClock clock, time⟩ ::
        match (s.setClock clock).turnAt time with
        | (_, some _) => []
        | (s, none) => turnsFor n s

/-- The turns of a run, the first of them first. -/
def turns (s : Session σ) : List (Turn σ) := turnsFor (s.clock.remaining + 1) s

def deeds (s : Session σ) : List Deed := s.turns.flatMap Turn.deeds

/-- A session runs through some turns and ends as another one. -/
inductive Runs : Session σ → List (Turn σ) → Session σ → Ending → Prop where
  | stopped {s : Session σ} {clock : Clock} {f : Clock.Fault}
      (hread : s.clock.read = (clock, .error f)) :
      Runs s [] (s.setClock clock) (.failed (.clock f))
  | ended {s t : Session σ} {clock : Clock} {time : Float} {e : Ending}
      (hread : s.clock.read = (clock, .ok time))
      (hturn : (s.setClock clock).turnAt time = (t, some e)) :
      Runs s [⟨s.setClock clock, time⟩] t e
  | went {s t u : Session σ} {clock : Clock} {time : Float} {turns : List (Turn σ)} {e : Ending}
      (hread : s.clock.read = (clock, .ok time))
      (hturn : (s.setClock clock).turnAt time = (t, none)) (hrest : Runs t turns u e) :
      Runs s (⟨s.setClock clock, time⟩ :: turns) u e

theorem runs_runFor {n : Nat} {s : Session σ} (h : s.clock.remaining < n) :
    Runs s (turnsFor n s) (runFor n s).1 (runFor n s).2 := by
  induction n generalizing s with
  | zero => omega
  | succ n ih =>
    rw [turnsFor, runFor_succ, turn_eq]
    cases hread : s.clock.read with
    | mk clock answer =>
      cases answer with
      | error f => exact .stopped hread
      | ok time =>
        dsimp only
        cases hturn : (s.setClock clock).turnAt time with
        | mk t ending =>
          cases ending with
          | some e => exact .ended hread hturn
          | none =>
            -- the question to the clock with which the turn began is used up
            have hless : t.clock.remaining < s.clock.remaining := by
              refine remaining_turnUntil upright ?_
              rw [turnUntil, hread]
              exact hturn
            exact .went hread hturn (ih (by omega))

theorem runs_run (s : Session σ) : Runs s s.turns s.run.1 s.run.2 :=
  runs_runFor (Nat.lt_succ_self _)

/-! ## Stages

One rule for each way in which a stage of a turn can go. -/

inductive Measures (s : Session σ) (time : Float) :
    List Deed → Session σ → Option Ending → Prop where
  | early (hdue : ¬ time ≥ s.console.nextReport) : Measures s time [] s none
  | due (hdue : time ≥ s.console.nextReport) :
      Measures s time [.sends (.report s.console.frames s.console.operations)]
        (s.advance ({ s.console with
          nextReport := wholeSeconds time + 1.0, frames := 0, operations := 0 },
          [.report s.console.frames s.console.operations])) none
  | failed (hdue : time ≥ s.console.nextReport) :
      Measures s time [] s (some (.failed (.clock .infinite)))

/-- A session that has been shown, with its next time for that and one frame more. -/
def shownAt (s : Session σ) (time : Float) : Session σ :=
  let t := ({ s with console := { s.console with
    nextDisplay := time + Console.displayInterval } } : Session σ).refresh
  { t with console := { t.console with frames := t.console.frames + 1 } }

inductive Displays (s : Session σ) (time : Float) :
    List Deed → Session σ → Option Ending → Prop where
  | early (hdue : ¬ time ≥ s.console.nextDisplay) : Displays s time [] s none
  | failed {t : Session σ} {f : Console.Fault} (hdue : time ≥ s.console.nextDisplay)
      (hpoll : s.poll = (t, .error f)) :
      Displays s time [.polls (.error f)] t (some (.failed f))
  | quit {t : Session σ} (hdue : time ≥ s.console.nextDisplay) (hpoll : s.poll = (t, .ok true)) :
      Displays s time [.polls (.ok true)] t (some .quit)
  | shown {t : Session σ} (hdue : time ≥ s.console.nextDisplay) (hpoll : s.poll = (t, .ok false)) :
      Displays s time [.polls (.ok false), .sends (.refresh t.console.changed)] (t.shownAt time)
        none

def counted (s : Session σ) : Session σ :=
  { s with console := { s.console with operations := s.console.operations + 1 } }

@[simp] theorem console_refresh (s : Session σ) :
    s.refresh.console = { s.console with changed := false } := rfl

@[simp] theorem console_shownAt (s : Session σ) (time : Float) :
    (s.shownAt time).console = { s.console with
      changed := false, nextDisplay := time + Console.displayInterval,
      frames := s.console.frames + 1 } := rfl

omit [Host σ] in
@[simp] theorem console_counted (s : Session σ) :
    s.counted.console = { s.console with operations := s.console.operations + 1 } := rfl

inductive Operates (s : Session σ) : List Deed → Session σ → Option Ending → Prop where
  | failed {c : Console} {signals : List Signal} {f : Console.Fault}
      (hcycle : s.console.cycle = (c, signals, .error f)) :
      Operates s (signals.map .sends ++ [.cycles (.error f)]) (s.advance (c, signals))
        (some (.failed f))
  | finished {c : Console} {signals : List Signal}
      (hcycle : s.console.cycle = (c, signals, .ok false)) :
      Operates s
        (signals.map .sends ++
          [.cycles (.ok false), .sends (.refresh c.changed), .sends (.print "Program finished.")])
        ((s.advance (c, signals)).refresh.send [.print "Program finished."]) (some .finished)
  | went {c : Console} {signals : List Signal}
      (hcycle : s.console.cycle = (c, signals, .ok true)) :
      Operates s (signals.map .sends ++ [.cycles (.ok true)]) (s.advance (c, signals)).counted none

inductive Waits (s : Session σ) (time : Float) : List Deed → Session σ → Option Ending → Prop where
  | never (hinterval : s.console.interval = none) : Waits s time [] s none
  | waited {interval : Float} {clock : Clock} (hinterval : s.console.interval = some interval)
      (hwait : s.clock.waitUntil (time + interval) = (clock, none)) :
      Waits s time ((s.clock.readingsUntil (time + interval)).map .waits) (s.setClock clock) none
  | failed {interval : Float} {clock : Clock} {f : Clock.Fault}
      (hinterval : s.console.interval = some interval)
      (hwait : s.clock.waitUntil (time + interval) = (clock, some f)) :
      Waits s time ((s.clock.readingsUntil (time + interval)).map .waits) (s.setClock clock)
        (some (.failed (.clock f)))

section Stages

variable (s : Session σ) (time : Float)

theorem measures :
    Measures s time (s.measureDeeds time) (s.measure time).1 (s.measure time).2 := by
  unfold measureDeeds measure
  split
  · split
    · exact .due ‹_›
    · exact .failed ‹_›
  · exact .early ‹_›

theorem displays :
    Displays s time (s.displayDeeds time) (s.display time).1 (s.display time).2 := by
  unfold displayDeeds display
  split
  · rcases hpoll : s.poll with ⟨t, f | _ | _⟩
    · exact .failed ‹_› hpoll
    · exact .shown ‹_› hpoll
    · exact .quit ‹_› hpoll
  · exact .early ‹_›

theorem operates : Operates s s.operateDeeds s.operate.1 s.operate.2 := by
  unfold operateDeeds operate
  rcases hcycle : s.console.cycle with ⟨c, signals, f | _ | _⟩
  · exact .failed hcycle
  · exact .finished hcycle
  · exact .went hcycle

omit [Host σ] in
theorem waits : Waits s time (s.waitDeeds time) (s.wait time).1 (s.wait time).2 := by
  unfold waitDeeds wait
  cases hinterval : s.console.interval with
  | none => exact .never hinterval
  | some interval =>
    dsimp only
    rcases hwait : s.clock.waitUntil (time + interval) with ⟨clock, _ | f⟩
    · exact .waited hinterval hwait
    · exact .failed hinterval hwait

end Stages

theorem console_poll {s t : Session σ} {answer : Except Console.Fault Bool}
    (h : s.poll = (t, answer)) : ∃ engine keys, t.console = { s.console with engine, keys } := by
  have hconsole : ∃ engine keys, s.poll.1.console = { s.console with engine, keys } :=
    ⟨_, _, rfl⟩
  rw [h] at hconsole
  exact hconsole

/-- The stages of a turn that leads to another one. -/
theorem turnAt_eq_none {s t : Session σ} {time : Float} (h : s.turnAt time = (t, none)) :
    ∃ xs m ys d zs o ws, Measures s time xs m none ∧ Displays m time ys d none ∧
      Operates d zs o none ∧ Waits o time ws t none ∧
      s.turnDeeds time = xs ++ ys ++ (zs ++ ws) := by
  have hmeasure := s.measures time
  rw [turnAt_eq] at h
  unfold turnDeeds
  rcases hm : s.measure time with ⟨m, _ | e⟩
  · rw [hm] at h hmeasure
    have hdisplay := m.displays time
    dsimp only at h ⊢
    unfold showDeeds
    rcases hd : m.display time with ⟨d, _ | e⟩
    · rw [hd] at h hdisplay
      have hoperate := d.operates
      dsimp only at h ⊢
      unfold cycleDeeds
      rcases ho : d.operate with ⟨o, _ | e⟩
      · rw [ho] at h hoperate
        have hwait := o.waits time
        dsimp only at h
        rw [h] at hwait
        exact ⟨_, m, _, d, _, o, _, hmeasure, hdisplay, hoperate, hwait,
          (List.append_assoc _ _ _).symm⟩
      · rw [ho] at h
        cases h
    · rw [hd] at h
      cases h
  · rw [hm] at h
    cases h

/-! ## Properties stage by stage -/

/-- A property of what is done between two sessions, and of whether that was the end, that holds of
every stage of a turn and goes from one stage to the next. -/
structure Composes (P : Session σ → List Deed → Session σ → Option Ending → Prop) : Prop where
  trans : ∀ {s t u xs ys e}, P s xs t none → P t ys u e → P s (xs ++ ys) u e
  read : ∀ s clock, P s [] (s.setClock clock) none
  stopped : ∀ s clock f, P s [] (s.setClock clock) (some (.failed (.clock f)))
  measure : ∀ {s time xs t e}, Measures s time xs t e → P s xs t e
  display : ∀ {s time xs t e}, Displays s time xs t e → P s xs t e
  operate : ∀ {s xs t e}, Operates s xs t e → P s xs t e
  wait : ∀ {s time xs t e}, Waits s time xs t e → P s xs t e

namespace Composes

variable {P : Session σ → List Deed → Session σ → Option Ending → Prop} (h : Composes P)
include h

theorem turnAt (s : Session σ) (time : Float) :
    P s (s.turnDeeds time) (s.turnAt time).1 (s.turnAt time).2 := by
  have hmeasure := h.measure (s.measures time)
  rw [turnAt_eq]
  unfold turnDeeds
  rcases hm : s.measure time with ⟨m, _ | e⟩
  · rw [hm] at hmeasure
    refine h.trans hmeasure ?_
    have hdisplay := h.display (m.displays time)
    dsimp only
    unfold showDeeds
    rcases hd : m.display time with ⟨d, _ | e⟩
    · rw [hd] at hdisplay
      refine h.trans hdisplay ?_
      have hoperate := h.operate d.operates
      dsimp only
      unfold cycleDeeds
      rcases ho : d.operate with ⟨o, _ | e⟩
      · rw [ho] at hoperate
        exact h.trans hoperate (h.wait (o.waits time))
      · rw [ho] at hoperate
        simpa using hoperate
    · rw [hd] at hdisplay
      simpa using hdisplay
  · rw [hm] at hmeasure
    simpa using hmeasure

theorem runs {s t : Session σ} {turns : List (Turn σ)} {e : Ending} (hruns : Runs s turns t e) :
    P s (turns.flatMap Turn.deeds) t (some e) := by
  induction hruns with
  | stopped hread => exact h.stopped _ _ _
  | @ended s t clock time e hread hturn =>
    have hlast := h.trans (h.read s clock) (h.turnAt (s.setClock clock) time)
    rw [hturn] at hlast
    simpa [Turn.deeds] using hlast
  | @went s t u clock time turns e hread hturn _ ih =>
    have hfirst := h.trans (h.read s clock) (h.turnAt (s.setClock clock) time)
    rw [hturn] at hfirst
    exact h.trans hfirst ih

theorem run (s : Session σ) : P s s.deeds s.run.1 (some s.run.2) := h.runs s.runs_run

end Composes

/-! ## What a run keeps of its host -/

section Host

variable {P : σ → Prop} (hsend : ∀ host signal, P host → P (Host.send host signal))
include hsend

theorem host_send {s : Session σ} (h : P s.host) (signals : List Signal) :
    P (s.send signals).host := by
  induction signals generalizing s with
  | nil => exact h
  | cons x signals ih => exact ih (s := s.send [x]) (hsend s.host x h)

theorem host_measure {s : Session σ} (h : P s.host) (time : Float) :
    P (s.measure time).1.host := by
  unfold measure
  split
  · split
    · exact host_send hsend (s := ⟨_, _⟩) h _
    · exact h
  · exact h

theorem host_operate {s : Session σ} (h : P s.host) : P s.operate.1.host := by
  unfold operate
  obtain ⟨c, signals, answer⟩ := s.console.cycle
  have hadvance : P (s.advance (c, signals)).host := host_send hsend (s := ⟨_, _⟩) h signals
  rcases answer with f | _ | _
  · exact hadvance
  · exact hsend _ _ (hsend _ _ hadvance)
  · exact hadvance

variable (hpoll : ∀ (host : σ) keys clock, P host → P (Host.poll host keys clock).host)
include hpoll

theorem host_display {s : Session σ} (h : P s.host) (time : Float) :
    P (s.display time).1.host := by
  have hasked : P s.poll.1.host := hpoll s.host s.console.keys s.clock h
  unfold display
  split
  · generalize s.poll = polled at hasked ⊢
    obtain ⟨t, f | _ | _⟩ := polled
    · exact hasked
    · exact hsend _ _ hasked
    · exact hasked
  · exact h

/-- What sending and asking keep of a host is kept by a run, whether the host goes down in it or
not. -/
theorem host_runUntil {s : Session σ} (h : P s.host) (down : σ → Bool) :
    P (s.runUntil down).1.host := by
  unfold runUntil
  generalize s.clock.remaining + 1 = n
  induction n generalizing s with
  | zero => exact h
  | succ n ih =>
    have hturn : P (s.turnUntil down).1.host := by
      unfold turnUntil
      obtain ⟨clock, f | time⟩ := s.clock.read
      · exact h
      · refine turnAtUntil_induction (P := fun t => P t.host) down
          (host_measure hsend (s := s.setClock clock) h time)
          (fun t ht => host_display hsend hpoll ht time) (fun t ht => host_operate hsend ht)
          fun t ht => ?_
        unfold wait
        split <;> exact ht
    unfold runForUntil
    generalize s.turnUntil down = turned at hturn ⊢
    obtain ⟨t, _ | e⟩ := turned
    · exact ih hturn
    · exact hturn

end Host

end Session
end ChipEight
