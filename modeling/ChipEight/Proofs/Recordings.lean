import ChipEight.Proofs.Turns

/-!
# ChipEight.Proofs.Recordings

A host that keeps a record of what it is sent and asked. Keeping it changes nothing for the session,
and what is written down is what the deeds of the run say. So whatever is said of deeds is said of
what the host of a session sees.

* `Recorded`: a host with its record.
* `Session.record_run`: the record at the end of a run.
* `Session.plain`: a session without the record. Stages, turns and runs go the same way without it
  (`plain_run`, `deeds_plain`).
* `Session.recorded_run`: what any session shows to its host.
-/

namespace ChipEight

/-- What a host gets to see of a deed. -/
def Deed.isSeen : Deed → Bool
  | .sends _ => true
  | .polls _ => true
  | .cycles _ => false
  | .waits _ => false

@[simp] theorem Deed.isSeen_sends (signal : Signal) : (Deed.sends signal).isSeen = true := rfl

@[simp] theorem Deed.isSeen_cycles (answer : Except Console.Fault Bool) :
    (Deed.cycles answer).isSeen = false := rfl

/-- A host with a record of what it is sent and asked. -/
structure Recorded (σ : Type) where
  host : σ
  record : List Deed

namespace Recorded

variable {σ : Type} [Host σ]

instance : Host (Recorded σ) where
  send r signal := ⟨Host.send r.host signal, r.record ++ [.sends signal]⟩
  poll r keys clock :=
    let p := Host.poll r.host keys clock
    ⟨⟨p.host, r.record ++ [.polls p.result]⟩, p.keys, p.clock, p.result⟩
  remaining_poll_le r := Host.remaining_poll_le r.host

end Recorded

namespace Session

variable {σ : Type} [Host σ]

/-! ## What is written down -/

@[simp] theorem record_send (s : Session (Recorded σ)) (signals : List Signal) :
    (s.send signals).host.record = s.host.record ++ signals.map .sends := by
  induction signals generalizing s with
  | nil => simp [send]
  | cons signal signals ih =>
    have hfirst : s.send (signal :: signals) = (s.send [signal]).send signals := rfl
    have hone : (s.send [signal]).host.record = s.host.record ++ [.sends signal] := rfl
    rw [hfirst, ih, hone, List.map_cons, List.append_assoc, List.singleton_append]

@[simp] theorem record_advance (s : Session (Recorded σ)) (c : Console) (signals : List Signal) :
    (s.advance (c, signals)).host.record = s.host.record ++ signals.map .sends :=
  record_send ⟨c, s.host⟩ signals

@[simp] theorem record_refresh (s : Session (Recorded σ)) :
    s.refresh.host.record = s.host.record ++ [.sends (.refresh s.console.changed)] := rfl

theorem record_shownAt (s : Session (Recorded σ)) (time : Float) :
    (s.shownAt time).host.record = s.host.record ++ [.sends (.refresh s.console.changed)] := rfl

theorem record_poll {s t : Session (Recorded σ)} {answer : Except Console.Fault Bool}
    (h : s.poll = (t, answer)) : t.host.record = s.host.record ++ [.polls answer] := by
  have hrecord : s.poll.1.host.record = s.host.record ++ [.polls s.poll.2] := rfl
  rw [h] at hrecord
  exact hrecord

@[simp] theorem filter_isSeen_sends (signals : List Signal) :
    (signals.map Deed.sends).filter Deed.isSeen = signals.map .sends :=
  List.filter_eq_self.mpr (by simp)

@[simp] theorem filter_isSeen_waits (times : List Float) :
    (times.map Deed.waits).filter Deed.isSeen = [] :=
  List.filter_eq_nil_iff.mpr (by simp [Deed.isSeen])

theorem composes_record : Composes (σ := Recorded σ) fun s xs t _ =>
    t.host.record = s.host.record ++ xs.filter Deed.isSeen where
  trans hs ht := by rw [ht, hs, List.filter_append, List.append_assoc]
  read s clock := by simp [setClock]
  stopped s clock f := by simp [setClock]
  measure h := by
    cases h with
    | early => simp
    | due => simp [List.filter_cons]
    | failed => simp
  display h := by
    cases h with
    | early => simp
    | failed _ hpoll => exact record_poll hpoll
    | quit _ hpoll => exact record_poll hpoll
    | shown _ hpoll =>
      rw [record_shownAt, record_poll hpoll, List.append_assoc]
      rfl
  operate h := by
    cases h with
    | failed => simp
    | finished => simp [List.filter_cons]
    | went => simp [counted]
  wait h := by
    cases h with
    | never => simp
    | waited => simp [setClock]
    | failed => simp [setClock]

/-- A host is sent and asked what the deeds of the run say, in their order and nothing else. -/
theorem record_run (s : Session (Recorded σ)) :
    s.run.1.host.record = s.host.record ++ s.deeds.filter Deed.isSeen := composes_record.run s

/-! ## Without the record -/

/-- A session without the record of its host. -/
def plain (s : Session (Recorded σ)) : Session σ := ⟨s.console, s.host.host⟩

theorem plain_send (s : Session (Recorded σ)) (signals : List Signal) :
    (s.send signals).plain = s.plain.send signals := by
  induction signals generalizing s with
  | nil => rfl
  | cons signal signals ih => exact ih (s.send [signal])

theorem plain_advance (s : Session (Recorded σ)) (c : Console) (signals : List Signal) :
    (s.advance (c, signals)).plain = s.plain.advance (c, signals) :=
  plain_send ⟨c, s.host⟩ signals

theorem plain_measure (s : Session (Recorded σ)) (time : Float) :
    s.plain.measure time = ((s.measure time).1.plain, (s.measure time).2) := by
  unfold measure
  by_cases hdue : time ≥ s.console.nextReport
  · have hdue' : time ≥ s.plain.console.nextReport := hdue
    rw [if_pos hdue, if_pos hdue']
    split
    · rw [plain_advance]
      rfl
    · rfl
  · have hdue' : ¬ time ≥ s.plain.console.nextReport := hdue
    rw [if_neg hdue, if_neg hdue']

theorem plain_poll (s : Session (Recorded σ)) : s.plain.poll = (s.poll.1.plain, s.poll.2) := rfl

theorem plain_display (s : Session (Recorded σ)) (time : Float) :
    s.plain.display time = ((s.display time).1.plain, (s.display time).2) := by
  unfold display
  by_cases hdue : time ≥ s.console.nextDisplay
  · have hdue' : time ≥ s.plain.console.nextDisplay := hdue
    rw [if_pos hdue, if_pos hdue', plain_poll]
    rcases s.poll with ⟨t, f | _ | _⟩ <;> rfl
  · have hdue' : ¬ time ≥ s.plain.console.nextDisplay := hdue
    rw [if_neg hdue, if_neg hdue']

theorem plain_operate (s : Session (Recorded σ)) :
    s.plain.operate = (s.operate.1.plain, s.operate.2) := by
  have hcycle : s.plain.console.cycle = s.console.cycle := rfl
  unfold operate
  rw [hcycle]
  obtain ⟨c, signals, answer⟩ := s.console.cycle
  have hadvance := s.plain_advance c signals
  dsimp only
  rw [← hadvance]
  rcases answer with f | _ | _ <;> rfl

omit [Host σ] in
theorem plain_wait (s : Session (Recorded σ)) (time : Float) :
    s.plain.wait time = ((s.wait time).1.plain, (s.wait time).2) := by
  have hinterval : s.plain.console.interval = s.console.interval := rfl
  unfold wait
  rw [hinterval]
  cases s.console.interval <;> rfl

theorem plain_turnAt (s : Session (Recorded σ)) (time : Float) :
    s.plain.turnAt time = ((s.turnAt time).1.plain, (s.turnAt time).2) := by
  rw [turnAt_eq, turnAt_eq, plain_measure]
  obtain ⟨m, _ | e⟩ := s.measure time
  · dsimp only
    rw [plain_display]
    obtain ⟨d, _ | e⟩ := m.display time
    · dsimp only
      rw [plain_operate]
      obtain ⟨o, _ | e⟩ := d.operate
      · exact o.plain_wait time
      · rfl
    · rfl
  · rfl

theorem displayDeeds_plain (s : Session (Recorded σ)) (time : Float) :
    s.plain.displayDeeds time = s.displayDeeds time := by
  unfold displayDeeds
  rw [plain_poll]
  have hdue : s.plain.console.nextDisplay = s.console.nextDisplay := rfl
  rw [hdue]
  rcases s.poll with ⟨t, f | _ | _⟩ <;> rfl

theorem turnDeeds_plain (s : Session (Recorded σ)) (time : Float) :
    s.plain.turnDeeds time = s.turnDeeds time := by
  have hmeasure : s.plain.measureDeeds time = s.measureDeeds time := rfl
  unfold turnDeeds
  rw [plain_measure, hmeasure]
  obtain ⟨m, _ | e⟩ := s.measure time
  · dsimp only
    unfold showDeeds
    rw [plain_display, displayDeeds_plain]
    obtain ⟨d, _ | e⟩ := m.display time
    · have hoperate : d.plain.operateDeeds = d.operateDeeds := rfl
      dsimp only
      unfold cycleDeeds
      rw [plain_operate, hoperate]
      obtain ⟨o, _ | e⟩ := d.operate <;> rfl
    · rfl
  · rfl

/-- A turn without the record of its host. -/
def Turn.plain (t : Turn (Recorded σ)) : Turn σ := ⟨t.start.plain, t.time⟩

theorem turnsFor_plain (n : Nat) (s : Session (Recorded σ)) :
    turnsFor n s.plain = (turnsFor n s).map Turn.plain := by
  induction n generalizing s with
  | zero => rfl
  | succ n ih =>
    have hclock : s.plain.clock = s.clock := rfl
    rw [turnsFor, turnsFor, hclock]
    obtain ⟨clock, f | time⟩ := s.clock.read
    · rfl
    · have hstart : s.plain.setClock clock = (s.setClock clock).plain := rfl
      dsimp only
      rw [hstart, plain_turnAt]
      obtain ⟨t, _ | e⟩ := (s.setClock clock).turnAt time
      · exact congrArg _ (ih t)
      · rfl

theorem runFor_plain (n : Nat) (s : Session (Recorded σ)) :
    runFor n s.plain = ((runFor n s).1.plain, (runFor n s).2) := by
  induction n generalizing s with
  | zero => rfl
  | succ n ih =>
    have hclock : s.plain.clock = s.clock := rfl
    rw [runFor_succ, runFor_succ, turn_eq, turn_eq, hclock]
    obtain ⟨clock, f | time⟩ := s.clock.read
    · rfl
    · have hstart : s.plain.setClock clock = (s.setClock clock).plain := rfl
      dsimp only
      rw [hstart, plain_turnAt]
      obtain ⟨t, _ | e⟩ := (s.setClock clock).turnAt time
      · exact ih t
      · rfl

theorem plain_run (s : Session (Recorded σ)) : s.plain.run = (s.run.1.plain, s.run.2) :=
  runFor_plain _ s

theorem deeds_plain (s : Session (Recorded σ)) : s.plain.deeds = s.deeds := by
  have hturns : s.plain.turns = s.turns.map Turn.plain := turnsFor_plain _ s
  unfold deeds
  rw [hturns, List.flatMap_map]
  exact congrArg (s.turns.flatMap ·) (funext fun t => t.start.turnDeeds_plain t.time)

/-- A session whose host begins to keep a record. -/
def recorded (s : Session σ) : Session (Recorded σ) := ⟨s.console, ⟨s.host, []⟩⟩

/-- **A host sees the deeds of the run.** A host that keeps a record beside what it does has written
down, when the run is over, the deeds that a host gets to see, and is else what it would be without
the record. -/
theorem recorded_run (s : Session σ) :
    s.recorded.run.1.host = ⟨s.run.1.host, s.deeds.filter Deed.isSeen⟩ := by
  have hplain : s.recorded.plain = s := rfl
  have hhost : s.recorded.run.1.host.host = s.run.1.host := by
    rw [← congrArg (·.run) hplain, plain_run]
    rfl
  have hrecord : s.recorded.run.1.host.record = s.deeds.filter Deed.isSeen := by
    rw [record_run, ← deeds_plain, hplain]
    rfl
  rw [← hhost, ← hrecord]

end Session
end ChipEight
