import Mathlib.Data.List.Induction
import ChipEight.Proofs.Recordings

/-!
# ChipEight.Proofs.Pacing

When a session does what. The host is asked and the counts are reported when their time has come, and
each time sets the next one; a turn ends by waiting for the time of the next turn.

* `Clock.Gives`, `Clock.waitUntil_eq_none`: the readings of a wait.
* `Session.Scheduled`: turns that act when a time has come, which each acting turn sets anew.
  `Scheduled.paced` reads the distance between two acting turns off it.
* `Session.Rested`: what lies between the cycle of a turn and the turn behind it.
* `turns_paced`: the three schedules of a run, and that nothing follows a request to quit.
-/

namespace ChipEight

/-! ## Waiting for a time -/

namespace Clock

/-- The readings that a clock gives one after the other, and the clock as it is left. -/
inductive Gives : Clock → List Float → Clock → Prop where
  | nil {c : Clock} : Gives c [] c
  | cons {c d e : Clock} {t : Float} {ts : List Float} (hread : c.read = (d, .ok t))
      (hrest : Gives d ts e) : Gives c (t :: ts) e

/-- A wait reads the clock until a reading is not less than the time, and no further. -/
theorem waitFor_eq_none {time : Float} {n : Nat} {c d : Clock}
    (h : waitFor time n c = (d, none)) :
    ∃ early last, readingsFor time n c = early ++ [last] ∧ (∀ t ∈ early, t < time) ∧
      ¬ last < time ∧ Gives c (early ++ [last]) d := by
  induction n generalizing c with
  | zero => cases h
  | succ n ih =>
    rw [waitFor] at h
    rw [readingsFor]
    cases hread : c.read with
    | mk b answer =>
      rw [hread] at h
      cases answer with
      | error f => cases h
      | ok t =>
        dsimp only at h ⊢
        by_cases hless : t < time
        · rw [if_pos hless] at h
          rw [if_pos hless]
          obtain ⟨early, last, hreadings, hearly, hlast, hgives⟩ := ih h
          refine ⟨t :: early, last, ?_, ?_, hlast, .cons hread hgives⟩
          · rw [hreadings, List.cons_append]
          · intro u hu
            rcases List.mem_cons.mp hu with rfl | hu
            · exact hless
            · exact hearly u hu
        · rw [if_neg hless] at h
          rw [if_neg hless]
          cases h
          exact ⟨[], t, rfl, by simp, hless, .cons hread .nil⟩

end Clock

namespace Deed

def isReport : Deed → Bool
  | .sends (.report _ _) => true
  | _ => false

def isAsking : Deed → Bool
  | .polls _ => true
  | _ => false

/-- Neither of both. -/
def isLate (d : Deed) : Bool := !d.isReport && !d.isAsking

def isWait : Deed → Bool
  | .waits _ => true
  | _ => false

end Deed

namespace Session

variable {σ : Type}

/-! ## Schedules -/

/-- Turns that act when a time has come, which each of them that acts sets anew. The last one may break
off before it acts. -/
inductive Scheduled (P : Turn σ → Prop) (next : Float → Float) : Float → List (Turn σ) → Prop where
  | nil {time : Float} : Scheduled P next time []
  | acts {time : Float} {t : Turn σ} {ts : List (Turn σ)} (hP : P t) (hdue : t.time ≥ time)
      (hrest : Scheduled P next (next t.time) ts) : Scheduled P next time (t :: ts)
  | passes {time : Float} {t : Turn σ} {ts : List (Turn σ)} (hP : ¬ P t) (hdue : ¬ t.time ≥ time)
      (hrest : Scheduled P next time ts) : Scheduled P next time (t :: ts)
  | breaks {time : Float} {t : Turn σ} (hP : ¬ P t) : Scheduled P next time [t]

/-- Between two turns that act, with no other one between them, lies the time that the first of them
has set, and no turn between them has come to it. -/
def Paced (P : Turn σ → Prop) (next : Float → Float) (ts : List (Turn σ)) : Prop :=
  ∀ before a between b after, ts = before ++ a :: (between ++ b :: after) → P a → P b →
    (∀ m ∈ between, ¬ P m) → b.time ≥ next a.time ∧ ∀ m ∈ between, ¬ m.time ≥ next a.time

section Schedules

variable {P : Turn σ → Prop} {next : Float → Float} {time : Float}

theorem Scheduled.of_acts {before after : List (Turn σ)} {a : Turn σ}
    (h : Scheduled P next time (before ++ a :: after)) (ha : P a) :
    Scheduled P next (next a.time) after := by
  induction before generalizing time with
  | nil =>
    cases h with
    | acts _ _ hrest => exact hrest
    | passes hP => exact absurd ha hP
    | breaks hP => exact absurd ha hP
  | cons t before ih =>
    generalize hts : before ++ a :: after = ts at h ih
    rw [List.cons_append, hts] at h
    cases h with
    | acts _ _ hrest => exact ih hrest
    | passes _ _ hrest => exact ih hrest
    | breaks => simp at hts

theorem Scheduled.until_acts {between after : List (Turn σ)} {b : Turn σ}
    (h : Scheduled P next time (between ++ b :: after)) (hb : P b) (hbetween : ∀ m ∈ between, ¬ P m) :
    b.time ≥ time ∧ ∀ m ∈ between, ¬ m.time ≥ time := by
  induction between with
  | nil =>
    cases h with
    | acts _ hdue _ => exact ⟨hdue, by simp⟩
    | passes hP => exact absurd hb hP
    | breaks hP => exact absurd hb hP
  | cons t between ih =>
    generalize hts : between ++ b :: after = ts at h ih
    rw [List.cons_append, hts] at h
    cases h with
    | acts hP => exact absurd hP (hbetween t List.mem_cons_self)
    | passes _ hdue hrest =>
      obtain ⟨hlast, hearly⟩ := ih hrest fun m hm => hbetween m (List.mem_cons_of_mem _ hm)
      refine ⟨hlast, fun m hm => ?_⟩
      rcases List.mem_cons.mp hm with rfl | hm
      · exact hdue
      · exact hearly m hm
    | breaks => simp at hts

theorem Scheduled.paced {ts : List (Turn σ)} (h : Scheduled P next time ts) : Paced P next ts := by
  rintro before a between b after rfl ha hb hbetween
  exact (h.of_acts ha).until_acts hb hbetween

end Schedules

variable [Host σ]

/-! ## What stands in which stage -/

namespace Turn

def Reports (t : Turn σ) : Prop := ∃ d ∈ t.deeds, d.isReport = true

def Asks (t : Turn σ) : Prop := ∃ d ∈ t.deeds, d.isAsking = true

end Turn

section Stages

variable {s t : Session σ} {time : Float} {ds : List Deed} {e : Option Ending}

omit [Host σ] in
theorem late_cycle {c : Console} {signals : List Signal} {answer : Except Console.Fault Bool}
    (h : s.console.cycle = (c, signals, answer)) : ∀ d ∈ signals.map Deed.sends, d.isLate = true := by
  have houtput := s.console.output_cycle
  rw [h] at houtput
  intro d hd
  obtain ⟨x, hx, rfl⟩ := List.mem_map.mp hd
  have := houtput x hx
  cases x with
  | report => cases this
  | _ => rfl

theorem Operates.late (h : Operates s ds t e) : ∀ d ∈ ds, d.isLate = true := by
  cases h with
  | failed hcycle =>
    exact List.forall_mem_append.mpr ⟨late_cycle hcycle, by simp; rfl⟩
  | finished hcycle =>
    exact List.forall_mem_append.mpr ⟨late_cycle hcycle, by simp; exact ⟨rfl, rfl, rfl⟩⟩
  | went hcycle =>
    exact List.forall_mem_append.mpr ⟨late_cycle hcycle, by simp; rfl⟩

omit [Host σ] in
theorem Waits.late (h : Waits s time ds t e) : ∀ d ∈ ds, d.isLate = true := by
  have hwaits : ∀ times : List Float, ∀ d ∈ times.map Deed.waits, d.isLate = true := by
    intro times d hd
    obtain ⟨u, -, rfl⟩ := List.mem_map.mp hd
    rfl
  cases h with
  | never => simp
  | waited => exact hwaits _
  | failed => exact hwaits _

theorem late_cycleDeeds (s : Session σ) (time : Float) :
    ∀ d ∈ s.cycleDeeds time, d.isLate = true := by
  unfold cycleDeeds
  refine List.forall_mem_append.mpr ⟨s.operates.late, ?_⟩
  split
  · simp
  · exact (waits _ _).late

theorem Measures.reports_iff (h : Measures s time ds t e) :
    (∃ d ∈ ds, d.isReport = true) ↔ time ≥ s.console.nextReport ∧ e = none := by
  cases h with
  | early hdue => simp [hdue]
  | due hdue => simp [hdue, Deed.isReport]
  | failed => simp

theorem Measures.not_asks (h : Measures s time ds t e) : ¬ ∃ d ∈ ds, d.isAsking = true := by
  cases h with
  | early => simp
  | due => simp [Deed.isAsking]
  | failed => simp

theorem Displays.asks_iff (h : Displays s time ds t e) :
    (∃ d ∈ ds, d.isAsking = true) ↔ time ≥ s.console.nextDisplay := by
  cases h with
  | early hdue => simp [hdue]
  | failed hdue => simp [hdue, Deed.isAsking]
  | quit hdue => simp [hdue, Deed.isAsking]
  | shown hdue => simp [hdue, Deed.isAsking]

theorem Displays.not_reports (h : Displays s time ds t e) : ¬ ∃ d ∈ ds, d.isReport = true := by
  cases h with
  | early => simp
  | failed => simp [Deed.isReport]
  | quit => simp [Deed.isReport]
  | shown => simp [Deed.isReport]

/-- What a stage leaves alone of the schedules of a session. -/
theorem Measures.schedule (h : Measures s time ds t none) :
    t.console.nextReport =
        (if time ≥ s.console.nextReport then wholeSeconds time + 1.0 else s.console.nextReport) ∧
      t.console.nextDisplay = s.console.nextDisplay ∧
      t.console.interval = s.console.interval := by
  cases h with
  | early hdue => exact ⟨(if_neg hdue).symm, rfl, rfl⟩
  | due hdue => exact ⟨(if_pos hdue).symm, rfl, rfl⟩

theorem Displays.schedule (h : Displays s time ds t none) :
    t.console.nextReport = s.console.nextReport ∧
      t.console.nextDisplay =
        (if time ≥ s.console.nextDisplay then time + Console.displayInterval
          else s.console.nextDisplay) ∧
      t.console.interval = s.console.interval := by
  cases h with
  | early hdue => exact ⟨rfl, (if_neg hdue).symm, rfl⟩
  | shown hdue hpoll =>
    obtain ⟨engine, keys, hconsole⟩ := console_poll hpoll
    rw [console_shownAt, hconsole]
    exact ⟨rfl, (if_pos hdue).symm, rfl⟩

theorem Operates.schedule (h : Operates s ds t none) :
    t.console.nextReport = s.console.nextReport ∧
      t.console.nextDisplay = s.console.nextDisplay ∧
      t.console.interval = s.console.interval := by
  cases h with
  | @went c signals hcycle =>
    obtain ⟨engine, keys, changed, hconsole⟩ := s.console.cycle_eq
    rw [hcycle] at hconsole
    have hc : c = { s.console with engine, keys, changed } := hconsole
    rw [console_counted, console_advance, hc]
    exact ⟨rfl, rfl, rfl⟩

omit [Host σ] in
theorem Waits.schedule (h : Waits s time ds t e) :
    t.console.nextReport = s.console.nextReport ∧
      t.console.nextDisplay = s.console.nextDisplay ∧
      t.console.interval = s.console.interval := by
  cases h with
  | never => exact ⟨rfl, rfl, rfl⟩
  | waited => exact ⟨rfl, rfl, rfl⟩
  | failed => exact ⟨rfl, rfl, rfl⟩

end Stages

/-! ## Turns -/

section Turns

variable {s t : Session σ} {time : Float}

/-- A turn that leads to another one sets the two times anew, each if it had come. -/
theorem schedule_turnAt (h : s.turnAt time = (t, none)) :
    t.console.nextReport =
        (if time ≥ s.console.nextReport then wholeSeconds time + 1.0 else s.console.nextReport) ∧
      t.console.nextDisplay =
        (if time ≥ s.console.nextDisplay then time + Console.displayInterval
          else s.console.nextDisplay) ∧
      t.console.interval = s.console.interval := by
  obtain ⟨xs, m, ys, d, zs, o, ws, hmeasure, hdisplay, hoperate, hwait, -⟩ := turnAt_eq_none h
  obtain ⟨hreport, hnext, hinterval⟩ := hmeasure.schedule
  obtain ⟨hreport₁, hnext₁, hinterval₁⟩ := hdisplay.schedule
  obtain ⟨hreport₂, hnext₂, hinterval₂⟩ := hoperate.schedule
  obtain ⟨hreport₃, hnext₃, hinterval₃⟩ := hwait.schedule
  refine ⟨?_, ?_, ?_⟩
  · rw [hreport₃, hreport₂, hreport₁, hreport]
  · rw [hnext₃, hnext₂, hnext₁, hnext]
  · rw [hinterval₃, hinterval₂, hinterval₁, hinterval]

/-- A turn that leads to another one has not broken off in its first stage. -/
theorem measured_of_turnAt (h : s.turnAt time = (t, none)) : (s.measure time).2 = none := by
  rw [turnAt_eq] at h
  rcases hm : s.measure time with ⟨m, _ | e⟩
  · rfl
  · rw [hm] at h
    cases h

/-- What is not late is done in one of the first two stages. -/
theorem exists_mem_turnDeeds (s : Session σ) (time : Float) {p : Deed → Bool}
    (hp : ∀ d, d.isLate = true → ¬ p d = true) :
    (∃ d ∈ s.turnDeeds time, p d = true) ↔
      (∃ d ∈ s.measureDeeds time, p d = true) ∨
        ((s.measure time).2 = none ∧
          ∃ d ∈ (s.measure time).1.displayDeeds time, p d = true) := by
  unfold turnDeeds
  obtain ⟨m, _ | e⟩ := s.measure time
  · have hshow : (∃ d ∈ m.showDeeds time, p d = true) ↔ ∃ d ∈ m.displayDeeds time, p d = true := by
      unfold showDeeds
      split
      · rw [List.append_nil]
      · rename_i d _
        have hlate : ¬ ∃ x ∈ d.cycleDeeds time, p x = true := by
          rintro ⟨x, hx, hpx⟩
          exact hp x (d.late_cycleDeeds time x hx) hpx
        simp only [List.mem_append, or_and_right, exists_or, hlate, or_false]
    simp only [List.mem_append, or_and_right, exists_or, hshow, true_and]
  · simp

/-- A turn reports when it is time for that, unless it breaks off there. -/
theorem Turn.reports_iff (t : Turn σ) :
    t.Reports ↔ t.time ≥ t.start.console.nextReport ∧ (t.start.measure t.time).2 = none := by
  have hlate : ∀ d : Deed, d.isLate = true → ¬ d.isReport = true := by
    intro d hd
    simp [Deed.isLate] at hd
    simp [hd]
  unfold Turn.Reports Turn.deeds
  rw [exists_mem_turnDeeds _ _ hlate, (measures _ _).reports_iff]
  simp [(displays _ _).not_reports]

/-- A turn asks when it is time for that, unless it has broken off before. -/
theorem Turn.asks_iff (t : Turn σ) :
    t.Asks ↔ t.time ≥ t.start.console.nextDisplay ∧ (t.start.measure t.time).2 = none := by
  have hlate : ∀ d : Deed, d.isLate = true → ¬ d.isAsking = true := by
    intro d hd
    simp [Deed.isLate] at hd
    simp [hd]
  have hmeasures := t.start.measures t.time
  unfold Turn.Asks Turn.deeds
  rw [exists_mem_turnDeeds _ _ hlate, (displays _ _).asks_iff, or_iff_right hmeasures.not_asks,
    and_comm]
  refine and_congr_left fun hmeasured => ?_
  rw [hmeasured] at hmeasures
  rw [hmeasures.schedule.2.1]

end Turns

/-! ## Runs -/

section Runs

/-- What acts when its time has come, and sets its time anew when it acts, is scheduled throughout a
run. -/
theorem Runs.scheduled {P : Turn σ → Prop} {next : Float → Float} (due : Session σ → Float)
    (hP : ∀ t : Turn σ, P t ↔ t.time ≥ due t.start ∧ (t.start.measure t.time).2 = none)
    (hclock : ∀ s clock, due (s.setClock clock) = due s)
    (hturn : ∀ {s t time}, s.turnAt time = (t, none) →
      due t = if time ≥ due s then next time else due s)
    {s t : Session σ} {ts : List (Turn σ)} {e : Ending} (h : Runs s ts t e) :
    Scheduled P next (due s) ts := by
  induction h with
  | stopped => exact .nil
  | @ended s t clock time e hread hlast =>
    by_cases hact : P ⟨s.setClock clock, time⟩
    · have hdue := ((hP _).mp hact).1
      rw [hclock] at hdue
      exact .acts hact hdue .nil
    · exact .breaks hact
  | @went s t u clock time ts e hread hnext _ ih =>
    have hact := hP ⟨s.setClock clock, time⟩
    have hset := hturn hnext
    rw [hclock, and_iff_left (measured_of_turnAt hnext)] at hact
    rw [hclock] at hset
    by_cases hdue : time ≥ due s
    · rw [hset, if_pos hdue] at ih
      exact .acts (hact.mpr hdue) hdue ih
    · rw [hset, if_neg hdue] at ih
      exact .passes (fun hp => hdue (hact.mp hp)) hdue ih

/-- What lies between the cycle of a turn and the turn behind it: the readings of a wait for the time
of the first turn and an interval, or nothing if there is no interval. They are the last that the
clock has given before the reading with which the second turn begins. -/
def Rested (interval : Option Float) (a b : Turn σ) : Prop :=
  ∃ first times, a.deeds = first ++ .cycles (.ok true) :: times.map .waits ∧
    (∀ d ∈ first, d.isWait = false) ∧
    (∃ clock : Clock, clock.Gives times a.result.1.clock) ∧
    a.result.1.clock.read = (b.start.clock, .ok b.time) ∧
    match interval with
    | none => times = []
    | some i => ∃ early last, times = early ++ [last] ∧ (∀ t ∈ early, t < a.time + i) ∧
        ¬ last < a.time + i

theorem not_waits_measures {s t : Session σ} {time : Float} {ds : List Deed} {e : Option Ending}
    (h : Measures s time ds t e) : ∀ d ∈ ds, d.isWait = false := by
  cases h with
  | early => simp
  | due => simp [Deed.isWait]
  | failed => simp

theorem not_waits_displays {s t : Session σ} {time : Float} {ds : List Deed} {e : Option Ending}
    (h : Displays s time ds t e) : ∀ d ∈ ds, d.isWait = false := by
  cases h with
  | early => simp
  | failed => simp [Deed.isWait]
  | quit => simp [Deed.isWait]
  | shown => simp [Deed.isWait]

theorem rested {s t : Session σ} {time time' : Float} {clock : Clock}
    (hturn : s.turnAt time = (t, none)) (hread : t.clock.read = (clock, .ok time')) :
    Rested s.console.interval ⟨s, time⟩ ⟨t.setClock clock, time'⟩ := by
  obtain ⟨xs, m, ys, d, zs, o, ws, hmeasure, hdisplay, hoperate, hwait, hdeeds⟩ :=
    turnAt_eq_none hturn
  have hinterval : o.console.interval = s.console.interval := by
    rw [hoperate.schedule.2.2, hdisplay.schedule.2.2, hmeasure.schedule.2.2]
  have hresult : (⟨s, time⟩ : Turn σ).result.1 = t := congrArg Prod.fst hturn
  cases hoperate with
  | @went c signals hcycle =>
    have hfirst : ∀ d ∈ xs ++ ys ++ signals.map .sends, d.isWait = false := by
      have hsends : ∀ d ∈ signals.map Deed.sends, d.isWait = false := by simp [Deed.isWait]
      exact List.forall_mem_append.mpr ⟨List.forall_mem_append.mpr
        ⟨not_waits_measures hmeasure, not_waits_displays hdisplay⟩, hsends⟩
    generalize hw : Session.counted _ = o at hwait hinterval
    cases hwait with
    | never hnone =>
      refine ⟨_, [], ?_, hfirst, ⟨_, .nil⟩, ?_, ?_⟩
      · simpa [Turn.deeds] using hdeeds
      · rw [hresult]
        exact hread
      · rw [← hinterval, hnone]
    | @waited i after hsome hwaited =>
      obtain ⟨early, last, hreadings, hearly, hlast, hgives⟩ := Clock.waitFor_eq_none hwaited
      refine ⟨_, early ++ [last], ?_, hfirst, ⟨o.clock, ?_⟩, ?_, ?_⟩
      · rw [Clock.readingsUntil, hreadings] at hdeeds
        simpa [Turn.deeds] using hdeeds
      · rw [hresult]
        exact hgives
      · rw [hresult]
        exact hread
      · rw [← hinterval, hsome]
        exact ⟨early, last, rfl, hearly, hlast⟩

theorem Runs.rested {s t : Session σ} {ts : List (Turn σ)} {e : Ending} (h : Runs s ts t e) :
    ts.IsChain (Rested s.console.interval) := by
  induction h with
  | stopped => exact .nil
  | ended => exact .singleton _
  | @went s t u clock time ts e hread hturn hrest ih =>
    rw [(schedule_turnAt hturn).2.2] at ih
    cases hrest with
    | stopped => exact .singleton _
    | ended hread' => exact .cons_cons (Session.rested hturn hread') ih
    | went hread' => exact .cons_cons (Session.rested hturn hread') ih

/-- A request to quit is the last that is done, and ends the session. -/
def QuitsLast (ds : List Deed) (e : Option Ending) : Prop :=
  .polls (.ok true) ∈ ds → e = some .quit ∧ ∃ before, ds = before ++ [.polls (.ok true)] ∧
    .polls (.ok true) ∉ before

theorem QuitsLast.of_notMem {ds : List Deed} {e : Option Ending} (h : .polls (.ok true) ∉ ds) :
    QuitsLast ds e := fun hmem => absurd hmem h

theorem quitsLast_late {ds : List Deed} {e : Option Ending} (h : ∀ d ∈ ds, d.isLate = true) :
    QuitsLast ds e := .of_notMem fun hmem => by cases h _ hmem

theorem composes_quitsLast : Composes (σ := σ) fun _ ds _ e => QuitsLast ds e where
  trans := by
    intro s t u xs ys e hs ht hmem
    -- the first part has led on, so there was no request in it
    have hxs : .polls (.ok true) ∉ xs := by
      intro hx
      cases (hs hx).1
    obtain ⟨he, before, rfl, hbefore⟩ := ht ((List.mem_append.mp hmem).resolve_left hxs)
    refine ⟨he, xs ++ before, (List.append_assoc _ _ _).symm, ?_⟩
    simp [hxs, hbefore]
  read s clock := .of_notMem (by simp)
  stopped s clock f := .of_notMem (by simp)
  measure h := by
    cases h with
    | early => exact .of_notMem (by simp)
    | due => exact .of_notMem (by simp)
    | failed => exact .of_notMem (by simp)
  display h := by
    cases h with
    | early => exact .of_notMem (by simp)
    | failed => exact .of_notMem (by simp)
    | quit => exact fun _ => ⟨rfl, [], rfl, by simp⟩
    | shown => exact .of_notMem (by simp)
  operate h := quitsLast_late h.late
  wait h := quitsLast_late h.late

/-- **The pace of a session.** Between two turns that ask the host, with none between them, lies at
least the time of a frame, and no turn between them begins as late as that; between two turns that
report, the same holds of the next whole second. Between the cycle of a turn and the next turn the
clock gives a reading that is not less than the time of the turn and the interval; without an interval
nothing lies between the two. A request to quit is the last that is done. The host of a session is
sent and asked what the deeds say of it. -/
theorem turns_paced (s : Session σ) :
    Paced Turn.Asks (· + Console.displayInterval) s.turns ∧
    Paced Turn.Reports (wholeSeconds · + 1.0) s.turns ∧
    s.turns.IsChain (Rested s.console.interval) ∧
    (∀ before after, s.deeds = before ++ .polls (.ok true) :: after →
      after = [] ∧ s.run.2 = .quit) ∧
    s.recorded.run.1.host = ⟨s.run.1.host, s.deeds.filter Deed.isSeen⟩ := by
  have hruns := s.runs_run
  have hasks := hruns.scheduled (fun s => s.console.nextDisplay) Turn.asks_iff
    (fun _ _ => rfl) fun h => (schedule_turnAt h).2.1
  have hreports := hruns.scheduled (fun s => s.console.nextReport) Turn.reports_iff
    (fun _ _ => rfl) fun h => (schedule_turnAt h).1
  refine ⟨hasks.paced, hreports.paced, hruns.rested, fun before after hsplit => ?_,
    s.recorded_run⟩
  obtain ⟨hending, first, hfirst, hnone⟩ := composes_quitsLast.run s (by rw [hsplit]; simp)
  refine ⟨?_, Option.some.inj hending⟩
  rcases List.eq_nil_or_concat after with rfl | ⟨rest, d, rfl⟩
  · rfl
  · rw [hsplit, List.concat_eq_append, ← List.cons_append, ← List.append_assoc] at hfirst
    obtain ⟨rfl, -⟩ := List.append_inj' hfirst rfl
    exact absurd (by simp) hnone

end Runs

end Session
end ChipEight
