import ChipEight.Proofs.Listings
import ChipEight.Proofs.Transcripts

/-!
# ChipEight.Proofs.Tracing

Listing every instruction changes nothing but the text. Two sessions that differ in whether
instructions are listed go the same way, and the one that lists them prints one line more for each
cycle that has executed an instruction.

* `Session.erased`: a session without its listing and its text.
* `Session.Unseeing`: what goes the same way whatever the listing and the text are. Stages have it,
  and so do turns and runs.
* `Session.Turn.lines`: what is listed in a turn. `Turn.behind_eq` says where in its deeds.
* `Session.listing_only_prints`: two consoles and two sessions side by side.
-/

namespace ChipEight

theorem Transcript.hush_foldl_prints {σ : Type} [Transcript σ] (host : σ) (lines : List String)
    (signals : List Signal) :
    hush ((Console.prints lines ++ signals).foldl Host.send host) =
      hush (signals.foldl Host.send host) := by
  induction lines generalizing host with
  | nil => rfl
  | cons text lines ih =>
    show hush ((Console.prints lines ++ signals).foldl Host.send (Host.send host (.print text))) = _
    rw [ih, ← hush_foldl, hush_print, hush_foldl]

/-! ## Sessions -/

namespace Session

variable {σ : Type}

/-- A session that lists its instructions, or does not. -/
def setLive (s : Session σ) (live : Bool) : Session σ := ⟨s.console.setLive live, s.host⟩

variable [Transcript σ]

/-- A session without its listing and its text. -/
def erased (s : Session σ) : Session σ := ⟨s.console.setLive false, Transcript.hush s.host⟩

theorem erased_erased (s : Session σ) : s.erased.erased = s.erased :=
  congrArg (Session.mk _) (Transcript.hush_hush s.host)

theorem erased_advance (s : Session σ) (c : Console) (signals : List Signal) :
    (s.erased.advance (c.setLive false, signals)).erased = (s.advance (c, signals)).erased :=
  congrArg (Session.mk (c.setLive false)) (Transcript.hush_foldl s.host signals)

theorem poll_erased (s : Session σ) : s.erased.poll = (s.poll.1.erased, s.poll.2) := by
  have hpoll : Host.poll s.erased.host s.erased.console.keys s.erased.clock = _ :=
    Transcript.poll_hush s.host s.console.keys s.clock
  unfold poll
  rw [hpoll]
  rfl

/-- What goes the same way whatever the listing and the text are. -/
def Unseeing {α : Type} (F : Session σ → Session σ × α) : Prop :=
  ∀ s, (F s.erased).1.erased = (F s).1.erased ∧ (F s.erased).2 = (F s).2

namespace Unseeing

variable {α : Type} {F G : Session σ → Session σ × Option Ending}

theorem congr {F : Session σ → Session σ × α} (hF : Unseeing F) {s t : Session σ}
    (h : s.erased = t.erased) : (F s).1.erased = (F t).1.erased ∧ (F s).2 = (F t).2 := by
  obtain ⟨hs, hs'⟩ := hF s
  obtain ⟨ht, ht'⟩ := hF t
  rw [← hs, ← hs', h]
  exact ⟨ht, ht'⟩

/-- Both sides of what goes the same way, with the one answer that they give. -/
theorem alike {F : Session σ → Session σ × α} (hF : Unseeing F) {s t : Session σ}
    (h : s.erased = t.erased) :
    ∃ u v a, F s = (u, a) ∧ F t = (v, a) ∧ u.erased = v.erased := by
  obtain ⟨hsession, hanswer⟩ := hF.congr h
  exact ⟨(F s).1, (F t).1, (F t).2, Prod.ext rfl hanswer, rfl, hsession⟩

theorem andThen (hF : Unseeing F) (hG : Unseeing G) :
    Unseeing fun s => match F s with
      | (s, some e) => (s, some e)
      | (s, none) => G s := by
  intro s
  obtain ⟨t, u, e, ht, hu, hsame⟩ := hF.alike s.erased_erased
  dsimp only
  rw [ht, hu]
  cases e with
  | some e => exact ⟨hsame, rfl⟩
  | none => exact hG.congr hsame

end Unseeing

theorem unseeing_measure (time : Float) : Unseeing (σ := σ) fun s => s.measure time := by
  intro s
  dsimp only
  unfold measure
  by_cases hdue : time ≥ s.console.nextReport
  · have hdue' : time ≥ s.erased.console.nextReport := hdue
    rw [if_pos hdue, if_pos hdue']
    split
    · exact ⟨s.erased_advance { s.console with
        nextReport := wholeSeconds time + 1.0, frames := 0, operations := 0 } _, rfl⟩
    · exact ⟨s.erased_erased, rfl⟩
  · have hdue' : ¬ time ≥ s.erased.console.nextReport := hdue
    rw [if_neg hdue, if_neg hdue']
    exact ⟨s.erased_erased, rfl⟩

theorem unseeing_display (time : Float) : Unseeing (σ := σ) fun s => s.display time := by
  intro s
  dsimp only
  unfold display
  by_cases hdue : time ≥ s.console.nextDisplay
  · have hdue' : time ≥ s.erased.console.nextDisplay := hdue
    rw [if_pos hdue, if_pos hdue', poll_erased]
    rcases s.poll with ⟨t, f | _ | _⟩
    · exact ⟨t.erased_erased, rfl⟩
    · have hshown := Transcript.hush_send t.host (.refresh t.console.changed)
      exact ⟨congrArg (Session.mk _) hshown, rfl⟩
    · exact ⟨t.erased_erased, rfl⟩
  · have hdue' : ¬ time ≥ s.erased.console.nextDisplay := hdue
    rw [if_neg hdue, if_neg hdue']
    exact ⟨s.erased_erased, rfl⟩

/-- The first two stages of a turn. -/
def approach (s : Session σ) (time : Float) : Session σ × Option Ending :=
  match s.measure time with
  | (s, some e) => (s, some e)
  | (s, none) => s.display time

theorem unseeing_approach (time : Float) : Unseeing (σ := σ) fun s => s.approach time :=
  (unseeing_measure time).andThen (unseeing_display time)

theorem erased_advance_prints (s : Session σ) (c : Console) (live : Bool) (lines : List String)
    (signals : List Signal) :
    (s.erased.advance (c, signals)).erased =
      (s.advance (c.setLive live, Console.prints lines ++ signals)).erased := by
  have hhost : Transcript.hush (signals.foldl Host.send (Transcript.hush s.host)) =
      Transcript.hush ((Console.prints lines ++ signals).foldl Host.send s.host) := by
    rw [Transcript.hush_foldl, Transcript.hush_foldl_prints]
  exact congrArg (Session.mk (c.setLive false)) hhost

theorem unseeing_operate : Unseeing (σ := σ) operate := by
  intro s
  have hcycle := s.console.cycle_eq_setLive
  rcases hquiet : (s.console.setLive false).cycle with ⟨c, signals, f | _ | _⟩
  -- both sessions run the cycle of the console that lists nothing, one with a line in front
  all_goals
    rw [hquiet] at hcycle
    have herased : s.erased.console.cycle = _ := hquiet
    unfold operate
    rw [hcycle, herased]
    dsimp only
  · exact ⟨s.erased_advance_prints c _ _ signals, rfl⟩
  · rw [finish_eq, finish_eq, List.append_assoc]
    exact ⟨s.erased_advance_prints { c with changed := false } _ _ _, rfl⟩
  · have hadvance := s.erased_advance_prints c s.console.live
      (if s.console.live then s.console.lines else []) signals
    exact ⟨congrArg counted hadvance, rfl⟩

theorem unseeing_wait (time : Float) : Unseeing (σ := σ) fun s => s.wait time := by
  intro s
  have hsame : s.erased.console.interval = s.console.interval := rfl
  dsimp only
  unfold wait
  rw [hsame]
  cases s.console.interval with
  | none => exact ⟨s.erased_erased, rfl⟩
  | some interval => exact ⟨(s.setClock _).erased_erased, rfl⟩

theorem unseeing_turnAt (time : Float) : Unseeing (σ := σ) fun s => s.turnAt time := by
  simp only [turnAt_eq]
  exact (unseeing_measure time).andThen
    ((unseeing_display time).andThen (unseeing_operate.andThen (unseeing_wait time)))

theorem unseeing_turn : Unseeing (σ := σ) turn := by
  intro s
  have hsame : s.erased.clock = s.clock := rfl
  rw [turn_eq, turn_eq, hsame]
  rcases s.clock.read with ⟨clock, f | time⟩
  · exact ⟨(s.setClock clock).erased_erased, rfl⟩
  · exact (unseeing_turnAt time) (s.setClock clock)

theorem unseeing_runFor (n : Nat) : Unseeing (σ := σ) (runFor n) := by
  induction n with
  | zero => exact fun s => ⟨s.erased_erased, rfl⟩
  | succ n ih =>
    intro s
    obtain ⟨t, u, e, ht, hu, hsame⟩ := unseeing_turn.alike s.erased_erased
    rw [runFor_succ, runFor_succ, ht, hu]
    cases e with
    | some e => exact ⟨hsame, rfl⟩
    | none => exact ih.congr hsame

theorem unseeing_run : Unseeing (σ := σ) run := fun s => unseeing_runFor _ s

/-! ## Deeds -/

/-- Nothing switches the listing on or off. -/
theorem composes_live : Composes (σ := σ) fun s _ t _ => t.console.live = s.console.live where
  trans hs ht := ht.trans hs
  read _ _ := rfl
  stopped _ _ _ := rfl
  measure h := by cases h <;> rfl
  display h := by
    have hasked : ∀ {s t : Session σ} {answer}, s.poll = (t, answer) →
        t.console.live = s.console.live := by
      intro s t answer hpoll
      obtain ⟨_, _, hconsole⟩ := console_poll hpoll
      rw [hconsole]
    cases h with
    | early => rfl
    | failed _ hpoll => exact hasked hpoll
    | quit _ hpoll => exact hasked hpoll
    | shown _ hpoll =>
      have hshown := hasked hpoll
      exact hshown
  operate {s _ _ _} h := by
    have hcycle := s.console.live_cycle
    cases h with
    | failed heq => rwa [heq] at hcycle
    | finished heq => rwa [heq] at hcycle
    | went heq => rwa [heq] at hcycle
  wait h := by cases h <;> rfl

theorem displayDeeds_erased (s : Session σ) (time : Float) :
    s.erased.displayDeeds time = s.displayDeeds time := by
  unfold displayDeeds
  by_cases hdue : time ≥ s.console.nextDisplay
  · have hdue' : time ≥ s.erased.console.nextDisplay := hdue
    rw [if_pos hdue, if_pos hdue', poll_erased]
    rcases s.poll with ⟨t, f | _ | _⟩ <;> rfl
  · have hdue' : ¬ time ≥ s.erased.console.nextDisplay := hdue
    rw [if_neg hdue, if_neg hdue']

/-- What a session sends for the listing of its next cycle. -/
def listingDeeds (lines : List String) : List Deed := (Console.prints lines).map .sends

theorem operateDeeds_eq (s : Session σ) :
    s.operateDeeds = listingDeeds (if s.console.live then s.console.lines else []) ++
      s.erased.operateDeeds := by
  have hcycle := s.console.cycle_eq_setLive
  rcases hquiet : (s.console.setLive false).cycle with ⟨c, signals, answer⟩
  rw [hquiet] at hcycle
  have herased : s.erased.console.cycle = _ := hquiet
  unfold operateDeeds listingDeeds
  rw [hcycle, herased]
  dsimp only
  rw [List.map_append, List.append_assoc]
  rfl

theorem cycleDeeds_eq (s : Session σ) (time : Float) :
    s.cycleDeeds time = listingDeeds (if s.console.live then s.console.lines else []) ++
      s.erased.cycleDeeds time := by
  obtain ⟨t, u, e, ht, hu, hsame⟩ := unseeing_operate.alike s.erased_erased.symm
  unfold cycleDeeds
  rw [operateDeeds_eq, List.append_assoc, ht, hu]
  cases e with
  | some e => rfl
  | none =>
    -- how long to wait is seen from what is left of either session
    have hwait : t.waitDeeds time = u.waitDeeds time := by
      show t.erased.waitDeeds time = u.erased.waitDeeds time
      rw [hsame]
    dsimp only
    rw [hwait]

/-! ## Turns -/

namespace Turn

/-- A turn without its listing and its text. -/
def erased (t : Turn σ) : Turn σ := ⟨t.start.erased, t.time⟩

/-- What a turn does before its cycle. -/
def before (t : Turn σ) : List Deed :=
  t.start.measureDeeds t.time ++
    match t.start.measure t.time with
    | (_, some _) => []
    | (s, none) => s.displayDeeds t.time

/-- The session that runs the cycle of a turn, if the turn comes to that. -/
def operating (t : Turn σ) : Option (Session σ) :=
  match t.start.approach t.time with
  | (_, some _) => none
  | (s, none) => some s

/-- What is listed in a turn. -/
def lines (t : Turn σ) : List String :=
  match t.operating with
  | none => []
  | some s => s.console.lines

/-- What a turn does from its cycle on. -/
def behind (t : Turn σ) : List Deed :=
  match t.operating with
  | none => []
  | some s => s.cycleDeeds t.time

theorem deeds_eq (t : Turn σ) : t.deeds = t.before ++ t.behind := by
  unfold deeds turnDeeds before behind operating approach
  obtain ⟨m, _ | e⟩ := t.start.measure t.time
  · dsimp only
    unfold showDeeds
    rw [List.append_assoc]
    obtain ⟨s, _ | e⟩ := m.display t.time <;> rfl
  · exact (List.append_nil _).symm

theorem before_erased (t : Turn σ) : t.erased.before = t.before := by
  obtain ⟨u, v, e, hu, hv, hsame⟩ := (unseeing_measure t.time).alike t.start.erased_erased
  unfold before
  show t.start.measureDeeds t.time ++ (match t.start.erased.measure t.time with
    | (_, some _) => []
    | (s, none) => s.displayDeeds t.time) = _
  rw [hu, hv]
  cases e with
  | some e => rfl
  | none =>
    dsimp only
    rw [← displayDeeds_erased u, hsame, displayDeeds_erased]

theorem operating_erased (t : Turn σ) :
    t.erased.operating.map Session.erased = t.operating.map Session.erased := by
  obtain ⟨s, u, e, hs, hu, hsame⟩ := (unseeing_approach t.time).alike t.start.erased_erased
  unfold operating
  show Option.map _ (match t.start.erased.approach t.time with
    | (_, some _) => none
    | (s, none) => some s) = _
  rw [hs, hu]
  cases e with
  | some e => rfl
  | none => exact congrArg some hsame

theorem live_operating {t : Turn σ} {s : Session σ} (h : t.operating = some s) :
    s.console.live = t.start.console.live := by
  have hmeasure := composes_live.measure (t.start.measures t.time)
  unfold operating approach at h
  rcases hm : t.start.measure t.time with ⟨m, _ | e⟩
  · rw [hm] at h hmeasure
    have hdisplay := composes_live.display (m.displays t.time)
    dsimp only at h
    rcases hd : m.display t.time with ⟨d, _ | e⟩
    · rw [hd] at h hdisplay
      cases h
      exact hdisplay.trans hmeasure
    · rw [hd] at h
      cases h
  · rw [hm] at h
    cases h

/-- What a turn does from its cycle on, without the listing. -/
def unlisted (t : Turn σ) : List Deed :=
  match t.operating.map Session.erased with
  | none => []
  | some s => s.cycleDeeds t.time

theorem unlisted_erased (t : Turn σ) : t.erased.unlisted = t.unlisted := by
  unfold unlisted
  rw [operating_erased]
  rfl

theorem lines_erased (t : Turn σ) : t.erased.lines = t.lines := by
  have hlines : ∀ u : Turn σ, u.lines = match u.operating.map Session.erased with
      | none => []
      | some s => s.console.lines := by
    intro u
    unfold lines
    cases u.operating with
    | none => rfl
    | some s => exact (s.console.lines_setLive false).symm
  rw [hlines, hlines, operating_erased]

theorem behind_eq (t : Turn σ) :
    t.behind = listingDeeds (if t.start.console.live then t.lines else []) ++ t.unlisted := by
  unfold behind lines unlisted
  cases hs : t.operating with
  | none => simp [listingDeeds, Console.prints]
  | some s =>
    rw [← live_operating hs]
    exact s.cycleDeeds_eq t.time

/-- What a turn does if it lists its instructions. -/
def listedDeeds (t : Turn σ) : List Deed := t.before ++ listingDeeds t.lines ++ t.unlisted

theorem deeds_of_live {t : Turn σ} (h : t.start.console.live = true) :
    t.deeds = t.listedDeeds := by
  rw [deeds_eq, behind_eq, if_pos h, ← List.append_assoc]
  rfl

theorem listedDeeds_of_quiet {t : Turn σ} (h : t.start.console.live = false) :
    t.listedDeeds = t.before ++ listingDeeds t.lines ++ t.behind := by
  have hbehind : t.behind = t.unlisted := by
    rw [behind_eq, h]
    rfl
  rw [hbehind]
  rfl

theorem listedDeeds_erased (t : Turn σ) : t.erased.listedDeeds = t.listedDeeds := by
  unfold listedDeeds
  rw [before_erased, lines_erased, unlisted_erased]

end Turn

/-! ## Runs -/

theorem turnsFor_erased (n : Nat) (s : Session σ) :
    (turnsFor n s.erased).map Turn.erased = (turnsFor n s).map Turn.erased := by
  induction n generalizing s with
  | zero => rfl
  | succ n ih =>
    have hsame : s.erased.clock = s.clock := rfl
    rw [turnsFor, turnsFor, hsame]
    rcases s.clock.read with ⟨clock, f | time⟩
    · rfl
    · have hstart : (⟨s.erased.setClock clock, time⟩ : Turn σ).erased =
          (⟨s.setClock clock, time⟩ : Turn σ).erased :=
        congrArg (Turn.mk · time) (s.setClock clock).erased_erased
      have hnext : (s.erased.setClock clock).erased = (s.setClock clock).erased :=
        (s.setClock clock).erased_erased
      obtain ⟨t, u, e, ht, hu, hsame⟩ := (unseeing_turnAt time).alike hnext
      dsimp only
      rw [List.map_cons, List.map_cons, hstart, ht, hu]
      cases e with
      | some e => rfl
      | none =>
        dsimp only
        rw [← ih t, ← ih u, hsame]

theorem live_of_mem_turns {s t : Session σ} {turns : List (Turn σ)} {e : Ending}
    (h : Runs s turns t e) : ∀ u ∈ turns, u.start.console.live = s.console.live := by
  induction h with
  | stopped => simp
  | ended =>
    intro u hu
    rw [List.mem_singleton.mp hu]
    rfl
  | @went s t u clock time turns e hread hturn _ ih =>
    have hlive := composes_live.turnAt (s.setClock clock) time
    rw [hturn] at hlive
    intro v hv
    rcases List.mem_cons.mp hv with rfl | hv
    · rfl
    · exact (ih v hv).trans hlive

theorem turns_erased {s t : Session σ} (h : s.erased = t.erased) :
    s.turns.map Turn.erased = t.turns.map Turn.erased := by
  have hturns : ∀ u : Session σ, u.erased.turns.map Turn.erased = u.turns.map Turn.erased :=
    fun u => turnsFor_erased _ u
  rw [← hturns s, h, hturns]

theorem flatMap_listedDeeds {s t : Session σ} (h : s.erased = t.erased) :
    s.turns.flatMap Turn.listedDeeds = t.turns.flatMap Turn.listedDeeds := by
  have hmap : ∀ turns : List (Turn σ),
      turns.flatMap Turn.listedDeeds = (turns.map Turn.erased).flatMap Turn.listedDeeds := by
    intro turns
    rw [List.flatMap_map]
    simp only [Turn.listedDeeds_erased]
  rw [hmap, turns_erased h, ← hmap]

theorem deeds_eq_of_quiet {s t : Session σ} (h : s.erased = t.erased) (hs : s.console.live = true)
    (ht : t.console.live = false) :
    s.deeds = t.turns.flatMap fun u => u.before ++ listingDeeds u.lines ++ u.behind :=
  calc s.deeds
    _ = s.turns.flatMap Turn.listedDeeds :=
      List.flatMap_congr fun u hu =>
        Turn.deeds_of_live ((live_of_mem_turns s.runs_run u hu).trans hs)
    _ = t.turns.flatMap Turn.listedDeeds := flatMap_listedDeeds h
    _ = t.turns.flatMap fun u => u.before ++ listingDeeds u.lines ++ u.behind :=
      List.flatMap_congr fun u hu =>
        Turn.listedDeeds_of_quiet ((live_of_mem_turns t.runs_run u hu).trans ht)

open Transcript in
/-- **Listing only prints.** Of two consoles that differ in whether instructions are listed, every
history makes consoles that differ in nothing else, and the next cycle answers the same; the one that
lists has sent the signals of the other one, with a line in front of those of each cycle that
executed an instruction. Of two such sessions on a host that keeps a text, the turns begin at the same
times and in sessions that differ in the listing and the text only; such are also the sessions that
the runs leave, and the endings are the same. The deeds of the run that lists are those of the other
one with the lines in between, and both hosts have printed what the deeds of their run say. -/
theorem listing_only_prints :
    (∀ (c : Console) (es : List Console.Event),
      let t := c.setLive true
      let q := c.setLive false
      t.after es = (q.after es).setLive true ∧
        (t.after es).cycle.2.2 = (q.after es).cycle.2.2 ∧
        t.signals es = (q.steps es).flatMap fun p =>
          Console.prints (p.1.listed p.2) ++ (p.1.apply p.2).2) ∧
    ∀ {σ : Type} [Transcript σ] (s : Session σ),
      let t := s.setLive true
      let q := s.setLive false
      t.turns.map Turn.erased = q.turns.map Turn.erased ∧ t.run.1.erased = q.run.1.erased ∧
        t.run.2 = q.run.2 ∧
        q.deeds = (q.turns.flatMap fun u => u.before ++ u.behind) ∧
        t.deeds = (q.turns.flatMap fun u => u.before ++ listingDeeds u.lines ++ u.behind) ∧
        (Heeds q.run.1.host →
          text q.run.1.host = text s.host ++ textOf q.deeds ∧
            text t.run.1.host = text s.host ++ textOf t.deeds) := by
  refine ⟨fun c es => ?_, ?_⟩
  · intro t q
    have hafter : t.after es = (q.after es).setLive true := q.after_setLive rfl es
    refine ⟨hafter, ?_, q.signals_setLive rfl es⟩
    rw [hafter, Console.cycle_eq_setLive ((q.after es).setLive true),
      Console.cycle_eq_setLive (q.after es)]
    rfl
  · intro σ _ s t q
    have hsame : t.erased = q.erased := rfl
    obtain ⟨hsession, hending⟩ := unseeing_run.congr hsame
    refine ⟨turns_erased hsame, hsession, hending, ?_, ?_, ?_⟩
    · exact congrArg (q.turns.flatMap ·) (funext Turn.deeds_eq)
    · exact deeds_eq_of_quiet hsame rfl rfl
    · intro hheeds
      have hhost : hush t.run.1.host = hush q.run.1.host := congrArg Session.host hsession
      have hheeds' : Heeds t.run.1.host := by
        rw [← heeds_hush, hhost, heeds_hush]
        exact hheeds
      exact ⟨q.text_run hheeds, t.text_run hheeds'⟩

end Session
end ChipEight
