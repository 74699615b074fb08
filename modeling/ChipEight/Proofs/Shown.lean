import ChipEight.Proofs.Redraws
import ChipEight.Proofs.Recordings
import ChipEight.Session.Recorder

/-!
# ChipEight.Proofs.Shown

What a session draws and when it is shown. A cycle that draws marks the screen as changed; a refresh
hands the mark to the host and lowers it.

* `Marks`: what deeds do to the mark. `Marks.iff_since` says which of them leave it raised.
* `Console.changed_cycle`: a cycle raises the mark exactly if it sends pixels.
* `Session.composes_marks`: every stage of a turn treats the mark so.
* `drawn_is_shown`: at the end of a run the mark says whether anything drawn has not been shown. A
  program that comes to its end is shown to the end; one that is quit may not be.
-/

namespace ChipEight

def Deed.isPixel : Deed → Bool
  | .sends signal => signal.isPixel
  | _ => false

/-- Some deeds meet the mark on a changed screen with one value and leave it with another. A pixel
raises it; a refresh tells the host its value and lowers it. -/
inductive Marks (start : Bool) : List Deed → Bool → Prop where
  | nil : Marks start [] start
  | drawn {ds : List Deed} {b : Bool} {d : Deed} (h : Marks start ds b) (hpixel : d.isPixel = true) :
      Marks start (ds ++ [d]) true
  | shown {ds : List Deed} {b : Bool} (h : Marks start ds b) :
      Marks start (ds ++ [.sends (.refresh b)]) false
  | kept {ds : List Deed} {b : Bool} {d : Deed} (h : Marks start ds b)
      (hpixel : ¬ d.isPixel = true) (hrefresh : ∀ changed, d ≠ .sends (.refresh changed)) :
      Marks start (ds ++ [d]) b

/-- Something is drawn, and later there is no refresh that says so. -/
def Unshown (ds : List Deed) : Prop :=
  Since (fun _ d => d.isPixel = true) (· = .sends (.refresh true)) ds

namespace Marks

variable {start mid last : Bool} {xs ys ds : List Deed}

theorem append (hx : Marks start xs mid) (hy : Marks mid ys last) :
    Marks start (xs ++ ys) last := by
  induction hy with
  | nil =>
    rw [List.append_nil]
    exact hx
  | drawn _ hpixel ih =>
    rw [← List.append_assoc]
    exact .drawn ih hpixel
  | shown _ ih =>
    rw [← List.append_assoc]
    exact .shown ih
  | kept _ hpixel hrefresh ih =>
    rw [← List.append_assoc]
    exact .kept ih hpixel hrefresh

/-- Deeds that neither draw nor refresh leave the mark alone. -/
theorem quiet (start : Bool) (hpixel : ∀ d ∈ ds, ¬ d.isPixel = true)
    (hrefresh : ∀ d ∈ ds, ∀ changed, d ≠ .sends (.refresh changed)) : Marks start ds start := by
  induction ds using List.reverseRecOn with
  | nil => exact .nil
  | append_singleton ds d ih =>
    refine .kept (ih (fun x hx => ?_) fun x hx => ?_) (hpixel d (by simp)) (hrefresh d (by simp))
    · exact hpixel x (List.mem_append_left _ hx)
    · exact hrefresh x (List.mem_append_left _ hx)

theorem output (start : Bool) {signals : List Signal} (h : ∀ x ∈ signals, x.isOutput = true) :
    Marks start (signals.map .sends) (start || decide (pixelCount signals ≠ 0)) := by
  induction signals using List.reverseRecOn with
  | nil =>
    rw [show (start || decide (pixelCount [] ≠ 0)) = start from Bool.or_false start]
    exact .nil
  | append_singleton signals x ih =>
    have hbefore := ih fun y hy => h y (List.mem_append_left _ hy)
    rw [List.map_append, pixelCount_append]
    by_cases hpixel : x.isPixel = true
    · have hcount : pixelCount signals + pixelCount [x] ≠ 0 := by
        simp [pixelCount, hpixel]
      rw [decide_eq_true hcount, Bool.or_true]
      exact .drawn hbefore hpixel
    · have hcount : pixelCount [x] = 0 := by simp [pixelCount, hpixel]
      rw [hcount, Nat.add_zero]
      refine .kept hbefore hpixel fun changed hrefresh => ?_
      -- a cycle sends no refresh
      cases hrefresh
      exact absurd (h (.refresh changed) (by simp)) (by simp [Signal.isOutput])

/-- The mark is up at the end if something is drawn and not shown, or if it was up and nothing has
been shown. -/
theorem iff_since (h : Marks start ds last) :
    last = true ↔ Unshown ds ∨ (start = true ∧ .sends (.refresh true) ∉ ds) := by
  unfold Unshown
  induction h with
  | nil => simp [not_since_nil]
  | drawn h hpixel ih => exact iff_of_true rfl (.inl (since_concat.mpr (.inl hpixel)))
  | @shown ds b h ih =>
    -- a mark that is up is told to the host, one that is down leaves nothing to be told
    cases b with
    | true => simp [since_concat, Deed.isPixel, Signal.isPixel]
    | false => simpa [since_concat, Deed.isPixel, Signal.isPixel] using ih
  | kept h hpixel hrefresh ih =>
    have hne := hrefresh true
    simp [since_concat, hpixel, hne, hne.symm, ih]

end Marks

namespace Console

theorem changed_cycle (c : Console) :
    c.cycle.1.changed = (c.changed || decide (pixelCount c.cycle.2.1 ≠ 0)) := by
  by_cases h : c.redraws .cycle = true
  · obtain ⟨hchanged, first, last, hsignals, hfirst, hlast⟩ := apply_redraws h
    have hcount : pixelCount c.cycle.2.1 = 2048 := by
      have hsplit : c.cycle.2.1 = first ++ pixels c.cycle.1.engine.machine.screen ++ last :=
        hsignals
      rw [hsplit, pixelCount_append, pixelCount_append, pixelCount_pixels, hfirst, hlast]
    have hraised : c.cycle.1.changed = true := hchanged
    rw [hraised, hcount]
    simp
  · obtain ⟨hcount, hchanged, -⟩ := cycle_quiet h
    rw [hchanged, hcount]
    simp

theorem marks_cycle {c d : Console} {signals : List Signal} {answer : Except Fault Bool}
    (h : c.cycle = (d, signals, answer)) :
    Marks c.changed (signals.map .sends ++ [.cycles answer]) d.changed := by
  have houtput := Marks.output c.changed c.output_cycle
  rw [← changed_cycle, h] at houtput
  exact .kept houtput (by simp [Deed.isPixel]) (by simp)

end Console

namespace Session

variable {σ : Type} [Host σ]

theorem changed_poll {s t : Session σ} {answer : Except Console.Fault Bool}
    (h : s.poll = (t, answer)) : t.console.changed = s.console.changed := by
  obtain ⟨_, _, hconsole⟩ := console_poll h
  rw [hconsole]

/-- The mark of the console is as the deeds say, and down once the program has ended. -/
theorem composes_marks : Composes (σ := σ) fun s ds t ending =>
    Marks s.console.changed ds t.console.changed ∧
      (ending = some .finished → t.console.changed = false) where
  trans hs ht := ⟨hs.1.append ht.1, ht.2⟩
  read s clock := ⟨.nil, by simp⟩
  stopped s clock f := ⟨.nil, by simp⟩
  measure h := by
    cases h with
    | early => exact ⟨.nil, by simp⟩
    | due => exact ⟨.quiet _ (by simp [Deed.isPixel, Signal.isPixel]) (by simp), by simp⟩
    | failed => exact ⟨.nil, by simp⟩
  display h := by
    have hpolls : ∀ (start : Bool) answer, Marks start [.polls answer] start := fun start answer =>
      .quiet start (by simp [Deed.isPixel]) (by simp)
    cases h with
    | early => exact ⟨.nil, by simp⟩
    | failed _ hpoll =>
      rw [changed_poll hpoll]
      exact ⟨hpolls _ _, by simp⟩
    | quit _ hpoll =>
      rw [changed_poll hpoll]
      exact ⟨hpolls _ _, by simp⟩
    | shown _ hpoll =>
      rw [changed_poll hpoll]
      exact ⟨(hpolls _ _).shown, by simp⟩
  operate {s _ _ _} h := by
    cases h with
    | failed hcycle => exact ⟨Console.marks_cycle hcycle, by simp⟩
    | finished hcycle =>
      have hprinted := (Console.marks_cycle hcycle).shown.kept
        (d := .sends (.print "Program finished.")) (by simp [Deed.isPixel, Signal.isPixel]) (by simp)
      rw [List.append_assoc, List.append_assoc] at hprinted
      exact ⟨hprinted, fun _ => rfl⟩
    | @went c signals hcycle =>
      have hcounted : Marks s.console.changed _ c.changed := Console.marks_cycle hcycle
      exact ⟨hcounted, by simp⟩
  wait h := by
    cases h with
    | never => exact ⟨.nil, by simp⟩
    | waited => exact ⟨.quiet _ (by simp [Deed.isPixel]) (by simp), by simp⟩
    | failed => exact ⟨.quiet _ (by simp [Deed.isPixel]) (by simp), by simp⟩

/-- **What is drawn is shown, unless the host asks to quit.** At the end of a run the mark on a
changed screen is up exactly if something was drawn in the run and no refresh behind it said so, or
if the mark was up before and the run had no such refresh. It is down if the program has ended. What
is drawn and refreshed in the run is what its host is sent. -/
theorem drawn_is_shown (s : Session σ) :
    (s.run.1.console.changed = true ↔
      Unshown s.deeds ∨ (s.console.changed = true ∧ .sends (.refresh true) ∉ s.deeds)) ∧
      (s.run.2 = .finished → s.run.1.console.changed = false ∧ ¬ Unshown s.deeds) ∧
      s.recorded.run.1.host = ⟨s.run.1.host, s.deeds.filter Deed.isSeen⟩ := by
  obtain ⟨hmarks, hdown⟩ := composes_marks.run s
  refine ⟨hmarks.iff_since, fun hfinished => ?_, s.recorded_run⟩
  have hlast := hdown (congrArg some hfinished)
  refine ⟨hlast, fun hunshown => ?_⟩
  rw [hmarks.iff_since.mpr (.inl hunshown)] at hlast
  cases hlast

end Session

theorem Console.goes_on_of_redraws {c : Console} (h : c.redraws .cycle = true) :
    c.cycle.2.2 = .ok true := by
  unfold redraws at h
  simp only [Bool.and_eq_true, decide_eq_true_eq] at h
  obtain ⟨⟨-, hclock⟩, hredraws⟩ := h
  obtain ⟨time, random, -, hanswer⟩ := Engine.cycle_of_isOk c.keys hclock
  obtain ⟨beep, hreport⟩ := Machine.cycle_redraws c.keys time random hredraws
  rw [hreport] at hanswer
  have hcycle : c.engine.cycle c.keys = (_, .ok _) := Prod.ext rfl hanswer
  unfold cycle
  rw [hcycle]

namespace Session

theorem frames_send (s : Session Recorder) (signals : List Signal) :
    (s.send signals).host.frames = s.host.frames := by
  have htake : ∀ (r : Recorder) x, r.frames = s.host.frames →
      (Host.send r x).frames = s.host.frames := by
    intro r x h
    cases x <;> exact h
  exact host_send htake rfl signals

/-- At a finite time a turn does not break off in its first stage, which leaves the mark on the screen,
its time and the script alone. -/
theorem measured_of_isFinite (s : Session Recorder) {time : Float} (h : time.isFinite = true) :
    ∃ u, s.measure time = (u, none) ∧ u.console.nextDisplay = s.console.nextDisplay ∧
      u.console.changed = s.console.changed ∧ u.host.frames = s.host.frames := by
  unfold measure
  rw [if_pos h]
  split
  · exact ⟨_, rfl, rfl, rfl, frames_send _ _⟩
  · exact ⟨s, rfl, rfl, rfl, rfl⟩

/-- A script that is over ends the run in the next turn that shows the screen, before it does. -/
theorem quit_of_script_over {s : Session Recorder} {clock : Clock} {time : Float}
    (hread : s.clock.read = (clock, .ok time)) (hfinite : time.isFinite = true)
    (hdue : time ≥ s.console.nextDisplay) (hframes : s.host.frames = []) :
    s.run.2 = .quit ∧ s.run.1.console.changed = s.console.changed := by
  obtain ⟨u, hu, hnext, hchanged, hscript⟩ := (s.setClock clock).measured_of_isFinite hfinite
  have hnext' : u.console.nextDisplay = s.console.nextDisplay := hnext
  have hchanged' : u.console.changed = s.console.changed := hchanged
  have hscript' : u.host.frames = [] := hscript.trans hframes
  rcases hpoll : u.poll with ⟨t, answer⟩
  obtain ⟨_, _, hconsole⟩ := console_poll hpoll
  have hanswer : answer = .ok true := by
    have hplayed : (u.host.poll u.console.keys u.clock).result = .ok true := by
      rw [Recorder.poll, hscript']
    rw [← hplayed]
    exact (congrArg Prod.snd hpoll).symm
  have hturn : s.turn = (t, some .quit) := by
    rw [turn_eq, hread]
    dsimp only
    rw [turnAt_eq, hu]
    dsimp only
    rw [display, if_pos (hnext' ▸ hdue), hpoll, hanswer]
  rw [run_of_turn_some hturn, ← hchanged', hconsole]
  exact ⟨rfl, rfl⟩

/-- A turn that shows the screen and then redraws it, without a wait behind that. -/
theorem turn_of_redraws {s m u : Session Recorder} {clock : Clock} {time : Float}
    (hread : s.clock.read = (clock, .ok time))
    (hmeasure : (s.setClock clock).measure time = (m, none))
    (hdisplay : m.display time = (u, none))
    (hinterval : u.console.interval = none) (hredraws : u.console.redraws .cycle = true) :
    s.turn = ((u.advance (u.console.cycle.1, u.console.cycle.2.1)).counted, none) := by
  obtain ⟨_, _, _, hcycle⟩ := u.console.cycle_eq
  have hanswer : u.console.cycle = (u.console.cycle.1, u.console.cycle.2.1, .ok true) :=
    Prod.ext rfl (Prod.ext rfl (Console.goes_on_of_redraws hredraws))
  have hoperate :
      u.operate = ((u.advance (u.console.cycle.1, u.console.cycle.2.1)).counted, none) := by
    unfold operate
    rw [hanswer]
    rfl
  have hnone : (u.advance (u.console.cycle.1, u.console.cycle.2.1)).counted.console.interval =
      none := by
    rw [console_counted, console_advance, hcycle]
    exact hinterval
  rw [turn_eq, hread]
  dsimp only
  rw [turnAt_eq, hmeasure]
  dsimp only
  rw [hdisplay]
  dsimp only
  rw [hoperate]
  dsimp only
  rw [wait, hnone]

/-- A clock that goes on by a second from each reading to the next. -/
def secondly (given remaining : Nat) : Clock := ⟨fun n => .ok (Float.ofNat n), given, remaining⟩

/-- A program that draws, switched on by such a clock. The host plays one frame without keys and then
asks to quit. -/
def interrupted : Session Recorder where
  console := { Console.drawing with
    engine := { Console.drawing.engine with clock := secondly 1 9 } }
  host := { Recorder.fresh with frames := [[]] }

theorem turn_interrupted : ∃ t, interrupted.turn = (t, none) ∧ t.console.changed = true ∧
    t.console.nextDisplay = 1.0 + Console.displayInterval ∧ t.host.frames = [] ∧
    t.clock = secondly 3 7 := by
  obtain ⟨m, u, hmeasure, hdisplay, hframes, hclock, hmachine, hnext, hinterval⟩ :
      ∃ m u, (interrupted.setClock (secondly 2 8)).measure 1 = (m, none) ∧
        m.display 1 = (u, none) ∧ u.host.frames = [] ∧ u.console.engine.clock = secondly 2 8 ∧
        u.console.engine.machine = Console.drawing.engine.machine ∧
        u.console.nextDisplay = 1.0 + Console.displayInterval ∧ u.console.interval = none :=
    ⟨_, _, rfl, rfl, rfl, rfl, rfl, rfl, rfl⟩
  have hredraws : u.console.redraws .cycle = true := by
    have hdrawing := Console.redraws_drawing
    unfold Console.redraws at hdrawing ⊢
    rw [hmachine, hclock]
    exact hdrawing
  have hturn := turn_of_redraws (s := interrupted) rfl hmeasure hdisplay hinterval hredraws
  obtain ⟨_, _, _, hcycle⟩ := u.console.cycle_eq
  refine ⟨_, hturn, (Console.apply_redraws hredraws).1, ?_, (frames_send _ _).trans hframes, ?_⟩
  · rw [console_counted, console_advance, hcycle]
    exact hnext
  · show u.console.cycle.1.engine.clock = secondly 3 7
    rw [Console.engine_cycle, Engine.clock_cycle, hclock]
    rfl

/-- **A run that is quit leaves unshown what it drew last.** -/
theorem quit_leaves_unshown :
    Engine.load? #[0xD0, 0x01] (secondly 0 10) [] = .ok interrupted.console.engine ∧
      Console.start interrupted.console.engine false false none =
        .ok (interrupted.console, Console.greeting) ∧
      interrupted.run.2 = .quit ∧ interrupted.run.1.console.changed = true ∧
      Unshown interrupted.deeds := by
  obtain ⟨t, hturn, hchanged, hnext, hframes, hclock⟩ := turn_interrupted
  have hread : t.clock.read = (secondly 4 6, .ok 3) := by
    rw [hclock]
    rfl
  have hdue : (3 : Float) ≥ t.console.nextDisplay := by
    rw [hnext]
    decide
  obtain ⟨hquit, hkept⟩ := quit_of_script_over hread (by decide) hdue hframes
  have hleft : interrupted.run.1.console.changed = true := by
    rw [run_of_turn_none hturn, hkept, hchanged]
  have hunshown : Unshown interrupted.deeds := by
    rcases (composes_marks.run interrupted).1.iff_since.mp hleft with hunshown | ⟨hstart, -⟩
    · exact hunshown
    · cases hstart
  refine ⟨rfl, rfl, ?_, hleft, hunshown⟩
  rw [run_of_turn_none hturn]
  exact hquit

end Session
end ChipEight
