import ChipEight.Session.Basic

/-!
# ChipEight.Session.Progress

A session comes to an end. Every turn reads the clock, and a clock can be asked only so many times.

* `Session.turnAtUntil_induction`: what every stage keeps, a turn keeps.
* `Session.remaining_turnUntil`: a turn that leads to another one has used up a question to the clock.
* `Session.runForUntil_of_remaining_lt`: with more turns allowed than questions are left, it does not
  matter how many.
* `Session.runUntil_of_turn_some`, `Session.runUntil_of_turn_none`: a session is its first turn and
  then the session that is left.
-/

namespace ChipEight

/-- A cycle of the engine gives no question back. -/
theorem Engine.remaining_cycle_le (e : Engine) (keys : Keypad) :
    (e.cycle keys).1.clock.remaining ≤ e.clock.remaining := by
  have hr := e.clock.remaining_read_le
  unfold Engine.cycle
  cases h : e.clock.read with
  | mk after result =>
    rw [h] at hr
    cases result with
    | error f => exact hr
    | ok time => exact hr

namespace Console

@[simp] theorem engine_refresh (c : Console) : c.refresh.1.engine = c.engine := rfl

@[simp] theorem engine_showReport (c : Console) (r : Machine.Report) :
    (c.showReport r).1.engine = c.engine := by
  unfold showReport
  split <;> rfl

@[simp] theorem engine_meetUnknown (c : Console) (i : Instruction) (pc : Int) :
    (c.meetUnknown i pc).1.engine = c.engine := by
  unfold meetUnknown
  dsimp only
  split <;> rfl

/-- The engine after a cycle of the console is the engine after its own cycle. -/
theorem engine_cycle (c : Console) : c.cycle.1.engine = (c.engine.cycle c.keys).1 := by
  unfold cycle
  cases c.engine.cycle c.keys with
  | mk e result =>
    dsimp only
    split
    · exact engine_showReport _ _
    · rfl
    · exact engine_meetUnknown _ _ _
    · rfl
    · rfl

end Console

namespace Session

variable {σ : Type}

@[simp] theorem clock_setClock (s : Session σ) (clock : Clock) :
    (s.setClock clock).clock = clock := rfl

theorem remaining_wait_le (s : Session σ) (time : Float) :
    (s.wait time).1.clock.remaining ≤ s.clock.remaining := by
  unfold wait
  cases s.console.interval with
  | none => exact Nat.le_refl _
  | some interval => exact s.clock.remaining_waitUntil_le (time + interval)

variable [Host σ]

@[simp] theorem console_send (s : Session σ) (signals : List Signal) :
    (s.send signals).console = s.console := rfl

@[simp] theorem console_advance (s : Session σ) (next : Console × List Signal) :
    (s.advance next).console = next.1 := rfl

@[simp] theorem clock_send (s : Session σ) (signals : List Signal) :
    (s.send signals).clock = s.clock := rfl

@[simp] theorem clock_refresh (s : Session σ) : s.refresh.clock = s.clock := rfl

@[simp] theorem clock_measure (s : Session σ) (time : Float) :
    (s.measure time).1.clock = s.clock := by
  unfold measure
  split
  · split <;> rfl
  · rfl

theorem remaining_poll_le (s : Session σ) : s.poll.1.clock.remaining ≤ s.clock.remaining :=
  Host.remaining_poll_le s.host s.console.keys s.clock

theorem remaining_display_le (s : Session σ) (time : Float) :
    (s.display time).1.clock.remaining ≤ s.clock.remaining := by
  have h := s.remaining_poll_le
  unfold display
  split
  · cases hp : s.poll with
    | mk t result =>
      rw [hp] at h
      match result with
      | .error f => exact h
      | .ok true => exact h
      | .ok false => exact h
  · exact Nat.le_refl _

theorem remaining_operate_le (s : Session σ) :
    s.operate.1.clock.remaining ≤ s.clock.remaining := by
  have h : s.console.cycle.1.engine.clock.remaining ≤ s.clock.remaining := by
    rw [Console.engine_cycle]
    exact s.console.engine.remaining_cycle_le s.console.keys
  unfold operate
  cases hc : s.console.cycle with
  | mk c rest =>
    obtain ⟨signals, result⟩ := rest
    rw [hc] at h
    match result with
    | .error f => exact h
    | .ok false => exact h
    | .ok true => exact h

omit [Host σ] in
theorem heed_fst (down : σ → Bool) (r : Session σ × Option Ending) : (heed down r).1 = r.1 := by
  unfold heed
  split <;> rfl

/-- What holds of the session after each stage of a turn, if it does after the stage before, holds
after the turn. -/
theorem turnAtUntil_induction {P : Session σ → Prop} (down : σ → Bool) {s : Session σ}
    {time : Float} (hmeasure : P (s.measure time).1) (hdisplay : ∀ t, P t → P (t.display time).1)
    (hoperate : ∀ t, P t → P t.operate.1) (hwait : ∀ t, P t → P (t.wait time).1) :
    P (s.turnAtUntil down time).1 := by
  unfold turnAtUntil
  rw [← heed_fst down] at hmeasure
  generalize heed down (s.measure time) = measured at hmeasure ⊢
  obtain ⟨t, _ | e⟩ := measured
  · have hshown := hdisplay t hmeasure
    rw [← heed_fst down] at hshown
    dsimp only
    generalize heed down (t.display time) = shown at hshown ⊢
    obtain ⟨u, _ | e⟩ := shown
    · have hdone := hoperate u hshown
      rw [← heed_fst down] at hdone
      dsimp only
      generalize heed down u.operate = done at hdone ⊢
      obtain ⟨v, _ | e⟩ := done
      · exact hwait v hdone
      · exact hdone
    · exact hshown
  · exact hmeasure

section Progress

variable (down : σ → Bool)

theorem remaining_turnAtUntil_le (s : Session σ) (time : Float) :
    (s.turnAtUntil down time).1.clock.remaining ≤ s.clock.remaining :=
  turnAtUntil_induction (P := fun t => t.clock.remaining ≤ s.clock.remaining) down
    (Nat.le_of_eq (congrArg Clock.remaining (s.clock_measure time)))
    (fun t h => Nat.le_trans (t.remaining_display_le time) h)
    (fun t h => Nat.le_trans t.remaining_operate_le h)
    (fun t h => Nat.le_trans (t.remaining_wait_le time) h)

/-- A turn that leads to another one has used up a question. -/
theorem remaining_turnUntil {s t : Session σ} (h : s.turnUntil down = (t, none)) :
    t.clock.remaining < s.clock.remaining := by
  unfold turnUntil at h
  cases hr : s.clock.read with
  | mk clock result =>
    rw [hr] at h
    cases result with
    | error f => cases h
    | ok time =>
      have hread := Clock.remaining_read_lt hr
      have hnext : (s.setClock clock).turnAtUntil down time = (t, none) := h
      have hturn := (s.setClock clock).remaining_turnAtUntil_le down time
      rw [clock_setClock, hnext] at hturn
      exact Nat.lt_of_le_of_lt hturn hread

/-- With more turns allowed than questions are left, it does not matter how many. -/
theorem runForUntil_of_remaining_lt {n m : Nat} {s : Session σ} (hn : s.clock.remaining < n)
    (hm : s.clock.remaining < m) : runForUntil down n s = runForUntil down m s := by
  induction n generalizing m s with
  | zero => omega
  | succ n ih =>
    cases m with
    | zero => omega
    | succ m =>
      rw [runForUntil, runForUntil]
      cases h : s.turnUntil down with
      | mk t ending =>
        cases ending with
        | some e => rfl
        | none =>
          have := remaining_turnUntil down h
          exact ih (by omega) (by omega)

/-- A session that ends in its first turn. -/
theorem runUntil_of_turn_some {s t : Session σ} {e : Ending} (h : s.turnUntil down = (t, some e)) :
    s.runUntil down = (t, e) := by
  rw [runUntil, runForUntil, h]

/-- A session whose first turn leads to another one. -/
theorem runUntil_of_turn_none {s t : Session σ} (h : s.turnUntil down = (t, none)) :
    s.runUntil down = t.runUntil down := by
  rw [runUntil, runForUntil, h]
  exact runForUntil_of_remaining_lt down (remaining_turnUntil down h) (Nat.lt_succ_self _)

end Progress

/-- A session that ends in its first turn, on a host that does not go down. -/
theorem run_of_turn_some {s t : Session σ} {e : Ending} (h : s.turn = (t, some e)) :
    s.run = (t, e) := runUntil_of_turn_some upright h

/-- A session whose first turn leads to another one, on such a host. -/
theorem run_of_turn_none {s t : Session σ} (h : s.turn = (t, none)) : s.run = t.run :=
  runUntil_of_turn_none upright h

end Session
end ChipEight
