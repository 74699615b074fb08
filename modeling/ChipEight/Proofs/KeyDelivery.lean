import ChipEight.Proofs.Histories

/-!
# ChipEight.Proofs.KeyDelivery

Which keys a cycle sees. It sees the keys that are down, and of all presses the last one since the
cycle before it, once.

* `Offers`: the press that a cycle after a history is offered.
* `isHeld_after`, `last_after`: the keys of a console after a history.
* `keys_of_fetches`: a cycle that takes up a word runs with the keys of its console.
* `key_delivery`: what every cycle of every history sees, and what it leaves.
-/

namespace ChipEight

/-- A cycle that takes up a word hands its keys to the machine. -/
theorem Machine.keys_cycle {m : Machine} (keys : Keypad) (time : Float) (random : UInt8)
    (h : 0 ≤ m.pc ∧ m.pc ≤ 0xFFE) : (m.cycle keys time random).1.keys = keys := by
  rw [cycle_inside keys time h]
  cases hexec : (m.taken keys time).execute random with
  | ok t => exact (execute_kept hexec).keys
  | error f => rfl

namespace Console

/-- The press of `key` that `before` is followed by is the one that a cycle after `es` is offered:
there has been no cycle and no press since. -/
def Offers (es before : List Event) (key : Key) : Prop :=
  ∃ later, es = before ++ .press key :: later ∧ .cycle ∉ later ∧ ∀ k, .press k ∉ later

/-- Once a cycle has come, its press is no cycle's any more. -/
theorem not_offers_after_cycle {es before : List Event} {key : Key} (h : Offers es before key)
    (rest : List Event) (k : Key) : ¬ Offers (es ++ .cycle :: rest) before k := by
  rintro ⟨later', hsplit, hcycle, -⟩
  obtain ⟨later, rfl, -, -⟩ := h
  rw [List.append_assoc, List.append_cancel_left_eq, List.cons_append] at hsplit
  refine hcycle ?_
  rw [← (List.cons.inj hsplit).2]
  exact List.mem_append_right _ List.mem_cons_self

theorem exists_offers_iff {es : List Event} {key : Key} :
    (∃ before, Offers es before key) ↔
      Since (fun _ e => e = .press key) (fun e => e = .cycle ∨ ∃ k, e = .press k) es := by
  constructor
  · rintro ⟨before, later, rfl, hcycle, hpress⟩
    refine ⟨before, _, later, rfl, rfl, ?_⟩
    rintro d hd (rfl | ⟨k, rfl⟩)
    · exact hcycle hd
    · exact hpress k hd
  · rintro ⟨before, _, later, rfl, rfl, hlater⟩
    exact ⟨before, later, rfl, fun h => hlater _ h (.inl rfl), fun k h => hlater _ h (.inr ⟨k, rfl⟩)⟩

section Keys

variable {c : Console} (hkeys : c.keys = .released)

include hkeys

theorem isHeld_after (es : List Event) (k : Key) :
    (c.after es).keys.isHeld k = true ↔ Since (fun _ e => e = .press k) (· = .release k) es := by
  refine since_iff_of_step (Q := fun es => (c.after es).keys.isHeld k = true) ?_
    (fun es e => ?_) es
  · simp [after, hkeys, Keypad.released, Keypad.isHeld]
  · rw [after_concat]
    cases e with
    | cycle =>
      show (c.after es).cycle.1.keys.isHeld k = true ↔ _
      rw [keys_cycle]
      simp [Keypad.isHeld, Keypad.forget]
    | refresh =>
      show (c.after es).keys.isHeld k = true ↔ _
      simp
    | press j =>
      show ((c.after es).keys.press j).isHeld k = true ↔ _
      by_cases hj : j = k
      · simp [hj]
      · have hne : k.val ≠ j.val := fun h => hj (Fin.ext h.symm)
        simp [hj, hne]
    | release j =>
      show ((c.after es).keys.release j).isHeld k = true ↔ _
      by_cases hj : j = k
      · simp [hj]
      · have hne : k.val ≠ j.val := fun h => hj (Fin.ext h.symm)
        simp [hj, hne]

theorem last_after (es : List Event) (k : Key) :
    (c.after es).keys.last = some k ↔ ∃ before, Offers es before k := by
  rw [exists_offers_iff]
  refine since_iff_of_step (Q := fun es => (c.after es).keys.last = some k) ?_
    (fun es e => ?_) es
  · simp [after, hkeys, Keypad.released]
  · rw [after_concat]
    cases e with
    | cycle =>
      show (c.after es).cycle.1.keys.last = some k ↔ _
      rw [keys_cycle]
      simp [Keypad.forget]
    | refresh =>
      show (c.after es).keys.last = some k ↔ _
      simp
    | press j =>
      show some j = some k ↔ _
      simp
    | release j =>
      show (c.after es).keys.last = some k ↔ _
      simp

end Keys

/-- The snapshot of a cycle that takes up a word is taken before the last key is forgotten. -/
theorem keys_of_fetches {c : Console} (h : c.fetches = true) :
    c.cycle.1.engine.machine.keys = c.keys := by
  unfold fetches at h
  obtain ⟨hclock, hin⟩ := Bool.and_eq_true_iff.mp h
  obtain ⟨time, random, hmachine, -⟩ := Engine.cycle_of_isOk c.keys hclock
  rw [engine_cycle, hmachine]
  exact Machine.keys_cycle c.keys time random (of_decide_eq_true hin)

/-- **What cycles see of the keys.** A cycle that takes up a word sees a key down exactly if the
latest press or release of that key was a press, and as last key that of the latest press since the
cycle before it. However a cycle ends, afterwards the console has no last key, and the same keys are
down. No press is offered to two cycles. -/
theorem key_delivery {c : Console} (hkeys : c.keys = .released) (es : List Event) :
    ((c.after es).fetches = true →
      (∀ k : Key, (c.after es).cycle.1.engine.machine.keys.isHeld k = true ↔
        Since (fun _ e => e = .press k) (· = .release k) es) ∧
      ∀ k : Key, (c.after es).cycle.1.engine.machine.keys.last = some k ↔
        ∃ before, Offers es before k) ∧
    (c.after es).cycle.1.keys.last = none ∧
    (c.after es).cycle.1.keys.mask = (c.after es).keys.mask ∧
    ∀ before k, Offers es before k → ∀ rest j, ¬ Offers (es ++ .cycle :: rest) before j := by
  refine ⟨fun hfetches => ?_, ?_, ?_, fun before k => not_offers_after_cycle⟩
  · rw [keys_of_fetches hfetches]
    exact ⟨isHeld_after hkeys es, last_after hkeys es⟩
  · rw [keys_cycle]
    rfl
  · rw [keys_cycle]
    rfl

/-- A console whose program waits for a key. -/
def waiting : Console := switchedOn #[0xF0, 0x0A]

/-- A key that went down and up again between two cycles is up, and is the last one for the second
of them. -/
theorem key_delivery_tap :
    (waiting.after [.press 5, .release 5]).fetches = true ∧
      (waiting.after [.press 5, .release 5]).cycle.1.engine.machine.keys.isHeld 5 = false ∧
      (waiting.after [.press 5, .release 5]).cycle.1.engine.machine.keys.last = some 5 ∧
      (waiting.after [.press 5, .release 5]).cycle.1.keys.last = none := by
  obtain ⟨hseen, hforgotten, -, -⟩ := key_delivery (c := waiting) rfl [.press 5, .release 5]
  have hfetches : (waiting.after [.press 5, .release 5]).fetches = true := by decide
  obtain ⟨hheld, hlast⟩ := hseen hfetches
  refine ⟨hfetches, ?_, (hlast 5).mpr ⟨[], [.release 5], rfl, by decide, by simp⟩, hforgotten⟩
  rw [Bool.eq_false_iff]
  intro hdown
  have hsince : Since (fun _ e => e = .press 5) (· = .release 5)
      ([Event.press 5] ++ [.release 5]) := (hheld 5).mp hdown
  rw [since_concat] at hsince
  simp at hsince

end Console
end ChipEight
