import Mathlib.Data.Int.Bitwise
import ChipEight.Proofs.Histories

/-!
# ChipEight.Proofs.Keypads

A keypad under any history of presses and releases by number, whether or not a key has the number.

* `Keypad.Event`, `Keypad.apply`, `Keypad.after`: histories, and what each event answers.
* `mark`: the mask as integers without bounds have it, by shifting, or, and and complement.
* `isHeld_apply`, `last_apply`, `mask_apply`: what one event does to a key, to the last key and to
  the mask. `isHeld_after`, `last_after`, `mask_after`: the same over a history.
* `heldAt_eq`, `heldAt_noKey`: asking for a key by number.
* `set_with_last`: the keypad is the set of the keys that are down, with a place for the last press.
-/

namespace ChipEight

namespace Keypad

/-- What is done to a keypad by number. -/
inductive Event where
  | press (key : Int)
  | release (key : Int)
  | forget
deriving DecidableEq, Repr

/-- The keypad after an event, and why the event was refused if it was. -/
def apply (p : Keypad) : Event → Keypad × Option Fault
  | .press k =>
    match p.pressAt k with
    | .ok q => (q, none)
    | .error f => (p, some f)
  | .release k =>
    match p.releaseAt k with
    | .ok q => (q, none)
    | .error f => (p, some f)
  | .forget => (p.forget, none)

/-- The keypad after a history of events, the first of them first. -/
def after (p : Keypad) (es : List Event) : Keypad := es.foldl (fun q e => (q.apply e).1) p

theorem after_concat (p : Keypad) (es : List Event) (e : Event) :
    p.after (es ++ [e]) = ((p.after es).apply e).1 := List.foldl_append

/-- The mask after an event, if masks are integers without bounds. -/
def mark (mask : Int) : Event → Int
  | .press k => if 0 ≤ k ∧ k ≤ 0xF then mask.lor (1 <<< k) else mask
  | .release k => if 0 ≤ k ∧ k ≤ 0xF then mask.land (1 <<< k).lnot else mask
  | .forget => mask

/-! ## One event -/

section Event

variable (p : Keypad)

theorem key?_val (k : Key) : key? k.val = .ok k := by
  have := k.isLt
  unfold key?
  rw [dif_pos (by omega)]
  rfl

theorem key?_of_noKey {k : Int} (h : ¬ (0 ≤ k ∧ k ≤ 0xF)) : key? k = .error (.outOfRange k) :=
  dif_neg h

/-- A number is that of a key, or no key has it. -/
theorem key_or_noKey (k : Int) : (∃ j : Key, k = j.val) ∨ ¬ (0 ≤ k ∧ k ≤ 0xF) := by
  by_cases h : 0 ≤ k ∧ k ≤ 0xF
  · exact .inl ⟨⟨k.toNat, by omega⟩, (Int.toNat_of_nonneg h.1).symm⟩
  · exact .inr h

@[simp] theorem apply_press (k : Key) : p.apply (.press k.val) = (p.press k, none) := by
  simp [apply, pressAt, key?_val, Except.map]

@[simp] theorem apply_release (k : Key) : p.apply (.release k.val) = (p.release k, none) := by
  simp [apply, releaseAt, key?_val, Except.map]

theorem apply_press_noKey {k : Int} (h : ¬ (0 ≤ k ∧ k ≤ 0xF)) :
    p.apply (.press k) = (p, some (.outOfRange k)) := by
  simp [apply, pressAt, key?_of_noKey h, Except.map]

theorem apply_release_noKey {k : Int} (h : ¬ (0 ≤ k ∧ k ≤ 0xF)) :
    p.apply (.release k) = (p, some (.outOfRange k)) := by
  simp [apply, releaseAt, key?_of_noKey h, Except.map]

theorem ne_of_noKey {k : Int} (h : ¬ (0 ≤ k ∧ k ≤ 0xF)) (j : Key) : k ≠ j.val := by
  have := j.isLt
  omega

theorem isHeld_apply (k : Key) (e : Event) : (p.apply e).1.isHeld k = true ↔
    e = .press k.val ∨ (e ≠ .release k.val ∧ p.isHeld k = true) := by
  cases e with
  | press i =>
    rcases key_or_noKey i with ⟨j, rfl⟩ | hno
    · have hval : (j.val : Int) = k.val ↔ k.val = j.val := by omega
      simp [hval]
    · simp [p.apply_press_noKey hno, ne_of_noKey hno k]
  | release i =>
    rcases key_or_noKey i with ⟨j, rfl⟩ | hno
    · have hval : (j.val : Int) = k.val ↔ k.val = j.val := by omega
      simp [hval]
    · simp [p.apply_release_noKey hno, ne_of_noKey hno k]
  | forget => simp [apply, forget, isHeld]

/-- The last key is that of this press, or it was there and the event leaves it. -/
theorem last_apply (k : Key) (e : Event) : (p.apply e).1.last = some k ↔
    e = .press k.val ∨ (¬ (e = .forget ∨ ∃ j : Key, e = .press j.val) ∧ p.last = some k) := by
  cases e with
  | press i =>
    rcases key_or_noKey i with ⟨j, rfl⟩ | hno
    · simp [press, Fin.val_inj]
    · simp [p.apply_press_noKey hno, ne_of_noKey hno]
  | release i =>
    rcases key_or_noKey i with ⟨j, rfl⟩ | hno
    · simp [release]
    · simp [p.apply_release_noKey hno]
  | forget => simp [apply, forget]

end Event

/-! ## The mask -/

section Mask

variable (p : Keypad)

theorem testBit_mask (k : Nat) : p.mask.testBit k = p.isHeld k := BitVec.testBit_toNat p.held

theorem mask_press (k : Key) :
    ((p.press k).mask : Int) = (p.mask : Int).lor (1 <<< (k.val : Int)) := by
  rw [Int.one_shiftLeft]
  refine congrArg Int.ofNat (Nat.eq_of_testBit_eq fun i => ?_)
  rw [testBit_mask, isHeld_press, Nat.testBit_or, testBit_mask, Nat.testBit_two_pow, Bool.or_comm]
  simp [eq_comm]

theorem mask_release (k : Key) :
    ((p.release k).mask : Int) = (p.mask : Int).land (Int.lnot (1 <<< (k.val : Int))) := by
  rw [Int.one_shiftLeft]
  refine congrArg Int.ofNat (Nat.eq_of_testBit_eq fun i => ?_)
  rw [testBit_mask, isHeld_release, Nat.testBit_ldiff, testBit_mask, Nat.testBit_two_pow,
    Bool.and_comm]
  simp [eq_comm]

theorem mask_apply (e : Event) : ((p.apply e).1.mask : Int) = mark p.mask e := by
  cases e with
  | press i =>
    rcases key_or_noKey i with ⟨j, rfl⟩ | hno
    · have := j.isLt
      rw [mark, if_pos (by omega), apply_press, mask_press]
    · rw [mark, if_neg hno, p.apply_press_noKey hno]
  | release i =>
    rcases key_or_noKey i with ⟨j, rfl⟩ | hno
    · have := j.isLt
      rw [mark, if_pos (by omega), apply_release, mask_release]
    · rw [mark, if_neg hno, p.apply_release_noKey hno]
  | forget => rfl

/-- Asking for a bit of the mask. -/
theorem isHeld_eq_land (k : Nat) :
    p.isHeld k = decide ((p.mask : Int).land (1 <<< (k : Int)) ≠ 0) := by
  rw [Int.one_shiftLeft]
  show _ = decide (((p.mask &&& 2 ^ k : Nat) : Int) ≠ 0)
  rw [Nat.and_two_pow, testBit_mask]
  cases p.isHeld k <;> simp

end Mask

/-! ## Histories -/

section History

variable (es : List Event)

theorem mask_after : ((released.after es).mask : Int) = es.foldl mark 0 := by
  induction es using List.reverseRecOn with
  | nil => rfl
  | append_singleton es e ih =>
    rw [after_concat, mask_apply, ih, List.foldl_append]
    rfl

theorem isHeld_after (k : Key) : (released.after es).isHeld k = true ↔
    Since (fun _ e => e = .press k.val) (· = .release k.val) es := by
  refine since_iff_of_step (Q := fun es => (released.after es).isHeld k = true) ?_
    (fun es e => ?_) es
  · simp [after, released, isHeld]
  · rw [after_concat]
    exact isHeld_apply _ k e

theorem last_after (k : Key) : (released.after es).last = some k ↔
    Since (fun _ e => e = .press k.val)
      (fun e => e = .forget ∨ ∃ j : Key, e = .press j.val) es := by
  refine since_iff_of_step (Q := fun es => (released.after es).last = some k) nofun
    (fun es e => ?_) es
  rw [after_concat]
  exact last_apply _ k e

theorem last_ne_none_apply (p : Keypad) (e : Event) : (p.apply e).1.last ≠ none ↔
    (∃ j : Key, e = .press j.val) ∨ (e ≠ .forget ∧ p.last ≠ none) := by
  simp only [Option.ne_none_iff_exists', last_apply, exists_or, exists_and_left]
  tauto

theorem last_eq_none_after : (released.after es).last = none ↔
    ¬ Since (fun _ e => ∃ j : Key, e = .press j.val) (· = .forget) es := by
  refine (not_iff_comm.mp (since_iff_of_step
    (Q := fun es => (released.after es).last ≠ none) ?_ (fun es e => ?_) es)).symm
  · simp [after, released]
  · rw [after_concat]
    exact last_ne_none_apply _ e

end History

/-! ## Asking by number -/

section Asked

variable (p : Keypad)

/-- A number that can count bits gets an answer: whether its bit is in the mask. -/
theorem heldAt_eq {k : Int} (hk : 0 ≤ k) : p.heldAt k =
    if Count.fits k then .ok (decide ((p.mask : Int).land (1 <<< k) ≠ 0))
    else .error (.uncounted k .tooLarge) := by
  obtain ⟨n, rfl⟩ := Int.eq_ofNat_of_zero_le hk
  unfold heldAt
  rw [if_neg (by omega), ← isHeld_eq_land]
  rfl

theorem heldAt_val (k : Key) : p.heldAt k.val = .ok (p.isHeld k) := by
  have hfits : Count.fits k.val = true := (Count.fits_iff _).mpr (by omega)
  unfold heldAt
  rw [if_neg (by omega), if_pos hfits]
  rfl

/-- No key has the number, so it is not down. -/
theorem heldAt_noKey {k : Int} (h : ¬ (0 ≤ k ∧ k ≤ 0xF)) : p.heldAt k ≠ .ok true := by
  unfold heldAt
  split
  · exact nofun
  · have hbeyond : p.isHeld k.toNat = false := BitVec.getLsbD_of_ge _ _ (by omega)
    rw [hbeyond]
    split <;> exact nofun

end Asked

/-- **The keypad is a set of keys with a place for the last press.** After any history of presses,
releases and forgettings by number, the mask is the integer that shifts, or, and and complement
give, and it has sixteen bits. A key is down exactly if the latest press or release of it was a
press, and no number beyond the keys is ever down; only a number too large to count bits gets no
answer. The last key is that of the latest press since it was forgotten. A press or a release by a
number that no key has is refused and changes nothing. -/
theorem set_with_last (es : List Event) :
    let p := released.after es
    ((p.mask : Int) = es.foldl mark 0 ∧ 0 ≤ es.foldl mark 0 ∧ es.foldl mark 0 ≤ 0xFFFF) ∧
    (∀ k : Int, 0 ≤ k → (p.heldAt k = .ok true ↔
      k ≤ 0xF ∧ Since (fun _ e => e = .press k) (· = .release k) es)) ∧
    (∀ k : Int, 0 ≤ k → p.heldAt k =
      if Count.fits k then .ok (decide ((es.foldl mark 0).land (1 <<< k) ≠ 0))
      else .error (.uncounted k .tooLarge)) ∧
    (∀ k : Key, p.last = some k ↔ Since (fun _ e => e = .press k.val)
      (fun e => e = .forget ∨ ∃ j : Key, e = .press j.val) es) ∧
    (p.last = none ↔ ¬ Since (fun _ e => ∃ j : Key, e = .press j.val) (· = .forget) es) ∧
    (∀ k : Key, (p.apply (.press k.val)).2 = none ∧ (p.apply (.release k.val)).2 = none) ∧
    ∀ k : Int, ¬ (0 ≤ k ∧ k ≤ 0xF) → p.apply (.press k) = (p, some (.outOfRange k)) ∧
      p.apply (.release k) = (p, some (.outOfRange k)) := by
  intro p
  have hmask : (p.mask : Int) = es.foldl mark 0 := mask_after es
  have hlt : p.mask < 2 ^ 16 := p.held.isLt
  refine ⟨⟨hmask, by omega, by omega⟩, fun k hk => ?_, fun k hk => ?_, last_after es,
    last_eq_none_after es, fun k => ?_, fun k hno => ?_⟩
  · rcases key_or_noKey k with ⟨j, rfl⟩ | hno
    · have hj : (j.val : Int) ≤ 0xF := by omega
      rw [heldAt_val, Except.ok.injEq, isHeld_after, and_iff_right hj]
    · exact iff_of_false (heldAt_noKey p hno) fun h => hno ⟨hk, h.1⟩
  · rw [heldAt_eq p hk, hmask]
  · rw [apply_press, apply_release]
    exact ⟨rfl, rfl⟩
  · exact ⟨p.apply_press_noKey hno, p.apply_release_noKey hno⟩

/-- Key 5 goes down and up, a press by a number that no key has is refused, and 5 is still the last
key. -/
theorem set_with_last_tap :
    (0 : Int) ≤ 5 ∧ (released.after [.press 5, .release 5, .press 16]).last = some 5 ∧
      (released.after [.press 5, .release 5, .press 16]).heldAt 5 ≠ .ok true := by
  obtain ⟨-, hheld, -, hlast, -, -, -⟩ := set_with_last [.press 5, .release 5, .press 16]
  refine ⟨by decide, (hlast 5).mpr ⟨[], _, [.release 5, .press 16], rfl, rfl, ?_⟩, fun hdown => ?_⟩
  · simp only [List.mem_cons, List.not_mem_nil, or_false]
    rintro d (rfl | rfl) (h | ⟨j, h⟩)
    · cases h
    · cases h
    · cases h
    · have := j.isLt
      have hval := Event.press.inj h
      omega
  · obtain ⟨-, hsince⟩ := (hheld 5 (by decide)).mp hdown
    have hsplit : ([.press 5, .release 5, .press 16] : List Event) =
        ([.press 5] ++ [.release 5]) ++ [.press 16] := rfl
    rw [hsplit, since_concat, since_concat] at hsince
    simp at hsince

end Keypad
end ChipEight
