import ChipEight.Time.Quotient

/-!
# ChipEight.Time.Clock

Time in seconds is read from a clock that can be asked a bounded number of times. What the readings
are is left open: a clock is any function from the number of the reading to its answer. A reading
that is no double uses up a question like any other, but the clock does not go on to the next one.

* `Clock.read`: asks for a reading.
* `Clock.waitUntil`: reads until a time has come.
* `Clock.remaining_read_lt`: whatever the answer, a question is used up.
* `Ticks`: a counter that advances by a fixed step at each reading; `Ticks.clock` is its clock.
-/

namespace ChipEight

/-- A clock that has given `given` readings and can be asked `remaining` times more. -/
structure Clock where
  reading : Nat → Except Quotient.Fault Float
  given : Nat
  remaining : Nat

namespace Clock

/-- Why a clock gave no reading. -/
inductive Fault where
  /-- The clock can be asked no more. -/
  | exhausted
  /-- The reading is no double. -/
  | quotient (fault : Quotient.Fault)
  /-- The reading is infinite, so no second follows it. -/
  | infinite
deriving DecidableEq, Repr

/-- What a missing reading is reported as. -/
def Fault.message : Fault → String
  | .exhausted => "The clock gives no more readings"
  | .quotient f => f.message
  | .infinite => "The clock has gone beyond all seconds"

/-- Asks for the next reading. -/
def read (c : Clock) : Clock × Except Fault Float :=
  match c.remaining with
  | 0 => (c, .error .exhausted)
  | left + 1 =>
    match c.reading c.given with
    | .ok t => ({ c with given := c.given + 1, remaining := left }, .ok t)
    | .error f => ({ c with remaining := left }, .error (.quotient f))

/-- A clock that can be asked can be asked once less after it. -/
theorem remaining_read (c : Clock) : c.read.1.remaining = c.remaining - 1 := by
  unfold read
  split
  · rename_i h
    rw [h]
  · rename_i left h
    rw [h]
    split <;> rfl

/-- Asking gives no question back. -/
theorem remaining_read_le (c : Clock) : c.read.1.remaining ≤ c.remaining := by
  rw [remaining_read]
  exact Nat.sub_le _ _

/-- A reading uses up a question. -/
theorem remaining_read_lt {c d : Clock} {t : Float} (h : c.read = (d, .ok t)) :
    d.remaining < c.remaining := by
  have hr := c.remaining_read
  rw [h] at hr
  cases hc : c.remaining with
  | zero =>
    unfold read at h
    rw [hc] at h
    cases h
  | succ left =>
    rw [hc] at hr
    exact Nat.lt_succ_of_le (Nat.le_of_eq hr)

/-- Reads at most `n` times until a reading is not less than `time`. -/
def waitFor (time : Float) : Nat → Clock → Clock × Option Fault
  | 0, c => (c, some .exhausted)
  | n + 1, c =>
    match c.read with
    | (d, .error f) => (d, some f)
    | (d, .ok t) => if t < time then waitFor time n d else (d, none)

/-- Waiting gives no question back. -/
theorem remaining_waitFor_le (time : Float) :
    ∀ (n : Nat) (c : Clock), (waitFor time n c).1.remaining ≤ c.remaining := by
  intro n
  induction n with
  | zero => intro c; exact Nat.le_refl _
  | succ n ih =>
    intro c
    rw [waitFor]
    have hr := c.remaining_read_le
    cases h : c.read with
    | mk d result =>
      rw [h] at hr
      cases result with
      | error f => exact hr
      | ok t =>
        show (if t < time then waitFor time n d else (d, none)).1.remaining ≤ c.remaining
        split
        · exact Nat.le_trans (ih d) hr
        · exact hr

/-- Reads until a reading is not less than `time`. -/
def waitUntil (c : Clock) (time : Float) : Clock × Option Fault :=
  waitFor time (c.remaining + 1) c

theorem remaining_waitUntil_le (c : Clock) (time : Float) :
    (c.waitUntil time).1.remaining ≤ c.remaining :=
  remaining_waitFor_le time (c.remaining + 1) c

end Clock

/-- A counter of ticks: `now` of them have passed, `hz` pass in a second, and each look at the
counter takes `step`. -/
structure Ticks where
  now : Int
  hz : Int
  step : Int
deriving DecidableEq, Repr

namespace Ticks

/-- The counter after `n` looks. -/
def after (t : Ticks) (n : Nat) : Ticks := { t with now := t.now + n * t.step }

/-- The time that the counter shows. -/
def seconds (t : Ticks) : Except Quotient.Fault Float := Quotient.ratio t.now t.hz

/-- The clock that shows this counter and can be asked `limit` times. -/
def clock (t : Ticks) (limit : Nat) : Clock := ⟨fun n => (t.after n).seconds, 0, limit⟩

end Ticks
end ChipEight
