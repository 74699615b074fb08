/-!
# ChipEight.Sound.Wave

One cycle of a square wave in unsigned samples of eight bits: high for the first half, low for the
second, which takes the odd sample.

* `Wave.samples`: the samples in order.
* `Wave.ofFrequency`: the cycle of a frequency, if it has one.
-/

namespace ChipEight

/-- A cycle of `length` samples. -/
structure Wave where
  length : Nat
deriving DecidableEq, Repr

namespace Wave

/-- Samples in a second. -/
def rate : Nat := 44100

/-- The number of high samples. -/
def high (w : Wave) : Nat := w.length / 2

/-- The samples in order. -/
def samples (w : Wave) : List UInt8 :=
  List.replicate w.high 0xFF ++ List.replicate (w.length - w.high) 0x00

/-- Why a frequency has no wave. -/
inductive Fault where
  /-- No wave has frequency zero. -/
  | zeroFrequency
  /-- The frequency is not a number. -/
  | noNumber
  /-- One cycle would have 2 ^ 64 samples or more, or their number is not finite. -/
  | tooLong
deriving DecidableEq, Repr

/-- What a frequency without a wave is reported as. -/
def Fault.message : Fault → String
  | .zeroFrequency => "The buzzer has no frequency"
  | .noNumber => "The frequency of the buzzer is not a number"
  | .tooLong => "The frequency of the buzzer is too low"

/-- The samples in one cycle of a frequency, as many as fit in it. -/
def cycleSamples (frequency : Float) : Float := Float.ofNat rate / frequency

/-- Whether a number of samples can be had: it is finite and less than 2 ^ 64. -/
def fits (samples : Float) : Bool := !samples.isInf && samples < 18446744073709551616.0

/-- The cycle of a frequency. It has at least two samples, also if the frequency is too high for
them or negative. -/
def ofFrequency (frequency : Float) : Except Fault Wave :=
  if frequency == 0.0 then .error .zeroFrequency
  else if frequency.isNaN then .error .noNumber
  else if fits (cycleSamples frequency) then
    .ok ⟨max 2 (cycleSamples frequency).toUInt64.toNat⟩
  else .error .tooLong

end Wave
end ChipEight
