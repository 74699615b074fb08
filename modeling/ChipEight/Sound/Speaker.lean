import ChipEight.Host.Call

/-!
# ChipEight.Sound.Speaker

The buzzer on a host. A silent speaker only remembers whether the buzzer is on; a bell rings when it
goes on; a tone plays until it goes off.

* `Speaker.set`: switches the buzzer. A tone that plays already is left alone.
* `Speaker.start`: opens a speaker, which can fail for a frequency that has no wave.
-/

namespace ChipEight

/-- How a host sounds the buzzer. -/
inductive SpeakerKind where
  | silent
  | bell
  | tone
deriving DecidableEq, Repr

/-- A speaker and whether its buzzer is on. -/
structure Speaker where
  kind : SpeakerKind
  enabled : Bool
deriving DecidableEq, Repr

namespace Speaker

/-- The frequency of the buzzer in hertz if none is given. -/
def usualFrequency : Float := 700.0

/-- How loud a tone is, between 0 and 1. -/
def volume : Float := 0.1

/-- Opens a speaker. The mixer is open already when the frequency turns out to be wrong. -/
def start (kind : SpeakerKind) (frequency : Option Float) :
    List HostCall × Except Wave.Fault Speaker :=
  match kind with
  | .tone =>
    let opening := [.prepareMixer Wave.rate, .openMixer]
    match Wave.ofFrequency (frequency.getD usualFrequency) with
    | .error f => (opening, .error f)
    | .ok wave => (opening ++ [.loadSound wave, .setVolume volume], .ok ⟨kind, false⟩)
  | _ => ([], .ok ⟨kind, false⟩)

/-- What switching the buzzer asks of the host. -/
def calls (s : Speaker) (on : Bool) : List HostCall :=
  match s.kind with
  | .silent => []
  | .bell => if on && !s.enabled then [.beep] else []
  | .tone =>
    if on == s.enabled then []
    else if on then [.playSound] else [.stopSound]

/-- Switches the buzzer. -/
def set (s : Speaker) (on : Bool) : Speaker × List HostCall :=
  ({ s with enabled := on }, s.calls on)

/-- Closes the speaker. -/
def stop (s : Speaker) : List HostCall :=
  match s.kind with
  | .tone => [.stopSound, .closeMixer]
  | _ => []

end Speaker
end ChipEight
