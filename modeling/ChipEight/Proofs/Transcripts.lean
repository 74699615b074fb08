import ChipEight.Session.Frontend
import ChipEight.Session.Recorder
import ChipEight.Proofs.Turns

/-!
# ChipEight.Proofs.Transcripts

The text that a host prints. What a session prints is among its deeds, and nothing else that a host
does depends on it.

* `Transcript`: a host that the text does nothing to. Both kinds of host are of this kind; a front end
  whose display has refused a signal prints nothing more.
* `Transcript.hush_foldl`: what sending leaves of a host, its text apart.
* `Session.text_run`: a host prints what the deeds of the run say.
-/

namespace ChipEight

/-! ## Hosts -/

/-- What a signal adds to the text of a host. -/
def Signal.text : Signal → String
  | .print text => text ++ "\n"
  | _ => ""

/-- A host that keeps the text which it is told to print, and does nothing else with it. -/
class Transcript (σ : Type) extends Host σ where
  /-- The host still does what it is told. -/
  Heeds : σ → Prop
  text : σ → String
  /-- The host without its text. -/
  hush : σ → σ
  heeds_hush : ∀ (host : σ), Heeds (hush host) ↔ Heeds host
  hush_print : ∀ (host : σ) (text : String), hush (send host (.print text)) = hush host
  hush_send : ∀ (host : σ) (signal : Signal),
    hush (send (hush host) signal) = hush (send host signal)
  poll_hush : ∀ (host : σ) (keys : Keypad) (clock : Clock), poll (hush host) keys clock =
    { poll host keys clock with host := hush (poll host keys clock).host }
  text_send : ∀ (host : σ) (signal : Signal), Heeds (send host signal) →
    Heeds host ∧ text (send host signal) = text host ++ signal.text
  text_poll : ∀ (host : σ) (keys : Keypad) (clock : Clock), Heeds (poll host keys clock).host →
    Heeds host ∧ text (poll host keys clock).host = text host

namespace Recorder

/-- A recorder without its text. -/
def hush (r : Recorder) : Recorder := { r with printed := "" }

theorem poll_hush (r : Recorder) (keys : Keypad) (clock : Clock) :
    r.hush.poll keys clock =
      { r.poll keys clock with host := (r.poll keys clock).host.hush } := by
  have hsame : r.hush.frames = r.frames := rfl
  unfold poll
  rw [hsame]
  cases r.frames <;> rfl

theorem printed_poll (r : Recorder) (keys : Keypad) (clock : Clock) :
    (r.poll keys clock).host.printed = r.printed := by
  unfold poll
  cases r.frames <;> rfl

theorem printed_take (r : Recorder) (signal : Signal) :
    (r.take signal).printed = r.printed ++ signal.text := by
  cases signal with
  | print text => exact String.append_assoc
  | _ => exact String.append_empty.symm

instance : Transcript Recorder where
  Heeds _ := True
  text := printed
  hush := hush
  heeds_hush _ := Iff.rfl
  hush_print _ _ := rfl
  hush_send r signal := by cases signal <;> rfl
  poll_hush := poll_hush
  text_send r signal h := ⟨h, r.printed_take signal⟩
  text_poll r keys clock h := ⟨h, r.printed_poll keys clock⟩

end Recorder

namespace Frontend

/-- A front end without its text. -/
def hush (f : Frontend) : Frontend := { f with printed := "" }

theorem hush_perform (f : Frontend) (signal : Signal) :
    (f.hush.perform signal).hush = (f.perform signal).hush := by
  cases signal with
  | report frames operations =>
    have hsame : f.hush.display = f.display := rfl
    unfold perform react
    dsimp only
    rw [hsame]
    cases f.display.setTitle (Product.title frames operations) <;> rfl
  | _ => rfl

theorem printed_perform (f : Frontend) (signal : Signal) :
    (f.perform signal).printed = f.printed ++ signal.text := by
  cases signal with
  | print text => exact String.append_assoc
  | report frames operations =>
    unfold perform react
    dsimp only
    cases f.display.setTitle (Product.title frames operations) <;>
      exact String.append_empty.symm
  | _ => exact String.append_empty.symm

/-- A front end heeds its signals as long as its display has refused none. -/
instance : Transcript Frontend where
  Heeds f := f.refusal = none
  text := printed
  hush := hush
  heeds_hush _ := Iff.rfl
  hush_print f text := by
    show (f.take (.print text)).hush = f.hush
    unfold take
    split <;> rfl
  hush_send f signal := by
    show (f.hush.take signal).hush = (f.take signal).hush
    unfold take
    show (if f.refusal.isSome then f.hush else f.hush.perform signal).hush = _
    split
    · rfl
    · exact f.hush_perform signal
  poll_hush _ _ _ := rfl
  text_send f signal h := by
    have htake : (f.take signal).refusal = none := h
    cases hrefusal : f.refusal with
    | some fault =>
      rw [f.take_of_refusal (by rw [hrefusal]; rfl) signal, hrefusal] at htake
      cases htake
    | none =>
      refine ⟨rfl, ?_⟩
      show (f.take signal).printed = _
      unfold take
      rw [hrefusal]
      exact f.printed_perform signal
  text_poll _ _ _ h := ⟨h, rfl⟩

end Frontend

namespace Transcript

variable {σ : Type} [Transcript σ]

theorem hush_hush (host : σ) : hush (hush host) = hush host := by
  have htext := hush_send host (.print "")
  rw [hush_print, hush_print] at htext
  exact htext

theorem hush_foldl (host : σ) (signals : List Signal) :
    hush (signals.foldl Host.send (hush host)) = hush (signals.foldl Host.send host) := by
  induction signals generalizing host with
  | nil => exact hush_hush host
  | cons x signals ih =>
    rw [List.foldl_cons, List.foldl_cons, ← ih, hush_send, ih]

end Transcript

/-! ## The text of a run -/

/-- What a deed adds to the text of a host. -/
def Deed.text : Deed → String
  | .sends signal => signal.text
  | .polls _ | .cycles _ | .waits _ => ""

namespace Session

variable {σ : Type}

/-- What some deeds print. -/
def textOf (ds : List Deed) : String := String.join (ds.map Deed.text)

theorem textOf_append (xs ys : List Deed) : textOf (xs ++ ys) = textOf xs ++ textOf ys := by
  unfold textOf
  rw [List.map_append, String.join_append]

theorem textOf_cons (d : Deed) (ds : List Deed) : textOf (d :: ds) = d.text ++ textOf ds :=
  String.join_cons

/-- To end a session is to send two signals more. -/
theorem finish_eq [Host σ] (s : Session σ) (c : Console) (signals : List Signal) (text : String) :
    (s.advance (c, signals)).refresh.send [.print text] =
      s.advance ({ c with changed := false }, signals ++ [.refresh c.changed, .print text]) := by
  have hhost : List.foldl Host.send s.host (signals ++ [.refresh c.changed, .print text]) =
      List.foldl Host.send (signals.foldl Host.send s.host) [.refresh c.changed, .print text] :=
    List.foldl_append
  unfold advance send
  rw [hhost]
  rfl

section Text

open Transcript

variable [Transcript σ]

theorem text_foldl (host : σ) (signals : List Signal)
    (h : Heeds (signals.foldl Host.send host)) :
    Heeds host ∧
      text (signals.foldl Host.send host) = text host ++ textOf (signals.map .sends) := by
  induction signals generalizing host with
  | nil => exact ⟨h, String.append_empty.symm⟩
  | cons x signals ih =>
    obtain ⟨hnext, htext⟩ := ih (Host.send host x) h
    obtain ⟨hheeds, hone⟩ := text_send host x hnext
    refine ⟨hheeds, ?_⟩
    rw [List.foldl_cons, htext, hone, String.append_assoc]
    rw [List.map_cons, textOf_cons]
    rfl

theorem text_advance (s : Session σ) (c : Console) (signals : List Signal)
    (h : Heeds (s.advance (c, signals)).host) :
    Heeds s.host ∧
      text (s.advance (c, signals)).host = text s.host ++ textOf (signals.map .sends) :=
  text_foldl s.host signals h

theorem text_cycle (s : Session σ) (c : Console) (signals : List Signal)
    (answer : Except Console.Fault Bool) (h : Heeds (s.advance (c, signals)).host) :
    Heeds s.host ∧ text (s.advance (c, signals)).host =
      text s.host ++ textOf (signals.map .sends ++ [.cycles answer]) := by
  have hcycles : textOf [.cycles answer] = "" := rfl
  rw [textOf_append, hcycles, String.append_empty]
  exact s.text_advance c signals h

/-- A host that still heeds its signals in the end has done so all along. -/
theorem composes_text : Composes (σ := σ) fun s ds t _ =>
    Heeds t.host → Heeds s.host ∧ text t.host = text s.host ++ textOf ds where
  trans hs ht h := by
    obtain ⟨hmid, htext⟩ := ht h
    obtain ⟨hfirst, htext'⟩ := hs hmid
    rw [htext, htext', textOf_append, String.append_assoc]
    exact ⟨hfirst, rfl⟩
  read s clock h := ⟨h, String.append_empty.symm⟩
  stopped s clock f h := ⟨h, String.append_empty.symm⟩
  measure {s time _ _ _} h := by
    cases h with
    | early => exact fun h => ⟨h, String.append_empty.symm⟩
    | due => exact s.text_advance _ _
    | failed => exact fun h => ⟨h, String.append_empty.symm⟩
  display h := by
    have hasked : ∀ {s t : Session σ} {answer}, s.poll = (t, answer) → Heeds t.host →
        Heeds s.host ∧ text t.host = text s.host ++ textOf [.polls answer] := by
      intro s t answer hpoll h
      have hhost : t.host = (Host.poll s.host s.console.keys s.clock).host := by
        have heq : s.poll.1.host = (Host.poll s.host s.console.keys s.clock).host := rfl
        rwa [hpoll] at heq
      rw [hhost] at h ⊢
      obtain ⟨hheeds, htext⟩ := text_poll s.host s.console.keys s.clock h
      rw [htext]
      exact ⟨hheeds, String.append_empty.symm⟩
    cases h with
    | early => exact fun h => ⟨h, String.append_empty.symm⟩
    | failed _ hpoll => exact hasked hpoll
    | quit _ hpoll => exact hasked hpoll
    | @shown t _ hpoll =>
      intro h
      obtain ⟨hmid, htext⟩ := text_send t.host (.refresh t.console.changed) h
      obtain ⟨hfirst, htext'⟩ := hasked hpoll hmid
      refine ⟨hfirst, ?_⟩
      show text (Host.send t.host (.refresh t.console.changed)) = _
      rw [htext, htext', String.append_assoc]
      rfl
  operate {s _ _ _} h := by
    cases h with
    | failed => exact s.text_cycle _ _ _
    | @finished c signals =>
      rw [finish_eq]
      intro h
      obtain ⟨hheeds, htext⟩ := s.text_advance _ _ h
      rw [List.map_append, textOf_append] at htext
      rw [htext, textOf_append, textOf_cons, Deed.text, String.empty_append]
      exact ⟨hheeds, rfl⟩
    | went => exact s.text_cycle _ _ _
  wait {s _ _ _ _} h := by
    have hwaited : ∀ times : List Float, textOf (times.map .waits) = "" := by
      intro times
      induction times with
      | nil => rfl
      | cons time times ih =>
        rw [List.map_cons, textOf_cons, ih]
        rfl
    cases h with
    | never => exact fun h => ⟨h, String.append_empty.symm⟩
    | waited =>
      rw [hwaited]
      exact fun h => ⟨h, String.append_empty.symm⟩
    | failed =>
      rw [hwaited]
      exact fun h => ⟨h, String.append_empty.symm⟩

/-- **A host prints what the deeds of the run say,** if it still heeds its signals in the end. -/
theorem text_run (s : Session σ) (h : Heeds s.run.1.host) :
    text s.run.1.host = text s.host ++ textOf s.deeds := (composes_text.run s h).2

end Text

end Session
end ChipEight
