import ChipEight.Proofs.Redraws
import ChipEight.Proofs.Timers
import ChipEight.Session.Frontend

/-!
# ChipEight.Proofs.BuzzerEdges

When a speaker is heard. A cycle that goes on tells the host whether the sound timer runs, and a
cycle that does not go on tells nothing. A tone plays when a row of cycles that leave the timer
running begins, and stops when a cycle goes on without it.

* `Console.buzzer_of_goesOn`, `Console.signals_of_not_goesOn`: what a cycle says about the buzzer.
* `Frontend.SameSound`: what leaves the speaker alone. `Frontend.take_buzzer` is all that does not.
* `Console.Humming`: the last cycle that went on left the sound timer running. `humming_concat` is
  its step, and `enabled_after` finds it in the speaker.
* `buzzer_edges`: the calls of a tone and of a bell.
-/

namespace ChipEight

/-! ## Signals of a cycle -/

namespace Machine

theorem report_of_cycle {m : Machine} {keys : Keypad} {time : Float} {random : UInt8} {r : Report}
    (h : (m.cycle keys time random).2 = .ok r) : r = (m.cycle keys time random).1.report := by
  obtain ⟨hin, hexec⟩ := cycle_eq_ok keys time h
  rw [cycle_inside keys time hin, hexec] at h
  exact (Except.ok.inj h).symm

end Machine

theorem Engine.beep_of_cycle {e : Engine} {keys : Keypad} {r : Machine.Report}
    (h : (e.cycle keys).2 = .ok r) : r.beep = decide (0 < (e.cycle keys).1.machine.sound) := by
  by_cases hclock : e.clock.read.2.isOk = true
  · obtain ⟨time, random, hmachine, hanswer⟩ := cycle_of_isOk keys hclock
    rw [hmachine]
    cases hcycle : (e.machine.cycle keys time random).2 with
    | error f =>
      rw [hanswer, hcycle] at h
      cases h
    | ok s =>
      rw [hanswer, hcycle] at h
      cases h
      rw [Machine.report_of_cycle hcycle]
      rfl
  · obtain ⟨f, -, hanswer⟩ := cycle_of_not_isOk keys hclock
    rw [hanswer] at h
    cases h

/-- A signal that is not about the buzzer, and that no display refuses. -/
def Signal.isSeen : Signal → Bool
  | .pixel _ _ => true
  | .refresh _ => true
  | .print _ => true
  | _ => false

namespace Console

section Cycle

variable {c : Console}

theorem isSeen_listing : ∀ x ∈ c.listing, x.isSeen = true := by
  unfold listing
  split <;> simp [Signal.isSeen]

theorem isSeen_pixels (s : Screen) : ∀ x ∈ pixels s, x.isSeen = true := by
  intro x hx
  obtain ⟨cell, -, rfl⟩ := List.mem_map.mp hx
  rfl

theorem showReport_eq (r : Machine.Report) :
    ∃ seen, (c.showReport r).2 = seen ++ [.buzzer r.beep] ∧ ∀ x ∈ seen, x.isSeen = true := by
  unfold showReport
  cases r.screen with
  | none => exact ⟨c.listing, rfl, isSeen_listing⟩
  | some s =>
    exact ⟨c.listing ++ pixels s, rfl, List.forall_mem_append.mpr ⟨isSeen_listing, isSeen_pixels s⟩⟩

/-- A cycle that goes on tells the host whether the sound timer runs, last of all. -/
theorem buzzer_of_goesOn (h : c.cycle.2.2 = .ok true) :
    ∃ seen, c.cycle.2.1 = seen ++ [.buzzer (decide (0 < c.cycle.1.engine.machine.sound))] ∧
      ∀ x ∈ seen, x.isSeen = true := by
  rw [engine_cycle]
  rcases hcycle : c.engine.cycle c.keys with ⟨e, f | r⟩
  · unfold cycle at h ⊢
    rw [hcycle] at h ⊢
    dsimp only at h ⊢
    -- of all that is refused only an unknown word may be skipped
    split at h
    · rename_i hok
      cases hok
    · cases h
    · unfold meetUnknown at h ⊢
      dsimp only at h ⊢
      split at h
      · rename_i hskip
        rw [if_pos hskip]
        exact ⟨[_], rfl, by simp [Signal.isSeen]⟩
      · cases h
    · cases h
    · cases h
  · have hbeep := Engine.beep_of_cycle (congrArg Prod.snd hcycle)
    rw [hcycle] at hbeep
    rw [(cycle_of_ok hcycle).2, ← hbeep]
    exact showReport_eq r

theorem signals_of_not_goesOn (h : c.cycle.2.2 ≠ .ok true) : c.cycle.2.1 = [] := by
  unfold cycle at h ⊢
  dsimp only at h ⊢
  split at h
  · exact absurd rfl h
  · rfl
  · unfold meetUnknown at h ⊢
    dsimp only at h ⊢
    split at h
    · exact absurd rfl h
    · rename_i hskip
      rw [if_neg hskip]
  · rfl
  · rfl

end Cycle

end Console

/-! ## Calls of a host -/

/-- A call that is heard, or that ends what is heard. -/
def HostCall.isSound : HostCall → Bool
  | .beep => true
  | .playSound => true
  | .stopSound => true
  | _ => false

/-- What is heard of a speaker when its buzzer goes on. -/
def SpeakerKind.onset : SpeakerKind → List HostCall
  | .silent => []
  | .bell => [.beep]
  | .tone => [.playSound]

/-- What is heard of a speaker when its buzzer goes off. -/
def SpeakerKind.ending : SpeakerKind → List HostCall
  | .tone => [.stopSound]
  | _ => []

namespace Speaker

variable {s : Speaker}

theorem calls_same (s : Speaker) : s.calls s.enabled = [] := by
  obtain ⟨kind, enabled⟩ := s
  cases kind <;> cases enabled <;> rfl

theorem calls_on (h : s.enabled = false) : s.calls true = s.kind.onset := by
  obtain ⟨kind, enabled⟩ := s
  cases h
  cases kind <;> rfl

theorem calls_off (h : s.enabled = true) : s.calls false = s.kind.ending := by
  obtain ⟨kind, enabled⟩ := s
  cases h
  cases kind <;> rfl

theorem isSound_calls (s : Speaker) (on : Bool) : ∀ x ∈ s.calls on, x.isSound = true := by
  obtain ⟨kind, enabled⟩ := s
  cases kind <;> cases enabled <;> cases on <;> simp [calls, HostCall.isSound]

end Speaker

theorem Display.not_isSound_refresh (d : Display) (terminal : Terminal) (changed : Bool) :
    ∀ x ∈ (d.refresh terminal changed).2, ¬ x.isSound = true := by
  cases d with
  | headless d => simp [refresh]
  | terminal d =>
    unfold refresh TerminalDisplay.refresh
    dsimp only
    split
    · split <;> simp [HostCall.isSound]
    · split <;> simp [HostCall.isSound]
  | window d =>
    unfold refresh WindowDisplay.refresh
    dsimp only
    split <;> simp [HostCall.isSound]

namespace Frontend

def sounds (f : Frontend) : List HostCall := f.calls.toList.filter HostCall.isSound

/-- The host after some signals, the first of them first. -/
def takeAll (f : Frontend) (signals : List Signal) : Frontend := signals.foldl take f

theorem takeAll_append (f : Frontend) (xs ys : List Signal) :
    f.takeAll (xs ++ ys) = (f.takeAll xs).takeAll ys := List.foldl_append

theorem sounds_record (f : Frontend) (calls : List HostCall) :
    (f.record calls).sounds = f.sounds ++ calls.filter HostCall.isSound := by
  unfold sounds
  rw [toList_record, List.filter_append]

/-- Two hosts have the same speaker and made the same sounds, and either both or none refused. -/
structure SameSound (f g : Frontend) : Prop where
  speaker : g.speaker = f.speaker
  sounds : g.sounds = f.sounds
  refusal : g.refusal = f.refusal

theorem SameSound.refl (f : Frontend) : SameSound f f := ⟨rfl, rfl, rfl⟩

theorem SameSound.trans {f g h : Frontend} (hf : SameSound f g) (hg : SameSound g h) :
    SameSound f h :=
  ⟨hg.speaker.trans hf.speaker, hg.sounds.trans hf.sounds, hg.refusal.trans hf.refusal⟩

section Take

variable {f : Frontend}

theorem take_of_open (h : f.refusal = none) (x : Signal) : f.take x = f.perform x := by
  unfold take
  rw [h]
  rfl

theorem sameSound_take (h : f.refusal = none) {x : Signal} (hx : x.isSeen = true) :
    SameSound f (f.take x) := by
  rw [take_of_open h]
  cases x with
  | pixel cell lit =>
    refine ⟨rfl, ?_, rfl⟩
    unfold perform react
    rw [sounds_record, Display.calls_pixelRequests, List.filter_nil, List.append_nil]
    rfl
  | refresh changed =>
    refine ⟨rfl, ?_, rfl⟩
    unfold perform react
    dsimp only
    rw [sounds_record, Request.filterMap_call?,
      List.filter_eq_nil_iff.mpr (f.display.not_isSound_refresh f.terminal changed),
      List.append_nil]
    rfl
  | print text => exact ⟨rfl, rfl, rfl⟩
  | resolution width height => cases hx
  | report frames operations => cases hx
  | buzzer on => cases hx

theorem sameSound_takeAll (h : f.refusal = none) {xs : List Signal}
    (hxs : ∀ x ∈ xs, x.isSeen = true) : SameSound f (f.takeAll xs) := by
  induction xs using List.reverseRecOn with
  | nil => exact .refl f
  | append_singleton xs x ih =>
    have hbefore := ih fun y hy => hxs y (List.mem_append_left _ hy)
    rw [takeAll_append]
    exact hbefore.trans (sameSound_take (hbefore.refusal.trans h) (hxs x (by simp)))

theorem take_buzzer (h : f.refusal = none) (on : Bool) :
    (f.take (.buzzer on)).speaker = { f.speaker with enabled := on } ∧
      (f.take (.buzzer on)).sounds = f.sounds ++ f.speaker.calls on ∧
      (f.take (.buzzer on)).refusal = none := by
  rw [take_of_open h]
  refine ⟨rfl, ?_, h⟩
  unfold perform react
  dsimp only
  rw [sounds_record, Request.filterMap_call?]
  exact congrArg (f.sounds ++ ·) (List.filter_eq_self.mpr (f.speaker.isSound_calls on))

end Take

end Frontend

/-! ## Histories -/

namespace Console

/-- An event is a cycle after which the program goes on. -/
def GoesOn (s : Console × Event) : Prop := s.2 = .cycle ∧ s.1.cycle.2.2 = .ok true

/-- A cycle goes on and leaves the sound timer running. -/
def Hums (s : Console × Event) : Prop := GoesOn s ∧ 0 < s.1.cycle.1.engine.machine.sound

/-- Of the cycles of a history that went on, the last one left the sound timer running. -/
def Humming (c : Console) (es : List Event) : Prop := Since (fun _ s => Hums s) GoesOn (c.steps es)

/-- The first of a row of cycles that leave the sound timer running. -/
def BeginsHum (c : Console) (es : List Event) (e : Event) : Prop :=
  Hums (c.after es, e) ∧ ¬ c.Humming es

/-- The first cycle that goes on without the sound timer, behind such a row. -/
def EndsHum (c : Console) (es : List Event) (e : Event) : Prop :=
  GoesOn (c.after es, e) ∧ ¬ Hums (c.after es, e) ∧ c.Humming es

section History

variable {c : Console} {f : Frontend} {es : List Event} {e : Event}

theorem humming_concat :
    c.Humming (es ++ [e]) ↔
      Hums (c.after es, e) ∨ (¬ GoesOn (c.after es, e) ∧ c.Humming es) := by
  unfold Humming
  rw [steps_concat, since_concat]

theorem humming_concat_of_goesOn (he : GoesOn (c.after es, e)) :
    c.Humming (es ++ [e]) ↔ Hums (c.after es, e) := by
  rw [humming_concat, or_iff_left fun hnot => hnot.1 he]

theorem humming_concat_of_neither (hbegins : ¬ c.BeginsHum es e) (hends : ¬ c.EndsHum es e) :
    c.Humming (es ++ [e]) ↔ c.Humming es := by
  rw [humming_concat]
  constructor
  · rintro (hhums | ⟨-, hhumming⟩)
    · by_contra hnot
      exact hbegins ⟨hhums, hnot⟩
    · exact hhumming
  · intro hhumming
    by_cases hhums : Hums (c.after es, e)
    · exact .inl hhums
    · exact .inr ⟨fun hgoes => hends ⟨hgoes, hhums, hhumming⟩, hhumming⟩

theorem takeAll_concat (f : Frontend) (c : Console) (es : List Event) (e : Event) :
    f.takeAll (c.signals (es ++ [e])) =
      (f.takeAll (c.signals es)).takeAll ((c.after es).apply e).2 := by
  rw [signals_concat, Frontend.takeAll_append]

theorem sameSound_of_not_goesOn (h : f.refusal = none) (he : ¬ GoesOn (c, e)) :
    Frontend.SameSound f (f.takeAll (c.apply e).2) := by
  cases e with
  | cycle =>
    have hsignals : c.cycle.2.1 = [] := signals_of_not_goesOn fun hgoes => he ⟨rfl, hgoes⟩
    show Frontend.SameSound f (f.takeAll c.cycle.2.1)
    rw [hsignals]
    exact .refl f
  | refresh => exact Frontend.sameSound_take h rfl
  | press k => exact .refl f
  | release k => exact .refl f

/-- A cycle that goes on switches the speaker as the sound timer has it. -/
theorem switched_of_goesOn (h : f.refusal = none) (he : GoesOn (c, e)) :
    let g := f.takeAll (c.apply e).2
    let on := decide (0 < c.cycle.1.engine.machine.sound)
    g.speaker = { f.speaker with enabled := on } ∧ g.sounds = f.sounds ++ f.speaker.calls on ∧
      g.refusal = none := by
  obtain ⟨rfl, hgoes⟩ := he
  obtain ⟨seen, hsignals, hseen⟩ := buzzer_of_goesOn hgoes
  have hsame := Frontend.sameSound_takeAll h hseen
  have hsplit : f.takeAll (c.apply .cycle).2 =
      (f.takeAll seen).take (.buzzer (decide (0 < c.cycle.1.engine.machine.sound))) := by
    show f.takeAll c.cycle.2.1 = _
    rw [hsignals, Frontend.takeAll_append]
    rfl
  dsimp only
  rw [hsplit, ← hsame.speaker, ← hsame.sounds]
  exact Frontend.take_buzzer (hsame.refusal.trans h) _

theorem goesOn_of_answer {r : Machine.Report} (h : (c.engine.cycle c.keys).2 = .ok r) :
    GoesOn (c, .cycle) := by
  refine ⟨rfl, ?_⟩
  unfold cycle
  dsimp only
  rw [h]

theorem not_goesOn_of_error {fault : Machine.Fault}
    (h : (c.engine.cycle c.keys).2 = .error (.machine fault))
    (hknown : ∀ i a, fault ≠ .unknownInstruction i a) : ¬ GoesOn (c, .cycle) := by
  rintro ⟨-, hgoes⟩
  unfold cycle at hgoes
  dsimp only at hgoes
  rw [h] at hgoes
  cases fault with
  | unknownInstruction i a => exact hknown i a rfl
  | _ => cases hgoes

theorem hums_iff (he : GoesOn (c, e)) :
    Hums (c, e) ↔ decide (0 < c.cycle.1.engine.machine.sound) = true := by
  unfold Hums
  rw [and_iff_right he, decide_eq_true_eq]

/-- The speaker of a host finds out whether the last cycle that went on left the timer running. -/
structure Tracks (c : Console) (es : List Event) (kind : SpeakerKind) (g : Frontend) : Prop where
  refusal : g.refusal = none
  kind_eq : g.speaker.kind = kind
  enabled : g.speaker.enabled = true ↔ c.Humming es

theorem tracks_after (hopen : f.refusal = none) (hoff : f.speaker.enabled = false)
    (es : List Event) : Tracks c es f.speaker.kind (f.takeAll (c.signals es)) := by
  induction es using List.reverseRecOn with
  | nil => exact ⟨hopen, rfl, iff_of_false (Bool.eq_false_iff.mp hoff) not_since_nil⟩
  | append_singleton es e ih =>
    rw [takeAll_concat]
    by_cases he : GoesOn (c.after es, e)
    · obtain ⟨hspeaker, -, hrefusal⟩ := switched_of_goesOn ih.refusal he
      refine ⟨hrefusal, ?_, ?_⟩
      · rw [hspeaker]
        exact ih.kind_eq
      · rw [hspeaker, humming_concat_of_goesOn he, hums_iff he]
    · have hsame := sameSound_of_not_goesOn ih.refusal he
      refine ⟨hsame.refusal.trans ih.refusal, ?_, ?_⟩
      · rw [hsame.speaker]
        exact ih.kind_eq
      · have hhums : ¬ Hums (c.after es, e) := fun hhums => he hhums.1
        rw [hsame.speaker, humming_concat, ih.enabled]
        simp [he, hhums]

/-- A speaker is heard where a hum begins and where it ends, and nowhere else. -/
theorem sounds_concat (hopen : f.refusal = none) (hoff : f.speaker.enabled = false)
    (es : List Event) (e : Event) :
    let g := f.takeAll (c.signals es)
    let h := f.takeAll (c.signals (es ++ [e]))
    (c.BeginsHum es e → h.sounds = g.sounds ++ f.speaker.kind.onset) ∧
      (c.EndsHum es e → h.sounds = g.sounds ++ f.speaker.kind.ending) ∧
      (¬ c.BeginsHum es e → ¬ c.EndsHum es e → h.sounds = g.sounds) := by
  have htracks := tracks_after (c := c) hopen hoff es
  dsimp only
  rw [takeAll_concat]
  by_cases he : GoesOn (c.after es, e)
  · obtain ⟨-, hsounds, -⟩ := switched_of_goesOn htracks.refusal he
    have hhums := hums_iff he
    rw [hsounds]
    -- the speaker is heard if the timer says another thing than it did at the last such cycle
    generalize decide (0 < (c.after es).cycle.1.engine.machine.sound) = on at hhums
    refine ⟨fun hbegins => ?_, fun hends => ?_, fun hbegins hends => ?_⟩
    · have hoff : (f.takeAll (c.signals es)).speaker.enabled = false :=
        Bool.eq_false_iff.mpr (mt htracks.enabled.mp hbegins.2)
      rw [hhums.mp hbegins.1, Speaker.calls_on hoff, htracks.kind_eq]
    · have hon : on = false := Bool.eq_false_iff.mpr (mt hhums.mpr hends.2.1)
      rw [hon, Speaker.calls_off (htracks.enabled.mpr hends.2.2), htracks.kind_eq]
    · have hkeeps := (humming_concat_of_goesOn he).symm.trans
        (humming_concat_of_neither hbegins hends)
      have hsame : on = (f.takeAll (c.signals es)).speaker.enabled := by
        rw [Bool.eq_iff_iff, ← hhums, htracks.enabled, hkeeps]
      rw [hsame, Speaker.calls_same, List.append_nil]
  · have hsame := sameSound_of_not_goesOn htracks.refusal he
    exact ⟨fun hbegins => absurd hbegins.1.1 he, fun hends => absurd hends.1 he,
      fun _ _ => hsame.sounds⟩

/-- A tone is played and stopped in turn, beginning with playing. -/
inductive Alternates : Bool → List HostCall → Prop where
  | nil : Alternates false []
  | play {made : List HostCall} (h : Alternates false made) : Alternates true (made ++ [.playSound])
  | stop {made : List HostCall} (h : Alternates true made) : Alternates false (made ++ [.stopSound])

theorem alternates_after (hopen : f.refusal = none) (hoff : f.speaker.enabled = false)
    (htone : f.speaker.kind = .tone) (es : List Event) :
    let g := f.takeAll (c.signals es)
    ∃ made, g.sounds = f.sounds ++ made ∧ Alternates g.speaker.enabled made := by
  induction es using List.reverseRecOn with
  | nil =>
    refine ⟨[], (List.append_nil _).symm, ?_⟩
    show Alternates f.speaker.enabled []
    rw [hoff]
    exact .nil
  | append_singleton es e ih =>
    obtain ⟨made, hmade, halternates⟩ := ih
    have hbefore := (tracks_after (c := c) hopen hoff es).enabled
    have hafter := (tracks_after (c := c) hopen hoff (es ++ [e])).enabled
    obtain ⟨hplays, hstops, hquiet⟩ := sounds_concat (c := c) hopen hoff es e
    rw [htone] at hplays hstops
    dsimp only
    by_cases hbegins : c.BeginsHum es e
    · rw [Bool.eq_false_iff.mpr (mt hbefore.mp hbegins.2)] at halternates
      rw [hafter.mpr (humming_concat.mpr (.inl hbegins.1)), hplays hbegins, hmade,
        List.append_assoc]
      exact ⟨_, rfl, .play halternates⟩
    · by_cases hends : c.EndsHum es e
      · have hnot := mt (humming_concat_of_goesOn hends.1).mp hends.2.1
        rw [hbefore.mpr hends.2.2] at halternates
        rw [Bool.eq_false_iff.mpr (mt hafter.mp hnot), hstops hends, hmade, List.append_assoc]
        exact ⟨_, rfl, .stop halternates⟩
      · have hsame := Bool.eq_iff_iff.mpr
          ((hafter.trans (humming_concat_of_neither hbegins hends)).trans hbefore.symm)
        rw [hsame, hquiet hbegins hends]
        exact ⟨made, hmade, halternates⟩

end History

/-- **The edges of the buzzer.** After any history, a cycle that goes on leaves the buzzer on
exactly if the sound timer runs then, and nothing else switches it. A tone is played where a row of
cycles begins that go on with the timer running, whatever does not go on in between, and stopped
where a cycle first goes on without it; so the two alternate. A bell rings where a tone would be
played. -/
theorem buzzer_edges (c : Console) {f : Frontend} (hopen : f.refusal = none)
    (hoff : f.speaker.enabled = false) (es : List Event) :
    let host := fun es => f.takeAll (c.signals es)
    (∀ e, (GoesOn (c.after es, e) → (host (es ++ [e])).speaker.enabled =
          decide (0 < (c.after (es ++ [e])).engine.machine.sound)) ∧
        (¬ GoesOn (c.after es, e) → (host (es ++ [e])).speaker = (host es).speaker ∧
          (host (es ++ [e])).sounds = (host es).sounds)) ∧
      (f.speaker.kind = .tone →
        (∃ made, (host es).sounds = f.sounds ++ made ∧
          Alternates (host es).speaker.enabled made) ∧
        ∀ e, (c.BeginsHum es e → (host (es ++ [e])).sounds = (host es).sounds ++ [.playSound]) ∧
          (c.EndsHum es e → (host (es ++ [e])).sounds = (host es).sounds ++ [.stopSound]) ∧
          (¬ c.BeginsHum es e → ¬ c.EndsHum es e →
            (host (es ++ [e])).sounds = (host es).sounds)) ∧
      (f.speaker.kind = .bell → ∀ e,
        (c.BeginsHum es e → (host (es ++ [e])).sounds = (host es).sounds ++ [.beep]) ∧
          (¬ c.BeginsHum es e → (host (es ++ [e])).sounds = (host es).sounds)) := by
  refine ⟨fun e => ⟨fun he => ?_, fun he => ?_⟩, fun htone => ⟨?_, fun e => ?_⟩,
    fun hbell e => ?_⟩
  · obtain ⟨hspeaker, -, -⟩ := switched_of_goesOn (tracks_after (c := c) hopen hoff es).refusal he
    obtain ⟨rfl, -⟩ := he
    dsimp only
    rw [takeAll_concat, hspeaker, after_concat]
    rfl
  · have hsame := sameSound_of_not_goesOn (tracks_after (c := c) hopen hoff es).refusal he
    dsimp only
    rw [takeAll_concat]
    exact ⟨hsame.speaker, hsame.sounds⟩
  · exact alternates_after hopen hoff htone es
  · have hedges := sounds_concat (c := c) hopen hoff es e
    rw [htone] at hedges
    exact hedges
  · obtain ⟨hrings, hends, hquiet⟩ := sounds_concat (c := c) hopen hoff es e
    rw [hbell] at hrings hends
    refine ⟨hrings, fun hbegins => ?_⟩
    by_cases h : c.EndsHum es e
    · exact (hends h).trans (List.append_nil _)
    · exact hquiet hbegins h

/-- A console whose machine is about to set its sound timer, with the last word of memory. -/
def humming : Console :=
  { switchedOn #[] with engine := ⟨Machine.humming, ⟨fun _ => .ok 0, 1, 9⟩, []⟩ }

theorem hums_humming : Hums (humming, .cycle) := by
  obtain ⟨time, random, hmachine, hanswer⟩ := Engine.cycle_of_isOk humming.keys
    (e := humming.engine) rfl
  obtain ⟨hsound, r, hr⟩ := Machine.timer_of_runs (c := ⟨humming.keys, time, random⟩)
    (τ := .sound) Machine.runs_humming
  have htwo : Machine.humming.operand = 2 := by
    unfold Machine.operand Machine.fetched
    rw [Machine.word_humming]
    rfl
  refine ⟨goesOn_of_answer (r := r) ?_, ?_⟩
  · rw [hanswer]
    exact congrArg (Except.mapError Engine.Fault.machine) hr
  · rw [htwo] at hsound
    rw [engine_cycle, hmachine]
    exact lt_of_lt_of_eq (by decide) hsound.symm

theorem not_goesOn_hummed : ¬ GoesOn (humming.after [.cycle], .cycle) := by
  obtain ⟨time, random, hmachine, -⟩ := Engine.cycle_of_isOk humming.keys
    (e := humming.engine) rfl
  have hpc : humming.cycle.1.engine.machine.pc = 0x1000 := by
    rw [engine_cycle, hmachine]
    exact Machine.pc_hummed _ _ _
  have hclock : humming.cycle.1.engine.clock.read.2.isOk = true := by
    rw [engine_cycle, Engine.clock_cycle]
    rfl
  obtain ⟨time, random, -, hanswer⟩ := Engine.cycle_of_isOk humming.cycle.1.keys hclock
  rw [Machine.cycle_end _ _ _ (by rw [hpc]; decide)] at hanswer
  rw [after_cycle]
  exact not_goesOn_of_error hanswer nofun

/-- A host that has a speaker and shows nothing. -/
def speaking (kind : SpeakerKind) : Frontend :=
  .start (Display.startHeadless none) (.headless ⟨[]⟩) ⟨kind, false⟩ ⟨24, 80, true⟩

theorem sounds_speaking (kind : SpeakerKind) (c : Console) :
    ((speaking kind).takeAll (c.signals [])).sounds = [] := rfl

/-- The first cycle begins a hum. The second one finds the program at its end, and what is heard
goes on. -/
theorem buzzer_edges_humming :
    let tone := fun es => (speaking .tone).takeAll (humming.signals es)
    let bell := fun es => (speaking .bell).takeAll (humming.signals es)
    (tone [.cycle, .cycle]).sounds = [.playSound] ∧ (tone [.cycle, .cycle]).speaker.enabled = true ∧
      (bell [.cycle]).sounds = [.beep] := by
  have hbegins : humming.BeginsHum [] .cycle := ⟨hums_humming, not_since_nil⟩
  have hplays := (((buzzer_edges humming (f := speaking .tone) rfl rfl []).2.1 rfl).2 .cycle).1
    hbegins
  have hrings := ((buzzer_edges humming (f := speaking .bell) rfl rfl []).2.2 rfl .cycle).1 hbegins
  rw [sounds_speaking, List.nil_append, List.nil_append] at hplays hrings
  have hhumming : humming.Humming ([] ++ [.cycle]) := humming_concat.mpr (.inl hbegins.1)
  rw [List.nil_append] at hhumming
  have hended := not_goesOn_hummed
  dsimp only
  rw [show ([.cycle, .cycle] : List Event) = [.cycle] ++ [.cycle] from rfl]
  -- the first cycle gets a name, so that nothing below is run
  obtain ⟨es, hes⟩ : ∃ es : List Event, [.cycle] = es := ⟨_, rfl⟩
  rw [hes] at hplays hrings hhumming hended
  nth_rewrite 1 3 5 [hes]
  obtain ⟨hspeaker, hsounds⟩ :=
    ((buzzer_edges humming (f := speaking .tone) rfl rfl es).1 .cycle).2 hended
  dsimp only at hspeaker hsounds
  rw [hspeaker, hsounds]
  exact ⟨hplays, (tracks_after rfl rfl es).enabled.mpr hhumming, hrings⟩

end Console
end ChipEight
