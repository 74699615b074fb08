import ChipEight.Input.Layout
import ChipEight.Input.Terminal
import ChipEight.Proofs.KeymapTexts

/-!
# ChipEight.Proofs.Listening

What ends the listener of a terminal. Its loop asks whether it should end, waits for a character and
reads it. Meanwhile polls take items from its queue, and the request to end may come at any time.

* `LowerCase.single_eq_iff`: a control character is the lower case of itself only.
* `Heard`, `heard_read`: how one character ends its reading, whatever the keymap and the queue.
* `Watch`, `Watch.step`: a listener at work, under any interleaving.
* `Watch.Tells`: the characters read so far explain where the loop stands. `tells_step` is its step,
  `tells_after` its run.
* `after_turns`: without interruption the loop does what `Listener.readAll` does.
* `listener_ends`: a listener ends because it was asked to, or because of the last character that it
  read; of the characters there are, escape, the interrupt and the dotted capital I end it.
-/

namespace ChipEight

namespace LowerCase

theorem mem_runs_of_single_ne {c : Nat} (h : single c ≠ c) :
    ∃ r ∈ runs, r.first ≤ c ∧ single c = ((c : Int) + r.offset).toNat := by
  unfold single at h ⊢
  split at h
  · rename_i r hr
    have hcovers := List.find?_some hr
    simp only [Run.covers, Bool.and_eq_true, decide_eq_true_eq] at hcovers
    exact ⟨r, List.mem_of_find?_eq_some hr, hcovers.1.1, rfl⟩
  · exact absurd rfl h

/-- Characters below the letters are the lower case of themselves only. -/
theorem single_eq_iff {c k : Nat} (hk : k < 0x41) : single c = k ↔ c = k := by
  have hfirst : ∀ r ∈ runs, 0x41 ≤ r.first ∧ 0x61 ≤ (r.first : Int) + r.offset := by
    decide +kernel
  by_cases h : single c = c
  · rw [h]
  · obtain ⟨r, hr, hle, hsingle⟩ := mem_runs_of_single_ne h
    have hrun := hfirst r hr
    omega

end LowerCase

/-! ## One character -/

/-- A character that a listener goes past. -/
def Passes (c : Int) : Prop := c < 0 ∨ c ≤ 0x10FFFF ∧ c ≠ 27 ∧ c ≠ 3 ∧ c ≠ 0x130

/-- How the reading of a character ends. -/
inductive Heard (c : Int) : Listener.Outcome → Prop where
  | passes (h : Passes c) : Heard c .goesOn
  | quits (h : c = 27 ∨ c = 3) : Heard c .quits
  | fails {f : LowerCase.Fault} (h : c = 0x130 ∨ 0x10FFFF < c)
      (hfault : LowerCase.ofNumber c = .error f) : Heard c (.fails f)

theorem asksToQuit_single {n : Nat} :
    Listener.asksToQuit (LowerCase.single n : Int) = true ↔ n = 27 ∨ n = 3 := by
  have hcode : Listener.asksToQuit (LowerCase.single n : Int) = true ↔
      LowerCase.single n = 27 ∨ LowerCase.single n = 3 := by
    simp only [Listener.asksToQuit, Bool.or_eq_true, beq_iff_eq]
    omega
  rw [hcode, LowerCase.single_eq_iff (by decide), LowerCase.single_eq_iff (by decide)]

/-- Neither the keymap nor the queue has a say in how a character ends its reading. -/
theorem heard_read (l : Listener) (c : Int) : Heard c (l.read c).2 := by
  unfold Listener.read
  by_cases hneg : c < 0
  · rw [if_pos hneg]
    exact .passes (.inl hneg)
  · rw [if_neg hneg]
    cases hlower : LowerCase.ofNumber c with
    | error f =>
      have hnot := LowerCase.exists_ofNumber_eq_error_iff.mp ⟨f, hlower⟩
      refine .fails ?_ hlower
      unfold LowerCase.HasSingle LowerCase.dottedI at hnot
      omega
    | ok code =>
      obtain ⟨⟨-, hle, hdotted⟩, rfl⟩ := LowerCase.ofNumber_eq_ok_iff.mp hlower
      dsimp only
      by_cases hasks : Listener.asksToQuit (LowerCase.single c.toNat : Int) = true
      · rw [if_pos hasks]
        have hnumber := asksToQuit_single.mp hasks
        exact .quits (by omega)
      · rw [if_neg hasks]
        have hnumber := mt asksToQuit_single.mpr hasks
        have hpasses : Passes c := .inr ⟨hle, by omega, by omega, hdotted⟩
        cases l.keymap.key? (LowerCase.single c.toNat : Int) with
        | none => exact .passes hpasses
        | some k => exact .passes hpasses

namespace Listener

variable {l t : Listener}

theorem stopRequested_read (l : Listener) (c : Int) :
    (l.read c).1.stopRequested = l.stopRequested := by
  have hoffer : ∀ k, (l.offer k).stopRequested = l.stopRequested := by
    intro k
    unfold offer
    split <;> rfl
  have hquit : l.requestQuit.stopRequested = l.stopRequested := by
    unfold requestQuit
    split <;> rfl
  unfold read
  split
  · rfl
  · split
    · rfl
    · split
      · exact hquit
      · split
        · exact hoffer _
        · rfl

theorem stopRequested_take {item : QueueItem} (h : l.take? = some (item, t)) :
    t.stopRequested = l.stopRequested := by
  unfold take? at h
  split at h
  · cases h
  · split at h <;> cases h <;> rfl

end Listener

/-! ## The loop -/

/-- Where the loop of a listener stands. -/
inductive Phase where
  /-- It is about to ask whether it should end. -/
  | asks
  /-- It waits for a character. -/
  | waits
  /-- It was asked to end. -/
  | dismissed
  /-- A character asked to quit. -/
  | quit
  /-- A character had no lower case. -/
  | failed (fault : LowerCase.Fault)
deriving DecidableEq, Repr

/-- Where the loop stands after a character. -/
def Phase.behind : Listener.Outcome → Phase
  | .goesOn => .asks
  | .quits => .quit
  | .fails f => .failed f

/-- A listener at work. -/
structure Watch where
  listener : Listener
  phase : Phase
  /-- The characters read so far. -/
  heard : List Int

namespace Watch

/-- One step of the loop, or of what goes on beside it. -/
inductive Step where
  /-- The loop asks whether it should end. -/
  | ask
  /-- A character comes. -/
  | char (c : Int)
  /-- A poll takes the oldest item of the queue. -/
  | take
  /-- The listener is asked to end. -/
  | stop

/-- What a step does. A step that is not possible does nothing. -/
def step (s : Watch) : Step → Watch
  | .ask =>
    if s.phase = .asks then
      { s with phase := if s.listener.stopRequested then .dismissed else .waits }
    else s
  | .char c =>
    if s.phase = .waits then
      ⟨(s.listener.read c).1, .behind (s.listener.read c).2, s.heard ++ [c]⟩
    else s
  | .take =>
    match s.listener.take? with
    | none => s
    | some (_, l) => { s with listener := l }
  | .stop => { s with listener := s.listener.requestStop }

/-- Where some steps lead, the first of them first. -/
def after (s : Watch) (es : List Step) : Watch := es.foldl step s

/-- A loop that is about to begin. -/
def start (m : Keymap) : Watch := ⟨.start m, .asks, []⟩

variable {s : Watch}

theorem after_concat (s : Watch) (es : List Step) (e : Step) :
    s.after (es ++ [e]) = (s.after es).step e := List.foldl_append

theorem step_ask (h : s.phase = .asks) :
    s.step .ask = { s with phase := if s.listener.stopRequested then .dismissed else .waits } :=
  if_pos h

theorem step_char (h : s.phase = .waits) (c : Int) :
    s.step (.char c) =
      ⟨(s.listener.read c).1, .behind (s.listener.read c).2, s.heard ++ [c]⟩ :=
  if_pos h

theorem step_take (s : Watch) : ∃ l, s.step .take = { s with listener := l } ∧
    l.stopRequested = s.listener.stopRequested := by
  unfold step
  cases htake : s.listener.take? with
  | none => exact ⟨s.listener, rfl, rfl⟩
  | some found => exact ⟨found.2, rfl, Listener.stopRequested_take htake⟩

/-- The listener is asked to end by that step only. -/
theorem stopRequested_after (m : Keymap) (es : List Step) :
    ((start m).after es).listener.stopRequested = true ↔ .stop ∈ es := by
  induction es using List.reverseRecOn with
  | nil => simp [after, start, Listener.start]
  | append_singleton es e ih =>
    rw [after_concat, List.mem_append, List.mem_singleton, ← ih]
    generalize (start m).after es = s
    cases e with
    | ask =>
      by_cases h : s.phase = .asks
      · simp [step_ask h]
      · simp [step, h]
    | char c =>
      by_cases h : s.phase = .waits
      · simp [step_char h, Listener.stopRequested_read]
      · simp [step, h]
    | take =>
      obtain ⟨l, hstep, hl⟩ := s.step_take
      simp [hstep, hl]
    | stop => simp [step, Listener.requestStop]

/-- The characters that were read explain where the loop stands: it went past all of them, or the
last of them ended it. -/
inductive Tells : List Int → Phase → Prop where
  | past {cs : List Int} {p : Phase} (hphase : p = .asks ∨ p = .waits ∨ p = .dismissed)
      (h : ∀ c ∈ cs, Passes c) : Tells cs p
  | quit {cs : List Int} {c : Int} (h : ∀ c ∈ cs, Passes c) (hlast : c = 27 ∨ c = 3) :
      Tells (cs ++ [c]) .quit
  | failed {cs : List Int} {c : Int} {f : LowerCase.Fault} (h : ∀ c ∈ cs, Passes c)
      (hlast : c = 0x130 ∨ 0x10FFFF < c) (hfault : LowerCase.ofNumber c = .error f) :
      Tells (cs ++ [c]) (.failed f)

theorem Tells.passes {cs : List Int} {p : Phase} (h : Tells cs p)
    (hon : p = .asks ∨ p = .waits) : ∀ c ∈ cs, Passes c := by
  cases h with
  | past _ h => exact h
  | quit => simp at hon
  | failed => simp at hon

theorem tells_step (h : Tells s.heard s.phase) (e : Step) :
    Tells (s.step e).heard (s.step e).phase := by
  cases e with
  | ask =>
    by_cases hphase : s.phase = .asks
    · have hall := h.passes (.inl hphase)
      rw [step_ask hphase]
      refine .past ?_ hall
      dsimp only
      split
      · exact .inr (.inr rfl)
      · exact .inr (.inl rfl)
    · rwa [step, if_neg hphase]
  | char c =>
    by_cases hphase : s.phase = .waits
    · have hall := h.passes (.inr hphase)
      have hheard := heard_read s.listener c
      rw [step_char hphase]
      generalize s.listener.read c = r at hheard
      obtain ⟨l, outcome⟩ := r
      cases hheard with
      | passes hc =>
        exact .past (.inl rfl) (List.forall_mem_append.mpr ⟨hall, List.forall_mem_singleton.mpr hc⟩)
      | quits hc => exact .quit hall hc
      | fails hc hfault => exact .failed hall hc hfault
    · rwa [step, if_neg hphase]
  | take =>
    obtain ⟨l, hstep, -⟩ := s.step_take
    rwa [hstep]
  | stop => exact h

theorem tells_after (m : Keymap) (es : List Step) :
    Tells ((start m).after es).heard ((start m).after es).phase := by
  induction es using List.reverseRecOn with
  | nil => exact .past (.inl rfl) (by simp [after, start])
  | append_singleton es e ih =>
    rw [after_concat]
    exact tells_step ih e

/-- A step dismisses a listener only if the listener has been asked to end. -/
theorem dismissed_step {e : Step} (h : (s.step e).phase = .dismissed) :
    s.phase = .dismissed ∨ s.listener.stopRequested = true := by
  cases e with
  | ask =>
    by_cases hphase : s.phase = .asks
    · rw [step_ask hphase] at h
      dsimp only at h
      split at h
      · rename_i hrequested
        exact .inr hrequested
      · cases h
    · rw [step, if_neg hphase] at h
      exact .inl h
  | char c =>
    by_cases hphase : s.phase = .waits
    · rw [step_char hphase] at h
      dsimp only at h
      cases hread : (s.listener.read c).2 <;> rw [hread] at h <;> cases h
    · rw [step, if_neg hphase] at h
      exact .inl h
  | take =>
    obtain ⟨l, hstep, -⟩ := s.step_take
    rw [hstep] at h
    exact .inl h
  | stop => exact .inl h

theorem stopped_of_dismissed {m : Keymap} {es : List Step}
    (h : ((start m).after es).phase = .dismissed) : .stop ∈ es := by
  induction es using List.reverseRecOn with
  | nil => cases h
  | append_singleton es e ih =>
    rw [after_concat] at h
    refine List.mem_append_left _ ?_
    rcases dismissed_step h with hbefore | hrequested
    · exact ih hbefore
    · exact (stopRequested_after m es).mp hrequested

/-! ## The loop alone -/

/-- The loop asks and then reads, for each of some characters. -/
def turns (cs : List Int) : List Step := cs.flatMap fun c => [.ask, .char c]

theorem after_turn (hphase : s.phase = .asks) (hstop : s.listener.stopRequested = false)
    (c : Int) (cs : List Int) :
    s.after (turns (c :: cs)) =
      (⟨(s.listener.read c).1, .behind (s.listener.read c).2, s.heard ++ [c]⟩ : Watch).after
        (turns cs) := by
  have hask : s.step .ask = { s with phase := .waits } := by
    rw [step_ask hphase, hstop]
    rfl
  show ((s.step .ask).step (.char c)).after (turns cs) = _
  rw [hask, step_char rfl]

theorem after_turns_of_ended (hasks : s.phase ≠ .asks) (hwaits : s.phase ≠ .waits)
    (cs : List Int) : s.after (turns cs) = s := by
  induction cs with
  | nil => rfl
  | cons c cs ih =>
    show ((s.step .ask).step (.char c)).after (turns cs) = s
    rw [step, if_neg hasks, step, if_neg hwaits, ih]

/-- A loop that nothing comes between is the reading of all characters. -/
theorem after_turns (hphase : s.phase = .asks) (hstop : s.listener.stopRequested = false)
    (cs : List Int) :
    (s.after (turns cs)).listener = (s.listener.readAll cs).1 ∧
      (s.after (turns cs)).phase = .behind (s.listener.readAll cs).2 := by
  induction cs generalizing s with
  | nil => exact ⟨rfl, hphase⟩
  | cons c cs ih =>
    have hread := s.listener.stopRequested_read c
    rw [after_turn hphase hstop, Listener.readAll]
    generalize s.listener.read c = r at hread
    obtain ⟨l, outcome⟩ := r
    cases outcome with
    | goesOn => exact ih rfl (hread.trans hstop)
    | quits =>
      rw [after_turns_of_ended (by simp [Phase.behind]) (by simp [Phase.behind])]
      trivial
    | fails f =>
      rw [after_turns_of_ended (by simp [Phase.behind]) (by simp [Phase.behind])]
      trivial

/-- A loop that nothing comes between reads all characters if it goes past each of them. -/
theorem heard_turns {cs : List Int} (hphase : s.phase = .asks)
    (hstop : s.listener.stopRequested = false) (h : ∀ c ∈ cs, Passes c) :
    (s.after (turns cs)).heard = s.heard ++ cs ∧ (s.after (turns cs)).phase = .asks := by
  induction cs generalizing s with
  | nil => exact ⟨(List.append_nil _).symm, hphase⟩
  | cons c cs ih =>
    obtain ⟨hc, hcs⟩ := List.forall_mem_cons.mp h
    have hread := s.listener.stopRequested_read c
    have hheard := heard_read s.listener c
    rw [after_turn hphase hstop, List.append_cons s.heard c cs]
    generalize s.listener.read c = r at hread hheard
    obtain ⟨l, outcome⟩ := r
    cases hheard with
    | passes => exact ih rfl (hread.trans hstop) hcs
    | quits hquit => unfold Passes at hc; omega
    | fails hfail => unfold Passes at hc; omega

theorem listen_eq_readAll (m : Keymap) (cs : List Int) :
    (Listener.start m).listen cs = (Listener.start m).readAll cs := if_neg Bool.false_ne_true

theorem behind_eq_asks_iff {outcome : Listener.Outcome} :
    Phase.behind outcome = .asks ↔ outcome = .goesOn := by
  cases outcome <;> simp [Phase.behind]

/-! ## What ends it -/

section Tells

variable {cs : List Int} {p : Phase}

theorem failed_iff (h : Tells cs p) :
    (∃ f, p = .failed f) ↔ ∃ c, cs.getLast? = some c ∧ (c = 0x130 ∨ 0x10FFFF < c) := by
  cases h with
  | past hphase hall =>
    refine iff_of_false ?_ ?_
    · rintro ⟨f, rfl⟩
      simp at hphase
    · rintro ⟨c, hc, hfails⟩
      have hpasses := hall c (List.mem_of_getLast? hc)
      unfold Passes at hpasses
      omega
  | @quit cs c hall hlast =>
    simp only [List.getLast?_concat, Option.some.injEq, exists_eq_left', reduceCtorEq,
      exists_false, false_iff]
    omega
  | failed hall hlast => simp [hlast]

theorem quit_iff (h : Tells cs p) :
    p = .quit ↔ cs.getLast? = some 27 ∨ cs.getLast? = some 3 := by
  cases h with
  | past hphase hall =>
    refine iff_of_false ?_ ?_
    · rintro rfl
      simp at hphase
    · rintro (hc | hc)
      · exact absurd (hall 27 (List.mem_of_getLast? hc)) (by simp [Passes])
      · exact absurd (hall 3 (List.mem_of_getLast? hc)) (by simp [Passes])
  | quit hall hlast => simp [hlast]
  | @failed cs c f hall hlast =>
    simp only [List.getLast?_concat, Option.some.injEq, reduceCtorEq, false_iff]
    omega

theorem passes_dropLast (h : Tells cs p) : ∀ c ∈ cs.dropLast, Passes c := by
  cases h with
  | past _ hall => exact fun c hc => hall c (List.dropLast_subset cs hc)
  | quit hall => rwa [List.dropLast_concat]
  | failed hall => rwa [List.dropLast_concat]

end Tells

/-- **What ends a listener.** It goes past every character that it reads but the last. It fails
exactly if the last is the dotted capital I or no character at all, it quits exactly if the last is
escape or the interrupt, and it is dismissed only if it was asked to end. Until then it waits for
the next character and reads it. So it reads to their end all characters that are none of these. -/
theorem listener_ends (m : Keymap) (es : List Step) :
    let s := (start m).after es
    (∀ c ∈ s.heard.dropLast, Passes c) ∧
      ((∃ f, s.phase = .failed f) ↔
        ∃ c, s.heard.getLast? = some c ∧ (c = 0x130 ∨ 0x10FFFF < c)) ∧
      (s.phase = .quit ↔ s.heard.getLast? = some 27 ∨ s.heard.getLast? = some 3) ∧
      (s.phase = .dismissed → .stop ∈ es) ∧
      (s.phase = .asks → ((s.step .ask).phase = .waits ↔ .stop ∉ es)) ∧
      (s.phase = .waits → ∀ c, (s.step (.char c)).heard = s.heard ++ [c]) ∧
      ∀ chars : List Int, (∀ c ∈ chars, Passes c) →
        ((start m).after (turns chars)).heard = chars ∧
          ((Listener.start m).listen chars).2 = .goesOn := by
  intro s
  have htells : Tells s.heard s.phase := tells_after m es
  refine ⟨passes_dropLast htells, failed_iff htells, quit_iff htells, stopped_of_dismissed,
    fun hasks => ?_, fun hwaits c => by rw [step_char hwaits], fun chars hchars => ?_⟩
  · rw [step_ask hasks, ← stopRequested_after m es]
    show (if s.listener.stopRequested then Phase.dismissed else .waits) = .waits ↔
      ¬ s.listener.stopRequested = true
    cases s.listener.stopRequested <;> simp
  · have hphase : (start m).phase = .asks := rfl
    have hstop : (start m).listener.stopRequested = false := rfl
    obtain ⟨hheard, hlast⟩ := heard_turns hphase hstop hchars
    refine ⟨hheard, ?_⟩
    rw [(after_turns hphase hstop chars).2, behind_eq_asks_iff] at hlast
    rw [listen_eq_readAll]
    exact hlast

/-- The dotted capital I ends a listener that nobody asked to end, and what is typed behind it is
not read. -/
theorem dotted_i_ends_listener :
    ¬ ∀ (text : String) (m : Keymap), Keymap.parse .characters text = .ok m →
      ∀ chars : List Int, (∀ c ∈ chars, c ≤ 0x10FFFF ∧ c ≠ 27 ∧ c ≠ 3) →
        ((Listener.start m).listen chars).2 = .goesOn := by
  intro h
  obtain ⟨m, hparse⟩ : ∃ m, Keymap.parse .characters Layout.qwerty.keymap = .ok m := ⟨_, rfl⟩
  have hlisten := h _ m hparse [0x130, 0x61] (by decide)
  have hfails : ((Listener.start m).listen [0x130, 0x61]).2 =
      .fails (.severalCharacters 0x130) := rfl
  rw [hfails] at hlisten
  cases hlisten

end Watch
end ChipEight
