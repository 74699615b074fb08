import Mathlib.Data.List.Induction
import ChipEight.Input.Window
import ChipEight.Proofs.Histories
import ChipEight.Proofs.KeymapTexts

/-!
# ChipEight.Proofs.Batches

Events of a window system come in batches, one for each poll. How they are cut into batches makes
no difference to the keys, and none to whether some poll asks to quit.

* `asksToQuit`, `Touches`, `Presses`: what one event asks for, and which keys it is about.
* `isHeld_event`, `last_event`: what one event does to a key and to the last key.
* `isHeld_poll`, `last_poll`: the same for a batch. Of the events about a key the last one counts.
* `polls_keys`, `polls_answers`: several polls are one poll of all their events.
-/

namespace ChipEight
namespace WindowKeys

/-- Whether an event asks to quit. -/
def asksToQuit : WindowEvent → Bool
  | .close => true
  | .up code => decide (code = escape)
  | _ => false

/-- A host key goes down, or it is let go. Letting go of the escape key only asks to quit. -/
def Touches (code : Int) (e : WindowEvent) : Prop :=
  e = .down code ∨ (e = .up code ∧ code ≠ escape)

/-- The host key of a key goes down. -/
def Presses (m : Keymap) (k : Key) (e : WindowEvent) : Prop :=
  ∃ code, e = .down code ∧ m.key? code = some k

/-- The keypad after several polls, and what each of them answered. -/
def polls (m : Keymap) (keys : Keypad) : List (List WindowEvent) → Keypad × List Bool
  | [] => (keys, [])
  | batch :: batches =>
    let (keys, quit) := poll m keys batch
    let (keys, quits) := polls m keys batches
    (keys, quit :: quits)

section Event

variable {m : Keymap} {keys : Keypad}

theorem event_answer (m : Keymap) (keys : Keypad) (e : WindowEvent) :
    (event m keys e).2 = asksToQuit e := by
  cases e with
  | down code =>
    unfold event asksToQuit
    dsimp only
    split <;> rfl
  | up code =>
    unfold event asksToQuit
    dsimp only
    split
    · rename_i hescape
      exact (decide_eq_true hescape).symm
    · rename_i hescape
      rw [decide_eq_false hescape]
      split <;> rfl
  | close => rfl
  | other => rfl

/-- A request to quit touches no key. -/
theorem event_of_asksToQuit {e : WindowEvent} (h : asksToQuit e = true) :
    (event m keys e).1 = keys := by
  cases e with
  | down code => cases h
  | up code =>
    unfold event
    dsimp only
    rw [if_pos (of_decide_eq_true h)]
  | close => rfl
  | other => cases h

section Code

variable {c : Int} {k : Key} (hcode : ∀ d, m.key? d = some k ↔ d = c)
include hcode

theorem key_eq_iff {d : Int} {j : Key} (h : m.key? d = some j) : k.val = j.val ↔ d = c := by
  rw [← hcode d, h, Option.some.injEq, Fin.val_inj, eq_comm]

theorem ne_of_key?_eq_none {d : Int} (h : m.key? d = none) : d ≠ c := by
  intro heq
  rw [(hcode d).mpr heq] at h
  cases h

theorem isHeld_down (d : Int) :
    (event m keys (.down d)).1.isHeld k = (decide (d = c) || keys.isHeld k) := by
  unfold event
  dsimp only
  cases hkey : m.key? d with
  | none => simp [ne_of_key?_eq_none hcode hkey]
  | some j =>
    dsimp only
    rw [Keypad.isHeld_press, decide_eq_decide.mpr (key_eq_iff hcode hkey)]

theorem isHeld_up {d : Int} (hescape : d ≠ escape) :
    (event m keys (.up d)).1.isHeld k = (!decide (d = c) && keys.isHeld k) := by
  unfold event
  dsimp only
  rw [if_neg hescape]
  cases hkey : m.key? d with
  | none => simp [ne_of_key?_eq_none hcode hkey]
  | some j =>
    dsimp only
    rw [Keypad.isHeld_release, decide_eq_decide.mpr (key_eq_iff hcode hkey)]

/-- A key is held after an event if its host key goes down, or if it was held and the event is about
another one. -/
theorem isHeld_event (e : WindowEvent) :
    (event m keys e).1.isHeld k = true ↔
      e = .down c ∨ (¬ Touches c e ∧ keys.isHeld k = true) := by
  cases e with
  | down d =>
    rw [isHeld_down hcode]
    by_cases hd : d = c <;> simp [Touches, hd]
  | up d =>
    by_cases hescape : d = escape
    · have huntouched : ¬ Touches c (.up d) := by
        rintro (⟨⟨⟩⟩ | ⟨⟨⟩, hne⟩)
        exact hne hescape
      rw [event_of_asksToQuit (e := .up d) (decide_eq_true hescape)]
      simp [huntouched]
    · rw [isHeld_up hcode hescape]
      by_cases hd : d = c
      · subst hd
        simp [Touches, hescape]
      · simp [Touches, hd]
  | close => simp [event, Touches]
  | other => simp [event, Touches]

end Code

theorem last_event (m : Keymap) (keys : Keypad) (k : Key) (e : WindowEvent) :
    (event m keys e).1.last = some k ↔
      Presses m k e ∨ ((¬ ∃ j, Presses m j e) ∧ keys.last = some k) := by
  cases e with
  | down d =>
    unfold event
    dsimp only
    cases hkey : m.key? d with
    | none => simp [Presses, hkey]
    | some j => simp [Presses, hkey, Keypad.press]
  | up d =>
    have hlast : (event m keys (.up d)).1.last = keys.last := by
      unfold event
      dsimp only
      split
      · rfl
      · split <;> rfl
    rw [hlast]
    simp [Presses]
  | close => simp [event, Presses]
  | other => simp [event, Presses]

end Event

/-! ## Batches -/

section Poll

variable {m : Keymap} {keys : Keypad}

theorem poll_concat (m : Keymap) (keys : Keypad) (es : List WindowEvent) (e : WindowEvent) :
    poll m keys (es ++ [e]) =
      ((event m (poll m keys es).1 e).1, (poll m keys es).2 || asksToQuit e) := by
  rw [← event_answer m (poll m keys es).1 e]
  exact List.foldl_append

theorem poll_answer (m : Keymap) (keys : Keypad) (es : List WindowEvent) :
    (poll m keys es).2 = es.any asksToQuit := by
  induction es using List.reverseRecOn with
  | nil => rfl
  | append_singleton es e ih => simp [poll_concat, ih]

theorem poll_append (m : Keymap) (keys : Keypad) (es fs : List WindowEvent) :
    (poll m keys (es ++ fs)).1 = (poll m (poll m keys es).1 fs).1 := by
  induction fs using List.reverseRecOn with
  | nil => rw [List.append_nil]; rfl
  | append_singleton fs f ih => rw [← List.append_assoc, poll_concat, poll_concat, ih]

theorem isHeld_poll {c : Int} {k : Key} (hcode : ∀ d, m.key? d = some k ↔ d = c)
    (es : List WindowEvent) :
    (poll m .released es).1.isHeld k = true ↔
      Since (fun _ e => e = .down c) (Touches c) es := by
  refine since_iff_of_step (Q := fun es => (poll m .released es).1.isHeld k = true) ?_
    (fun es e => ?_) es
  · simp [poll, Keypad.isHeld, Keypad.released]
  · rw [poll_concat, isHeld_event hcode]

theorem last_poll (k : Key) (es : List WindowEvent) :
    (poll m .released es).1.last = some k ↔
      Since (fun _ e => Presses m k e) (fun e => ∃ j, Presses m j e) es := by
  refine since_iff_of_step (Q := fun es => (poll m .released es).1.last = some k) nofun
    (fun es e => ?_) es
  rw [poll_concat, last_event]

theorem last_poll_of_unpressed {es : List WindowEvent} (h : ∀ e ∈ es, ∀ k, ¬ Presses m k e) :
    (poll m keys es).1.last = keys.last := by
  induction es using List.reverseRecOn with
  | nil => rfl
  | append_singleton es e ih =>
    have hearlier := ih fun d hd => h d (List.mem_append_left _ hd)
    have hlatest : ∀ k, ¬ Presses m k e := h e (by simp)
    rw [poll_concat, ← hearlier]
    refine Option.ext fun k => ?_
    simpa [hlatest] using last_event m (poll m keys es).1 k e

theorem polls_keys (m : Keymap) (keys : Keypad) (batches : List (List WindowEvent)) :
    (polls m keys batches).1 = (poll m keys batches.flatten).1 := by
  induction batches generalizing keys with
  | nil => rfl
  | cons batch batches ih =>
    rw [List.flatten_cons, poll_append, ← ih]
    rfl

theorem polls_answers (m : Keymap) (keys : Keypad) (batches : List (List WindowEvent)) :
    (polls m keys batches).2 = batches.map (·.any asksToQuit) := by
  induction batches generalizing keys with
  | nil => rfl
  | cons batch batches ih =>
    rw [List.map_cons, ← ih (poll m keys batch).1, ← poll_answer m keys batch]
    rfl

end Poll

/-- **Batches do not matter.** With an accepted keymap, the keys after several polls are those of
all the events in one row: a key is held exactly if its host key went down and nothing later was
about that host key, and the last key is the one that was pressed last. A request to quit only shows
in the answer of its own poll; the events behind it count as they would without it. -/
theorem batches_do_not_matter {codes : Keymap.Codes} {text : String} {m : Keymap}
    (hparse : Keymap.parse codes text = .ok m) :
    ∃ code : Key → Int, (∀ k c, m.key? c = some k ↔ c = code k) ∧
      ∀ batches : List (List WindowEvent),
        let s := polls m .released batches
        (∀ k : Key, s.1.isHeld k = true ↔
          Since (fun _ e => e = .down (code k)) (Touches (code k)) batches.flatten) ∧
        (∀ k, s.1.last = some k ↔
          Since (fun _ e => Presses m k e) (fun e => ∃ j, Presses m j e) batches.flatten) ∧
        (∀ keys, (∀ e ∈ batches.flatten, ∀ k, ¬ Presses m k e) →
          (polls m keys batches).1.last = keys.last) ∧
        s.2 = batches.map (·.any asksToQuit) ∧
        (∀ keys others, others.flatten = batches.flatten →
          (polls m keys others).1 = (polls m keys batches).1 ∧
            (polls m keys others).2.any id = (polls m keys batches).2.any id) ∧
        ∀ keys before e later, batches.flatten = before ++ e :: later → asksToQuit e = true →
          (polls m keys batches).1 = (poll m keys (before ++ later)).1 := by
  choose code hcode using Keymap.exists_code hparse
  refine ⟨code, hcode, fun batches => ⟨fun k => ?_, fun k => ?_, fun keys hnone => ?_, ?_,
    fun keys others hsame => ⟨?_, ?_⟩, fun keys before e later hsplit hquit => ?_⟩⟩
  · rw [polls_keys]
    exact isHeld_poll (hcode k) _
  · rw [polls_keys]
    exact last_poll k _
  · rw [polls_keys]
    exact last_poll_of_unpressed hnone
  · exact polls_answers m _ batches
  · rw [polls_keys, polls_keys, hsame]
  · have hany : ∀ split : List (List WindowEvent),
        (polls m keys split).2.any id = split.flatten.any asksToQuit := fun split => by
      rw [polls_answers, List.any_map, List.any_flatten]
      rfl
    rw [hany, hany, hsame]
  · rw [polls_keys, hsplit, poll_append, poll_append, ← List.singleton_append, poll_append]
    exact congrArg (fun keys => (poll m keys later).1) (event_of_asksToQuit hquit)

/-- A keymap in which the escape key stands for key 0. -/
def escaping : String := "27,49,50,51,113,119,101,97,115,100,122,99,52,114,102,118"

/-- Letting go of the escape key asks to quit, and its key stays down. The key that goes down behind
this is the last one all the same. -/
theorem batches_do_not_matter_escape : ∃ m, Keymap.parse .keys escaping = .ok m ∧
    let s := polls m .released [[.down 27, .other], [.up 27, .down 49]]
    s.1.isHeld 0 = true ∧ s.1.last = some 1 ∧ s.2 = [false, true] := by
  have hparse : ∃ m, Keymap.parse .keys escaping = .ok m := ⟨_, rfl⟩
  obtain ⟨m, hparse⟩ := hparse
  have hzero : m.key? 27 = some 0 := (Keymap.key?_eq_some_iff hparse 27 0).mpr ⟨_, rfl, rfl⟩
  have hone : m.key? 49 = some 1 := (Keymap.key?_eq_some_iff hparse 49 1).mpr ⟨_, rfl, rfl⟩
  obtain ⟨code, hcode, hall⟩ := batches_do_not_matter hparse
  obtain ⟨hheld, hlast, -, hanswers, -⟩ := hall [[.down 27, .other], [.up 27, .down 49]]
  have hescape : code 0 = 27 := ((hcode 0 27).mp hzero).symm
  refine ⟨m, hparse, (hheld 0).mpr ?_, (hlast 1).mpr ?_, hanswers.trans rfl⟩
  · rw [hescape]
    exact ⟨[], _, [.other, .up 27, .down 49], rfl, rfl, by simp [Touches, escape]⟩
  · exact ⟨[.down 27, .other, .up 27], _, [], rfl, ⟨49, rfl, hone⟩, nofun⟩

end WindowKeys
end ChipEight
