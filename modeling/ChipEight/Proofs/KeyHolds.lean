import ChipEight.Proofs.Histories
import ChipEight.Proofs.Polls

/-!
# ChipEight.Proofs.KeyHolds

How long a key of a terminal counts as held, over any history of polls. A poll holds the keys that
it takes for a time, and a later poll lets go of them unless it takes them again.

* `TerminalKeys.Event`, `TerminalKeys.after`, `TerminalKeys.answers`: histories of polls.
* `Holds`, `Ends`: what one event does to the hold of a key.
* `apply_poll`: what a poll that does not quit leaves.
* `Accounted`: the holds of a state are those of its history. `accounted_poll` is its step.
* `holds_of_history`: which keys are down after a history, and which key each poll counts as
  pressed.
-/

namespace ChipEight
namespace TerminalKeys

/-! ## Histories -/

/-- What is done with the keys of a terminal. A poll meets the listener as it is by then. -/
inductive Event where
  | poll (time : Float) (listener : Listener)
  | forget

/-- The keys that an event takes. -/
def Event.taken : Event → List Key
  | .poll _ l => l.waiting
  | .forget => []

/-- The keys after an event, and what it answers. -/
def apply (s : TerminalKeys × Keypad) : Event → (TerminalKeys × Keypad) × List Bool
  | .poll time l =>
    let r := (hearing l s).1.poll s.2 time
    ((r.1, r.2.1), [r.2.2])
  | .forget => ((s.1, s.2.forget), [])

/-- The keys after a history of events, the first of them first. -/
def after (s : TerminalKeys × Keypad) (es : List Event) : TerminalKeys × Keypad :=
  es.foldl (fun s e => (apply s e).1) s

/-- What the polls of a history answer: whether to quit. -/
def answers (s : TerminalKeys × Keypad) : List Event → List Bool
  | [] => []
  | e :: es => (apply s e).2 ++ answers (apply s e).1 es

theorem after_concat (s : TerminalKeys × Keypad) (es : List Event) (e : Event) :
    after s (es ++ [e]) = (apply (after s es) e).1 := List.foldl_append

theorem answers_append (s : TerminalKeys × Keypad) (es fs : List Event) :
    answers s (es ++ fs) = answers s es ++ answers (after s es) fs := by
  induction es generalizing s with
  | nil => rfl
  | cons e es ih =>
    rw [List.cons_append, answers, answers, ih, List.append_assoc]
    rfl

/-- An event holds a key until a time, and the time does not come in the event itself. -/
def Holds (k : Key) (release : Float) (e : Event) : Prop :=
  ∃ time l, e = .poll time l ∧ k ∈ l.waiting ∧ release = time + holdTime ∧ ¬ release ≤ time

/-- An event takes a key once more, or it is late enough to let go of it. -/
def Ends (k : Key) (release : Float) (e : Event) : Prop :=
  k ∈ e.taken ∨ ∃ time l, e = .poll time l ∧ release ≤ time

/-! ## One poll -/

variable {s : TerminalKeys × Keypad} {time : Float} {l : Listener}

theorem apply_poll (h : (apply s (.poll time l)).2 = [false]) :
    ∃ rest, (apply s (.poll time l)).1 =
      expireAll time (hearing rest (holdAll time s l.waiting)) := by
  obtain ⟨ks, hks⟩ := poll_eq_false_iff.mp (List.singleton_inj.mp h)
  obtain ⟨rest, -, hpoll⟩ := poll_of_keys s.2 time hks
  refine ⟨rest, ?_⟩
  rw [show l.waiting = ks from Listener.waiting_of_items hks]
  dsimp only [apply]
  rw [hpoll]
  show expireAll time (hearing rest (holdAll time (hearing l s) ks)) = _
  rw [holdAll_hearing]
  rfl

section Poll

variable (h : (apply s (.poll time l)).2 = [false]) (k : Key)
include h

theorem releaseAt_poll :
    (apply s (.poll time l)).1.1.releaseAt.get k =
      if (holdAll time s l.waiting).1.isOver k time then 0.0
      else if k ∈ l.waiting then time + holdTime else s.1.releaseAt.get k := by
  obtain ⟨rest, happly⟩ := apply_poll h
  rw [happly, releaseAt_expireAll, ← releaseAt_holdAll]
  rfl

theorem isHeld_poll :
    (apply s (.poll time l)).1.2.isHeld k =
      ((s.2.isHeld k || decide (k ∈ l.waiting)) &&
        !(holdAll time s l.waiting).1.isOver k time) := by
  obtain ⟨rest, happly⟩ := apply_poll h
  rw [happly, isHeld_expireAll, ← isHeld_holdAll]
  rfl

omit k in
theorem last_poll :
    (apply s (.poll time l)).1.2.last = (holdAll time s l.waiting).2.last := by
  obtain ⟨rest, happly⟩ := apply_poll h
  rw [happly, last_expireAll]
  rfl

end Poll

/-! ## Histories of polls that do not quit -/

/-- The holds of a state are those of its history. -/
structure Accounted (s : TerminalKeys × Keypad) (es : List Event) : Prop where
  held (k : Key) : s.2.isHeld k ↔ ∃ r, Since (fun _ e => Holds k r e) (Ends k r) es
  due (k : Key) (r : Float) : Since (fun _ e => Holds k r e) (Ends k r) es → s.1.releaseAt.get k = r
  marked (k : Key) : s.2.isHeld k = (s.1.releaseAt.get k != 0.0)

theorem since_poll_of_mem {es : List Event} {k : Key} (hk : k ∈ l.waiting) (r : Float) :
    Since (fun _ e => Holds k r e) (Ends k r) (es ++ [.poll time l]) ↔
      r = time + holdTime ∧ ¬ r ≤ time := by
  rw [since_concat]
  constructor
  · rintro (⟨u, l', he, -, hr, hlate⟩ | ⟨hends, -⟩)
    · cases he
      exact ⟨hr, hlate⟩
    · exact absurd (.inl hk) hends
  · rintro ⟨hr, hlate⟩
    exact .inl ⟨time, l, rfl, hk, hr, hlate⟩

theorem since_poll_of_notMem {es : List Event} {k : Key} (hk : k ∉ l.waiting) (r : Float) :
    Since (fun _ e => Holds k r e) (Ends k r) (es ++ [.poll time l]) ↔
      ¬ r ≤ time ∧ Since (fun _ e => Holds k r e) (Ends k r) es := by
  rw [since_concat]
  constructor
  · rintro (⟨u, l', he, hmem, -⟩ | ⟨hends, hbefore⟩)
    · cases he
      exact absurd hmem hk
    · exact ⟨fun hle => hends (.inr ⟨time, l, rfl, hle⟩), hbefore⟩
  · rintro ⟨hlate, hbefore⟩
    refine .inr ⟨?_, hbefore⟩
    rintro (hmem | ⟨u, l', he, hle⟩)
    · exact hk hmem
    · cases he
      exact hlate hle

theorem since_forget {es : List Event} {k : Key} (r : Float) :
    Since (fun _ e => Holds k r e) (Ends k r) (es ++ [.forget]) ↔
      Since (fun _ e => Holds k r e) (Ends k r) es := by
  rw [since_concat]
  constructor
  · rintro (⟨u, l', he, -⟩ | ⟨-, hbefore⟩)
    · cases he
    · exact hbefore
  · intro hbefore
    refine .inr ⟨?_, hbefore⟩
    rintro (hmem | ⟨u, l', he, -⟩)
    · cases hmem
    · cases he

theorem accounted_forget {es : List Event} (h : Accounted s es) :
    Accounted (apply s .forget).1 (es ++ [.forget]) where
  held k := by
    simp only [since_forget]
    exact h.held k
  due k r hsince := h.due k r ((since_forget r).mp hsince)
  marked := h.marked

theorem accounted_poll {es : List Event} (h : Accounted s es)
    (hfalse : (apply s (.poll time l)).2 = [false]) (hzero : (time + holdTime != 0.0) = true) :
    Accounted (apply s (.poll time l)).1 (es ++ [.poll time l]) := by
  have hnone : ((0.0 : Float) != 0.0) = false := by decide
  -- the time of a key before the poll looks for keys to let go of
  have hover : ∀ k : Key, (holdAll time s l.waiting).1.isOver k time =
      if k ∈ l.waiting then decide (time + holdTime ≤ time)
      else s.2.isHeld k && decide (s.1.releaseAt.get k ≤ time) := by
    intro k
    rw [isOver_eq, releaseAt_holdAll]
    by_cases hk : k ∈ l.waiting
    · simp only [if_pos hk, hzero, Bool.true_and]
    · simp only [if_neg hk, h.marked]
  refine ⟨fun k => ?_, fun k r hsince => ?_, fun k => ?_⟩
  · rw [isHeld_poll hfalse, hover]
    by_cases hk : k ∈ l.waiting
    · simp [since_poll_of_mem hk, hk]
    · simp only [since_poll_of_notMem hk, hk, decide_false, Bool.or_false, if_false]
      constructor
      · intro hheld
        simp only [Bool.and_eq_true, Bool.not_eq_true', Bool.and_eq_false_imp] at hheld
        obtain ⟨r, hsince⟩ := (h.held k).mp hheld.1
        have hlate := hheld.2 hheld.1
        rw [h.due k r hsince] at hlate
        exact ⟨r, of_decide_eq_false hlate, hsince⟩
      · rintro ⟨r, hlate, hsince⟩
        rw [(h.held k).mpr ⟨r, hsince⟩, h.due k r hsince, decide_eq_false hlate]
        rfl
  · rw [releaseAt_poll hfalse, hover]
    by_cases hk : k ∈ l.waiting
    · obtain ⟨hr, hlate⟩ := (since_poll_of_mem hk r).mp hsince
      rw [hr] at hlate
      simp [hk, hlate, hr]
    · obtain ⟨hlate, hbefore⟩ := (since_poll_of_notMem hk r).mp hsince
      simp [hk, h.due k r hbefore, hlate]
  · rw [isHeld_poll hfalse, releaseAt_poll hfalse, hover]
    by_cases hk : k ∈ l.waiting
    · by_cases hlate : time + holdTime ≤ time
      · simp [hk, hlate, hnone]
      · simp [hk, hlate, hzero]
    · by_cases hlate : s.2.isHeld k && decide (s.1.releaseAt.get k ≤ time)
      · simp only [if_neg hk, hlate, Bool.not_true, Bool.and_false, if_true, hnone]
      · simp only [Bool.not_eq_true] at hlate
        simp only [hk, hlate, if_false, Bool.false_eq_true, decide_false, Bool.or_false,
          Bool.not_false, Bool.and_true]
        exact h.marked k

theorem accounted_start (keymap : Keymap) : Accounted (start keymap, .released) [] where
  held k := by simp [not_since_nil, Keypad.released, Keypad.isHeld]
  due k r hsince := absurd hsince not_since_nil
  marked k := by
    have hnone : ((0.0 : Float) != 0.0) = false := by decide
    have hzero : (start keymap).releaseAt.get k = 0.0 := Vector.getElem_replicate k.isLt
    simp [hzero, Keypad.released, Keypad.isHeld, hnone]

/-- What answers without quitting accounts for its holds, by induction on the history. -/
theorem accounted_after (keymap : Keymap) {es : List Event}
    (hfalse : ∀ b ∈ answers (start keymap, .released) es, b = false)
    (hzero : ∀ time l, .poll time l ∈ es → (time + holdTime != 0.0) = true) :
    Accounted (after (start keymap, .released) es) es := by
  induction es using List.reverseRecOn with
  | nil => exact accounted_start keymap
  | append_singleton es e ih =>
    rw [answers_append] at hfalse
    have hbefore := ih (fun b hb => hfalse b (List.mem_append_left _ hb))
      fun time l hmem => hzero time l (List.mem_append_left _ hmem)
    rw [after_concat]
    cases e with
    | forget => exact accounted_forget hbefore
    | poll time l =>
      refine accounted_poll hbefore ?_ (hzero time l (by simp))
      exact congrArg (fun b => [b]) (hfalse _ (List.mem_append_right _ List.mem_cons_self))

/-- **The holds of keys.** Over any history of polls that do not quit, a key is down exactly if some
poll took it, no later one took it again, and neither that poll nor a later one came `holdTime` or
more after it. The keys that are down are those with a time at which they are let go. A poll counts
a key as pressed only if it was not down before, and of several such keys the one that came last for
the first time. -/
theorem holds_of_history (keymap : Keymap) {es : List Event}
    (hfalse : ∀ b ∈ answers (start keymap, .released) es, b = false)
    (hzero : ∀ time l, .poll time l ∈ es → (time + holdTime != 0.0) = true) :
    (∀ k : Key, (after (start keymap, .released) es).2.isHeld k ↔
      ∃ r, Since (fun _ e => Holds k r e) (Ends k r) es) ∧
      (∀ k : Key, (after (start keymap, .released) es).2.isHeld k =
        ((after (start keymap, .released) es).1.releaseAt.get k != 0.0)) ∧
      ∀ before time (l : Listener) later, es = before ++ .poll time l :: later →
        l.items = l.waiting.map .key ∧
        ((∃ k ∈ l.waiting, ¬ (after (start keymap, .released) before).2.isHeld k) →
          ∃ k, LatestNew (after (start keymap, .released) before).2 l.waiting k ∧
            (after (start keymap, .released) (before ++ [.poll time l])).2.last = some k) ∧
        ((∀ k ∈ l.waiting, (after (start keymap, .released) before).2.isHeld k) →
          (after (start keymap, .released) (before ++ [.poll time l])).2.last =
            (after (start keymap, .released) before).2.last) := by
  have haccounted := accounted_after keymap hfalse hzero
  refine ⟨haccounted.held, haccounted.marked, ?_⟩
  rintro before time l later rfl
  have hanswer : (apply (after (start keymap, .released) before) (.poll time l)).2 = [false] := by
    rw [answers_append] at hfalse
    exact congrArg (fun b => [b]) (hfalse _ (List.mem_append_right _ List.mem_cons_self))
  obtain ⟨ks, hks⟩ := poll_eq_false_iff.mp (List.singleton_inj.mp hanswer)
  have hitems : l.items = ks.map .key := hks
  rw [after_concat, last_poll hanswer]
  refine ⟨?_, exists_latestNew, last_holdAll_of_held⟩
  rw [Listener.waiting_of_items hitems, hitems]

theorem answers_of_keys {es : List Event}
    (h : ∀ time l, .poll time l ∈ es → ∃ ks : List Key, l.items = ks.map .key) :
    ∀ b ∈ answers s es, b = false := by
  induction es generalizing s with
  | nil =>
    intro b hb
    cases hb
  | cons e es ih =>
    intro b hb
    rcases List.mem_append.mp hb with hb | hb
    · cases e with
      | forget => cases hb
      | poll time l =>
        rw [List.mem_singleton.mp hb]
        exact poll_eq_false_iff.mpr (h time l List.mem_cons_self)
    · exact ih (fun time l hmem => h time l (List.mem_cons_of_mem _ hmem)) b hb

attribute [local instance] neZero_sixteen

/-- Two taps in one poll. -/
def tapped : List Event :=
  [] ++ [.poll 0 ⟨⟨[]⟩, [.key 1, .key 2, .key 1], false, false⟩] ++ [.forget]

/-- The same, but the first key is repeated. -/
def repeated : List Event :=
  tapped ++ [.poll 0.1 ⟨⟨[]⟩, [.key 1], false, false⟩] ++
    [.poll 0.25 ⟨⟨[]⟩, [], false, false⟩]

theorem mem_repeated {time : Float} {l : Listener} (h : .poll time l ∈ repeated) :
    (∃ ks : List Key, l.items = ks.map .key) ∧ (time + holdTime != 0.0) = true := by
  simp only [repeated, tapped, List.mem_append, List.mem_cons, Event.poll.injEq, reduceCtorEq,
    List.not_mem_nil, or_false, false_or] at h
  rcases h with (⟨rfl, rfl⟩ | ⟨rfl, rfl⟩) | ⟨rfl, rfl⟩
  · exact ⟨⟨[1, 2, 1], rfl⟩, by decide⟩
  · exact ⟨⟨[1], rfl⟩, by decide⟩
  · exact ⟨⟨[], rfl⟩, by decide⟩

/-- The key that is repeated stays down after the time of its first tap, and the other one does
not. -/
theorem holds_of_history_repeated :
    (∀ b ∈ answers (start ⟨[]⟩, .released) repeated, b = false) ∧
      (∀ time l, .poll time l ∈ repeated → (time + holdTime != 0.0) = true) ∧
      (after (start ⟨[]⟩, .released) repeated).2.isHeld (1 : Key) ∧
      ¬ (after (start ⟨[]⟩, .released) repeated).2.isHeld (2 : Key) := by
  have hfalse : ∀ b ∈ answers (start ⟨[]⟩, .released) repeated, b = false :=
    answers_of_keys fun time l hmem => (mem_repeated hmem).1
  have hzero : ∀ time l, .poll time l ∈ repeated → (time + holdTime != 0.0) = true :=
    fun time l hmem => (mem_repeated hmem).2
  obtain ⟨hheld, -, -⟩ := holds_of_history ⟨[]⟩ hfalse hzero
  refine ⟨hfalse, hzero, (hheld 1).mpr ⟨0.1 + holdTime, ?_⟩, fun h => ?_⟩
  · refine (since_poll_of_notMem (by decide) _).mpr ⟨by decide, ?_⟩
    exact (since_poll_of_mem (by decide) _).mpr ⟨rfl, by decide⟩
  · obtain ⟨r, hsince⟩ := (hheld 2).mp h
    obtain ⟨hlate, hsince⟩ := (since_poll_of_notMem (by decide) r).mp hsince
    obtain ⟨-, hsince⟩ := (since_poll_of_notMem (by decide) r).mp hsince
    obtain ⟨rfl, -⟩ := (since_poll_of_mem (by decide) r).mp ((since_forget r).mp hsince)
    exact hlate (by decide)

end TerminalKeys
end ChipEight
