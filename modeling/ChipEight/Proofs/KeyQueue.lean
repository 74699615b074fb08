import ChipEight.Proofs.OpcodeTable
import ChipEight.Proofs.Typing

/-!
# ChipEight.Proofs.KeyQueue

The queue between the listener of a terminal and its polls, under any interleaving of their steps.

* `Open`: a queue without a request to quit. `open_step` is its step, `open_after` its run.
* `length_queue_after`: the size of the queue.
* `Closing`: a queue that ends with a request to quit. `notices_of_closing` is its run.
* `queue_protocol`: first in, first out; at most sixteen items; and the way a request to quit goes.
-/

namespace ChipEight
namespace Typing

open TerminalKeys

variable {s : Typing} {m : Keymap}

/-! ## Before a request to quit -/

/-- A step that reads no request to quit, and no character without a lower case. -/
def Ordinary : Step → Prop
  | .read char => char < 0 ∨ ∃ code, LowerCase.ofNumber char = .ok code ∧ code ≠ 27 ∧ code ≠ 3
  | _ => True

theorem read_of_ordinary {l : Listener} {char : Int} (h : Ordinary (.read char)) :
    l.read char = (match l.keymap.typed? char with
      | some k => l.offer k
      | none => l, .goesOn) := by
  unfold Listener.read Keymap.typed?
  by_cases hneg : char < 0
  · simp [hneg]
  · obtain ⟨code, hcode, hescape, hinterrupt⟩ := h.resolve_left hneg
    have hasks : Listener.asksToQuit code = false := by
      simp [Listener.asksToQuit, hescape, hinterrupt]
    simp only [if_neg hneg, hcode, hasks, Bool.false_eq_true, if_false]
    cases l.keymap.key? code <;> rfl

/-- The listener reads, and what waits are these keys. -/
structure Open (m : Keymap) (s : Typing) (ks : List Key) : Prop where
  listening : s.listening = true
  unasked : s.listener.quitWaits = false
  queue : s.listener.queue = ks.map .key
  keymap : s.listener.keymap = m

theorem open_fresh (m : Keymap) : Open m (fresh m) [] := ⟨rfl, rfl, rfl, rfl⟩

theorem Open.items {ks : List Key} (h : Open m s ks) : s.listener.items = ks.map .key :=
  (Listener.items_of_unasked h.unasked).trans h.queue

theorem offer_of_room {l : Listener} (k : Key) (h : l.queue.length < Listener.capacity) :
    l.offer k = { l with queue := l.queue ++ [.key k] } := by
  unfold Listener.offer Listener.isFull
  rw [decide_eq_false (by omega)]
  rfl

theorem offer_of_full {l : Listener} (k : Key) (h : ¬ l.queue.length < Listener.capacity) :
    l.offer k = l := by
  unfold Listener.offer Listener.isFull
  rw [decide_eq_true (by omega)]
  rfl

theorem open_read {ks : List Key} {char : Int} (h : Open m s ks)
    (hchar : Ordinary (.read char)) :
    (s.step (.read char)).2 = [] ∧
      Open m (s.step (.read char)).1 (ks ++ accepts m s (.read char)) := by
  have hread := read_of_ordinary (l := s.listener) hchar
  rw [h.keymap] at hread
  have hstep : s.step (.read char) =
      (⟨hearing (s.listener.read char).1 s.hand, true, s.polling⟩, []) := by
    rw [step_read_of_listening h.listening, hread]
    rfl
  rw [hstep]
  refine ⟨rfl, ?_⟩
  cases htyped : m.typed? char with
  | none =>
    have haccepts : accepts m s (.read char) = [] := by simp [accepts, typed, htyped]
    rw [htyped] at hread
    rw [hread, haccepts, List.append_nil]
    exact ⟨rfl, h.unasked, h.queue, h.keymap⟩
  | some k =>
    rw [htyped] at hread
    by_cases hroom : s.listener.queue.length < Listener.capacity
    · have haccepts : accepts m s (.read char) = [k] := by
        simp [accepts, typed, htyped, hroom]
      rw [hread, haccepts]
      dsimp only
      rw [offer_of_room k hroom]
      refine ⟨rfl, h.unasked, ?_, h.keymap⟩
      rw [List.map_append, ← h.queue]
      rfl
    · have haccepts : accepts m s (.read char) = [] := by simp [accepts, hroom]
      rw [hread, haccepts, List.append_nil]
      dsimp only
      rw [offer_of_full k hroom]
      exact ⟨rfl, h.unasked, h.queue, h.keymap⟩

theorem open_look_nil (h : Open m s []) (time : Float) :
    (s.look time).2 = [.answered false] ∧ Open m (s.look time).1 [] := by
  have hlook : s.look time =
      (⟨expireAll time s.hand, s.listening, none⟩, [.answered false]) := by
    unfold look
    rw [Listener.take?_of_nil h.items]
  have hlistener : (expireAll time s.hand).1.listener = s.listener := listener_expireAll
  rw [hlook]
  refine ⟨rfl, h.listening, ?_, ?_, ?_⟩
  · exact (congrArg Listener.quitWaits hlistener).trans h.unasked
  · exact (congrArg Listener.queue hlistener).trans h.queue
  · exact (congrArg Listener.keymap hlistener).trans h.keymap

theorem open_look_cons {k : Key} {ks : List Key} (h : Open m s (k :: ks)) (time : Float) :
    (s.look time).2 = [.took k] ∧ Open m (s.look time).1 ks := by
  have htake : s.listener.take? = some (.key k, { s.listener with queue := ks.map .key }) := by
    simp [Listener.take?, h.queue, h.unasked]
  unfold look
  rw [htake]
  exact ⟨rfl, h.listening, h.unasked, rfl, h.keymap⟩

/-- A step puts in the key that it accepts and takes out the oldest. -/
theorem open_step {ks : List Key} {e : Step} (h : Open m s ks) (he : Ordinary e) :
    ∃ rest, Open m (s.step e).1 rest ∧
      ks ++ accepts m s e = (s.step e).2.filterMap Notice.key? ++ rest := by
  cases e with
  | read char =>
    obtain ⟨hsilent, hopen⟩ := open_read h he
    exact ⟨_, hopen, by rw [hsilent]; rfl⟩
  | poll time =>
    refine ⟨ks, ⟨h.listening, h.unasked, h.queue, h.keymap⟩, ?_⟩
    simp [accepts, typed, step]
  | get =>
    have hnone : accepts m s .get = [] := by simp [accepts, typed]
    rw [hnone, List.append_nil]
    cases hpolling : s.polling with
    | none =>
      rw [step_get_of_idle hpolling]
      exact ⟨ks, h, rfl⟩
    | some time =>
      rw [step_get_of_polling hpolling]
      cases ks with
      | nil =>
        obtain ⟨hanswer, hopen⟩ := open_look_nil h time
        exact ⟨[], hopen, by rw [hanswer]; rfl⟩
      | cons k ks =>
        obtain ⟨htook, hopen⟩ := open_look_cons h time
        exact ⟨ks, hopen, by rw [htook]; rfl⟩

/-- What has been put in is what has been taken and what still waits. -/
theorem open_after {ks : List Key} {es : List Step} (h : Open m s ks)
    (hes : ∀ e ∈ es, Ordinary e) :
    ∃ rest, Open m (s.after es) rest ∧ ks ++ accepted m s es = s.taken es ++ rest := by
  induction es generalizing s ks with
  | nil => exact ⟨ks, h, List.append_nil ks⟩
  | cons e es ih =>
    obtain ⟨mid, hmid, hfirst⟩ := open_step h (hes e List.mem_cons_self)
    obtain ⟨rest, hrest, hlater⟩ := ih hmid fun d hd => hes d (List.mem_cons_of_mem _ hd)
    refine ⟨rest, hrest, ?_⟩
    rw [accepted, taken_cons, ← List.append_assoc, hfirst, List.append_assoc, hlater,
      List.append_assoc]

/-- As long as no more is typed than there is room for, all of it is accepted. -/
theorem accepted_of_room {ks : List Key} {es : List Step} (h : Open m s ks)
    (hes : ∀ e ∈ es, Ordinary e)
    (hroom : ks.length + (es.filterMap (typed m)).length ≤ Listener.capacity) :
    accepted m s es = es.filterMap (typed m) := by
  -- what waits and what is still to be typed fit into the queue together, before and after a step
  induction es generalizing s ks with
  | nil => rfl
  | cons e es ih =>
    obtain ⟨mid, hmid, hfirst⟩ := open_step h (hes e List.mem_cons_self)
    have hes' : ∀ d ∈ es, Ordinary d := fun d hd => hes d (List.mem_cons_of_mem _ hd)
    have hqueue : s.listener.queue.length = ks.length := by rw [h.queue, List.length_map]
    have haccepts : accepts m s e = (typed m e).toList := by
      cases htyped : typed m e with
      | none => simp [accepts, htyped]
      | some k =>
        rw [List.filterMap_cons_some htyped, List.length_cons] at hroom
        unfold accepts
        rw [if_pos (by omega), htyped]
    have hsplit : (e :: es).filterMap (typed m) =
        (typed m e).toList ++ es.filterMap (typed m) := by
      cases htyped : typed m e with
      | none => rw [List.filterMap_cons_none htyped]; rfl
      | some k => rw [List.filterMap_cons_some htyped]; rfl
    have hlength := congrArg List.length hfirst
    rw [haccepts, List.length_append, List.length_append] at hlength
    rw [hsplit, List.length_append] at hroom
    rw [accepted, haccepts, hsplit, ih hmid hes' (by omega)]

/-- Nothing is waiting for a poll: none has begun, or the last one found nothing more. -/
def Drained (m : Keymap) (es : List Step) : Prop :=
  es = [] ∨ ∃ earlier, es = earlier ++ [.get] ∧
    (((fresh m).after earlier).step .get).2 = [.answered false]

theorem open_of_answered {ks : List Key} (h : Open m s ks)
    (hfalse : (s.step .get).2 = [.answered false]) : Open m (s.step .get).1 [] := by
  cases hpolling : s.polling with
  | none =>
    simp [step, hpolling] at hfalse
  | some time =>
    rw [step_get_of_polling hpolling] at hfalse ⊢
    cases ks with
    | nil => exact (open_look_nil h time).2
    | cons k ks =>
      rw [(open_look_cons h time).1] at hfalse
      cases hfalse

theorem open_of_drained {es : List Step} (hes : ∀ e ∈ es, Ordinary e) (h : Drained m es) :
    Open m ((fresh m).after es) [] := by
  obtain rfl | ⟨earlier, rfl, hfalse⟩ := h
  · exact open_fresh m
  · obtain ⟨ks, hopen, -⟩ := open_after (open_fresh m) fun e he =>
      hes e (List.mem_append_left _ he)
    rw [after_append]
    exact open_of_answered hopen hfalse

/-! ## The size of the queue -/

theorem length_queue_read {l : Listener} (h : l.queue.length ≤ Listener.capacity) (char : Int) :
    (l.read char).1.queue.length ≤ Listener.capacity := by
  have hoffer : ∀ k, (l.offer k).queue.length ≤ Listener.capacity := by
    intro k
    by_cases hroom : l.queue.length < Listener.capacity
    · rw [offer_of_room k hroom, List.length_append]
      exact hroom
    · rw [offer_of_full k hroom]
      exact h
  have hquit : l.requestQuit.queue.length ≤ Listener.capacity := by
    unfold Listener.requestQuit Listener.isFull
    split
    · exact h
    · rename_i hroom
      simp only [decide_eq_true_eq, not_le] at hroom
      rw [List.length_append]
      exact hroom
  unfold Listener.read
  split
  · exact h
  · split
    · exact h
    · split
      · exact hquit
      · split
        · exact hoffer _
        · exact h

theorem length_queue_take {l t : Listener} {item : QueueItem} (h : l.take? = some (item, t)) :
    t.queue.length ≤ l.queue.length := by
  unfold Listener.take? at h
  split at h
  · cases h
  · rename_i hq
    split at h <;> cases h <;> simp [hq]

theorem length_queue_step (h : s.listener.queue.length ≤ Listener.capacity) (e : Step) :
    (s.step e).1.listener.queue.length ≤ Listener.capacity := by
  cases e with
  | read char =>
    cases hlistening : s.listening with
    | true =>
      rw [step_read_of_listening hlistening]
      exact length_queue_read h char
    | false =>
      rw [step_read_of_deaf hlistening]
      exact h
  | poll time => exact h
  | get =>
    cases hpolling : s.polling with
    | none => simpa [step, hpolling] using h
    | some time =>
      rw [step_get_of_polling hpolling]
      unfold look
      split
      · show (expireAll time s.hand).1.listener.queue.length ≤ _
        rw [listener_expireAll]
        exact h
      · rename_i htake
        exact (length_queue_take htake).trans h
      · rename_i htake
        exact (length_queue_take htake).trans h

theorem length_queue_after (h : s.listener.queue.length ≤ Listener.capacity) (es : List Step) :
    (s.after es).listener.queue.length ≤ Listener.capacity := by
  induction es generalizing s with
  | nil => exact h
  | cons e es ih => exact ih (length_queue_step h e)

/-! ## After a request to quit -/

/-- The listener has ended, and what waits are these keys and a request to quit. -/
structure Closing (s : Typing) (ks : List Key) : Prop where
  deaf : s.listening = false
  items : s.listener.items = ks.map .key ++ [.quit]

/-- What polls tell of such a queue. -/
def told (ks : List Key) : List Notice := ks.map .took ++ [.answered true]

theorem closing_read {ks : List Key} {char code : Int} (h : Open m s ks)
    (hroom : ks.length < Listener.capacity) (hcode : LowerCase.ofNumber char = .ok code)
    (hquit : code = 27 ∨ code = 3) : Closing (s.step (.read char)).1 ks := by
  have hnonneg : ¬ char < 0 := by
    intro hneg
    unfold LowerCase.ofNumber at hcode
    split at hcode
    · cases hcode
    · rw [if_pos (.inl hneg)] at hcode
      cases hcode
  have hasks : Listener.asksToQuit code = true := by
    simpa [Listener.asksToQuit] using hquit
  have hqueue : s.listener.queue.length < Listener.capacity := by
    rw [h.queue, List.length_map]
    exact hroom
  have hread : s.listener.read char =
      ({ s.listener with queue := s.listener.queue ++ [.quit] }, .quits) := by
    unfold Listener.read Listener.requestQuit Listener.isFull
    rw [decide_eq_false (by omega)]
    simp [hnonneg, hcode, hasks]
  rw [step_read_of_listening h.listening, hread]
  refine ⟨rfl, ?_⟩
  rw [← h.queue]
  exact Listener.items_of_unasked h.unasked

theorem length_look (s : Typing) (time : Float) : (s.look time).2.length = 1 := by
  unfold look
  split <;> rfl

theorem look_ne_nil (s : Typing) (time : Float) : (s.look time).2 ≠ [] := by
  intro hnil
  have hlength := s.length_look time
  rw [hnil] at hlength
  cases hlength

theorem closing_look_nil (h : Closing s []) (time : Float) :
    (s.look time).2 = [.answered true] ∧ ∃ l, (s.look time).1.hand = hearing l s.hand := by
  obtain ⟨l, htake, -⟩ := Listener.take?_of_cons h.items
  unfold look
  rw [htake]
  exact ⟨rfl, l, rfl⟩

theorem closing_look_cons {k : Key} {ks : List Key} (h : Closing s (k :: ks)) (time : Float) :
    (s.look time).2 = [.took k] ∧ Closing (s.look time).1 ks := by
  obtain ⟨l, htake, hitems⟩ := Listener.take?_of_cons h.items
  unfold look
  rw [htake]
  exact ⟨rfl, h.deaf, hitems⟩

/-- A step tells nothing and leaves the queue, or it looks for an item. -/
theorem Closing.step {ks : List Key} (h : Closing s ks) (e : Step) :
    ((s.step e).2 = [] ∧ Closing (s.step e).1 ks ∧ (s.step e).1.hand = s.hand) ∨
      ∃ time, s.polling = some time ∧ s.step e = s.look time := by
  cases e with
  | read char =>
    rw [step_read_of_deaf h.deaf]
    exact .inl ⟨rfl, h, rfl⟩
  | poll time => exact .inl ⟨rfl, ⟨h.deaf, h.items⟩, rfl⟩
  | get =>
    cases hpolling : s.polling with
    | none =>
      rw [step_get_of_idle hpolling]
      exact .inl ⟨rfl, h, rfl⟩
    | some time => exact .inr ⟨time, rfl, step_get_of_polling hpolling⟩

/-- Polls tell the keys that wait and the request to quit, in this order, before anything else. -/
theorem notices_of_closing {ks : List Key} (h : Closing s ks) (es : List Step) :
    s.notices es <+: told ks ∨ told ks <+: s.notices es := by
  -- a look takes the same key off both lists, so what is left of one stays a prefix of the other
  induction es generalizing s ks with
  | nil => exact .inl List.nil_prefix
  | cons e es ih =>
    rw [notices]
    obtain ⟨hsilent, hnext, -⟩ | ⟨time, -, hlook⟩ := h.step e
    · rw [hsilent]
      exact ih hnext
    · rw [hlook]
      cases ks with
      | nil =>
        rw [(closing_look_nil h time).1]
        exact .inr (List.prefix_append _ _)
      | cons k ks =>
        obtain ⟨htook, hnext⟩ := closing_look_cons h time
        rw [htook]
        refine (ih hnext).imp ?_ ?_
        · exact fun hprefix => (List.prefix_cons_inj (Notice.took k)).mpr hprefix
        · exact fun hprefix => (List.prefix_cons_inj (Notice.took k)).mpr hprefix

theorem closing_after {ks rest : List Key} {es : List Step} (h : Closing s (ks ++ rest))
    (hes : s.notices es = ks.map .took) : Closing (s.after es) rest := by
  induction es generalizing s ks with
  | nil =>
    cases ks with
    | nil => exact h
    | cons k ks => cases hes
  | cons e es ih =>
    rw [notices] at hes
    obtain ⟨hsilent, hnext, -⟩ | ⟨time, -, hlook⟩ := h.step e
    · rw [hsilent, List.nil_append] at hes
      exact ih hnext hes
    · rw [hlook] at hes
      have hafter : s.after (e :: es) = (s.look time).1.after es := by
        rw [← hlook]
        rfl
      rw [hafter]
      cases ks with
      | nil => exact absurd (List.append_eq_nil_iff.mp hes).1 (look_ne_nil s time)
      | cons k ks =>
        obtain ⟨htook, hnext⟩ := closing_look_cons h time
        rw [htook] at hes
        exact ih hnext (List.cons.inj hes).2

theorem hand_of_silent {ks : List Key} {es : List Step} (h : Closing s ks)
    (hes : s.notices es = []) : (s.after es).hand = s.hand := by
  induction es generalizing s with
  | nil => rfl
  | cons e es ih =>
    rw [notices, List.append_eq_nil_iff] at hes
    obtain ⟨-, hnext, hhand⟩ | ⟨time, -, hlook⟩ := h.step e
    · exact (ih hnext hes.2).trans hhand
    · rw [hlook] at hes
      exact absurd hes.1 (look_ne_nil s time)

/-- A poll that has taken all keys has held them, and its next look ends it. -/
theorem closing_poll {ks : List Key} {es : List Step} {time : Float} (h : Closing s ks)
    (hpolling : s.polling = some time) (hes : s.notices es = ks.map .took) :
    ((s.after es).step .get).2 = [.answered true] ∧
      ∃ l, ((s.after es).step .get).1.hand = hearing l (holdAll time s.hand ks) := by
  have hon : ∀ b, .answered b ∉ s.notices es := by
    intro b hb
    rw [hes] at hb
    simp at hb
  have hall : Closing s (ks ++ []) := by rwa [List.append_nil]
  have hclosing := closing_after hall hes
  obtain ⟨hgoes, l, hhand⟩ := after_of_polling hpolling hon
  obtain ⟨hanswer, l', hlast⟩ := closing_look_nil hclosing time
  have htaken : s.taken es = ks := by
    unfold taken
    rw [hes, List.filterMap_map]
    exact List.filterMap_some
  rw [step_get_of_polling hgoes]
  refine ⟨hanswer, l', ?_⟩
  rw [hlast, hhand, htaken]
  rfl

theorem deaf_step (h : s.listening = false) (e : Step) : (s.step e).1.listening = false := by
  cases e with
  | read char => rwa [step_read_of_deaf h]
  | poll time => exact h
  | get =>
    cases hpolling : s.polling with
    | none => simpa [step, hpolling] using h
    | some time =>
      rw [step_get_of_polling hpolling]
      unfold look
      split <;> exact h

theorem deaf_after (h : s.listening = false) (es : List Step) : (s.after es).listening = false := by
  induction es generalizing s with
  | nil => exact h
  | cons e es ih => exact ih (deaf_step h e)

/-! ## The protocol -/

/-- The way of a request to quit behind some keys. Nothing more is read. What polls tell is the keys
and then the request, and every look of a poll tells one thing. The poll that took the keys has held
them all, and does nothing more before it answers. A poll that nothing comes between takes them all
and answers at once. -/
structure Quits (s : Typing) (ks : List Key) : Prop where
  deaf (es : List Step) (char : Int) : (s.after es).step (.read char) = (s.after es, [])
  order (es : List Step) : s.notices es <+: told ks ∨ told ks <+: s.notices es
  prompt (es : List Step) (time : Float) : (s.after es).polling = some time →
    ((s.after es).step .get).2.length = 1
  applied (mid es : List Step) (time : Float) : s.notices mid = [] →
    (s.after mid).polling = some time → (s.after mid).notices es = ks.map .took →
    (((s.after mid).after es).step .get).2 = [.answered true] ∧
      ∃ l, (((s.after mid).after es).step .get).1.hand = hearing l (holdAll time s.hand ks)
  whole (time : Float) : ∃ l, s.hand.1.poll s.hand.2 time =
    ((hearing l (holdAll time s.hand ks)).1, (holdAll time s.hand ks).2, true)

theorem quits_of_closing {ks : List Key} (h : Closing s ks) : Quits s ks where
  deaf es char := step_read_of_deaf (deaf_after h.deaf es) char
  order := notices_of_closing h
  prompt es time hpolling := by
    rw [step_get_of_polling hpolling]
    exact length_look _ _
  applied mid es time hmid hpolling hes := by
    have hbehind : Closing s ([] ++ ks) := h
    rw [← hand_of_silent h hmid]
    exact closing_poll (closing_after hbehind hmid) hpolling hes
  whole time := by
    obtain ⟨l, -, hpoll⟩ := poll_of_quit s.hand.2 time h.items
    exact ⟨l, hpoll⟩

/-- **The protocol of the queue.** A character stands for a key if its lower case is that of the
key's field. The queue never holds more than sixteen items. As long as no character asks to quit,
the keys taken so far and those that still wait are the keys read so far in their order, without
those that were read while the queue was full; so sixteen keys between two polls are never lost. A
request to quit that finds room goes behind the keys that wait. -/
theorem queue_protocol {text : String} (h : Keymap.parse .characters text = .ok m) :
    (∀ char k, m.typed? char = some k ↔ 0 ≤ char ∧ ∃ field n lower,
      (Keymap.fields text)[k.val]? = some field ∧ Numeral.decimal.read? field = some n ∧
        LowerCase.ofNumber n = .ok lower ∧ LowerCase.ofNumber char = .ok lower) ∧
      (∀ es, ((fresh m).after es).listener.queue.length ≤ 16) ∧
      (∀ es, (∀ e ∈ es, Ordinary e) → ∃ waiting,
        ((fresh m).after es).listener.queue = waiting.map .key ∧
          (fresh m).taken es ++ waiting = accepted m (fresh m) es) ∧
      (∀ before stretch, (∀ e ∈ before ++ stretch, Ordinary e) → Drained m before →
        (stretch.filterMap (typed m)).length ≤ 16 → ∃ waiting,
          ((fresh m).after (before ++ stretch)).listener.queue = waiting.map .key ∧
            ((fresh m).after before).taken stretch ++ waiting = stretch.filterMap (typed m)) ∧
      ∀ before char code ks, (∀ e ∈ before, Ordinary e) →
        LowerCase.ofNumber char = .ok code → code = 27 ∨ code = 3 →
        ((fresh m).after before).listener.queue = ks.map .key → ks.length < 16 →
        Quits ((fresh m).after (before ++ [.read char])) ks := by
  refine ⟨Keymap.typed?_eq_some_iff h, length_queue_after (Nat.zero_le _), ?_, ?_, ?_⟩
  · intro es hes
    obtain ⟨waiting, hopen, hledger⟩ := open_after (open_fresh m) hes
    exact ⟨waiting, hopen.queue, hledger.symm⟩
  · intro before stretch hes hdrained hroom
    have hopen := open_of_drained (fun e he => hes e (List.mem_append_left _ he)) hdrained
    have hstretch : ∀ e ∈ stretch, Ordinary e := fun e he => hes e (List.mem_append_right _ he)
    obtain ⟨waiting, hlast, hledger⟩ := open_after hopen hstretch
    rw [accepted_of_room hopen hstretch ((Nat.zero_add _).trans_le hroom)] at hledger
    rw [after_append]
    exact ⟨waiting, hlast.queue, hledger.symm⟩
  · intro before char code ks hes hcode hquit hqueue hroom
    obtain ⟨waiting, hopen, -⟩ := open_after (open_fresh m) hes
    have hwaiting : waiting = ks := by
      rw [hopen.queue] at hqueue
      exact List.map_injective_iff.mpr (fun _ _ h => QueueItem.key.inj h) hqueue
    subst hwaiting
    rw [after_append]
    exact quits_of_closing (closing_read hopen hroom hcode hquit)

attribute [local instance] neZero_sixteen

/-- A keymap that maps the escape character. -/
def escaping : Keymap :=
  ⟨[(0, 0), (1, 1), (2, 2), (3, 3), (4, 4), (5, 5), (6, 6), (7, 7), (8, 8), (9, 9), (10, 10),
    (11, 11), (12, 12), (13, 13), (14, 14), (27, 15)]⟩

/-- Escape ends the reading all the same, and the two keys before it come first. -/
theorem queue_protocol_escaping :
    Keymap.parse .characters "0,1,2,3,4,5,6,7,8,9,10,11,12,13,14,27" = .ok escaping ∧
      Quits ((fresh escaping).after [.read 1, .read 2, .read 27]) [1, 2] := by
  have hparse : Keymap.parse .characters "0,1,2,3,4,5,6,7,8,9,10,11,12,13,14,27" =
      .ok escaping := by
    decide
  refine ⟨hparse, (queue_protocol hparse).2.2.2.2 [.read 1, .read 2] 27 27 [1, 2] ?_ rfl
    (.inl rfl) rfl (by decide)⟩
  intro e he
  simp only [List.mem_cons, List.not_mem_nil, or_false] at he
  rcases he with rfl | rfl
  · exact .inr ⟨1, rfl, by decide, by decide⟩
  · exact .inr ⟨2, rfl, by decide, by decide⟩

end Typing
end ChipEight
