import Mathlib.Data.List.Basic
import Mathlib.Data.List.Induction
import Mathlib.Order.Fin.Basic
import ChipEight.Input.Terminal

/-!
# ChipEight.Proofs.Polls

What one poll of a terminal's keys does, in terms of the keys that it takes.

* `Listener.items`: what polls will find. `take?_of_nil`, `take?_of_cons`: taking from it.
* `TerminalKeys.holdAll`: holding several keys. `drainFor_keys`: a drain takes keys one by one.
* `poll_of_keys`, `poll_of_quit`: a poll that finds keys only, and one that finds a request to quit.
* `releaseAt_expireAll`, `isHeld_expireAll`: the keys that a poll lets go of.
* `last_holdAll_of_held`, `exists_latestNew`: the key that went down last.
-/

namespace ChipEight
namespace Listener

/-- What polls will find, oldest first. A request to quit that waits for room comes last. -/
def items (l : Listener) : List QueueItem :=
  if l.quitWaits ∧ l.queue ≠ [] then l.queue ++ [.quit] else l.queue

variable {l : Listener}

theorem items_of_unasked (h : l.quitWaits = false) : l.items = l.queue := by
  simp [items, h]

theorem take?_of_nil (h : l.items = []) : l.take? = none := by
  unfold items at h
  unfold take?
  cases hq : l.queue with
  | nil => rfl
  | cons item rest =>
    rw [hq] at h
    split at h <;> simp at h

theorem take?_of_cons {item : QueueItem} {rest : List QueueItem} (h : l.items = item :: rest) :
    ∃ t, l.take? = some (item, t) ∧ t.items = rest := by
  unfold items at h
  unfold take?
  cases hq : l.queue with
  | nil => simp [hq] at h
  | cons first others =>
    cases hwaits : l.quitWaits with
    | true =>
      simp only [hq, hwaits, ne_eq, reduceCtorEq, not_false_eq_true, and_self, if_true,
        List.cons_append, List.cons.injEq] at h
      obtain ⟨rfl, rfl⟩ := h
      exact ⟨_, rfl, by simp [items]⟩
    | false =>
      simp only [hq, hwaits, Bool.false_eq_true, false_and, if_false, List.cons.injEq] at h
      obtain ⟨rfl, rfl⟩ := h
      exact ⟨_, rfl, by simp [items]⟩

/-- Items are keys up to their end or up to a request to quit. -/
theorem items_cases (is : List QueueItem) :
    ∃ ks : List Key, is = ks.map .key ∨ ∃ rest, is = ks.map .key ++ .quit :: rest := by
  induction is with
  | nil => exact ⟨[], .inl rfl⟩
  | cons item is ih =>
    cases item with
    | quit => exact ⟨[], .inr ⟨is, rfl⟩⟩
    | key k =>
      obtain ⟨ks, rfl | ⟨rest, rfl⟩⟩ := ih
      · exact ⟨k :: ks, .inl rfl⟩
      · exact ⟨k :: ks, .inr ⟨rest, rfl⟩⟩

theorem length_items_le (l : Listener) : l.items.length ≤ l.queue.length + 1 := by
  unfold items
  split <;> simp

theorem items_eq_queue_of_keys {ks : List Key} (h : l.items = ks.map .key) :
    l.queue = ks.map .key := by
  unfold items at h
  split at h
  · have hquit : QueueItem.quit ∈ ks.map .key := by simp [← h]
    simp at hquit
  · exact h

/-- The keys that wait, oldest first. -/
def waiting (l : Listener) : List Key :=
  l.items.filterMap fun
    | .key k => some k
    | .quit => none

theorem waiting_of_items {ks : List Key} (h : l.items = ks.map .key) : l.waiting = ks := by
  unfold waiting
  rw [h, List.filterMap_map]
  exact List.filterMap_some

end Listener

namespace TerminalKeys

variable {t : TerminalKeys} {keys : Keypad} {s : TerminalKeys × Keypad} {time : Float}

/-! ## Draining -/

/-- The keys of a terminal with another listener. -/
def hearing (l : Listener) (s : TerminalKeys × Keypad) : TerminalKeys × Keypad :=
  ({ s.1 with listener := l }, s.2)

/-- Holds several keys, one after another. -/
def holdAll (time : Float) (s : TerminalKeys × Keypad) (ks : List Key) : TerminalKeys × Keypad :=
  ks.foldl (fun s k => s.1.hold s.2 k time) s

theorem holdAll_hearing (time : Float) (l : Listener) (s : TerminalKeys × Keypad) (ks : List Key) :
    holdAll time (hearing l s) ks = hearing l (holdAll time s ks) := by
  induction ks generalizing s with
  | nil => rfl
  | cons k ks ih => exact ih (s.1.hold s.2 k time)

/-- A drain holds the keys that it finds first and goes on with what is behind them. -/
theorem drainFor_keys {ks : List Key} {rest : List QueueItem} (keys : Keypad) (time : Float)
    (n : Nat) (h : t.listener.items = ks.map .key ++ rest) :
    ∃ l, l.items = rest ∧ drainFor time (ks.length + n) t keys =
      drainFor time n (hearing l (holdAll time (t, keys) ks)).1 (holdAll time (t, keys) ks).2 := by
  induction ks generalizing t keys with
  | nil => exact ⟨t.listener, h, by rw [List.length_nil, Nat.zero_add]; rfl⟩
  | cons k ks ih =>
    obtain ⟨l, htake, hitems⟩ := Listener.take?_of_cons h
    have hlength : (k :: ks).length + n = (ks.length + n) + 1 := by
      rw [List.length_cons]
      omega
    obtain ⟨l', hrest, hdrain⟩ := ih (t := (hold { t with listener := l } keys k time).1)
      (hold { t with listener := l } keys k time).2 hitems
    refine ⟨l', hrest, ?_⟩
    rw [hlength, drainFor, htake]
    refine hdrain.trans ?_
    have hheard := holdAll_hearing time l (hold t keys k time) ks
    have hfirst : hold { t with listener := l } keys k time = hearing l (hold t keys k time) := rfl
    rw [hfirst, hheard]
    rfl

theorem drain_of_keys {ks : List Key} (keys : Keypad) (time : Float)
    (h : t.listener.items = ks.map .key) :
    ∃ l, l.items = [] ∧ t.drain keys time =
      ((hearing l (holdAll time (t, keys) ks)).1, (holdAll time (t, keys) ks).2, false) := by
  have hqueue := congrArg List.length (Listener.items_eq_queue_of_keys h)
  rw [List.length_map] at hqueue
  obtain ⟨l, hitems, hdrain⟩ := drainFor_keys keys time 1
    (h.trans (List.append_nil _).symm)
  refine ⟨l, hitems, ?_⟩
  unfold drain
  rw [hqueue, hdrain, drainFor]
  simp only [hearing, Listener.take?_of_nil hitems]

theorem drain_of_quit {ks : List Key} {rest : List QueueItem} (keys : Keypad) (time : Float)
    (h : t.listener.items = ks.map .key ++ .quit :: rest) :
    ∃ l, l.items = rest ∧ t.drain keys time =
      ((hearing l (holdAll time (t, keys) ks)).1, (holdAll time (t, keys) ks).2, true) := by
  have hlength : ks.length + 1 ≤ t.listener.queue.length + 1 := by
    have hle := t.listener.length_items_le
    rw [h, List.length_append, List.length_map, List.length_cons] at hle
    omega
  obtain ⟨n, hn⟩ := Nat.exists_eq_add_of_le hlength
  obtain ⟨l, hitems, hdrain⟩ := drainFor_keys keys time (n + 1) h
  obtain ⟨l', htake, hrest⟩ := Listener.take?_of_cons hitems
  refine ⟨l', hrest, ?_⟩
  unfold drain
  rw [hn, Nat.add_assoc, Nat.add_comm 1 n, hdrain, drainFor]
  simp only [hearing, htake]

/-! ## Letting go -/

theorem get_set_same (v : Vector Float 16) (k : Key) (x : Float) (h : k.val < 16) :
    (v.set k.val x h).get k = x := Vector.getElem_set_self h

theorem get_set_other {j k : Key} (hk : k ≠ j) (v : Vector Float 16) (x : Float)
    (h : j.val < 16) : (v.set j.val x h).get k = v.get k := by
  have hval : j.val ≠ k.val := fun hval => hk (Fin.ext hval.symm)
  exact Vector.getElem_set_ne h k.isLt hval

/-- Lets go of all keys whose time is up. -/
def expireAll (time : Float) (s : TerminalKeys × Keypad) : TerminalKeys × Keypad :=
  (List.finRange 16).foldl (expire time) s

theorem isOver_eq (t : TerminalKeys) (k : Key) (time : Float) :
    t.isOver k time = (t.releaseAt.get k != 0.0 && decide (t.releaseAt.get k ≤ time)) := rfl

theorem isOver_expire (j k : Key) :
    (expire time s j).1.isOver k time = (s.1.isOver k time && k != j) := by
  unfold expire
  by_cases hover : s.1.isOver j time
  · rw [if_pos hover]
    by_cases hk : k = j
    · subst hk
      have hzero : ((0.0 : Float) != 0.0) = false := by decide
      simp [isOver_eq, get_set_same, hzero]
    · simp [isOver_eq, get_set_other hk, hk]
  · rw [if_neg hover]
    by_cases hk : k = j
    · subst hk
      simp [hover]
    · simp [hk]

theorem releaseAt_expire (j k : Key) :
    (expire time s j).1.releaseAt.get k =
      if k = j ∧ s.1.isOver k time then 0.0 else s.1.releaseAt.get k := by
  unfold expire
  by_cases hover : s.1.isOver j time
  · by_cases hk : k = j
    · subst hk
      simp [hover, get_set_same]
    · simp [hover, hk, get_set_other hk]
  · rw [if_neg hover, if_neg]
    rintro ⟨rfl, h⟩
    exact hover h

theorem isHeld_expire (j k : Key) :
    (expire time s j).2.isHeld k = (s.2.isHeld k && !(k == j && s.1.isOver k time)) := by
  unfold expire
  by_cases hover : s.1.isOver j time
  · by_cases hk : k = j
    · subst hk
      simp [hover]
    · have hval : k.val ≠ j.val := fun h => hk (Fin.ext h)
      simp [hover, hk, hval]
  · by_cases hk : k = j
    · subst hk
      simp [hover]
    · simp [hover, hk]

theorem last_expire (j : Key) : (expire time s j).2.last = s.2.last := by
  unfold expire
  split <;> rfl

theorem listener_expire (j : Key) : (expire time s j).1.listener = s.1.listener := by
  unfold expire
  split <;> rfl

section Foldl

variable (js : List Key) (k : Key)

theorem releaseAt_foldl_expire :
    (js.foldl (expire time) s).1.releaseAt.get k =
      if k ∈ js ∧ s.1.isOver k time then 0.0 else s.1.releaseAt.get k := by
  induction js generalizing s with
  | nil => simp
  | cons j js ih =>
    rw [List.foldl_cons, ih, isOver_expire, releaseAt_expire]
    by_cases hk : k = j
    · subst hk
      simp
    · simp [hk]

theorem isHeld_foldl_expire :
    (js.foldl (expire time) s).2.isHeld k =
      (s.2.isHeld k && !(decide (k ∈ js) && s.1.isOver k time)) := by
  induction js generalizing s with
  | nil => simp
  | cons j js ih =>
    rw [List.foldl_cons, ih, isOver_expire, isHeld_expire]
    by_cases hk : k = j
    · subst hk
      simp
    · have hne : (k == j) = false := by simpa using hk
      simp [hk, hne, bne]

theorem last_foldl_expire : (js.foldl (expire time) s).2.last = s.2.last := by
  induction js generalizing s with
  | nil => rfl
  | cons j js ih => rw [List.foldl_cons, ih, last_expire]

theorem listener_foldl_expire : (js.foldl (expire time) s).1.listener = s.1.listener := by
  induction js generalizing s with
  | nil => rfl
  | cons j js ih => rw [List.foldl_cons, ih, listener_expire]

end Foldl

theorem releaseAt_expireAll (k : Key) :
    (expireAll time s).1.releaseAt.get k =
      if s.1.isOver k time then 0.0 else s.1.releaseAt.get k := by
  rw [expireAll, releaseAt_foldl_expire]
  simp

theorem isHeld_expireAll (k : Key) :
    (expireAll time s).2.isHeld k = (s.2.isHeld k && !s.1.isOver k time) := by
  rw [expireAll, isHeld_foldl_expire]
  simp

theorem last_expireAll : (expireAll time s).2.last = s.2.last := last_foldl_expire _

theorem listener_expireAll : (expireAll time s).1.listener = s.1.listener :=
  listener_foldl_expire _

/-! ## Holding -/

theorem holdAll_concat (ks : List Key) (k : Key) :
    holdAll time s (ks ++ [k]) = (holdAll time s ks).1.hold (holdAll time s ks).2 k time :=
  List.foldl_append

theorem releaseAt_holdAll (ks : List Key) (k : Key) :
    (holdAll time s ks).1.releaseAt.get k =
      if k ∈ ks then time + holdTime else s.1.releaseAt.get k := by
  induction ks using List.reverseRecOn with
  | nil => rfl
  | append_singleton ks j ih =>
    rw [holdAll_concat]
    by_cases hk : k = j
    · subst hk
      simp [hold, get_set_same]
    · simpa [hold, hk, get_set_other hk] using ih

theorem isHeld_holdAll (ks : List Key) (k : Key) :
    (holdAll time s ks).2.isHeld k = (s.2.isHeld k || decide (k ∈ ks)) := by
  induction ks using List.reverseRecOn with
  | nil => simp [holdAll]
  | append_singleton ks j ih =>
    rw [holdAll_concat]
    unfold hold
    by_cases hk : k = j
    · subst hk
      by_cases hheld : (holdAll time s ks).2.isHeld k
      · simp [hheld]
      · simp [hheld]
    · have hval : k.val ≠ j.val := fun h => hk (Fin.ext h)
      by_cases hheld : (holdAll time s ks).2.isHeld j
      · simp [hheld, ih, hk]
      · simp [hheld, ih, hk, hval]

/-- Only a key that is not down yet counts as pressed. -/
theorem last_holdAll_concat (ks : List Key) (k : Key) :
    (holdAll time s (ks ++ [k])).2.last =
      if s.2.isHeld k ∨ k ∈ ks then (holdAll time s ks).2.last else some k := by
  rw [holdAll_concat]
  unfold hold
  rw [isHeld_holdAll]
  by_cases hheld : s.2.isHeld k ∨ k ∈ ks
  · simp [hheld]
  · simp only [not_or, Bool.not_eq_true] at hheld
    simp [hheld, Keypad.press]

theorem last_holdAll_of_held {ks : List Key} (h : ∀ k ∈ ks, s.2.isHeld k) :
    (holdAll time s ks).2.last = s.2.last := by
  induction ks using List.reverseRecOn with
  | nil => rfl
  | append_singleton ks k ih =>
    rw [last_holdAll_concat, if_pos (.inl (h k (by simp))),
      ih fun j hj => h j (List.mem_append_left _ hj)]

/-- Of the keys that were not down, the one whose first place is the latest. -/
structure LatestNew (keys : Keypad) (ks : List Key) (k : Key) : Prop where
  mem : k ∈ ks
  new : ¬ keys.isHeld k
  latest : ∀ j ∈ ks, ¬ keys.isHeld j → ks.idxOf j ≤ ks.idxOf k

theorem latestNew_concat {ks : List Key} {e k : Key} :
    LatestNew keys (ks ++ [e]) k ↔
      if keys.isHeld e ∨ e ∈ ks then LatestNew keys ks k else k = e := by
  by_cases hold : keys.isHeld e ∨ e ∈ ks
  · rw [if_pos hold]
    -- the last item presses nothing, so every new key is among those before it
    have hbefore : ∀ j ∈ ks ++ [e], ¬ keys.isHeld j → j ∈ ks := by
      intro j hj hnew
      rcases List.mem_append.mp hj with hj | hj
      · exact hj
      · rw [List.mem_singleton.mp hj] at hnew ⊢
        exact hold.resolve_left hnew
    constructor
    · intro h
      have hk := hbefore k h.mem h.new
      refine ⟨hk, h.new, fun j hj hnew => ?_⟩
      have hle := h.latest j (List.mem_append_left _ hj) hnew
      rwa [List.idxOf_append_of_mem hj, List.idxOf_append_of_mem hk] at hle
    · intro h
      refine ⟨List.mem_append_left _ h.mem, h.new, fun j hj hnew => ?_⟩
      have hj := hbefore j hj hnew
      rw [List.idxOf_append_of_mem hj, List.idxOf_append_of_mem h.mem]
      exact h.latest j hj hnew
  · rw [if_neg hold]
    simp only [not_or] at hold
    constructor
    · intro h
      have hle := h.latest e (by simp) hold.1
      rw [List.idxOf_append_of_notMem hold.2, List.idxOf_cons_self] at hle
      rcases List.mem_append.mp h.mem with hmem | hmem
      · have hlt := List.idxOf_lt_length_of_mem hmem
        rw [List.idxOf_append_of_mem hmem] at hle
        omega
      · exact List.mem_singleton.mp hmem
    · rintro rfl
      refine ⟨by simp, hold.1, fun j hj _ => ?_⟩
      have hlt := List.idxOf_lt_length_of_mem hj
      rw [List.length_append, List.length_singleton] at hlt
      rw [List.idxOf_append_of_notMem hold.2, List.idxOf_cons_self]
      omega

/-- Among keys that are not all down there is one that counts as pressed last. -/
theorem exists_latestNew {ks : List Key} (h : ∃ k ∈ ks, ¬ s.2.isHeld k) :
    ∃ k, LatestNew s.2 ks k ∧ (holdAll time s ks).2.last = some k := by
  induction ks using List.reverseRecOn with
  | nil =>
    obtain ⟨k, hk, -⟩ := h
    cases hk
  | append_singleton ks e ih =>
    simp only [latestNew_concat, last_holdAll_concat]
    by_cases hold : s.2.isHeld e ∨ e ∈ ks
    · simp only [if_pos hold]
      refine ih ?_
      obtain ⟨k, hk, hnew⟩ := h
      rcases List.mem_append.mp hk with hk | hk
      · exact ⟨k, hk, hnew⟩
      · rw [List.mem_singleton.mp hk] at hnew
        exact ⟨e, hold.resolve_left hnew, hnew⟩
    · simp only [if_neg hold]
      exact ⟨e, rfl, rfl⟩

/-! ## Polls -/

/-- A poll that finds keys only holds them and lets go of the keys whose time is up. -/
theorem poll_of_keys {ks : List Key} (keys : Keypad) (time : Float)
    (h : t.listener.items = ks.map .key) :
    ∃ l, l.items = [] ∧ t.poll keys time =
      ((expireAll time (hearing l (holdAll time (t, keys) ks))).1,
        (expireAll time (hearing l (holdAll time (t, keys) ks))).2, false) := by
  obtain ⟨l, hitems, hdrain⟩ := drain_of_keys keys time h
  refine ⟨l, hitems, ?_⟩
  unfold poll
  rw [hdrain]
  rfl

/-- A poll that finds a request to quit holds the keys before it and lets go of none. -/
theorem poll_of_quit {ks : List Key} {rest : List QueueItem} (keys : Keypad) (time : Float)
    (h : t.listener.items = ks.map .key ++ .quit :: rest) :
    ∃ l, l.items = rest ∧ t.poll keys time =
      ((hearing l (holdAll time (t, keys) ks)).1, (holdAll time (t, keys) ks).2, true) := by
  obtain ⟨l, hitems, hdrain⟩ := drain_of_quit keys time h
  refine ⟨l, hitems, ?_⟩
  unfold poll
  rw [hdrain]

/-- A poll goes on without quitting if it finds keys only. -/
theorem poll_eq_false_iff :
    (t.poll keys time).2.2 = false ↔ ∃ ks : List Key, t.listener.items = ks.map .key := by
  constructor
  · intro hfalse
    obtain ⟨ks, h | ⟨rest, h⟩⟩ := Listener.items_cases t.listener.items
    · exact ⟨ks, h⟩
    · obtain ⟨l, -, hpoll⟩ := poll_of_quit keys time h
      rw [hpoll] at hfalse
      cases hfalse
  · rintro ⟨ks, h⟩
    obtain ⟨l, -, hpoll⟩ := poll_of_keys keys time h
    rw [hpoll]

end TerminalKeys
end ChipEight
