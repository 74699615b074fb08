import ChipEight.Proofs.Keymaps
import ChipEight.Proofs.Polls

/-!
# ChipEight.Proofs.Typing

The listener of a terminal and its polls at work on one queue. The listener reads one character at a
time, and a poll takes one item at a time, so their steps come in any order.

* `Typing`, `Typing.step`: the two parties.
* `Typing.accepted`, `Typing.taken`: the keys that go into the queue, and those that come out.
* `after_reads`, `poll_uninterrupted`: alone, a party does what `Listener.readAll` or
  `TerminalKeys.poll` does.
* `after_of_polling`: a poll has held what it has taken.
-/

namespace ChipEight

/-! ## The two parties -/

/-- The keys of a terminal while a listener and polls are at work on them. -/
structure Typing where
  hand : TerminalKeys × Keypad
  /-- The listener still reads. -/
  listening : Bool
  /-- The time of the poll that is under way. -/
  polling : Option Float

namespace Typing

open TerminalKeys

/-- One step of one of the parties. -/
inductive Step where
  /-- The listener reads a character. -/
  | read (char : Int)
  /-- A poll begins. -/
  | poll (time : Float)
  /-- The poll that is under way looks for one item. -/
  | get

/-- What a step tells of a poll. -/
inductive Notice where
  | took (k : Key)
  | answered (quit : Bool)
deriving DecidableEq, Repr

/-- The key that a notice says was taken. -/
def Notice.key? : Notice → Option Key
  | .took k => some k
  | .answered _ => none

/-- The listener and its queue. -/
def listener (s : Typing) : Listener := s.hand.1.listener

/-- One look for an item, in a poll that began at a time. -/
def look (s : Typing) (time : Float) : Typing × List Notice :=
  match s.listener.take? with
  | none => ({ s with hand := expireAll time s.hand, polling := none }, [.answered false])
  | some (.quit, l) => ({ s with hand := hearing l s.hand, polling := none }, [.answered true])
  | some (.key k, l) =>
    ({ s with hand := hearing l (s.hand.1.hold s.hand.2 k time) }, [.took k])

/-- What a step does. A step that is not possible does nothing. -/
def step (s : Typing) : Step → Typing × List Notice
  | .read char =>
    if s.listening then
      let (l, outcome) := s.listener.read char
      ({ s with hand := hearing l s.hand, listening := decide (outcome = .goesOn) }, [])
    else (s, [])
  | .poll time => ({ s with polling := some (s.polling.getD time) }, [])
  | .get =>
    match s.polling with
    | none => (s, [])
    | some time => s.look time

/-- Where some steps lead, the first of them first. -/
def after (s : Typing) (es : List Step) : Typing := es.foldl (fun s e => (s.step e).1) s

/-- What some steps tell of polls. -/
def notices (s : Typing) : List Step → List Notice
  | [] => []
  | e :: es => (s.step e).2 ++ (s.step e).1.notices es

/-- The keys that polls take in some steps. -/
def taken (s : Typing) (es : List Step) : List Key :=
  (s.notices es).filterMap Notice.key?

/-- The key of a step that reads a character which stands for one. -/
def typed (m : Keymap) : Step → Option Key
  | .read char => m.typed? char
  | _ => none

/-- The key that a step puts into the queue: the one it reads, if there is room. -/
def accepts (m : Keymap) (s : Typing) (e : Step) : List Key :=
  if s.listener.queue.length < Listener.capacity then (typed m e).toList else []

/-- The keys that are read while there is room for them. -/
def accepted (m : Keymap) (s : Typing) : List Step → List Key
  | [] => []
  | e :: es => accepts m s e ++ accepted m (s.step e).1 es

/-- Nothing has been read or taken. -/
def fresh (m : Keymap) : Typing := ⟨(.start m, .released), true, none⟩

variable {s : Typing} {m : Keymap}

theorem after_append (s : Typing) (es fs : List Step) :
    s.after (es ++ fs) = (s.after es).after fs := List.foldl_append

theorem taken_cons (s : Typing) (e : Step) (es : List Step) :
    s.taken (e :: es) = (s.step e).2.filterMap Notice.key? ++ (s.step e).1.taken es := by
  unfold taken
  rw [notices, List.filterMap_append]

/-! ## Steps -/

theorem step_get_of_idle (h : s.polling = none) : s.step .get = (s, []) := by
  simp [step, h]

theorem step_get_of_polling {time : Float} (h : s.polling = some time) :
    s.step .get = s.look time := by
  simp [step, h]

theorem step_read_of_listening (h : s.listening = true) (char : Int) :
    s.step (.read char) =
      (⟨hearing (s.listener.read char).1 s.hand,
        decide ((s.listener.read char).2 = .goesOn), s.polling⟩, []) := by
  simp [step, h]

theorem step_read_of_deaf (h : s.listening = false) (char : Int) :
    s.step (.read char) = (s, []) := by
  simp [step, h]

/-! ## One party alone -/

theorem after_reads_of_deaf (h : s.listening = false) (chars : List Int) :
    s.after (chars.map .read) = s := by
  induction chars with
  | nil => rfl
  | cons char chars ih =>
    show (s.step (.read char)).1.after (chars.map .read) = s
    rw [step_read_of_deaf h, ih]

/-- Reads alone are what the listener does with its characters. -/
theorem after_reads (h : s.listening = true) (chars : List Int) :
    (s.after (chars.map .read)).listener = (s.listener.readAll chars).1 ∧
      (s.after (chars.map .read)).listening =
        decide ((s.listener.readAll chars).2 = .goesOn) := by
  induction chars generalizing s with
  | nil => exact ⟨rfl, h⟩
  | cons char chars ih =>
    have hafter : s.after ((char :: chars).map .read) =
        (s.step (.read char)).1.after (chars.map .read) := rfl
    obtain ⟨l, outcome, hread⟩ : ∃ l outcome, s.listener.read char = (l, outcome) := ⟨_, _, rfl⟩
    rw [hafter, step_read_of_listening h, Listener.readAll, hread]
    cases outcome with
    | goesOn => exact ih rfl
    | quits => rw [after_reads_of_deaf rfl]; exact ⟨rfl, rfl⟩
    | fails f => rw [after_reads_of_deaf rfl]; exact ⟨rfl, rfl⟩

theorem after_gets_of_idle (h : s.polling = none) (n : Nat) :
    s.after (List.replicate n .get) = s := by
  induction n with
  | zero => rfl
  | succ n ih =>
    show (s.step .get).1.after (List.replicate n .get) = s
    rw [step_get_of_idle h, ih]

/-- A poll is as many looks as it has items to take, if no other step comes between them. -/
theorem after_gets {time : Float} {n : Nat} (h : s.polling = some time)
    (hn : s.listener.items.length < n ∨ s.listener.items.length = n ∧ .quit ∈ s.listener.items) :
    s.after (List.replicate n .get) =
      match drainFor time n s.hand.1 s.hand.2 with
      | (t, keys, true) => ⟨(t, keys), s.listening, none⟩
      | (t, keys, false) => ⟨expireAll time (t, keys), s.listening, none⟩ := by
  -- on the number of looks: there are enough for all items, and for one more unless they end in a
  -- request to quit
  induction n generalizing s with
  | zero =>
    obtain hlt | ⟨hzero, hquit⟩ := hn
    · omega
    · rw [List.length_eq_zero_iff.mp hzero] at hquit
      cases hquit
  | succ n ih =>
    have hafter : s.after (List.replicate (n + 1) .get) =
        (s.look time).1.after (List.replicate n .get) := by
      rw [← step_get_of_polling h]
      rfl
    rw [hafter, drainFor]
    cases hitems : s.listener.items with
    | nil =>
      have htake := Listener.take?_of_nil hitems
      unfold look
      unfold listener at htake ⊢
      rw [htake]
      exact after_gets_of_idle rfl n
    | cons item rest =>
      obtain ⟨l, htake, hrest⟩ := Listener.take?_of_cons hitems
      unfold look
      unfold listener at htake ⊢
      rw [htake]
      cases item with
      | quit => exact after_gets_of_idle rfl n
      | key k =>
        refine ih h ?_
        show l.items.length < n ∨ l.items.length = n ∧ .quit ∈ l.items
        rw [hitems, List.length_cons] at hn
        rw [hrest]
        obtain hlt | ⟨heq, hquit⟩ := hn
        · exact .inl (by omega)
        · exact .inr ⟨by omega, (List.mem_cons.mp hquit).resolve_left (by simp)⟩

/-- A poll that nothing comes between is a poll of the terminal's keys. -/
theorem poll_uninterrupted (h : s.polling = none) (time : Float) :
    ∃ n, s.after (.poll time :: List.replicate n .get) =
      ⟨((s.hand.1.poll s.hand.2 time).1, (s.hand.1.poll s.hand.2 time).2.1), s.listening, none⟩ := by
  refine ⟨s.listener.queue.length + 1, ?_⟩
  have hbegun : s.after (.poll time :: List.replicate (s.listener.queue.length + 1) .get) =
      (⟨s.hand, s.listening, some time⟩ : Typing).after
        (List.replicate (s.listener.queue.length + 1) .get) := by
    show (s.step (.poll time)).1.after _ = _
    simp [step, h]
  have hcount : s.listener.items.length < s.listener.queue.length + 1 ∨
      s.listener.items.length = s.listener.queue.length + 1 ∧ .quit ∈ s.listener.items := by
    unfold Listener.items
    split
    · exact .inr ⟨by simp, by simp⟩
    · exact .inl (Nat.lt_succ_self _)
  rw [hbegun]
  refine (after_gets (s := ⟨s.hand, s.listening, some time⟩) rfl hcount).trans ?_
  unfold TerminalKeys.poll drain
  dsimp only [listener]
  rcases drainFor time (s.hand.1.listener.queue.length + 1) s.hand.1 s.hand.2 with
    ⟨t, keys, _ | _⟩
  · rfl
  · rfl

/-! ## A poll under way -/

theorem step_of_polling {time : Float} {e : Step} (h : s.polling = some time)
    (hon : ∀ b, .answered b ∉ (s.step e).2) :
    (s.step e).1.polling = some time ∧
      ∃ l, (s.step e).1.hand =
        hearing l (holdAll time s.hand ((s.step e).2.filterMap Notice.key?)) := by
  cases e with
  | read char =>
    cases hlistening : s.listening with
    | true =>
      rw [step_read_of_listening hlistening]
      exact ⟨h, (s.listener.read char).1, rfl⟩
    | false =>
      rw [step_read_of_deaf hlistening]
      exact ⟨h, s.listener, rfl⟩
  | poll time' =>
    refine ⟨?_, s.listener, rfl⟩
    show some (s.polling.getD time') = some time
    rw [h]
    rfl
  | get =>
    rw [step_get_of_polling h] at hon ⊢
    unfold look at hon ⊢
    split
    · rename_i htake
      rw [htake] at hon
      exact absurd List.mem_cons_self (hon false)
    · rename_i htake
      rw [htake] at hon
      exact absurd List.mem_cons_self (hon true)
    · exact ⟨h, _, rfl⟩

/-- A poll that goes on has held what it has taken, and has done nothing else. -/
theorem after_of_polling {time : Float} {es : List Step} (h : s.polling = some time)
    (hon : ∀ b, .answered b ∉ s.notices es) :
    (s.after es).polling = some time ∧
      ∃ l, (s.after es).hand = hearing l (holdAll time s.hand (s.taken es)) := by
  induction es generalizing s with
  | nil => exact ⟨h, s.listener, rfl⟩
  | cons e es ih =>
    rw [notices] at hon
    obtain ⟨hpolling, l, hfirst⟩ := step_of_polling h fun b hb =>
      hon b (List.mem_append_left _ hb)
    obtain ⟨hlast, l', hlater⟩ := ih hpolling fun b hb => hon b (List.mem_append_right _ hb)
    refine ⟨hlast, l', ?_⟩
    have hafter : s.after (e :: es) = (s.step e).1.after es := rfl
    rw [hafter, hlater, hfirst, holdAll_hearing, taken_cons]
    unfold holdAll
    rw [List.foldl_append]
    rfl

end Typing
end ChipEight
