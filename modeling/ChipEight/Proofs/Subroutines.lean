import Mathlib.Data.List.Induction
import ChipEight.Proofs.Effects
import ChipEight.Proofs.Faults

/-!
# ChipEight.Proofs.Subroutines

Calls and returns match like brackets, whatever a program does between them.

* `StackMove`, `cycle_stackMove`: what one cycle that answers does to the stack. Calls push, returns
  pop, and nothing else touches it.
* `suffix_after`: as long as the stack has not come back to its size before a call, the return
  address of that call lies on what was there before, and both lie at the bottom.
* `ret_of_size_eq`: the cycle with which it comes back is a return, to the word behind the call.
* `calls_match_returns`: all of this, with the number of items at every point of a run.
-/

namespace ChipEight
namespace Machine

/-! ## Runs that are not refused -/

def Answers (m : Machine) (c : Moment) : Prop := ∃ r, (m.cycleAt c).2 = .ok r

/-- Every cycle of a run answers. -/
def Succeeds (m : Machine) (ms : List Moment) : Prop :=
  ∀ before c later, ms = before ++ c :: later → ∃ r, ((m.after before).cycleAt c).2 = .ok r

/-- At no point of a run, its beginning and its end among them, does the stack hold `n` items. -/
def Avoids (m : Machine) (n : Nat) (ms : List Moment) : Prop :=
  ∀ p, p <+: ms → (m.after p).calls.size ≠ n

section Parts

variable {m : Machine} {ms ns : List Moment} {n : Nat}

theorem Succeeds.left (h : m.Succeeds (ms ++ ns)) : m.Succeeds ms :=
  Throughout.left (p := Answers) h

theorem Succeeds.right (h : m.Succeeds (ms ++ ns)) : (m.after ms).Succeeds ns :=
  Throughout.right (p := Answers) h

theorem succeeds_cons {c : Moment} {r : Report} (h : (m.cycleAt c).2 = .ok r)
    (hrest : (m.cycleAt c).1.Succeeds ms) : m.Succeeds (c :: ms) :=
  throughout_cons (p := Answers) ⟨r, h⟩ hrest

theorem succeeds_nil (m : Machine) : m.Succeeds [] := throughout_nil (p := Answers)

theorem Succeeds.last {c : Moment} (h : m.Succeeds (ms ++ [c])) :
    ∃ r, ((m.after ms).cycleAt c).2 = .ok r := Throughout.last (p := Answers) h

theorem Avoids.left (h : m.Avoids n (ms ++ ns)) : m.Avoids n ms :=
  fun p hp => h p (hp.trans (List.prefix_append ms ns))

end Parts

/-! ## One cycle -/

/-- What a cycle does to the stack. -/
inductive StackMove (m t : Machine) : Prop where
  | call : m.Runs .call → t.calls.items = (m.pc + 2) :: m.calls.items → StackMove m t
  | ret : m.Runs .ret → m.calls.items = t.pc :: t.calls.items → StackMove m t
  | other : ¬ m.Runs .call → ¬ m.Runs .ret → t.calls.items = m.calls.items → StackMove m t

theorem cycle_stackMove {m : Machine} {c : Moment} {r : Report} (h : (m.cycleAt c).2 = .ok r) :
    StackMove m (m.cycleAt c).1 := by
  obtain ⟨hin, hexec⟩ := cycle_eq_ok c.keys c.time h
  have hcall : (m.taken c.keys c.time).operation = .call ↔ m.Runs .call :=
    taken_operation_eq_iff c.keys c.time (by decide) hin
  have hret : (m.taken c.keys c.time).operation = .ret ↔ m.Runs .ret :=
    taken_operation_eq_iff c.keys c.time (by decide) hin
  by_cases hop : (m.taken c.keys c.time).operation = .call
  · rw [execute_call hop] at hexec
    refine .call (hcall.mp hop) ?_
    show (m.cycle c.keys c.time c.random).1.calls.items = _
    rw [← Except.ok.inj hexec]
    simp only [taken_pc, taken_calls]
  · by_cases hop' : (m.taken c.keys c.time).operation = .ret
    · refine .ret (hret.mp hop') ?_
      rw [← taken_calls m c.keys c.time]
      exact execute_ret hop' hexec
    · refine .other (fun hruns => hop (hcall.mpr hruns)) (fun hruns => hop' (hret.mpr hruns)) ?_
      rw [← taken_calls m c.keys c.time]
      exact congrArg CallStack.items ((execute_kept hexec).calls hop hop')

/-- How a cycle changes the number of items, and which word it takes up. -/
theorem StackMove.size {m t : Machine} {c : Moment} (h : StackMove m t)
    (hin : 0 ≤ m.pc ∧ m.pc ≤ 0xFFE) :
    t.calls.size + (m.words [c]).count 0x00EE =
      m.calls.size + (m.words [c]).countP (· / 0x1000 = 2) := by
  have hcall := Operation.owns_call_iff m.word_lt
  have hret := Operation.owns_ret_iff m.word_lt
  rw [words_single, if_pos hin]
  unfold CallStack.size
  cases h with
  | call hruns hitems =>
    have hword := hcall.mp hruns.2
    have hne : m.word ≠ 0x00EE := by omega
    simp [hitems, hword, hne]
  | ret hruns hitems =>
    have hword := hret.mp hruns.2
    simp [hitems, hword]
  | other hnotCall hnotRet hitems =>
    have hne : m.word / 0x1000 ≠ 2 := fun e => hnotCall ⟨hin, hcall.mpr e⟩
    have hne' : m.word ≠ 0x00EE := fun e => hnotRet ⟨hin, hret.mpr e⟩
    simp [hitems, hne, hne']

/-! ## Between a call and its return -/

theorem suffix_after {t : Machine} {a : Int} {items : List Int} {ms : List Moment}
    (hitems : t.calls.items = a :: items) (hok : t.Succeeds ms)
    (haway : t.Avoids items.length ms) : a :: items <:+ (t.after ms).calls.items := by
  -- the return address goes with what is below it: only the matching return could take it away
  induction ms using List.reverseRecOn with
  | nil => exact ⟨[], hitems.symm⟩
  | append_singleton ms c ih =>
    have hlow := ih hok.left haway.left
    obtain ⟨r, hr⟩ := hok.last
    have hsize : (t.after (ms ++ [c])).calls.items.length ≠ items.length :=
      haway (ms ++ [c]) (List.prefix_refl _)
    rw [after_concat] at hsize ⊢
    cases cycle_stackMove hr with
    | call _ hpush =>
      rw [hpush]
      exact hlow.trans (List.suffix_cons _ _)
    | ret _ hpop =>
      rw [hpop, List.suffix_cons_iff] at hlow
      rcases hlow with heq | hlow
      · exact absurd (congrArg List.length (List.cons.inj heq).2).symm hsize
      · exact hlow
    | other _ _ hsame =>
      rw [hsame]
      exact hlow

theorem ret_of_size_eq {t : Machine} {a : Int} {items : List Int} {ms : List Moment} {c : Moment}
    (hitems : t.calls.items = a :: items) (hok : t.Succeeds (ms ++ [c]))
    (haway : t.Avoids items.length ms)
    (hback : (t.after (ms ++ [c])).calls.size = items.length) :
    (t.after ms).Runs .ret ∧ (t.after (ms ++ [c])).calls.items = items ∧
      (t.after (ms ++ [c])).pc = a := by
  have hlow := suffix_after hitems hok.left haway
  have hlength := hlow.length_le
  obtain ⟨r, hr⟩ := hok.last
  rw [after_concat] at hback ⊢
  unfold CallStack.size at hback
  rw [List.length_cons] at hlength
  cases cycle_stackMove hr with
  | call _ hpush =>
    rw [hpush, List.length_cons] at hback
    omega
  | ret hruns hpop =>
    rw [hpop] at hlow
    -- a suffix of the same length is the whole list
    have heq := hlow.eq_of_length (by rw [List.length_cons, List.length_cons, hback])
    obtain ⟨hpc, hrest⟩ := List.cons.inj heq
    exact ⟨hruns, hrest.symm, hpc.symm⟩
  | other _ _ hsame =>
    rw [hsame] at hback
    omega

/-! ## Whole runs -/

theorem size_after {m : Machine} {ms : List Moment} (hok : m.Succeeds ms) :
    (m.after ms).calls.size + (m.words ms).count 0x00EE =
      m.calls.size + (m.words ms).countP (· / 0x1000 = 2) := by
  induction ms using List.reverseRecOn with
  | nil => rfl
  | append_singleton ms c ih =>
    have hbefore := ih hok.left
    obtain ⟨r, hr⟩ := hok.last
    have hlast := (cycle_stackMove hr).size (c := c) (cycle_eq_ok c.keys c.time hr).1
    rw [after_concat, words_append, List.count_append, List.countP_append]
    omega

/-- **Calls and returns match.** In a run of which no cycle is refused, the stack has as many items
more than at the beginning as there were more calls than returns. Behind every call its stack stays
at the bottom until the stack has its size again, and the cycle with which it has is a return that
leaves that very stack and goes on behind the call. -/
theorem calls_match_returns {m : Machine} {ms : List Moment} (hok : m.Succeeds ms) :
    (∀ p, p <+: ms → (m.after p).calls.size + (m.words p).count 0x00EE =
      m.calls.size + (m.words p).countP (· / 0x1000 = 2)) ∧
    ∀ before c later, ms = before ++ c :: later → (m.after before).Runs .call →
      let s := m.after before
      let t := (s.cycleAt c).1
      (∀ p, p <+: later → t.Avoids s.calls.size p →
        s.calls.items <:+ (t.after p).calls.items) ∧
      ∀ p d, p ++ [d] <+: later → t.Avoids s.calls.size p →
        (t.after (p ++ [d])).calls.size = s.calls.size →
        (t.after p).Runs .ret ∧ (t.after (p ++ [d])).calls = s.calls ∧
          (t.after (p ++ [d])).pc = s.pc + 2 := by
  refine ⟨?_, ?_⟩
  · rintro p ⟨rest, rfl⟩
    exact size_after hok.left
  · rintro before c later rfl hcall s t
    obtain ⟨r, hr⟩ := hok before c later rfl
    have hrest : t.Succeeds later := by
      have h : m.Succeeds ((before ++ [c]) ++ later) := by simpa using hok
      have h := h.right
      rw [after_concat] at h
      exact h
    have hitems : t.calls.items = (s.pc + 2) :: s.calls.items := by
      cases cycle_stackMove hr with
      | call _ hpush => exact hpush
      | ret hret _ =>
        have hword := (Operation.owns_call_iff s.word_lt).mp hcall.2
        have hword' := (Operation.owns_ret_iff s.word_lt).mp hret.2
        omega
      | other hnot _ _ => exact absurd hcall hnot
    refine ⟨?_, ?_⟩
    · rintro p ⟨rest, rfl⟩ haway
      exact (List.suffix_cons _ _).trans (suffix_after hitems hrest.left haway)
    · rintro p d ⟨rest, rfl⟩ haway hback
      obtain ⟨hret, hsame, hpc⟩ := ret_of_size_eq hitems hrest.left haway hback
      refine ⟨hret, ?_, hpc⟩
      show CallStack.mk _ = CallStack.mk _
      exact congrArg CallStack.mk hsame

theorem cycle_call {m : Machine} (h : m.Runs .call) (c : Moment) :
    ∃ t, m.cycleAt c = (t, .ok t.report) ∧ t.calls.items = (m.pc + 2) :: m.calls.items ∧
      t.pc = (m.word % 0x1000 : Nat) ∧ t.memory = m.memory := by
  have hop := (taken_operation_eq_iff c.keys c.time (by decide) h.1).mpr h
  have htarget : (m.taken c.keys c.time).instruction.nnn = m.word % 0x1000 := by
    rw [← raw_fetched]
    rfl
  unfold cycleAt
  rw [cycle_inside _ _ h.1, execute_call hop, taken_pc, taken_calls, htarget]
  exact ⟨_, rfl, rfl, rfl, m.tick_memory c.time⟩

theorem cycle_ret {m : Machine} (h : m.Runs .ret) (hcalls : m.calls.items ≠ []) (c : Moment) :
    ∃ t, m.cycleAt c = (t, .ok t.report) ∧ m.calls.items = t.pc :: t.calls.items := by
  have hop := (taken_operation_eq_iff c.keys c.time (by decide) h.1).mpr h
  obtain ⟨a, rest, hitems⟩ := List.exists_cons_of_ne_nil hcalls
  unfold cycleAt
  rw [cycle_inside _ _ h.1]
  unfold operation at hop
  unfold execute
  simp only [hop, returnBack, CallStack.pop, taken_calls, hitems]
  exact ⟨_, rfl, rfl⟩

/-- A machine whose program calls a subroutine that returns at once. -/
def visiting : Machine := boot #[0x22, 0x04, 0x00, 0x00, 0x00, 0xEE] 0

theorem runs_visiting : visiting.Runs .call := by
  refine ⟨by decide, (Operation.owns_call_iff visiting.word_lt).mpr ?_⟩
  rw [visiting, word_boot (by decide) (by decide)]
  rfl

theorem runs_visited (c : Moment) : (visiting.cycleAt c).1.Runs .ret ∧
    (visiting.cycleAt c).1.calls.items = [0x202] := by
  obtain ⟨t, hcycle, hitems, hpc, hmemory⟩ := cycle_call runs_visiting c
  have htarget : t.pc = 0x204 := by
    rw [hpc, visiting, word_boot (by decide) (by decide)]
    rfl
  have hhigh : t.peek 0x204 = 0x00 := by
    unfold peek
    rw [hmemory]
    exact get_image (k := 4) (by decide) (by decide)
  have hlow : t.peek (0x204 + 1) = 0xEE := by
    unfold peek
    rw [hmemory]
    exact get_image (k := 5) (by decide) (by decide)
  rw [hcycle]
  refine ⟨⟨by rw [htarget]; decide, (Operation.owns_ret_iff t.word_lt).mpr ?_⟩, hitems⟩
  rw [word, htarget, hhigh, hlow]
  rfl

/-- Into the subroutine and back. -/
theorem calls_match_returns_visiting :
    visiting.Succeeds [⟨.released, 0, 0⟩, ⟨.released, 1, 0⟩] ∧
      (visiting.after [⟨.released, 0, 0⟩]).calls.items = [0x202] ∧
      (visiting.after [⟨.released, 0, 0⟩, ⟨.released, 1, 0⟩]).calls = visiting.calls ∧
      (visiting.after [⟨.released, 0, 0⟩, ⟨.released, 1, 0⟩]).pc = 0x202 := by
  obtain ⟨t, hcall, -⟩ := cycle_call runs_visiting ⟨.released, 0, 0⟩
  obtain ⟨hruns, hitems⟩ := runs_visited ⟨.released, 0, 0⟩
  obtain ⟨u, hret, hpop⟩ := cycle_ret hruns (by rw [hitems]; decide) ⟨.released, 1, 0⟩
  have hok : visiting.Succeeds [⟨.released, 0, 0⟩, ⟨.released, 1, 0⟩] :=
    succeeds_cons (congrArg Prod.snd hcall)
      (succeeds_cons (congrArg Prod.snd hret) (succeeds_nil _))
  have hempty : visiting.calls.size = 0 := rfl
  have haway : (visiting.cycleAt ⟨.released, 0, 0⟩).1.Avoids visiting.calls.size [] := by
    intro p hp
    rw [List.prefix_nil.mp hp, hempty, after_nil, CallStack.size, hitems]
    decide
  have hback : ((visiting.cycleAt ⟨.released, 0, 0⟩).1.after [⟨.released, 1, 0⟩]).calls.size =
      visiting.calls.size := by
    rw [hitems] at hpop
    rw [hempty, after_cons, after_nil, hret, CallStack.size, ← (List.cons.inj hpop).2]
    rfl
  obtain ⟨-, hmatch⟩ := calls_match_returns hok
  obtain ⟨-, hreturn⟩ := hmatch [] _ _ rfl runs_visiting
  obtain ⟨-, hsame, hpc⟩ := hreturn [] _ (List.prefix_refl _) haway hback
  refine ⟨hok, ?_, ?_, ?_⟩
  · rw [after_cons, after_nil, hitems]
  · rw [after_cons]
    exact hsame
  · rw [after_cons]
    exact hpc

end Machine
end ChipEight
