import ChipEight.Proofs.Runs

/-!
# ChipEight.Proofs.Effects

What a cycle takes up and what it leaves alone, for every machine, in its ranges or not.

* `Machine.Runs`, `Machine.words`: the row of the next cycle, and the words that a run takes up.
* `Machine.Throughout`: what holds at every cycle of a run.
* `Kept`, `execute_kept`: the parts of a machine that only some operations change.
* `cycle_eq_ok`: with `cycle_outside` and `cycle_inside` it opens a cycle without a word on ranges.
-/

namespace ChipEight

namespace Operation

variable {w : Nat}

theorem owns_call_iff (h : w < 0x10000) : call.Owns w ↔ w / 0x1000 = 2 := by
  show (w / 0x1000 % 16 = 2 ∧ True ∧ True ∧ True) ↔ _
  simp only [and_true]
  omega

theorem owns_clearScreen_iff (h : w < 0x10000) : clearScreen.Owns w ↔ w = 0x00E0 := by
  show (w / 0x1000 % 16 = 0 ∧ w / 0x100 % 16 = 0 ∧ w / 0x10 % 16 = 14 ∧ w % 16 = 0) ↔ _
  omega

theorem owns_draw_iff (h : w < 0x10000) : draw.Owns w ↔ w / 0x1000 = 0xD := by
  show (w / 0x1000 % 16 = 13 ∧ True ∧ True ∧ True) ↔ _
  simp only [and_true]
  omega

end Operation

namespace Machine

/-! ## Words -/

/-- The next cycle takes up a word of a row. -/
def Runs (m : Machine) (op : Operation) : Prop := (0 ≤ m.pc ∧ m.pc ≤ 0xFFE) ∧ op.Owns m.word

theorem Runs.unique {m : Machine} {op other : Operation} (h : m.Runs op)
    (h' : m.Runs other) : op = other := by
  have hop : op.Owns m.fetched.raw := by rw [raw_fetched]; exact h.2
  have hother : other.Owns m.fetched.raw := by rw [raw_fetched]; exact h'.2
  rw [← Instruction.operation_of_owns hop, Instruction.operation_of_owns hother]

/-- The words that a run takes up, the first of them first. -/
def words (m : Machine) : List Moment → List Nat
  | [] => []
  | c :: ms => (if 0 ≤ m.pc ∧ m.pc ≤ 0xFFE then [m.word] else []) ++ (m.cycleAt c).1.words ms

theorem words_append (m : Machine) (ms ns : List Moment) :
    m.words (ms ++ ns) = m.words ms ++ (m.after ms).words ns := by
  induction ms generalizing m with
  | nil => rfl
  | cons c ms ih =>
    rw [List.cons_append, words, words, ih, List.append_assoc]
    rfl

theorem words_single (m : Machine) (c : Moment) :
    m.words [c] = if 0 ≤ m.pc ∧ m.pc ≤ 0xFFE then [m.word] else [] := by
  rw [words, words, List.append_nil]

theorem after_nil (m : Machine) : m.after [] = m := rfl

theorem after_cons (m : Machine) (c : Moment) (ms : List Moment) :
    m.after (c :: ms) = (m.cycleAt c).1.after ms := rfl

theorem after_concat (m : Machine) (ms : List Moment) (c : Moment) :
    m.after (ms ++ [c]) = ((m.after ms).cycleAt c).1 := after_append m ms [c]

section Fetch

variable {m : Machine} (keys : Keypad) (time : Float)

/-- The row of the next cycle is the operation that the machine is about to execute. -/
theorem taken_operation_eq_iff {op : Operation} (hop : op ≠ .unknown)
    (hin : 0 ≤ m.pc ∧ m.pc ≤ 0xFFE) : (m.taken keys time).operation = op ↔ m.Runs op := by
  show m.fetched.operation = op ↔ m.Runs op
  rw [Instruction.operation_eq_iff hop, raw_fetched]
  exact ⟨fun h => ⟨hin, h⟩, fun h => h.2⟩

/-- A cycle that answers has executed an instruction. -/
theorem cycle_eq_ok {random : UInt8} {r : Report} (h : (m.cycle keys time random).2 = .ok r) :
    (0 ≤ m.pc ∧ m.pc ≤ 0xFFE) ∧
      (m.taken keys time).execute random = .ok (m.cycle keys time random).1 := by
  by_cases hin : 0 ≤ m.pc ∧ m.pc ≤ 0xFFE
  · refine ⟨hin, ?_⟩
    rw [cycle_inside keys time hin random] at h ⊢
    cases hexec : (m.taken keys time).execute random with
    | ok t => rfl
    | error f => rw [hexec] at h; cases h
  · rw [cycle_outside keys time hin random] at h
    cases h

end Fetch

/-! ## Runs of one kind -/

/-- Something holds at every cycle of a run, of the machine before it and of what it takes. -/
def Throughout (p : Machine → Moment → Prop) (m : Machine) (ms : List Moment) : Prop :=
  ∀ before c later, ms = before ++ c :: later → p (m.after before) c

section Parts

variable {p : Machine → Moment → Prop} {m : Machine} {ms ns : List Moment} {c : Moment}

theorem Throughout.left (h : Throughout p m (ms ++ ns)) : Throughout p m ms := by
  rintro before c later rfl
  exact h before c (later ++ ns) (by rw [List.append_assoc, List.cons_append])

theorem Throughout.right (h : Throughout p m (ms ++ ns)) : Throughout p (m.after ms) ns := by
  rintro before c later rfl
  rw [← after_append]
  exact h (ms ++ before) c later (by rw [List.append_assoc])

theorem Throughout.last (h : Throughout p m (ms ++ [c])) : p (m.after ms) c := h ms c [] rfl

theorem throughout_nil : Throughout p m [] := by
  intro before c later hsplit
  cases before <;> cases hsplit

theorem throughout_cons (hc : p m c) (h : Throughout p (m.cycleAt c).1 ms) :
    Throughout p m (c :: ms) := by
  intro before d later hsplit
  cases before with
  | nil =>
    cases hsplit
    exact hc
  | cons b before =>
    cases hsplit
    exact h before d later rfl

end Parts

/-! ## What an instruction leaves alone -/

/-- Calls and returns move the stack, clearing and drawing change the screen, each timer has one
operation that sets it, and no instruction touches the keys, the time of the last tick or itself. -/
structure Kept (op : Operation) (m t : Machine) : Prop where
  calls : op ≠ .call → op ≠ .ret → t.calls = m.calls
  screen : op ≠ .clearScreen → op ≠ .draw → t.screen = m.screen
  delay : op ≠ .setDelay → t.delay = m.delay
  sound : op ≠ .setSound → t.sound = m.sound
  lastTick : t.lastTick = m.lastTick
  keys : t.keys = m.keys
  instruction : t.instruction = m.instruction

theorem kept_with (op : Operation) (m : Machine) (memory : Memory 4096) (v : Vector UInt8 16)
    (index pc : Int) : Kept op m { m with memory, v, index, pc } :=
  ⟨fun _ _ => rfl, fun _ _ => rfl, fun _ => rfl, fun _ => rfl, rfl, rfl, rfl⟩

theorem foldl_poke_eq (m : Machine) (rs : List (Fin 16)) : ∀ t : Machine,
    ∃ memory, rs.foldl (fun t r => t.poke (m.index + r.val) (m.reg r)) t = { t with memory } := by
  induction rs with
  | nil => intro t; exact ⟨t.memory, rfl⟩
  | cons r rs ih =>
    intro t
    obtain ⟨memory, h⟩ := ih (t.poke (m.index + r.val) (m.reg r))
    exact ⟨memory, h⟩

theorem foldl_setReg_eq (m : Machine) (rs : List (Fin 16)) : ∀ t : Machine,
    ∃ v, rs.foldl (fun t r => t.setReg r (m.peek (m.index + r.val))) t = { t with v } := by
  induction rs with
  | nil => intro t; exact ⟨t.v, rfl⟩
  | cons r rs ih =>
    intro t
    obtain ⟨v, h⟩ := ih (t.setReg r (m.peek (m.index + r.val)))
    exact ⟨v, h⟩

theorem storeRegs_eq (m : Machine) (x : Fin 16) :
    ∃ memory index, m.storeRegs x = { m with memory, index } := by
  obtain ⟨memory, h⟩ := m.foldl_poke_eq ((List.finRange 16).filter (· ≤ x)) m
  unfold storeRegs
  rw [h]
  exact ⟨memory, _, rfl⟩

theorem loadRegs_eq (m : Machine) (x : Fin 16) :
    ∃ v index, m.loadRegs x = { m with v, index } := by
  obtain ⟨v, h⟩ := m.foldl_setReg_eq ((List.finRange 16).filter (· ≤ x)) m
  unfold loadRegs
  rw [h]
  exact ⟨v, _, rfl⟩

theorem skipIf_eq (m : Machine) (b : Bool) : ∃ pc, m.skipIf b = { m with pc } := by
  cases b
  · exact ⟨m.pc, rfl⟩
  · exact ⟨m.pc + 2, rfl⟩

theorem awaitKey_eq (m : Machine) (x : Fin 16) : ∃ v pc, m.awaitKey x = { m with v, pc } := by
  unfold awaitKey
  cases m.keys.last with
  | none => exact ⟨m.v, m.pc - 2, rfl⟩
  | some k => exact ⟨_, m.pc, rfl⟩

theorem execute_call {m : Machine} (hop : m.operation = .call) (random : UInt8) :
    m.execute random =
      .ok { m with calls := ⟨m.pc :: m.calls.items⟩, pc := m.instruction.nnn } := by
  unfold operation at hop
  unfold execute
  simp only [hop, callTo, CallStack.push_unlimited]

/-- A return goes to the top of the stack and takes it off. -/
theorem execute_ret {m t : Machine} (hop : m.operation = .ret) {random : UInt8}
    (h : m.execute random = .ok t) : m.calls.items = t.pc :: t.calls.items := by
  unfold operation at hop
  unfold execute at h
  simp only [hop, returnBack, CallStack.pop] at h
  cases hitems : m.calls.items with
  | nil => simp [hitems] at h
  | cons a rest =>
    simp only [hitems] at h
    cases h
    rfl

theorem execute_clearScreen {m : Machine} (hop : m.operation = .clearScreen) (random : UInt8) :
    m.execute random = .ok { m with screen := .blank } := by
  unfold operation at hop
  unfold execute
  simp only [hop]

theorem execute_draw {m : Machine} (hop : m.operation = .draw) (random : UInt8) :
    m.execute random =
      .ok (m.drawSprite m.instruction.x m.instruction.y m.instruction.n) := by
  unfold operation at hop
  unfold execute
  simp only [hop]

theorem execute_kept {m t : Machine} {random : UInt8} (h : m.execute random = .ok t) :
    Kept m.operation m t := by
  unfold operation
  unfold execute at h
  dsimp only at h
  cases hop : m.instruction.operation <;> rw [hop] at h <;> dsimp only at h
  case ret =>
    unfold returnBack at h
    split at h <;> cases h
    exact ⟨fun _ hret => absurd rfl hret, fun _ _ => rfl, fun _ => rfl, fun _ => rfl, rfl, rfl, rfl⟩
  case call =>
    unfold callTo at h
    split at h <;> cases h
    exact ⟨fun hcall => absurd rfl hcall, fun _ _ => rfl, fun _ => rfl, fun _ => rfl, rfl, rfl, rfl⟩
  case readDelay =>
    unfold readDelay at h
    split at h <;> cases h
    exact kept_with ..
  case decimal =>
    unfold writeDecimal at h
    split at h <;> cases h
    exact kept_with ..
  case unknown => cases h
  -- what is left happens as a whole
  all_goals cases h
  case clearScreen =>
    exact ⟨fun _ _ => rfl, fun hclear => absurd rfl hclear, fun _ => rfl, fun _ => rfl, rfl, rfl, rfl⟩
  case draw =>
    exact ⟨fun _ _ => rfl, fun _ hdraw => absurd rfl hdraw, fun _ => rfl, fun _ => rfl, rfl, rfl, rfl⟩
  case setDelay =>
    exact ⟨fun _ _ => rfl, fun _ _ => rfl, fun hset => absurd rfl hset, fun _ => rfl, rfl, rfl, rfl⟩
  case setSound =>
    exact ⟨fun _ _ => rfl, fun _ _ => rfl, fun _ => rfl, fun hset => absurd rfl hset, rfl, rfl, rfl⟩
  case skipEqualByte | skipNotEqualByte | skipEqual | skipNotEqual | skipKey | skipNotKey =>
    obtain ⟨pc, hskip⟩ := m.skipIf_eq _
    rw [hskip]
    exact kept_with ..
  case waitKey =>
    obtain ⟨v, pc, hwait⟩ := m.awaitKey_eq m.instruction.x
    rw [hwait]
    exact kept_with ..
  case store =>
    obtain ⟨memory, index, hstore⟩ := m.storeRegs_eq m.instruction.x
    rw [hstore]
    exact kept_with ..
  case load =>
    obtain ⟨v, index, hload⟩ := m.loadRegs_eq m.instruction.x
    rw [hload]
    exact kept_with ..
  all_goals exact kept_with ..

end Machine
end ChipEight
