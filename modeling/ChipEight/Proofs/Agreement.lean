import Mathlib.Data.Set.Insert
import ChipEight.Proofs.Effects

/-!
# ChipEight.Proofs.Agreement

Two machines side by side. What reaches a program from outside, the time, the keys and random bytes,
reaches it through the few operations that ask for it (`Operation.Asks`). Nothing asks for the sound
timer.

* `Shares`: two machines agree on what a program can see, and on some sources from outside.
* `execute_shares`: an instruction that asks for shared sources only keeps two machines in
  agreement, and either happens in both or is refused in both for the same reason.
* `cycle_shares`: so does a cycle.
-/

namespace ChipEight

/-- What reaches a program from outside: the two timers, the keys, random bytes, and what the
cycle before has left of its keys and its instruction. -/
inductive Source where
  | delay
  | sound
  | keys
  | dice
  | past

/-- The sources that an operation asks for. -/
def Operation.Asks : Operation → Source → Prop
  | .readDelay, .delay => True
  | .skipKey, .keys => True
  | .skipNotKey, .keys => True
  | .waitKey, .keys => True
  | .random, .dice => True
  | _, _ => False

/-- Two cycles see the same of the clock and of the keys, as far as these are known. -/
structure Moment.Shares (known : Set Source) (c d : Moment) : Prop where
  time : .delay ∈ known ∨ .sound ∈ known → c.time = d.time
  keys : .keys ∈ known → c.keys = d.keys

namespace Machine

/-! ## Agreement -/

/-- Two machines agree on everything that a program can see without asking. -/
structure Agrees (m t : Machine) : Prop where
  v : m.v = t.v
  index : m.index = t.index
  pc : m.pc = t.pc
  executing : m.executing = t.executing
  calls : m.calls = t.calls
  memory : m.memory = t.memory
  screen : m.screen = t.screen

/-- Two machines agree, and they share some sources. -/
structure Shares (known : Set Source) (m t : Machine) : Prop extends m.Agrees t where
  delay : .delay ∈ known → m.delay = t.delay
  sound : .sound ∈ known → m.sound = t.sound
  lastTick : .delay ∈ known ∨ .sound ∈ known → m.lastTick = t.lastTick
  keys : .past ∈ known → .keys ∈ known → m.keys = t.keys
  instruction : .past ∈ known → m.instruction = t.instruction

theorem shares_refl (known : Set Source) (m : Machine) : Shares known m m :=
  ⟨⟨rfl, rfl, rfl, rfl, rfl, rfl, rfl⟩, fun _ => rfl, fun _ => rfl, fun _ => rfl, fun _ _ => rfl,
    fun _ => rfl⟩

/-- Both are refused for one reason, or both succeed with related results. -/
inductive Alike (R : α → β → Prop) : Except Fault α → Except Fault β → Prop where
  | ok {a : α} {b : β} : R a b → Alike R (.ok a) (.ok b)
  | error (f : Fault) : Alike R (.error f) (.error f)

section Changes

variable {known : Set Source} {m t : Machine} (h : Shares known m t)

include h

theorem Shares.reg (r : Fin 16) : m.reg r = t.reg r := by
  unfold Machine.reg
  rw [h.v]

theorem Shares.peek (a : Int) : m.peek a = t.peek a := by
  unfold Machine.peek
  rw [h.memory]

theorem Shares.setReg (r : Fin 16) (b : UInt8) : Shares known (m.setReg r b) (t.setReg r b) :=
  { h with v := by show m.v.set r b = t.v.set r b; rw [h.v] }

theorem Shares.setResult (r : Fin 16) (b : UInt8) (flag : Bool) :
    Shares known (m.setResult r b flag) (t.setResult r b flag) :=
  (h.setReg r b).setReg 0xF flag.toUInt8

theorem Shares.setPc (pc : Int) : Shares known { m with pc } { t with pc } := { h with pc := rfl }

theorem Shares.setScreen (screen : Screen) : Shares known { m with screen } { t with screen } :=
  { h with screen := rfl }

theorem Shares.skipIf (b : Bool) : Shares known (m.skipIf b) (t.skipIf b) := by
  cases b with
  | false => exact h
  | true =>
    show Shares known { m with pc := m.pc + 2 } { t with pc := t.pc + 2 }
    rw [h.pc]
    exact h.setPc _

theorem Shares.poke (a : Int) (b : UInt8) : Shares known (m.poke a b) (t.poke a b) :=
  { h with memory := by show m.memory.put (wrap a) b = t.memory.put (wrap a) b; rw [h.memory] }

theorem Shares.setIndex (a : Int) : Shares known (m.setIndex a) (t.setIndex a) :=
  { h with index := rfl }

theorem Shares.storeRegs (x : Fin 16) : Shares known (m.storeRegs x) (t.storeRegs x) := by
  unfold Machine.storeRegs
  simp only [h.index, h.reg]
  refine Shares.setIndex ?_ _
  exact List.foldl_rel h fun r _ _ _ hrest => hrest.poke _ _

theorem Shares.loadRegs (x : Fin 16) : Shares known (m.loadRegs x) (t.loadRegs x) := by
  unfold Machine.loadRegs
  simp only [h.index, h.peek]
  refine Shares.setIndex ?_ _
  exact List.foldl_rel h fun r _ _ _ hrest => hrest.setReg _ _

theorem Shares.drawSprite (x y n : Fin 16) :
    Shares known (m.drawSprite x y n) (t.drawSprite x y n) := by
  have hrows : m.spriteRows n = t.spriteRows n := by
    unfold spriteRows
    simp only [h.index, h.peek]
  unfold Machine.drawSprite
  rw [h.screen, hrows, h.reg, h.reg]
  exact (h.setScreen _).setReg _ _

theorem Shares.awaitKey (hkeys : m.keys = t.keys) (x : Fin 16) :
    Shares known (m.awaitKey x) (t.awaitKey x) := by
  have hlast : m.keys.last = t.keys.last := by rw [hkeys]
  unfold Machine.awaitKey
  rw [hlast, h.pc]
  cases t.keys.last with
  | none => exact h.setPc _
  | some k => exact h.setReg _ _

theorem Shares.returnBack : Alike (Shares known) m.returnBack t.returnBack := by
  unfold Machine.returnBack
  rw [h.calls]
  cases t.calls.pop with
  | error f => exact .error _
  | ok popped => exact .ok { h with pc := rfl, calls := rfl }

theorem Shares.callTo (a : Int) : Alike (Shares known) (m.callTo a) (t.callTo a) := by
  unfold Machine.callTo
  rw [h.calls, h.pc]
  cases t.calls.push t.pc with
  | error f => exact .error _
  | ok calls => exact .ok { h with pc := rfl, calls := rfl }

theorem Shares.readDelay (hdelay : m.delay = t.delay) (x : Fin 16) :
    Alike (Shares known) (m.readDelay x) (t.readDelay x) := by
  unfold Machine.readDelay
  rw [hdelay]
  split
  · exact .ok (h.setReg _ _)
  · exact .error _

theorem Shares.writeDecimal (b : UInt8) :
    Alike (Shares known) (m.writeDecimal b) (t.writeDecimal b) := by
  unfold Machine.writeDecimal
  rw [h.memory, h.index]
  cases t.memory.locate t.index with
  | error f => exact .error _
  | ok a => exact .ok (((h.poke _ _).poke _ _).poke _ _)

end Changes

/-! ## Instructions -/

/-- An instruction that asks for shared sources only keeps two machines in agreement. -/
theorem execute_shares {known : Set Source} {m t : Machine} (h : Shares known m t)
    (hpast : .past ∈ known) {a b : UInt8}
    (hdice : m.operation = .random → .dice ∈ known → a = b)
    (hasks : ∀ s, m.operation.Asks s → s ∈ known) :
    Alike (Shares known) (m.execute a) (t.execute b) := by
  have hi := h.instruction hpast
  have hoperation : m.instruction.operation = t.instruction.operation := by rw [hi]
  have hx : m.instruction.x = t.instruction.x := by rw [hi]
  have hy : m.instruction.y = t.instruction.y := by rw [hi]
  have hn : m.instruction.n = t.instruction.n := by rw [hi]
  have hnn : m.instruction.nn = t.instruction.nn := by rw [hi]
  have hnnn : m.instruction.nnn = t.instruction.nnn := by rw [hi]
  unfold operation at hdice hasks
  unfold execute
  simp only [hoperation, hx, hy, hn, hnn, hnnn, h.reg] at hdice hasks ⊢
  cases hop : t.instruction.operation <;> rw [hop] at hasks <;> dsimp only
  case nop => exact .ok h
  case clearScreen => exact .ok (h.setScreen _)
  case ret => exact h.returnBack
  case jump => exact .ok (h.setPc _)
  case call => exact h.callTo _
  case skipEqualByte => exact .ok (h.skipIf _)
  case skipNotEqualByte => exact .ok (h.skipIf _)
  case skipEqual => exact .ok (h.skipIf _)
  case loadByte => exact .ok (h.setReg _ _)
  case addByte => exact .ok (h.setReg _ _)
  case copy => exact .ok (h.setReg _ _)
  case or => exact .ok (h.setResult _ _ _)
  case and => exact .ok (h.setResult _ _ _)
  case xor => exact .ok (h.setResult _ _ _)
  case add =>
    unfold addRegs
    rw [h.reg, h.reg]
    exact .ok (h.setResult _ _ _)
  case sub => exact .ok (h.setResult _ _ _)
  case shiftRight =>
    unfold shiftRight
    rw [h.reg, h.reg]
    exact .ok (h.setResult _ _ _)
  case subFrom => exact .ok (h.setResult _ _ _)
  case shiftLeft =>
    unfold shiftLeft
    rw [h.reg, h.reg]
    exact .ok (h.setResult _ _ _)
  case skipNotEqual => exact .ok (h.skipIf _)
  case loadIndex => exact .ok { h with index := rfl }
  case jumpOffset =>
    unfold offset
    rw [h.reg]
    exact .ok (h.setPc _)
  case random =>
    rw [hdice hop (hasks .dice trivial)]
    exact .ok (h.setReg _ _)
  case draw => exact .ok (h.drawSprite _ _ _)
  case skipKey =>
    have hkeys := h.keys hpast (hasks .keys trivial)
    rw [hkeys]
    exact .ok (h.skipIf _)
  case skipNotKey =>
    have hkeys := h.keys hpast (hasks .keys trivial)
    rw [hkeys]
    exact .ok (h.skipIf _)
  case readDelay => exact h.readDelay (h.delay (hasks .delay trivial)) _
  case waitKey => exact .ok (h.awaitKey (h.keys hpast (hasks .keys trivial)) _)
  case setDelay => exact .ok { h with delay := fun _ => rfl }
  case setSound => exact .ok { h with sound := fun _ => rfl }
  case addIndex =>
    rw [h.index]
    exact .ok (h.setIndex _)
  case glyph => exact .ok { h with index := rfl }
  case decimal => exact h.writeDecimal _
  case store => exact .ok (h.storeRegs _)
  case load => exact .ok (h.loadRegs _)
  case unknown =>
    rw [h.pc, hi]
    exact .error _

/-! ## Cycles -/

section Cycle

variable {known : Set Source} {m t : Machine} (h : Shares known m t)

include h

/-- Two timers that share the clock count down together. -/
theorem Shares.tick {a b : Float} (hclock : .delay ∈ known ∨ .sound ∈ known → a = b) :
    Shares known (m.tick a) (t.tick b) := by
  by_cases hknown : .delay ∈ known ∨ .sound ∈ known
  · have hdue : m.isDue a = t.isDue b := by
      unfold isDue
      rw [h.lastTick hknown, hclock hknown]
    unfold Machine.tick
    rw [hdue]
    split
    · refine { h with delay := fun hd => ?_, sound := fun hs => ?_, lastTick := hclock }
      · show countDown m.delay = countDown t.delay
        rw [h.delay hd]
      · show countDown m.sound = countDown t.sound
        rw [h.sound hs]
    · exact h
  · obtain ⟨_, _, _, hm⟩ := m.tick_eq a
    obtain ⟨_, _, _, ht⟩ := t.tick_eq b
    rw [hm, ht]
    exact { h with
      delay := fun hd => absurd (.inl hd) hknown
      sound := fun hs => absurd (.inr hs) hknown
      lastTick := fun hl => absurd hl hknown }

theorem Shares.mono {less : Set Source} (hsub : less ⊆ known) : Shares less m t :=
  { h with
    delay := fun hd => h.delay (hsub hd)
    sound := fun hs => h.sound (hsub hs)
    lastTick := fun hl => h.lastTick (hl.imp (@hsub _) (@hsub _))
    keys := fun hp hk => h.keys (hsub hp) (hsub hk)
    instruction := fun hp => h.instruction (hsub hp) }

/-- From here on the two machines share their past. -/
theorem Shares.take (i : Instruction) {k l : Keypad} (hkeys : .keys ∈ known → k = l) :
    Shares (insert .past known) (m.take k i) (t.take l i) :=
  { h with
    pc := by show m.pc + 2 = t.pc + 2; rw [h.pc]
    executing := h.pc
    delay := fun hd => h.delay (by simpa using hd)
    sound := fun hs => h.sound (by simpa using hs)
    lastTick := fun hl => h.lastTick (by simpa using hl)
    keys := fun _ hk => hkeys (by simpa using hk)
    instruction := fun _ => rfl }

theorem Shares.fetched : m.fetched = t.fetched := by
  unfold Machine.fetched word
  rw [h.pc, h.peek, h.peek]

theorem Shares.wantsRandom : m.wantsRandom = t.wantsRandom := by
  unfold Machine.wantsRandom fetch
  rw [h.pc, h.memory]

/-- A cycle that asks for shared sources only keeps two machines in agreement. -/
theorem cycle_shares {c d : Moment} (hcd : c.Shares known d)
    (hdice : m.wantsRandom → .dice ∈ known → c.random = d.random)
    (hasks : ∀ op s, m.Runs op → op.Asks s → s ∈ known) :
    Shares known (m.cycleAt c).1 (t.cycleAt d).1 ∧
      (m.cycleAt c).2.map Report.screen = (t.cycleAt d).2.map Report.screen := by
  have htick := h.tick hcd.time
  unfold cycleAt
  by_cases hin : 0 ≤ m.pc ∧ m.pc ≤ 0xFFE
  · have hin' : 0 ≤ t.pc ∧ t.pc ≤ 0xFFE := by rw [← h.pc]; exact hin
    have htaken : Shares (insert .past known) (m.taken c.keys c.time) (t.taken d.keys d.time) := by
      unfold taken
      rw [h.fetched]
      exact htick.take _ hcd.keys
    have hrandom : (m.taken c.keys c.time).operation = .random → .dice ∈ insert .past known →
        c.random = d.random := by
      intro hop hknown
      refine hdice ?_ (by simpa using hknown)
      unfold Machine.wantsRandom
      rw [fetch_inside hin]
      exact beq_iff_eq.mpr hop
    have hknown : ∀ s, (m.taken c.keys c.time).operation.Asks s → s ∈ insert .past known := by
      intro s hs
      by_cases hop : (m.taken c.keys c.time).operation = .unknown
      · rw [hop] at hs
        exact hs.elim
      · exact Set.mem_insert_of_mem _ (hasks _ s ((taken_operation_eq_iff _ _ hop hin).mp rfl) hs)
    -- while it runs the instruction both machines hold is one, whatever they held before
    have hexec := execute_shares htaken (Set.mem_insert _ _) hrandom hknown
    rw [cycle_inside _ _ hin, cycle_inside _ _ hin']
    generalize (m.taken c.keys c.time).execute c.random = a at hexec ⊢
    generalize (t.taken d.keys d.time).execute d.random = b at hexec ⊢
    cases hexec with
    | error f =>
      refine ⟨htaken.mono (Set.subset_insert _ _), ?_⟩
      show Except.error f = Except.error f
      rfl
    | ok hafter =>
      refine ⟨hafter.mono (Set.subset_insert _ _), ?_⟩
      show Except.ok _ = Except.ok _
      unfold report operation
      rw [hafter.instruction (Set.mem_insert _ _), hafter.screen]
  · have hin' : ¬ (0 ≤ t.pc ∧ t.pc ≤ 0xFFE) := by rw [← h.pc]; exact hin
    rw [cycle_outside _ _ hin, cycle_outside _ _ hin']
    exact ⟨htick, rfl⟩

end Cycle

end Machine
end ChipEight
