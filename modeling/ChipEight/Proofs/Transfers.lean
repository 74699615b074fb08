import ChipEight.Proofs.Effects

/-!
# ChipEight.Proofs.Transfers

Registers and memory, there and back. The addresses behind the index register go around the end of
memory, so no two of the first 4096 are the same: what is stored at one of them is not hidden by what
is stored at the next.

* `Machine.Holds`: the word that a machine is about to execute.
* `behind_address`, `address_behind`: addresses and distances are the same thing.
* `execute_store`, `execute_load`, `execute_decimal`: the figures after a transfer.
* `OnlyBehind`: of the memory only the bytes at the first few addresses have changed.
* `transfers_invert`: storing and loading undo each other, and the digits of a number give it back.
-/

namespace ChipEight

attribute [local instance] neZero_sixteen

namespace Figures

/-! ## Addresses and distances -/

theorem behind_address (s : Figures) {k : Nat} (hk : k < 4096) : s.behind (s.address k) = k := by
  have haddress : (s.address k).val = ((s.index + k) % 4096).toNat := by
    simp only [address, Fin.val_ofNat]
    omega
  unfold behind
  rw [haddress]
  omega

theorem address_behind (s : Figures) (a : Fin 4096) : s.address (s.behind a) = a := by
  have ha := a.isLt
  apply Fin.ext
  simp only [address, behind, Fin.val_ofNat]
  omega

theorem behind_congr {s t : Figures} (h : s.index = t.index) (a : Fin 4096) :
    s.behind a = t.behind a := by
  unfold behind
  rw [h]

theorem address_congr {s t : Figures} (h : s.index = t.index) (k : Nat) :
    s.address k = t.address k := by
  unfold address
  rw [h]

/-- Every address is at its own distance, so one that is at none of the first distances lies
farther. -/
theorem lt_behind {s : Figures} {a : Fin 4096} {n : Nat}
    (h : ∀ k : Nat, k ≤ n → (a.val : Int) ≠ (s.index + k) % 4096) : n < s.behind a := by
  by_contra hle
  have ha := a.isLt
  refine h (s.behind a) (Nat.not_lt.mp hle) ?_
  unfold behind
  omega

end Figures

namespace Machine

/-! ## Transfers -/

/-- A machine is about to execute a word of a row, in which the second digit is `x`. -/
structure Holds (m : Machine) (op : Operation) (x : Fin 16) : Prop where
  owns : op.Owns m.instruction.raw
  x : m.instruction.x = x

variable {m : Machine} {x : Fin 16} (random : UInt8)

theorem Holds.operation {op : Operation} (h : m.Holds op x) : m.instruction.operation = op :=
  Instruction.operation_of_owns h.owns

theorem holds_of_eq {op : Operation} {i : Instruction} (h : m.instruction = i)
    (hop : op.Owns i.raw) (hx : i.x = x) : m.Holds op x := by
  subst h
  exact ⟨hop, hx⟩

theorem execute_store (h : m.Holds .store x) :
    m.execute random = .ok (m.storeRegs x) := by
  unfold execute
  simp only [h.operation, h.x]

theorem execute_load (h : m.Holds .load x) : m.execute random = .ok (m.loadRegs x) := by
  unfold execute
  simp only [h.operation, h.x]

theorem execute_decimal (h : m.Holds .decimal x) : m.execute random = m.writeDecimal (m.reg x) := by
  unfold execute
  simp only [h.operation, h.x]

theorem toNat_get (m : Machine) (a : Fin 4096) : (m.memory.get a).toNat = m.figures.ram a := rfl

theorem index_loadRegs (m : Machine) (x : Fin 16) :
    (m.loadRegs x).index = (m.index + x + 1) % 4096 := by
  show (m.loadRegs x).figures.index = _
  rw [figures_loadRegs]
  rfl

theorem memory_loadRegs (m : Machine) (x : Fin 16) : (m.loadRegs x).memory = m.memory := by
  obtain ⟨v, index, hload⟩ := m.loadRegs_eq x
  rw [hload]

/-- Loading a register reads the byte at its own distance. -/
theorem reg_loadRegs (m : Machine) (x r : Fin 16) :
    (m.loadRegs x).reg r =
      if r ≤ x then m.memory.get (m.figures.address r) else m.reg r := by
  apply UInt8.toNat_inj.mp
  have hfigures : ((m.loadRegs x).reg r).toNat = (m.loadRegs x).figures.v r := rfl
  rw [hfigures, figures_loadRegs]
  show (if r ≤ x then m.figures.ram (m.figures.address r) else m.figures.v r) = _
  split
  · exact (m.toNat_get _).symm
  · exact (m.figures_v r).symm

theorem get_storeRegs (m : Machine) (x : Fin 16) (a : Fin 4096) :
    (m.storeRegs x).memory.get a =
      if m.figures.behind a ≤ x then m.reg (Fin.ofNat 16 (m.figures.behind a))
      else m.memory.get a := by
  apply UInt8.toNat_inj.mp
  rw [toNat_get, figures_storeRegs]
  show (if m.figures.behind a ≤ x then m.figures.v (Fin.ofNat 16 (m.figures.behind a))
    else m.figures.ram a) = _
  split
  · exact (m.figures_v _).symm
  · exact (m.toNat_get a).symm

/-- Every register up to `x` is found at its own distance. -/
theorem get_storeRegs_address (m : Machine) {x r : Fin 16} (h : r ≤ x) :
    (m.storeRegs x).memory.get (m.figures.address r) = m.reg r := by
  have hr : m.figures.behind (m.figures.address r) = r.val :=
    m.figures.behind_address (by omega)
  have hself : Fin.ofNat 16 r.val = r := Fin.ext (Nat.mod_eq_of_lt r.isLt)
  rw [get_storeRegs, hr, if_pos (Fin.le_def.mp h), hself]

/-! ## What stays -/

/-- Of the memory of `m` only the bytes up to distance `n` behind its index register have changed. -/
def OnlyBehind (m : Machine) (n : Nat) (t : Machine) : Prop :=
  ∀ a : Fin 4096, (∀ k : Nat, k ≤ n → (a.val : Int) ≠ (m.index + k) % 4096) →
    t.memory.get a = m.memory.get a

theorem onlyBehind_storeRegs (m : Machine) (x : Fin 16) : m.OnlyBehind x (m.storeRegs x) := by
  intro a ha
  have hfar : x.val < m.figures.behind a := Figures.lt_behind ha
  rw [get_storeRegs, if_neg (Nat.not_le.mpr hfar)]

/-- The three digits of a number, from the first distance to the third. -/
theorem writeDecimal_digits (hi : 0 ≤ m.index ∧ m.index ≤ 0xFFF) (b : UInt8) :
    ∃ t, m.writeDecimal b = .ok t ∧ t.index = m.index ∧ m.OnlyBehind 2 t ∧
      (t.memory.get (m.figures.address 0)).toNat = b.toNat / 100 ∧
      (t.memory.get (m.figures.address 1)).toNat = b.toNat / 10 % 10 ∧
      (t.memory.get (m.figures.address 2)).toNat = b.toNat % 10 := by
  obtain ⟨t, hwrite, hfigures⟩ := figures_writeDecimal hi b
  have hindex : t.figures.index = m.figures.index := by
    rw [hfigures]
    rfl
  refine ⟨t, hwrite, hindex, fun a ha => ?_, ?_, ?_, ?_⟩
  · -- no digit lies as far behind the index register
    obtain ⟨k, hk⟩ := Nat.exists_eq_add_of_lt (Figures.lt_behind (s := m.figures) ha)
    apply UInt8.toNat_inj.mp
    rw [toNat_get, toNat_get, hfigures]
    simp only [Figures.setRam, show m.figures.behind a = k + 3 by omega]
  · rw [toNat_get, hfigures]
    simp only [Figures.setRam, m.figures.behind_address (show 0 < 4096 by decide)]
  · rw [toNat_get, hfigures]
    simp only [Figures.setRam, m.figures.behind_address (show 1 < 4096 by decide)]
  · rw [toNat_get, hfigures]
    simp only [Figures.setRam, m.figures.behind_address (show 2 < 4096 by decide)]

/-! ## There and back -/

section Back

variable {u t : Machine} (hindex : u.index = m.index)
include hindex

theorem reg_loadRegs_of_stored (hmemory : u.memory = (m.storeRegs x).memory) (r : Fin 16) :
    (u.loadRegs x).reg r = if r ≤ x then m.reg r else u.reg r := by
  rw [reg_loadRegs, hmemory, Figures.address_congr (t := m.figures) hindex]
  split
  · rename_i hr
    exact m.get_storeRegs_address hr
  · rfl

theorem memory_storeRegs_of_loaded (hmemory : u.memory = m.memory)
    (hregs : ∀ r, r ≤ x → u.reg r = (m.loadRegs x).reg r) :
    (u.storeRegs x).memory = m.memory := by
  refine Memory.ext_get fun a => ?_
  rw [get_storeRegs, hmemory, Figures.behind_congr (t := m.figures) hindex]
  split
  · rename_i ha
    -- the register that is stored at `a` was loaded from there
    have hself : (Fin.ofNat 16 (m.figures.behind a)).val = m.figures.behind a :=
      Nat.mod_eq_of_lt (by omega)
    have hle : Fin.ofNat 16 (m.figures.behind a) ≤ x := by
      rw [Fin.le_def, hself]
      exact ha
    rw [hregs _ hle, reg_loadRegs, if_pos hle, hself, m.figures.address_behind]
  · rfl

end Back

/-- **Transfers can be undone.** Storing the registers up to `x` changes memory at the `x + 1`
addresses from the index register on, around the end of memory, and nowhere else. Whatever the
registers hold by then, loading from there gives them back, leaves those above `x` alone and moves the
index register past the last address. Storing what was just loaded leaves memory as it was. The
decimal digits of a register go to three addresses, and loading from there gives digits that make up
its number, whichever register it was. -/
theorem transfers_invert (hi : 0 ≤ m.index ∧ m.index ≤ 0xFFF) (x : Fin 16) (random : UInt8) :
    (m.Holds .store x → ∃ t, m.execute random = .ok t ∧ m.OnlyBehind x t ∧
      ∀ u : Machine, u.Holds .load x → u.memory = t.memory → u.index = m.index → ∀ random',
        ∃ w, u.execute random' = .ok w ∧ (∀ r, r ≤ x → w.reg r = m.reg r) ∧
          (∀ r, x < r → w.reg r = u.reg r) ∧ w.index = (m.index + x + 1) % 4096) ∧
    (m.Holds .load x → ∃ t, m.execute random = .ok t ∧
      ∀ u : Machine, u.Holds .store x → u.memory = t.memory → u.index = m.index →
        (∀ r, r ≤ x → u.reg r = t.reg r) → ∀ random',
        ∃ w, u.execute random' = .ok w ∧ w.memory = m.memory) ∧
    (m.Holds .decimal x → ∃ t, m.execute random = .ok t ∧ t.index = m.index ∧ m.OnlyBehind 2 t ∧
      ∀ u : Machine, u.Holds .load 2 → u.memory = t.memory → u.index = m.index → ∀ random',
        ∃ w, u.execute random' = .ok w ∧
          (w.reg 0).toNat ≤ 9 ∧ (w.reg 1).toNat ≤ 9 ∧ (w.reg 2).toNat ≤ 9 ∧
          100 * (w.reg 0).toNat + 10 * (w.reg 1).toNat + (w.reg 2).toNat = (m.reg x).toNat) := by
  refine ⟨fun hstore => ?_, fun hload => ?_, fun hdecimal => ?_⟩
  · refine ⟨m.storeRegs x, execute_store random hstore, m.onlyBehind_storeRegs x, ?_⟩
    intro u hload hmemory hindex random'
    have hreg := reg_loadRegs_of_stored (x := x) hindex hmemory
    refine ⟨u.loadRegs x, execute_load random' hload, fun r hr => ?_, fun r hr => ?_, ?_⟩
    · rw [hreg, if_pos hr]
    · rw [hreg, if_neg (not_le.mpr hr)]
    · rw [index_loadRegs, hindex]
  · refine ⟨m.loadRegs x, execute_load random hload, ?_⟩
    intro u hstore hmemory hindex hregs random'
    rw [memory_loadRegs] at hmemory
    exact ⟨u.storeRegs x, execute_store random' hstore,
      memory_storeRegs_of_loaded hindex hmemory hregs⟩
  · obtain ⟨t, hwrite, hstays, honly, h0, h1, h2⟩ := writeDecimal_digits hi (m.reg x)
    refine ⟨t, (execute_decimal random hdecimal).trans hwrite, hstays, honly, ?_⟩
    intro u hload hmemory hindex random'
    have hdigit : ∀ r : Fin 16, r ≤ 2 →
        (u.loadRegs 2).reg r = t.memory.get (m.figures.address r) := by
      intro r hr
      rw [reg_loadRegs, if_pos hr, hmemory, Figures.address_congr (t := m.figures) hindex]
    have hd0 : ((u.loadRegs 2).reg 0).toNat = (m.reg x).toNat / 100 := by
      rw [hdigit 0 (by decide)]
      exact h0
    have hd1 : ((u.loadRegs 2).reg 1).toNat = (m.reg x).toNat / 10 % 10 := by
      rw [hdigit 1 (by decide)]
      exact h1
    have hd2 : ((u.loadRegs 2).reg 2).toNat = (m.reg x).toNat % 10 := by
      rw [hdigit 2 (by decide)]
      exact h2
    have hbyte := (m.reg x).toNat_lt
    refine ⟨u.loadRegs 2, execute_load random' hload, ?_⟩
    rw [hd0, hd1, hd2]
    omega

/-- A machine whose index register points at the last byte but one, about to store four registers. -/
def brimming : Machine :=
  { ((boot #[] 0).setReg 0 0x11).setReg 3 0xFE with index := 0xFFE, instruction := ⟨0xF355⟩ }

/-- The four registers go around the end of memory and come back from there, and so do the digits of
the last of them. -/
theorem transfers_invert_brimming :
    (∃ t w, brimming.execute 0 = .ok t ∧
      ({ t with index := 0xFFE, v := .replicate 16 0, instruction := ⟨0xF365⟩ } : Machine).execute 0 =
        .ok w ∧ w.reg 0 = 0x11 ∧ w.reg 3 = 0xFE ∧ w.index = 2) ∧
    ∃ t w, ({ brimming with instruction := ⟨0xF333⟩ } : Machine).execute 0 = .ok t ∧
      ({ t with instruction := ⟨0xF265⟩ } : Machine).execute 0 = .ok w ∧
      100 * (w.reg 0).toNat + 10 * (w.reg 1).toNat + (w.reg 2).toNat = 254 := by
  obtain ⟨hstoring, -, -⟩ := transfers_invert (m := brimming) (by decide) 3 0
  have hload3 : Operation.load.Owns (⟨0xF365⟩ : Instruction).raw := ⟨rfl, trivial, rfl, rfl⟩
  have hload2 : Operation.load.Owns (⟨0xF265⟩ : Instruction).raw := ⟨rfl, trivial, rfl, rfl⟩
  obtain ⟨t, hstore, -, hback⟩ := hstoring ⟨⟨rfl, trivial, rfl, rfl⟩, rfl⟩
  obtain ⟨w, hload, hregs, -, hindex⟩ :=
    hback { t with index := 0xFFE, v := .replicate 16 0, instruction := ⟨0xF365⟩ }
      (holds_of_eq (i := ⟨0xF365⟩) rfl hload3 rfl) rfl rfl 0
  obtain ⟨-, -, hwriting⟩ :=
    transfers_invert (m := { brimming with instruction := ⟨0xF333⟩ }) (by decide) 3 0
  obtain ⟨d, hwrite, hstays, -, hdigits⟩ := hwriting ⟨⟨rfl, trivial, rfl, rfl⟩, rfl⟩
  obtain ⟨n, hread, -, -, -, hnumber⟩ :=
    hdigits { d with instruction := ⟨0xF265⟩ } (holds_of_eq (i := ⟨0xF265⟩) rfl hload2 rfl) rfl hstays 0
  refine ⟨⟨t, w, hstore, hload, ?_, ?_, ?_⟩, d, n, hwrite, hread, hnumber⟩
  · exact hregs 0 (by decide)
  · exact hregs 3 (by decide)
  · exact hindex

end Machine
end ChipEight
