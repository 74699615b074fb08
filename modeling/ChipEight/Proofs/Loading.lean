import ChipEight.Proofs.Guards
import ChipEight.Proofs.Runs

/-!
# ChipEight.Proofs.Loading

A program in memory: which programs are taken, what memory holds after that, and which instructions
are fetched from it.

* `toList_image`: all bytes of a loaded memory in order.
* `writeImage_eq`: the font and the program can be written block by block without a fault.
* `raw_fetched_boot`: the instruction at any address from the origin on, in bytes of the program.
* `Engine.load?_of_tooLong`, `Engine.load?_of_fits`: loading, by the length of the program.
* `Engine.program_in_memory`: what loading puts into memory.
-/

namespace ChipEight
namespace Machine

theorem origin_add_le {program : Array UInt8} (h : program.size ≤ capacity) :
    origin + program.size ≤ 4096 := by
  have hroom : origin + capacity = 4096 := rfl
  omega

theorem toList_font : ((Memory.zero 4096).overlay Font.address Font.sprites).toList =
    Font.sprites.toList ++ List.replicate (4096 - Font.sprites.size) 0 := by
  have hfont := font_below_origin
  have hroom : origin + capacity = 4096 := rfl
  have haddress : Font.address = 0 := rfl
  rw [Memory.toList_overlay _ (by omega), Memory.toList_zero, haddress, List.take_zero,
    List.nil_append, Nat.zero_add, List.drop_replicate]

theorem toList_image {program : Array UInt8} (h : program.size ≤ capacity) :
    (image program).toList = Font.sprites.toList ++ List.replicate (origin - Font.sprites.size) 0 ++
      program.toList ++ List.replicate (capacity - program.size) 0 := by
  have hfont := font_below_origin
  have hroom : origin + capacity = 4096 := rfl
  have hzeros : min (origin - Font.sprites.size) (4096 - Font.sprites.size) =
      origin - Font.sprites.size := by omega
  have hrest : 4096 - Font.sprites.size - (origin + program.size - Font.sprites.size) =
      capacity - program.size := by omega
  unfold image
  -- the origin and the end of the program both fall into the zeros behind the font
  rw [Memory.toList_overlay _ (origin_add_le h), toList_font, List.take_append, List.drop_append,
    Array.length_toList, List.take_of_length_le (by simp; omega),
    List.drop_of_length_le (by simp; omega), List.take_replicate, List.drop_replicate, hzeros,
    hrest, List.nil_append]
  simp only [List.append_assoc]

/-! ## Loading block by block -/

/-- Memory into which the font and a program have been written, one block after the other. -/
def writeImage (program : Array UInt8) : Except Memory.Fault (Memory memorySize) := do
  let m ← (Memory.zero memorySize).writeBlock Font.address Font.sprites
  m.writeBlock origin program

theorem writeImage_eq {program : Array UInt8} (h : program.size ≤ capacity) :
    writeImage program = .ok (image program) := by
  have hfont := font_below_origin
  have hsize := Font.size_sprites
  have hroom : origin + capacity = memorySize := rfl
  have horigin : 0 < origin := by decide
  have hheight : 0 < Font.height := by decide
  unfold writeImage image
  rw [Memory.writeBlock_inside _ (by omega) (by omega) (by omega)]
  exact Memory.writeBlock_inside _ (by omega) (by omega) (by omega)

/-! ## Fetching -/

/-- The byte of a program that goes to an address; zero behind its end. -/
def placed (program : Array UInt8) (a : Int) : Nat := ((program[(a - origin).toNat]?).getD 0).toNat

theorem toNat_peek_boot (program : Array UInt8) (time : Float) {a : Int}
    (ha : 0x200 ≤ a ∧ a ≤ 0xFFF) : ((boot program time).peek a).toNat = placed program a := by
  have horigin : origin = 0x200 := rfl
  have hwrap : (wrap a).val = a.toNat := by
    show (a % 4096).toNat = a.toNat
    omega
  have hplace : a.toNat - origin = (a - origin).toNat := by omega
  show ((image program).get (wrap a)).toNat = _
  rw [get_image_above (by omega), hwrap, hplace]
  rfl

theorem raw_fetched_boot (program : Array UInt8) (time : Float) {p : Int}
    (hp : 0x200 ≤ p ∧ p ≤ 0xFFE) :
    ({ boot program time with pc := p } : Machine).fetched.raw =
      256 * placed program p + placed program (p + 1) := by
  have hhigh := toNat_peek_boot program time (a := p) (by omega)
  have hlow := toNat_peek_boot program time (a := p + 1) (by omega)
  rw [raw_fetched, Nat.mul_comm, ← hhigh, ← hlow]
  rfl

end Machine

namespace Engine

theorem load?_of_tooLong {program : Array UInt8} (h : 3584 < program.size) (clock : Clock)
    (dice : List UInt8) : load? program clock dice = .error (.tooBig ⟨program.size - 3584⟩) := by
  have hcheck : Machine.checkSize program = .error ⟨program.size - 3584⟩ := if_pos h
  unfold load?
  rw [hcheck]

/-- A program that fits is loaded as soon as the clock answers. -/
theorem load?_of_fits {program : Array UInt8} (h : program.size ≤ 3584) (clock : Clock)
    (dice : List UInt8) : load? program clock dice =
      match clock.read with
      | (_, .error f) => .error (.clock f)
      | (clock, .ok time) => .ok ⟨.boot program time, clock, dice⟩ := by
  have hcheck : Machine.checkSize program = .ok () := if_neg (Nat.not_lt.mpr h)
  unfold load?
  rewrite [hcheck]
  rfl

theorem load?_eq_tooBig_iff {program : Array UInt8} {clock : Clock} {dice : List UInt8}
    {f : Machine.TooBig} : load? program clock dice = .error (.tooBig f) ↔
      3584 < program.size ∧ f = ⟨program.size - 3584⟩ := by
  by_cases hsize : 3584 < program.size
  · rw [load?_of_tooLong hsize]
    simp [hsize, eq_comm]
  · rw [load?_of_fits (Nat.not_lt.mp hsize)]
    refine iff_of_false ?_ fun h => hsize h.1
    split <;> exact nofun

/-- **What loading puts into memory.** A program is refused as too long exactly if it has more than
3584 bytes, and by as many as are too much. Any other is loaded: the two blocks are written without
a fault, and memory then holds the font, zeros up to the origin, the program, and zeros up to the
end. An instruction that is fetched from the origin on, at an odd address too, is made of two bytes
of the program, or of zeros behind its end. -/
theorem program_in_memory (program : Array UInt8) (clock : Clock) (dice : List UInt8) :
    (∀ f, load? program clock dice = .error (.tooBig f) ↔
      3584 < program.size ∧ f = ⟨program.size - 3584⟩) ∧
    (program.size ≤ 3584 → clock.read.2.isOk = true → ∃ e, load? program clock dice = .ok e ∧
      Machine.writeImage program = .ok e.machine.memory ∧
      e.machine.memory.toList = Font.sprites.toList ++ List.replicate (0x200 - 80) 0 ++
        program.toList ++ List.replicate (3584 - program.size) 0 ∧
      ∀ p : Int, 0x200 ≤ p → p ≤ 0xFFE → ∃ i,
        ({ e.machine with pc := p } : Machine).fetch = some i ∧
        ({ e.machine with pc := p } : Machine).guardedFetch = .ok (some i) ∧
        i.raw = 256 * Machine.placed program p + Machine.placed program (p + 1)) := by
  refine ⟨fun f => load?_eq_tooBig_iff, fun hsize hclock => ?_⟩
  rcases hread : clock.read with ⟨clock', f | time⟩
  · rw [hread] at hclock
    cases hclock
  · have hload := load?_of_fits hsize clock dice
    rw [hread] at hload
    refine ⟨_, hload, Machine.writeImage_eq hsize, Machine.toList_image hsize, fun p hp hp' => ?_⟩
    have hpc : 0 ≤ p ∧ p ≤ 0xFFE := by omega
    exact ⟨_, Machine.fetch_inside hpc, Machine.guardedFetch_inside hpc,
      Machine.raw_fetched_boot program time ⟨hp, hp'⟩⟩

/-- Three bytes: the word across their end is filled up with a zero, and so are those behind. -/
theorem program_in_memory_odd : ∃ e,
    load? #[0x12, 0x34, 0x56] ⟨fun _ => .ok 0, 0, 1⟩ [] = .ok e ∧
      (∃ i, ({ e.machine with pc := 0x201 } : Machine).fetch = some i ∧ i.raw = 0x3456) ∧
      (∃ i, ({ e.machine with pc := 0x202 } : Machine).fetch = some i ∧ i.raw = 0x5600) ∧
      ∃ i, ({ e.machine with pc := 0xFFE } : Machine).fetch = some i ∧ i.raw = 0 := by
  obtain ⟨-, hloaded⟩ := program_in_memory #[0x12, 0x34, 0x56] ⟨fun _ => .ok 0, 0, 1⟩ []
  obtain ⟨e, hload, -, -, hfetch⟩ := hloaded (by decide) rfl
  obtain ⟨i, hi, -, hraw⟩ := hfetch 0x201 (by decide) (by decide)
  obtain ⟨j, hj, -, hraw'⟩ := hfetch 0x202 (by decide) (by decide)
  obtain ⟨k, hk, -, hraw''⟩ := hfetch 0xFFE (by decide) (by decide)
  exact ⟨e, hload, ⟨i, hi, hraw.trans rfl⟩, ⟨j, hj, hraw'.trans rfl⟩, ⟨k, hk, hraw''.trans rfl⟩⟩

end Engine
end ChipEight
