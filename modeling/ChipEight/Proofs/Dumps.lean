import Mathlib.Data.List.Induction
import ChipEight.Machine.Listing
import ChipEight.Proofs.Runs
import ChipEight.Text.Integer

/-!
# ChipEight.Proofs.Dumps

The state of a machine can be read off its listing. On the line every field has a width that the
ranges of reachable states fill exactly, so the fields can be cut apart although nothing separates
the registers. Return addresses may need a fourth place; they are cut apart at the blanks in front
of them.

* `Hex.number`: the number that digits stand for. `number_padded`, `number_word`, `number_byte` read
  back what is written.
* `Hex.padded_append_inj`, `Hex.word_append_inj`, `Hex.bytes_append_inj`: fields of a known width in
  front of a text.
* `Machine.SameLine`: what a line shows is the same. `line_append_inj` reads it off a line, whatever
  follows.
* `addresses_inj`, `stack_inj`: the return addresses, of which there may be none.
* `dump_lossless`: equal dumps and equal lines of reachable machines.
-/

namespace ChipEight

/-! ## Reading digits back -/

namespace Hex

/-- The number that digits to base sixteen stand for, the first digit counting most. -/
def number (s : List Char) : Nat := Numeral.value 16 (s.filterMap Digit.hexadecimal?)

theorem number_concat {c : Char} {d : Nat} (h : Digit.hexadecimal? c = some d) (s : List Char) :
    number (s ++ [c]) = number s * 16 + d := by
  unfold number Numeral.value
  rw [List.filterMap_append, List.filterMap_cons_some h, List.filterMap_nil, List.foldl_append]
  rfl

theorem number_zeros (k : Nat) (s : List Char) :
    number (List.replicate k '0' ++ s) = number s := by
  have hzero : Digit.hexadecimal? '0' = some 0 := by decide
  induction k with
  | zero => rfl
  | succ k ih =>
    have hstep : number ('0' :: (List.replicate k '0' ++ s)) =
        number (List.replicate k '0' ++ s) := by
      unfold number
      rw [List.filterMap_cons_some hzero]
      rfl
    rw [List.replicate_succ, List.cons_append, hstep, ih]

theorem number_fill (w : Nat) (s : List Char) : number (fill w s) = number s := number_zeros _ s

/-- The shortest digits of a number stand for it, in whatever case they are written. -/
theorem number_map_lower {f : Char → Char}
    (hf : ∀ d < 16, Digit.hexadecimal? (f d.digitChar) = some d) (n : Nat) :
    number ((lower n).map f) = n := by
  induction n using Nat.strongRecOn with
  | ind n ih =>
    unfold lower at ih ⊢
    rw [Nat.toDigits_eq_if (by decide)]
    split
    · rename_i hsmall
      have hdigit := number_concat (hf n hsmall) []
      rw [List.map_singleton]
      exact hdigit.trans (Nat.zero_add n)
    · rename_i hlarge
      rw [List.map_append, List.map_singleton, number_concat (hf (n % 16) (by omega)),
        ih (n / 16) (by omega)]
      omega

theorem number_lower (n : Nat) : number (lower n) = n := by
  have hsame := number_map_lower (f := id) (by decide) n
  rwa [List.map_id] at hsame

theorem number_padded (w : Nat) {n : Int} (h : 0 ≤ n) : number (padded w n) = n.toNat := by
  unfold padded
  rw [if_neg (by omega), number_fill, number_lower]
  omega

theorem number_word (w : UInt16) : number (word w) = w.toNat := by
  unfold word upper
  rw [number_fill, number_map_lower (by decide)]

theorem number_byte (b : UInt8) : number (byte b) = b.toNat := by
  unfold byte
  rw [number_fill, number_lower]

/-! ## Fields of a known width -/

theorem length_fill {w : Nat} {s : List Char} (h : s.length ≤ w) : (fill w s).length = w := by
  unfold fill
  rw [List.length_append, List.length_replicate]
  omega

theorem length_lower_le {n w : Nat} (hw : 0 < w) (h : n < 16 ^ w) : (lower n).length ≤ w :=
  (Nat.length_toDigits_le_iff (by decide) hw).mpr h

theorem length_padded {w : Nat} (hw : 0 < w) {n : Int} (h : 0 ≤ n ∧ n.toNat < 16 ^ w) :
    (padded w n).length = w := by
  unfold padded
  rw [if_neg (by omega)]
  refine length_fill (length_lower_le hw ?_)
  rw [show n.natAbs = n.toNat by omega]
  exact h.2

theorem length_word (w : UInt16) : (word w).length = 4 := by
  unfold word upper
  refine length_fill ?_
  rw [List.length_map]
  exact length_lower_le (by decide) w.toNat_lt

theorem length_byte (b : UInt8) : (byte b).length = 2 :=
  length_fill (length_lower_le (by decide) b.toNat_lt)

variable {s t : List Char}

theorem padded_append_inj {w : Nat} (hw : 0 < w) {n k : Int} (hn : 0 ≤ n ∧ n.toNat < 16 ^ w)
    (hk : 0 ≤ k ∧ k.toNat < 16 ^ w) (h : padded w n ++ s = padded w k ++ t) : n = k ∧ s = t := by
  obtain ⟨hdigits, hrest⟩ :=
    List.append_inj h ((length_padded hw hn).trans (length_padded hw hk).symm)
  have hnumber := congrArg number hdigits
  rw [number_padded w hn.1, number_padded w hk.1] at hnumber
  exact ⟨by omega, hrest⟩

theorem word_append_inj {v w : UInt16} (h : word v ++ s = word w ++ t) : v = w ∧ s = t := by
  obtain ⟨hdigits, hrest⟩ := List.append_inj h ((length_word v).trans (length_word w).symm)
  have hnumber := congrArg number hdigits
  rw [number_word, number_word] at hnumber
  exact ⟨UInt16.toNat_inj.mp hnumber, hrest⟩

theorem bytes_append_inj {bs cs : List UInt8} (hlength : bs.length = cs.length)
    (h : bytes bs ++ s = bytes cs ++ t) : bs = cs ∧ s = t := by
  induction bs generalizing cs with
  | nil =>
    rw [List.length_eq_zero_iff.mp hlength.symm] at h ⊢
    exact ⟨rfl, h⟩
  | cons b bs ih =>
    cases cs with
    | nil => cases hlength
    | cons c cs =>
      unfold bytes at h ih
      rw [List.flatMap_cons, List.flatMap_cons, List.append_assoc, List.append_assoc] at h
      obtain ⟨hdigits, hrest⟩ := List.append_inj h ((length_byte b).trans (length_byte c).symm)
      have hnumber := congrArg number hdigits
      rw [number_byte, number_byte] at hnumber
      obtain ⟨hbs, hlast⟩ := ih (Nat.succ.inj hlength) hrest
      exact ⟨by rw [UInt8.toNat_inj.mp hnumber, hbs], hlast⟩

theorem blank_notMem_lower (n : Nat) : ' ' ∉ lower n := by
  have hchar : ∀ d : Nat, ' ' ≠ d.digitChar := fun d => (Nat.digitChar_ne ' ' rfl).symm
  induction n using Nat.strongRecOn with
  | ind n ih =>
    unfold lower at ih ⊢
    rw [Nat.toDigits_eq_if (by decide)]
    split
    · rw [List.mem_singleton]
      exact hchar n
    · rw [List.mem_append, not_or, List.mem_singleton]
      exact ⟨ih (n / 16) (by omega), hchar (n % 16)⟩

theorem blank_notMem_padded (w : Nat) {n : Int} (h : 0 ≤ n) : ' ' ∉ padded w n := by
  unfold padded fill
  rw [if_neg (by omega), List.mem_append, not_or]
  exact ⟨fun hmem => absurd (List.eq_of_mem_replicate hmem) (by decide), blank_notMem_lower _⟩

end Hex

/-! ## Machines -/

namespace Machine

/-- Two machines are the same in what a line shows. -/
structure SameLine (m n : Machine) : Prop where
  v : m.v = n.v
  index : m.index = n.index
  delay : m.delay = n.delay
  sound : m.sound = n.sound
  executing : m.executing = n.executing
  instruction : m.instruction = n.instruction
  operation : m.operation = n.operation

theorem SameLine.lineChars_eq {m n : Machine} (h : SameLine m n) : m.lineChars = n.lineChars := by
  unfold lineChars registerDigits
  rw [h.v, h.index, h.delay, h.sound, h.executing, h.instruction, h.operation]

theorem registers_append_inj {m n : Machine} {s t : List Char}
    (h : m.registerDigits ++ s = n.registerDigits ++ t) : m.v = n.v ∧ s = t := by
  obtain ⟨hbytes, hrest⟩ := Hex.bytes_append_inj (by simp) h
  exact ⟨Vector.toList_inj.mp (List.reverse_inj.mp hbytes), hrest⟩

/-- A line can be read field by field, whatever text follows it. -/
theorem line_append_inj {m n : Machine} (hm : m.Bounded) (hn : n.Bounded) {s t : List Char}
    (h : m.lineChars ++ s = n.lineChars ++ t) : SameLine m n ∧ s = t := by
  unfold lineChars at h
  simp only [List.append_assoc] at h
  obtain ⟨hv, h⟩ := registers_append_inj (List.append_cancel_left h)
  -- the ranges of both machines say that every number fills its places and takes no more
  have hindices := And.intro hm.index hn.index
  obtain ⟨hindex, h⟩ := Hex.padded_append_inj (by decide) (by omega) (by omega)
    (List.append_cancel_left h)
  have hdelays := And.intro hm.delay hn.delay
  obtain ⟨hdelay, h⟩ := Hex.padded_append_inj (by decide) (by omega) (by omega)
    (List.append_cancel_left h)
  have hsounds := And.intro hm.sound hn.sound
  obtain ⟨hsound, h⟩ := Hex.padded_append_inj (by decide) (by omega) (by omega)
    (List.append_cancel_left h)
  have haddresses := And.intro hm.executing hn.executing
  obtain ⟨hexecuting, h⟩ := Hex.padded_append_inj (by decide) (by omega) (by omega)
    (List.append_cancel_left h)
  obtain ⟨hword, h⟩ := Hex.word_append_inj (List.append_cancel_left h)
  have hinstruction : m.instruction = n.instruction := congrArg Instruction.mk hword
  -- the name of the operation needs no reading back, the word decides it
  have hoperation : m.operation = n.operation := congrArg Instruction.operation hinstruction
  rw [hoperation] at h
  exact ⟨⟨hv, hindex, hdelay, hsound, hexecuting, hinstruction, hoperation⟩,
    List.append_cancel_left (List.append_cancel_left h)⟩

/-- An address ends where the text is blank, and so does the last one. -/
theorem takeWhile_address {a : Int} (h : 0 ≤ a) (as : List Int) :
    (Hex.padded 3 a ++ as.flatMap addressChars).takeWhile (· != ' ') = Hex.padded 3 a := by
  have hnext : (as.flatMap addressChars).takeWhile (· != ' ') = [] := by
    cases as with
    | nil => rfl
    | cons a as => rfl
  have hdigits : ∀ c ∈ Hex.padded 3 a, (c != ' ') = true := by
    intro c hc
    rw [bne_iff_ne]
    rintro rfl
    exact Hex.blank_notMem_padded 3 h hc
  rw [List.takeWhile_append_of_pos hdigits, hnext, List.append_nil]

/-- Where the blank ends the places of an address, their number does not matter. -/
theorem address_append_inj {a b : Int} {as bs : List Int} (ha : 0 ≤ a) (hb : 0 ≤ b)
    (h : Hex.padded 3 a ++ as.flatMap addressChars = Hex.padded 3 b ++ bs.flatMap addressChars) :
    a = b ∧ as.flatMap addressChars = bs.flatMap addressChars := by
  have hdigits := congrArg (List.takeWhile (· != ' ')) h
  rw [takeWhile_address ha, takeWhile_address hb] at hdigits
  rw [hdigits] at h
  have hnumber := congrArg Hex.number hdigits
  rw [Hex.number_padded 3 ha, Hex.number_padded 3 hb] at hnumber
  exact ⟨by omega, List.append_cancel_left h⟩

theorem addresses_inj {as bs : List Int} (has : ∀ a ∈ as, 0 ≤ a) (hbs : ∀ b ∈ bs, 0 ≤ b)
    (h : as.flatMap addressChars = bs.flatMap addressChars) : as = bs := by
  induction as generalizing bs with
  | nil =>
    cases bs with
    | nil => rfl
    | cons b bs => cases h
  | cons a as ih =>
    cases bs with
    | nil => cases h
    | cons b bs =>
      rw [List.flatMap_cons, List.flatMap_cons, addressChars, addressChars, List.append_assoc,
        List.append_assoc] at h
      obtain ⟨rfl, hrest⟩ := address_append_inj (has a List.mem_cons_self)
        (hbs b List.mem_cons_self) (List.append_cancel_left h)
      rw [ih (fun c hc => has c (List.mem_cons_of_mem a hc))
        (fun c hc => hbs c (List.mem_cons_of_mem a hc)) hrest]

/-- The text for an empty stack is that of no other. -/
theorem stack_inj {m n : Machine} (hm : ∀ a ∈ m.calls.items, 0 ≤ a)
    (hn : ∀ a ∈ n.calls.items, 0 ≤ a) (h : m.stackChars = n.stackChars) : m.calls = n.calls := by
  have hitems : m.calls.toList = n.calls.toList := by
    unfold stackChars at h
    have hms : ∀ a ∈ m.calls.toList, 0 ≤ a := fun a ha => hm a (List.mem_reverse.mp ha)
    have hns : ∀ a ∈ n.calls.toList, 0 ≤ a := fun a ha => hn a (List.mem_reverse.mp ha)
    generalize m.calls.toList = as at h hms
    generalize n.calls.toList = bs at h hns
    cases as with
    | nil =>
      cases bs with
      | nil => rfl
      | cons b bs => cases h
    | cons a as =>
      cases bs with
      | nil => cases h
      | cons b bs => exact addresses_inj hms hns h
  exact congrArg CallStack.mk (List.reverse_inj.mp hitems)

/-! ## What is not shown -/

theorem dump_memory (m : Machine) (memory : Memory 4096) : { m with memory }.dump = m.dump := rfl

theorem eq_of_figures_ram {m n : Machine}
    (h : m.figures = { n.figures with ram := m.figures.ram }) : m = { n with memory := m.memory } :=
  figures_inj h

theorem figures_boot (p q : Array UInt8) (time : Float) :
    (boot p time).figures =
      { (boot q time).figures with ram := fun a => ((image p).get a).toNat } := by
  simp only [figures, boot, reg]

/-- A call is the same whatever memory holds. -/
theorem call_ram (s : Figures) (ram : Fin 4096 → Nat) (time : Float) (keys : Keypad)
    (w random : Nat) :
    (({ s with ram }.tick time).take keys w).row .call random =
      { ((s.tick time).take keys w).row .call random with ram } := by
  unfold Figures.tick
  split <;> rfl

/-- After their first call two programs differ in nothing but memory. -/
theorem after_call_eq {p q : Array UInt8} (time : Float) (c : Moment)
    (hp : Operation.call.Owns (boot p time).word)
    (hsame : (boot p time).word = (boot q time).word) :
    ∃ memory, (boot p time).after [c] = { (boot q time).after [c] with memory } := by
  have hq := hp
  rw [hsame] at hq
  refine ⟨_, eq_of_figures_ram ?_⟩
  rw [figures_first c hp (by decide), figures_first c hq (by decide), hsame, figures_boot p q,
    call_ram]

/-- As `called`, but more of the program follows the call. -/
def calledLonger : Machine := (boot #[0x22, 0x02, 0x00, 0xE0] 0).after [⟨.released, 0, 0⟩]

theorem word_longer : (boot #[0x22, 0x02, 0x00, 0xE0] 0).word = 0x2202 := by
  rw [word_boot (by decide) (by decide)]
  rfl

/-- **A dump tells the whole of what it shows.** Two reachable machines, of whatever programs, have
the same dump exactly if their registers, index register, timers, last address, last instruction
with its operation, and return addresses are the same; they have the same line exactly if this
holds but for the return addresses. -/
theorem dump_lossless {m n : Machine} (hm : m.Reachable) (hn : n.Reachable) :
    (m.dump = n.dump ↔ SameLine m n ∧ m.calls = n.calls) ∧ (m.line = n.line ↔ SameLine m n) := by
  have hmb := hm.bounded
  have hnb := hn.bounded
  refine ⟨⟨fun h => ?_, fun ⟨hline, hcalls⟩ => ?_⟩, fun h => ?_, fun hline => ?_⟩
  · obtain ⟨hline, hrest⟩ := line_append_inj hmb hnb (String.ofList_injective h)
    refine ⟨hline, stack_inj (fun a ha => ?_) (fun a ha => ?_) (List.append_cancel_left hrest)⟩
    · have := hmb.calls a ha
      omega
    · have := hnb.calls a ha
      omega
  · unfold dump stackChars
    rw [hline.lineChars_eq, hcalls]
  · have hchars : m.lineChars ++ [] = n.lineChars ++ [] := by
      rw [List.append_nil, List.append_nil]
      exact String.ofList_injective h
    exact (line_append_inj hmb hnb hchars).1
  · unfold line
    rw [hline.lineChars_eq]

/-- Memory is not shown: after the same call in two programs the dumps are the same. -/
theorem dump_lossless_called :
    (calledLonger.Reachable ∧ called.Reachable) ∧ calledLonger.dump = called.dump ∧
      SameLine calledLonger called ∧ calledLonger.calls = called.calls ∧
      called.calls.items = [0x202] := by
  have hlonger : calledLonger.Reachable := ⟨#[0x22, 0x02, 0x00, 0xE0], 0, _, rfl, _, rfl⟩
  have hcalled : called.Reachable := ⟨#[0x22, 0x02], 0, _, rfl, _, rfl⟩
  have hdump : calledLonger.dump = called.dump := by
    have hword : (boot #[0x22, 0x02, 0x00, 0xE0] 0).word = caller.word :=
      word_longer.trans word_caller.symm
    have hop : Operation.call.Owns (boot #[0x22, 0x02, 0x00, 0xE0] 0).word := by
      rw [word_longer]
      exact ⟨rfl, trivial, trivial, trivial⟩
    obtain ⟨memory, hmemory⟩ := after_call_eq 0 ⟨.released, 0, 0⟩ hop hword
    rw [calledLonger, hmemory, dump_memory]
    rfl
  obtain ⟨hline, hcalls⟩ := (dump_lossless hlonger hcalled).1.mp hdump
  exact ⟨⟨hlonger, hcalled⟩, hdump, hline, hcalls, calls_called⟩

end Machine
end ChipEight
