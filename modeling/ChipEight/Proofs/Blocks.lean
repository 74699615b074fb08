import ChipEight.Memory

/-!
# ChipEight.Proofs.Blocks

Rows of bytes that are read from memory or written to it at once. Only the last address of a row is
checked. A row that begins below zero and ends inside memory therefore passes, and its first address
is then counted from the end of memory.

* `HasRow`: the bytes of a row stand in memory from an address on.
* `readBlock_outside`, `readBlock_inside`, `readBlock_below`: reading, by where the ends of the row
  lie. `writeBlock_outside`, `writeBlock_inside`, `writeBlock_below`: the same for writing.
* `toList_overlay`: the bytes of a memory over which a row has been laid.
* `row_written_or_refused`: a row is written as a whole or not at all.
* `rows_checked_at_end`: what the check refuses, and what it lets through.
-/

namespace ChipEight
namespace Memory

/-- The bytes of a row stand in memory from an address on. -/
def HasRow {size : Nat} (m : Memory size) (start : Int) (row : List UInt8) : Prop :=
  ∀ i (h : i < row.length), m.read (start + i) = .ok row[i]

section Access

variable {size : Nat} (m : Memory size) {a : Int}

theorem check_inside (h : 0 ≤ a ∧ a < size) : m.check a = .ok () := by
  simp [check, contains, h]

theorem check_outside (h : a < 0 ∨ size ≤ a) : m.check a = .error (.outOfRange a) := by
  have hout : m.contains a = false := by simp [contains]; omega
  simp [check, hout]

theorem read_natCast {k : Nat} (h : k < size) : m.read k = .ok (m.get ⟨k, h⟩) := by
  unfold read locate
  rw [dif_pos (by omega)]
  rfl

theorem locate_outside (h : a < 0 ∨ size ≤ a) : m.locate a = .error (.outOfRange a) :=
  dif_neg (by omega)

theorem read_outside (h : a < 0 ∨ size ≤ a) : m.read a = .error (.outOfRange a) := by
  unfold read
  rw [m.locate_outside h]
  rfl

/-! ## Reading -/

theorem length_cells (start stop : Int) :
    (Slice.cells m.bytes.toArray start stop).toList.length = Slice.width size start stop := by
  have := Slice.bound_le size stop
  simp [Slice.cells, Slice.width]
  omega

theorem hasRow_cells (start stop : Int) :
    m.HasRow (Slice.bound size start) (Slice.cells m.bytes.toArray start stop).toList := by
  intro i hi
  have hlen := m.length_cells start stop
  have hstop := Slice.bound_le size stop
  have hplace : Slice.bound size start + i < size := by
    unfold Slice.width at hlen
    omega
  rw [← Int.natCast_add, m.read_natCast hplace]
  simp [Slice.cells, get]

variable {n : Nat}

theorem width_inside (ha : 0 ≤ a) (hstop : a + n ≤ size) : Slice.width size a (a + n) = n := by
  unfold Slice.width
  rw [Slice.bound_of_mem ha (by omega), Slice.bound_of_mem (by omega) hstop]
  omega

/-- The cells that lie behind a bound which was counted from the end. -/
theorem width_below (ha : a < 0) (hstop : 0 ≤ a + n) (hstop' : a + n ≤ size) :
    (Slice.width size a (a + n) : Int) = max 0 (a + n - max 0 (a + size)) := by
  have hstart : (Slice.bound size a : Int) = max 0 (a + size) := Slice.bound_of_neg ha
  unfold Slice.width
  rw [Slice.bound_of_mem hstop hstop']
  omega

theorem readBlock_of_check (hlast : 0 ≤ a + n - 1 ∧ a + n - 1 < size) :
    m.readBlock a n = .ok (Slice.cells m.bytes.toArray a (a + n)).toList := by
  unfold readBlock
  rw [m.check_inside hlast]

theorem readBlock_outside (h : a + n - 1 < 0 ∨ size ≤ a + n - 1) :
    m.readBlock a n = .error (.outOfRange (a + n - 1)) := by
  unfold readBlock
  rw [m.check_outside h]

/-- Every byte of a row inside memory is read. -/
theorem readBlock_inside (ha : 0 ≤ a) (hstop : 0 < a + n) (hstop' : a + n ≤ size) :
    ∃ row, m.readBlock a n = .ok row ∧ row.length = n ∧ m.HasRow a row := by
  refine ⟨_, m.readBlock_of_check (by omega), ?_, ?_⟩
  · rw [m.length_cells, width_inside ha hstop']
  · have hrow := m.hasRow_cells a (a + n)
    rw [Slice.bound_of_mem ha (by omega), Int.toNat_of_nonneg ha] at hrow
    exact hrow

/-- A row that begins below zero and ends inside memory is read from the place that is counted from
the end. So many of its bytes are left as lie between this place and the end of the row. -/
theorem readBlock_below (ha : a < 0) (hstop : 0 < a + n) (hstop' : a + n ≤ size) :
    ∃ row, m.readBlock a n = .ok row ∧
      (row.length : Int) = max 0 (a + n - max 0 (a + size)) ∧ m.HasRow (max 0 (a + size)) row := by
  refine ⟨_, m.readBlock_of_check (by omega), ?_, ?_⟩
  · rw [m.length_cells, width_below ha (by omega) hstop']
  · have hrow := m.hasRow_cells a (a + n)
    rw [Slice.bound_of_neg ha] at hrow
    exact hrow

/-! ## Writing -/

variable {data : Array UInt8}

theorem writeBlock_outside (h : a + data.size - 1 < 0 ∨ size ≤ a + data.size - 1) :
    m.writeBlock a data = .error (.outOfRange (a + data.size - 1)) := by
  unfold writeBlock
  dsimp only
  rw [m.check_outside h]

theorem writeBlock_inside (ha : 0 ≤ a) (hstop : 0 < a + data.size) (hstop' : a + data.size ≤ size) :
    m.writeBlock a data = .ok (m.overlay a.toNat data) := by
  unfold writeBlock
  dsimp only
  rw [m.check_inside (by omega), width_inside ha hstop', Slice.bound_of_mem ha (by omega)]
  simp

/-- The range of a row that begins below zero is shorter than the row, so the row is refused. -/
theorem writeBlock_below (ha : a < 0) (hstop : 0 < a + data.size) (hstop' : a + data.size ≤ size) :
    ∃ width < data.size, m.writeBlock a data = .error (.lengthMismatch width data.size) := by
  have hwidth := width_below ha (by omega) hstop'
  have hshort : Slice.width size a (a + data.size) < data.size := by omega
  refine ⟨_, hshort, ?_⟩
  unfold writeBlock
  dsimp only
  rw [m.check_inside (by omega)]
  dsimp only
  rw [if_neg (by omega)]

/-! ## A row over memory -/

variable {start : Nat}

theorem read_overlay_inside {i : Nat} (hi : i < data.size) (hstop : start + data.size ≤ size) :
    (m.overlay start data).read ((start : Int) + i) = .ok data[i] := by
  rw [← Int.natCast_add, read_natCast _ (by omega), get_overlay, if_neg (by simp)]
  simp [hi]

theorem read_overlay_outside (h : a < start ∨ start + data.size ≤ a) :
    (m.overlay start data).read a = m.read a := by
  by_cases hin : 0 ≤ a ∧ a < size
  · obtain ⟨k, rfl⟩ := Int.eq_ofNat_of_zero_le hin.1
    have hk : k < size := by omega
    rw [read_natCast _ hk, read_natCast _ hk, get_overlay]
    split
    · rfl
    · rename_i hstart
      have hbehind : data.size ≤ k - start := by simp only at hstart; omega
      rw [Array.getElem?_eq_none hbehind]
      rfl
  · rw [read_outside _ (by omega), read_outside _ (by omega)]

theorem toList_zero (size : Nat) : (zero size).toList = List.replicate size 0 := by
  simp [toList, zero]

theorem toList_overlay (h : start + data.size ≤ size) : (m.overlay start data).toList =
    m.toList.take start ++ (data.toList ++ m.toList.drop (start + data.size)) := by
  apply List.ext_getElem
  · simp [toList]
    omega
  · intro i hi hi'
    have hlt : i < size := by simpa [toList] using hi
    simp only [toList, Vector.getElem_toList]
    show (m.overlay start data).get ⟨i, hlt⟩ = _
    rw [get_overlay]
    by_cases hstart : i < start
    · rw [List.getElem_append_left (by simp; omega)]
      simp [hstart, get]
    · rw [List.getElem_append_right (by simp; omega)]
      by_cases hstop : i < start + data.size
      · rw [List.getElem_append_left (by simp; omega)]
        have : min start size = start := by omega
        have hin : i - start < data.size := by omega
        simp [hstart, this, hin]
      · rw [List.getElem_append_right (by simp; omega)]
        have hend : ¬ i - start < data.size := by omega
        simp [hstart, hend, get]
        congr 1
        omega

end Access

/-! ## Whole rows or nothing -/

/-- A memory reads as another one over which a row of bytes has been laid. -/
structure Overlays {size : Nat} (t m : Memory size) (start : Int) (data : Array UInt8) : Prop where
  inside : ∀ i (h : i < data.size), t.read (start + i) = .ok data[i]
  outside : ∀ c, c < start ∨ start + data.size ≤ c → t.read c = m.read c

section Rows

variable {size : Nat}

/-- Writes a row, and says why it was refused if it was. Then memory stays as it is. -/
def store (m : Memory size) (a : Int) (data : Array UInt8) : Memory size × Option Fault :=
  match m.writeBlock a data with
  | .ok t => (t, none)
  | .error f => (m, some f)

theorem overlays_overlay (m : Memory size) {a : Int} {data : Array UInt8} (ha : 0 ≤ a)
    (hstop : a + data.size ≤ size) : (m.overlay a.toNat data).Overlays m a data := by
  obtain ⟨start, rfl⟩ := Int.eq_ofNat_of_zero_le ha
  exact ⟨fun _ hi => m.read_overlay_inside hi (by omega), fun _ hc => m.read_overlay_outside hc⟩

/-- The bytes between two addresses are read off in only one way. -/
theorem HasRow.eq {m : Memory size} {a : Int} {row row' : List UInt8} (h : m.HasRow a row)
    (h' : m.HasRow a row') (hlen : row.length = row'.length) : row = row' := by
  refine List.ext_getElem hlen fun i hi hi' => ?_
  have hsame := (h i hi).symm.trans (h' i hi')
  exact Except.ok.inj hsame

theorem Overlays.readBlock {t m : Memory size} {a : Int} {data : Array UInt8}
    (h : t.Overlays m a data) (ha : 0 ≤ a) (hstop : 0 < a + data.size)
    (hstop' : a + data.size ≤ size) : t.readBlock a data.size = .ok data.toList := by
  obtain ⟨row, hread, hlen, hrow⟩ := t.readBlock_inside ha hstop hstop'
  have hdata : t.HasRow a data.toList := fun i hi => h.inside i (by simpa using hi)
  rw [hread, hrow.eq hdata (by simpa using hlen)]

theorem store_inside (m : Memory size) {a : Int} {data : Array UInt8} (ha : 0 ≤ a)
    (hstop : 0 < a + data.size) (hstop' : a + data.size ≤ size) :
    m.store a data = (m.overlay a.toNat data, none) := by
  unfold store
  rw [m.writeBlock_inside ha hstop hstop']

theorem store_refused (m : Memory size) {a : Int} {data : Array UInt8}
    (h : ¬ (0 ≤ a ∧ a + data.size ≤ size)) : ∃ f, m.store a data = (m, some f) := by
  unfold store
  by_cases hlast : a + data.size - 1 < 0 ∨ size ≤ a + data.size - 1
  · rw [m.writeBlock_outside hlast]
    exact ⟨_, rfl⟩
  · -- the last address is inside, so the first one is not
    have hbelow : a < 0 := by omega
    have hstop : 0 < a + data.size := by omega
    have hstop' : a + data.size ≤ size := by omega
    obtain ⟨_, -, hwrite⟩ := m.writeBlock_below hbelow hstop hstop'
    rw [hwrite]
    exact ⟨_, rfl⟩

/-- **A row is written as a whole or not at all.** It is written exactly if all its addresses lie in
memory. Then it stands there, every other byte is as it was, and reading any row inside memory gives
the bytes that stand there now; only no bytes at zero cannot be read, as they would end below it.
Otherwise the row is refused, and memory stays as it is. -/
theorem row_written_or_refused (m : Memory size) (a : Int) {data : Array UInt8}
    (hdata : 0 < data.size) :
    let t := m.store a data
    (t.2 = none ↔ 0 ≤ a ∧ a + data.size ≤ size) ∧
      (t.2 = none → t.1.Overlays m a data ∧ t.1.readBlock a data.size = .ok data.toList ∧
        ∀ b n : Nat, 0 < b + n → b + n ≤ size →
          ∃ row, t.1.readBlock b n = .ok row ∧ row.length = n ∧ t.1.HasRow b row) ∧
      (t.2 ≠ none → t.1 = m) := by
  intro t
  by_cases hin : 0 ≤ a ∧ a + data.size ≤ size
  · obtain ⟨ha, hstop⟩ := hin
    have ht : t = (m.overlay a.toNat data, none) := m.store_inside ha (by omega) hstop
    have hover : t.1.Overlays m a data := by
      rw [ht]
      exact m.overlays_overlay ha hstop
    refine ⟨iff_of_true (by rw [ht]) ⟨ha, hstop⟩, fun _ => ⟨hover, ?_, fun b n hn hend => ?_⟩,
      fun hrefused => absurd (by rw [ht]) hrefused⟩
    · exact hover.readBlock ha (by omega) hstop
    · exact t.1.readBlock_inside (by omega) (by omega) (by omega)
  · obtain ⟨f, ht⟩ := m.store_refused hin
    have hrefused : t.2 ≠ none := by
      show (m.store a data).2 ≠ none
      rw [ht]
      exact nofun
    refine ⟨iff_of_false hrefused hin, fun hnone => absurd hnone hrefused, fun _ => ?_⟩
    show (m.store a data).1 = m
    rw [ht]

/-- Five bytes that are all different. -/
def fiveBytes : Memory 5 := ⟨#v[1, 2, 3, 4, 5]⟩

/-- Two bytes at the top are written. Seven bytes from three below zero would end inside memory, and
are refused. -/
theorem row_written_or_refused_fiveBytes :
    0 < #[(8 : UInt8), 9].size ∧ (fiveBytes.store 3 #[8, 9]).2 = none ∧
      (fiveBytes.store 3 #[8, 9]).1.readBlock 3 2 = .ok [8, 9] ∧
      (fiveBytes.store 3 #[8, 9]).1.read 2 = .ok 3 ∧
      (fiveBytes.store (-3) (Array.replicate 7 9)).2 ≠ none ∧
      (fiveBytes.store (-3) (Array.replicate 7 9)).1 = fiveBytes := by
  have hdata : 0 < #[(8 : UInt8), 9].size := by decide
  have hdata' : 0 < (Array.replicate 7 (9 : UInt8)).size := by decide
  obtain ⟨hiff, hwritten, -⟩ := row_written_or_refused fiveBytes 3 hdata
  obtain ⟨hiff', -, hkept⟩ := row_written_or_refused fiveBytes (-3) hdata'
  have haccepted := hiff.mpr (by decide)
  obtain ⟨hover, hread, -⟩ := hwritten haccepted
  have hrefused : (fiveBytes.store (-3) (Array.replicate 7 9)).2 ≠ none :=
    fun hnone => absurd (hiff'.mp hnone) (by decide)
  exact ⟨hdata, haccepted, hread, (hover.outside 2 (.inl (by decide))).trans rfl, hrefused,
    hkept hrefused⟩

/-! ## The end that is checked -/

/-- **What becomes of a row, by where its ends lie.** If its last address is outside memory, reading
and writing refuse it and name that address. If the whole row is inside, reading gives its bytes and
writing lays them over. If it begins below zero and ends inside, reading does not refuse it: it
gives fewer bytes than were asked for, from the place that is counted from the end, and none at all
unless the row is longer than memory. Writing refuses such a row, but not for its address. -/
theorem rows_checked_at_end (m : Memory size) (a : Int) {n : Nat} (hn : 0 < n) :
    (a + n - 1 < 0 ∨ size ≤ a + n - 1 → m.readBlock a n = .error (.outOfRange (a + n - 1)) ∧
      ∀ data : Array UInt8, data.size = n →
        m.writeBlock a data = .error (.outOfRange (a + n - 1))) ∧
    (0 ≤ a → a + n ≤ size →
      (∃ row, m.readBlock a n = .ok row ∧ row.length = n ∧ m.HasRow a row) ∧
      ∀ data : Array UInt8, data.size = n →
        ∃ t, m.writeBlock a data = .ok t ∧ t.Overlays m a data) ∧
    (a < 0 → 0 ≤ a + n - 1 → a + n - 1 < size →
      (∃ row, m.readBlock a n = .ok row ∧ row.length < n ∧ (row = [] ↔ n ≤ size) ∧
        m.HasRow (max 0 (a + size)) row) ∧
      ∀ data : Array UInt8, data.size = n →
        ∃ width < n, m.writeBlock a data = .error (.lengthMismatch width n)) := by
  refine ⟨fun hlast => ⟨m.readBlock_outside hlast, ?_⟩, fun ha hstop => ⟨?_, ?_⟩,
    fun ha hlast hlast' => ⟨?_, ?_⟩⟩
  · rintro data rfl
    exact m.writeBlock_outside hlast
  · exact m.readBlock_inside ha (by omega) hstop
  · rintro data rfl
    exact ⟨_, m.writeBlock_inside ha (by omega) hstop, m.overlays_overlay ha hstop⟩
  · obtain ⟨row, hread, hlen, hrow⟩ := m.readBlock_below (n := n) ha (by omega) (by omega)
    refine ⟨row, hread, by omega, ?_, hrow⟩
    rw [← List.length_eq_zero_iff]
    omega
  · rintro data rfl
    exact m.writeBlock_below ha (by omega) (by omega)

/-- Seven bytes from three below zero: the check lets them through, and two bytes from the middle of
memory come back. -/
theorem rows_checked_at_end_fiveBytes :
    0 < 7 ∧ ∃ row, fiveBytes.readBlock (-3) (7 : Nat) = .ok row ∧ row.length < 7 ∧ row ≠ [] ∧
      fiveBytes.HasRow 2 row := by
  obtain ⟨-, -, hbelow⟩ := rows_checked_at_end fiveBytes (-3) (n := 7) (by decide)
  obtain ⟨⟨row, hread, hlen, hempty, hrow⟩, -⟩ := hbelow (by decide) (by decide) (by decide)
  exact ⟨by decide, row, hread, hlen, fun h => absurd (hempty.mp h) (by decide), hrow⟩

/-- Three of the seven addresses lie below zero, and neither access is refused for that. -/
theorem row_below_zero_read :
    fiveBytes.readBlock (-3) 7 = .ok [3, 4] ∧
      fiveBytes.writeBlock (-3) (Array.replicate 7 9) = .error (.lengthMismatch 2 7) ∧
      fiveBytes.read (-3) = .error (.outOfRange (-3)) :=
  ⟨rfl, rfl, rfl⟩

end Rows
end Memory
end ChipEight
