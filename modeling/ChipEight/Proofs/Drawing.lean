import Mathlib.Algebra.Ring.Parity
import Mathlib.Data.List.Induction
import Mathlib.Data.List.Nodup
import ChipEight.Screen

/-!
# ChipEight.Proofs.Drawing

What is on the screen after any history of draws and clears. A sprite covers a cell (`Covers`) by
arithmetic on coordinates alone: the start is taken modulo the size of the screen, and what lies to
the right of the last column or below the last row is cut off. A cell is then lit exactly if the
draws since the last clear have covered it an odd number of times.

* `mem_covered`: the cells that a draw flips one after the other are those that the sprite covers.
* `lit_draw`, `erased_draw`: no cell comes twice among them, so a draw flips each covered cell once,
  and its collision flag speaks about the screen before the draw.
* `history_of_strokes`: the closed form, for every history.
-/

namespace ChipEight
namespace Screen

/-- How far a cell lies to the right of the column in which a draw at `x` starts. -/
def rightOf (x : Int) (c : Cell) : Int := c.x.val - x % 64

/-- How far a cell lies below the row in which a draw at `y` starts. -/
def below (y : Int) (c : Cell) : Int := c.y.val - y % 32

/-- A sprite drawn at `(x, y)` covers a cell. Its rows are numbers, the first column of each being
bit 7. -/
def Covers (rows : List Nat) (x y : Int) (c : Cell) : Prop :=
  0 ≤ below y c ∧ below y c < rows.length ∧ 0 ≤ rightOf x c ∧ rightOf x c < 8 ∧
    (rows.getD (below y c).toNat 0).testBit (7 - rightOf x c).toNat = true

instance (rows : List Nat) (x y : Int) (c : Cell) : Decidable (Covers rows x y c) :=
  inferInstanceAs (Decidable (_ ∧ _ ∧ _ ∧ _ ∧ _ = true))

/-! ## The cells of a draw -/

theorem mem_coveredRow {row : UInt8} {x : Nat} {y : Fin 32} {c : Cell} :
    c ∈ coveredRow row x y ↔
      c.y = y ∧ x ≤ c.x.val ∧ c.x.val < x + 8 ∧ bit row (c.x.val - x) = true := by
  simp only [coveredRow, List.mem_filterMap, List.mem_range]
  constructor
  · rintro ⟨column, hcol, h⟩
    split at h
    · split at h
      · rename_i hbit
        cases h
        refine ⟨rfl, Nat.le_add_right _ _, Nat.add_lt_add_left hcol x, ?_⟩
        rw [Nat.add_sub_cancel_left]
        exact hbit
      · cases h
    · cases h
  · rintro ⟨rfl, hle, hlt, hbit⟩
    have hx : x + (c.x.val - x) = c.x.val := by omega
    refine ⟨c.x.val - x, by omega, ?_⟩
    rw [dif_pos (by omega), if_pos hbit]
    simp only [hx]

theorem mem_coveredFrom {x : Nat} {c : Cell} {sprite : List UInt8} :
    ∀ {y : Nat}, c ∈ coveredFrom x sprite y ↔
      x ≤ c.x.val ∧ c.x.val < x + 8 ∧
        ∃ k row, sprite[k]? = some row ∧ c.y.val = y + k ∧ bit row (c.x.val - x) = true := by
  induction sprite with
  | nil => intro y; simp [coveredFrom]
  | cons row rest ih =>
    intro y
    rw [coveredFrom]
    have hc := c.y.isLt
    by_cases hy : y < 32
    · rw [dif_pos hy, List.mem_append, mem_coveredRow, ih]
      constructor
      · rintro (⟨hrow, hle, hlt, hbit⟩ | ⟨hle, hlt, k, r, hk, hrow, hbit⟩)
        · exact ⟨hle, hlt, 0, row, rfl, by rw [hrow]; rfl, hbit⟩
        · exact ⟨hle, hlt, k + 1, r, hk, by omega, hbit⟩
      · rintro ⟨hle, hlt, k, r, hk, hrow, hbit⟩
        cases k with
        | zero =>
          cases hk
          exact .inl ⟨Fin.ext hrow, hle, hlt, hbit⟩
        | succ k => exact .inr ⟨hle, hlt, k, r, hk, by omega, hbit⟩
    · rw [dif_neg hy]
      constructor
      · intro h; cases h
      · rintro ⟨_, _, k, _, _, hrow, _⟩; omega

theorem mem_covered {sprite : List UInt8} {x y : Int} {c : Cell} :
    c ∈ covered sprite x y ↔ Covers (sprite.map UInt8.toNat) x y c := by
  have hx : ((x % 64).toNat : Int) = x % 64 := Int.toNat_of_nonneg (by omega)
  have hy : ((y % 32).toNat : Int) = y % 32 := Int.toNat_of_nonneg (by omega)
  unfold covered Covers
  rw [mem_coveredFrom, List.length_map]
  constructor
  · rintro ⟨hle, hlt, k, row, hk, hrow, hbit⟩
    have hlen : k < sprite.length := (List.getElem?_eq_some_iff.mp hk).1
    have hb : (below y c).toNat = k := by unfold below; omega
    have hr : (7 - rightOf x c).toNat = 7 - (c.x.val - (x % 64).toNat) := by
      unfold rightOf; omega
    refine ⟨by unfold below; omega, by unfold below; omega, by unfold rightOf; omega,
      by unfold rightOf; omega, ?_⟩
    rw [hb, hr, List.getD_eq_getElem?_getD, List.getElem?_map, hk]
    exact hbit
  · rintro ⟨hb0, hb1, hr0, hr1, hbit⟩
    have hb : c.y.val = (y % 32).toNat + (below y c).toNat := by unfold below at *; omega
    have hr : (7 - rightOf x c).toNat = 7 - (c.x.val - (x % 64).toNat) := by
      unfold rightOf at *; omega
    have hlen : (below y c).toNat < sprite.length := by omega
    refine ⟨by unfold rightOf at *; omega, by unfold rightOf at *; omega, (below y c).toNat,
      sprite[(below y c).toNat], List.getElem?_eq_getElem hlen, hb, ?_⟩
    rw [hr, List.getD_eq_getElem?_getD, List.getElem?_map, List.getElem?_eq_getElem hlen] at hbit
    exact hbit

theorem nodup_coveredRow (row : UInt8) (x : Nat) (y : Fin 32) : (coveredRow row x y).Nodup := by
  refine List.Nodup.filterMap ?_ List.nodup_range
  intro i j c hi hj
  split at hi
  · split at hi
    · split at hj
      · split at hj
        · cases hi
          simp only [Option.mem_def, Option.some.injEq, Cell.mk.injEq, Fin.mk.injEq] at hj
          omega
        · cases hj
      · cases hj
    · cases hi
  · cases hi

theorem nodup_coveredFrom (x : Nat) (sprite : List UInt8) :
    ∀ y : Nat, (coveredFrom x sprite y).Nodup := by
  induction sprite with
  | nil => intro y; exact List.nodup_nil
  | cons row rest ih =>
    intro y
    rw [coveredFrom]
    split
    · rename_i hy
      refine (nodup_coveredRow row x ⟨y, hy⟩).append (ih (y + 1)) ?_
      -- the first row stays in row `y`, the others begin in the next one
      intro c hfirst hrest
      obtain ⟨hrow, -⟩ := mem_coveredRow.mp hfirst
      obtain ⟨-, -, k, _, -, hk, -⟩ := mem_coveredFrom.mp hrest
      rw [hrow] at hk
      simp only at hk
      omega
    · exact List.nodup_nil

theorem nodup_covered (sprite : List UInt8) (x y : Int) : (covered sprite x y).Nodup :=
  nodup_coveredFrom _ _ _

/-! ## One draw -/

/-- The flag of the fold only collects. -/
theorem foldl_flip (cells : List Cell) : ∀ (s : Screen) (b : Bool),
    cells.foldl (fun (s, erased) c => (s.flip c, erased || s.lit c)) (s, b) =
      ((s.flipAll cells).1, b || (s.flipAll cells).2) := by
  induction cells with
  | nil => intro s b; simp [flipAll]
  | cons c rest ih =>
    intro s b
    simp only [flipAll, List.foldl_cons, Bool.false_or]
    rw [ih, ih (s.flip c) (s.lit c), Bool.or_assoc]

theorem flipAll_cons (s : Screen) (c : Cell) (rest : List Cell) :
    s.flipAll (c :: rest) =
      (((s.flip c).flipAll rest).1, s.lit c || ((s.flip c).flipAll rest).2) := by
  rw [flipAll, List.foldl_cons]
  exact foldl_flip rest (s.flip c) (s.lit c)

theorem lit_flipAll {cells : List Cell} (h : cells.Nodup) :
    ∀ (s : Screen) (d : Cell), (s.flipAll cells).1.lit d = (s.lit d ^^ decide (d ∈ cells)) := by
  induction cells with
  | nil => intro s d; simp [flipAll]
  | cons c rest ih =>
    intro s d
    obtain ⟨hc, hrest⟩ := List.nodup_cons.mp h
    rw [flipAll_cons, ih hrest]
    by_cases hd : d = c
    · subst hd
      simp [hc]
    · rw [lit_flip_other s (Ne.symm hd)]
      simp [hd]

theorem erased_flipAll {cells : List Cell} (h : cells.Nodup) :
    ∀ s : Screen, (s.flipAll cells).2 = true ↔ ∃ c ∈ cells, s.lit c = true := by
  induction cells with
  | nil => intro s; simp [flipAll]
  | cons c rest ih =>
    intro s
    obtain ⟨hc, hrest⟩ := List.nodup_cons.mp h
    have hsame : ∀ d ∈ rest, (s.flip c).lit d = s.lit d := fun d hd =>
      lit_flip_other s fun e => hc (e ▸ hd)
    rw [flipAll_cons, Bool.or_eq_true, ih hrest, List.exists_mem_cons_iff]
    refine or_congr Iff.rfl ⟨?_, ?_⟩
    · rintro ⟨d, hd, hlit⟩; exact ⟨d, hd, hsame d hd ▸ hlit⟩
    · rintro ⟨d, hd, hlit⟩; exact ⟨d, hd, (hsame d hd).symm ▸ hlit⟩

theorem lit_draw (s : Screen) (sprite : List UInt8) (x y : Int) (c : Cell) :
    (s.draw sprite x y).1.lit c =
      (s.lit c ^^ decide (Covers (sprite.map UInt8.toNat) x y c)) := by
  rw [draw, lit_flipAll (nodup_covered sprite x y)]
  simp only [mem_covered]

theorem erased_draw (s : Screen) (sprite : List UInt8) (x y : Int) :
    (s.draw sprite x y).2 = true ↔
      ∃ c, Covers (sprite.map UInt8.toNat) x y c ∧ s.lit c = true := by
  rw [draw, erased_flipAll (nodup_covered sprite x y)]
  simp only [mem_covered]

/-- The cells are all there is to a screen. -/
theorem ext_lit {s t : Screen} (h : ∀ c, s.lit c = t.lit c) : s = t := by
  have hcells : s.cells = t.cells := by
    apply Vector.ext
    intro i hi
    have hindex : (Cell.index ⟨⟨i % 64, by omega⟩, ⟨i / 64, by omega⟩⟩).val = i := by
      show i / 64 * 64 + i % 64 = i
      omega
    have hc := h ⟨⟨i % 64, by omega⟩, ⟨i / 64, by omega⟩⟩
    simp only [lit, Fin.getElem_fin, hindex] at hc
    exact hc
  cases s; cases t
  exact congrArg Screen.mk hcells

theorem pixel_cell (s : Screen) (c : Cell) : s.pixel c.x.val c.y.val = .ok (s.lit c) := by
  have hx := c.x.isLt
  have hy := c.y.isLt
  have hplace : ((c.y.val : Int) * 64 + c.x.val).toNat = c.index.val := by
    simp only [Cell.index]; omega
  unfold pixel pixelAt
  simp only [show ¬ (c.y.val : Int) * 64 + c.x.val < 0 by omega, if_false]
  rw [dif_pos (by omega)]
  simp only [hplace, lit, Fin.getElem_fin]

/-! ## Histories -/

/-- What is done to a screen from outside. -/
inductive Stroke where
  | draw (sprite : List UInt8) (x y : Int)
  | clear
deriving DecidableEq, Repr

/-- The screen after a stroke. A sprite that is too tall leaves it as it is. -/
def stroke (s : Screen) : Stroke → Screen
  | .draw sprite x y =>
    match s.draw? sprite x y with
    | .ok (t, _) => t
    | .error _ => s
  | .clear => blank

/-- The screen after a history of strokes, the first of them first. -/
def after (s : Screen) (history : List Stroke) : Screen := history.foldl stroke s

/-- A stroke covers a cell: it is a draw that is not refused, and its sprite covers the cell. -/
def Stroke.Covers (c : Cell) : Stroke → Prop
  | .draw sprite x y => sprite.length ≤ 15 ∧ Screen.Covers (sprite.map UInt8.toNat) x y c
  | .clear => False

instance (c : Cell) : DecidablePred (Stroke.Covers c)
  | .draw _ _ _ => inferInstanceAs (Decidable (_ ∧ _))
  | .clear => inferInstanceAs (Decidable False)

/-- How often a cell has been covered since the last clear. -/
def coverings (history : List Stroke) (c : Cell) : Nat :=
  (history.reverse.takeWhile (· ≠ .clear)).countP fun k => decide (k.Covers c)

theorem stroke_draw (s : Screen) {sprite : List UInt8} (x y : Int) (h : sprite.length ≤ 15) :
    s.stroke (.draw sprite x y) = (s.draw sprite x y).1 := by
  simp only [stroke, draw?, if_neg (Nat.not_lt.mpr h)]

theorem stroke_tall (s : Screen) {sprite : List UInt8} (x y : Int) (h : 15 < sprite.length) :
    s.stroke (.draw sprite x y) = s := by
  simp only [stroke, draw?, if_pos h]

theorem after_concat (s : Screen) (history : List Stroke) (k : Stroke) :
    s.after (history ++ [k]) = (s.after history).stroke k := by
  simp only [after, List.foldl_append, List.foldl_cons, List.foldl_nil]

theorem coverings_clear (history : List Stroke) (c : Cell) :
    coverings (history ++ [.clear]) c = 0 := by
  simp [coverings]

theorem coverings_draw (history : List Stroke) (sprite : List UInt8) (x y : Int) (c : Cell) :
    coverings (history ++ [.draw sprite x y]) c =
      coverings history c + if Stroke.Covers c (.draw sprite x y) then 1 else 0 := by
  simp [coverings, List.countP_cons]

/-- One more stroke: a covering draw changes the parity, any other keeps it, a clear starts anew. -/
theorem lit_after (history : List Stroke) (c : Cell) :
    (blank.after history).lit c = decide (Odd (coverings history c)) := by
  induction history using List.reverseRecOn with
  | nil => simp [after, coverings]
  | append_singleton history k ih =>
    rw [after_concat]
    cases k with
    | clear => simp [stroke, coverings_clear]
    | draw sprite x y =>
      rw [coverings_draw]
      by_cases hlen : sprite.length ≤ 15
      · rw [stroke_draw _ x y hlen, lit_draw, ih]
        by_cases hc : Covers (sprite.map UInt8.toNat) x y c
        · rw [if_pos ⟨hlen, hc⟩, decide_eq_true hc, Bool.xor_true, ← decide_not]
          exact decide_eq_decide.mpr Nat.odd_add_one.symm
        · simp [Stroke.Covers, hc]
      · rw [stroke_tall _ x y (Nat.not_le.mp hlen), ih]
        simp [Stroke.Covers, hlen]

/-- **Drawing in closed form.** After any history a pixel is lit exactly if the draws since the
last clear have covered it an odd number of times. The next draw succeeds up to fifteen rows, and
then reports a collision exactly if it covers a lit pixel; a taller one is refused and changes
nothing. -/
theorem history_of_strokes (history : List Stroke) :
    (∀ c : Cell, (blank.after history).pixel c.x.val c.y.val =
      .ok (decide (Odd (coverings history c)))) ∧
    (∀ (sprite : List UInt8) (x y : Int), sprite.length ≤ 15 →
      ∃ erased, (blank.after history).draw? sprite x y =
          .ok (blank.after (history ++ [.draw sprite x y]), erased) ∧
        (erased = true ↔ ∃ c : Cell, Covers (sprite.map UInt8.toNat) x y c ∧
          (blank.after history).pixel c.x.val c.y.val = .ok true)) ∧
    ∀ (sprite : List UInt8) (x y : Int), 15 < sprite.length →
      (blank.after history).draw? sprite x y = .error .tooTall ∧
        blank.after (history ++ [.draw sprite x y]) = blank.after history := by
  refine ⟨fun c => ?_, fun sprite x y hlen => ?_, fun sprite x y hlen => ?_⟩
  · rw [pixel_cell, lit_after]
  · refine ⟨((blank.after history).draw sprite x y).2, ?_, ?_⟩
    · rw [after_concat, stroke_draw _ x y hlen, draw?, if_neg (Nat.not_lt.mpr hlen)]
    · rw [erased_draw]
      simp only [pixel_cell, Except.ok.injEq]
  · refine ⟨?_, ?_⟩
    · rw [draw?, if_pos hlen]
    · rw [after_concat, stroke_tall _ x y hlen]

/-- At the right edge: the first draw starts at column 63 of row 1 and loses seven columns, the
second meets it there and reports so, and sixteen rows are refused. -/
theorem history_of_strokes_edge :
    (blank.after [.draw [0x81] (-1) 33]).draw? [0xC0] 62 (-31) =
        .ok (blank.after [.draw [0x81] (-1) 33, .draw [0xC0] 62 (-31)], true) ∧
      (blank.after [.draw [0x81] (-1) 33, .draw [0xC0] 62 (-31)]).pixel 62 1 = .ok true ∧
      (blank.after [.draw [0x81] (-1) 33]).draw? (List.replicate 16 0xFF) 0 0 =
        .error .tooTall := by
  obtain ⟨hfirst, hnext, htall⟩ := history_of_strokes [.draw [0x81] (-1) 33]
  obtain ⟨erased, hdraw, hflag⟩ := hnext [0xC0] 62 (-31) (by decide)
  have hlit : (blank.after [.draw [0x81] (-1) 33]).pixel 63 1 = .ok true :=
    (hfirst ⟨63, 1⟩).trans (by decide)
  have herased : erased = true := hflag.mpr ⟨⟨63, 1⟩, by decide, hlit⟩
  refine ⟨by rw [hdraw, herased]; rfl, ?_, (htall (List.replicate 16 0xFF) 0 0 (by decide)).1⟩
  exact ((history_of_strokes [.draw [0x81] (-1) 33, .draw [0xC0] 62 (-31)]).1 ⟨62, 1⟩).trans
    (by decide)

end Screen
end ChipEight
