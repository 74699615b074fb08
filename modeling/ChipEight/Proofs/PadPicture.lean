import Mathlib.Data.List.Induction
import ChipEight.Proofs.PadPushes

/-!
# ChipEight.Proofs.PadPicture

Where a picture stands on the pad of a display in a terminal. The title has the first line, and each
pixel as many cells as the scale says. The last line and the last column stay free.

* `Pad.Writes`: a text is written on a pad, clear of the last line and the last column. Nothing else
  changes. `Pad.writes_write` is the one place that opens `Pad.write`.
* `PadPart`: the title or a pixel, and its cells. `PadPart.existsUnique`: a cell of the picture
  belongs to one of them and to no other.
* `TerminalDisplay.Shows`: what a history has left on the pad. `shows_resize` begins it,
  `shows_apply` is its step, and `shows_after` carries it through a history.
* `pad_holds_picture`: the pad after any history.
-/

namespace ChipEight

namespace Pad

theorem cell?_blank (rows columns r k : Nat) :
    (blank rows columns).cell? r k = if r < rows ∧ k < columns then some .blank else none := by
  unfold cell? blank
  split
  · simp
  · rfl

/-! ## Writing -/

section Write

variable (p : Pad) (row column : Nat) (text : List Char) (inverted : Bool)

theorem write_concat (c : Char) :
    p.write row column (text ++ [c]) inverted =
      (p.write row column text inverted).put row (column + text.length) ⟨c, inverted⟩ := by
  unfold write
  rw [List.zipIdx_append, List.foldl_append]
  simp

@[simp] theorem rows_write : (p.write row column text inverted).rows = p.rows := by
  induction text using List.reverseRecOn with
  | nil => rfl
  | append_singleton text c ih => rw [write_concat, rows_put, ih]

@[simp] theorem columns_write : (p.write row column text inverted).columns = p.columns := by
  induction text using List.reverseRecOn with
  | nil => rfl
  | append_singleton text c ih => rw [write_concat, columns_put, ih]

variable {p row column text}

theorem cell?_write_outside {r k : Nat}
    (h : r ≠ row ∨ k < column ∨ column + text.length ≤ k) :
    (p.write row column text inverted).cell? r k = p.cell? r k := by
  induction text using List.reverseRecOn with
  | nil => rfl
  | append_singleton text c ih =>
    rw [List.length_append, List.length_singleton] at h
    rw [write_concat, cell?_put, if_neg (by omega), ih (by omega)]

theorem cell?_write_inside (hrow : row < p.rows) (hcolumn : column + text.length ≤ p.columns)
    {i : Nat} (hi : i < text.length) :
    (p.write row column text inverted).cell? row (column + i) = some ⟨text[i], inverted⟩ := by
  induction text using List.reverseRecOn with
  | nil => exact absurd hi (Nat.not_lt_zero i)
  | append_singleton text c ih =>
    rw [List.length_append, List.length_singleton] at hcolumn hi
    rw [write_concat, cell?_put, rows_write, columns_write]
    by_cases hlast : i = text.length
    · subst hlast
      rw [if_pos ⟨hrow, by omega, rfl, by omega⟩, List.getElem_concat_length rfl]
    · rw [if_neg (by omega), ih (by omega) (by omega), List.getElem_append_left (by omega)]

/-- The pad `q` is the pad `p` with a text written on it, from a column of a line on. The text keeps
clear of the last line and of the last column, and no other cell changes. -/
structure Writes (p q : Pad) (row column : Nat) (text : List Char) (inverted : Bool) : Prop where
  rows : q.rows = p.rows
  columns : q.columns = p.columns
  clear : row + 1 < p.rows ∧ column + text.length < p.columns
  written : ∀ i (h : i < text.length), q.cell? row (column + i) = some ⟨text[i], inverted⟩
  kept : ∀ r k, (r ≠ row ∨ k < column ∨ column + text.length ≤ k) → q.cell? r k = p.cell? r k

theorem writes_write (hrow : row + 1 < p.rows) (hcolumn : column + text.length < p.columns) :
    p.Writes (p.write row column text inverted) row column text inverted where
  rows := rows_write p row column text inverted
  columns := columns_write p row column text inverted
  clear := ⟨hrow, hcolumn⟩
  written _ hi := cell?_write_inside inverted (by omega) (by omega) hi
  kept _ _ h := cell?_write_outside inverted h

end Write

end Pad

/-! ## The parts of a picture -/

/-- What the cells of a pad are for. -/
inductive PadPart where
  | title
  | pixel (x y : Nat)
deriving DecidableEq, Repr

namespace PadPart

/-- The parts of a picture of `w` by `h` pixels. -/
def Of (w h : Nat) : PadPart → Prop
  | .title => True
  | .pixel x y => x < w ∧ y < h

/-- The cells of a part, by line and column. -/
def Covers (scale w : Nat) : PadPart → Nat → Nat → Prop
  | .title, r, k => r = 0 ∧ k < w * scale
  | .pixel x y, r, k => r = y + 1 ∧ x * scale ≤ k ∧ k < x * scale + scale

instance (w h : Nat) : (part : PadPart) → Decidable (part.Of w h)
  | .title => isTrue trivial
  | .pixel _ _ => inferInstanceAs (Decidable (_ ∧ _))

instance (scale w : Nat) : (part : PadPart) → (r k : Nat) → Decidable (part.Covers scale w r k)
  | .title, _, _ => inferInstanceAs (Decidable (_ ∧ _))
  | .pixel _ _, _, _ => inferInstanceAs (Decidable (_ ∧ _ ∧ _))

variable {scale w h : Nat}

theorem end_le {x : Nat} (hx : x < w) : x * scale + scale ≤ w * scale := by
  rw [← Nat.succ_mul]
  exact Nat.mul_le_mul_right scale hx

theorem Covers.inside {part : PadPart} {r k : Nat} (hof : part.Of w h)
    (hcovers : part.Covers scale w r k) : r ≤ h ∧ k < w * scale := by
  cases part with
  | title => exact ⟨by have := hcovers.1; omega, hcovers.2⟩
  | pixel x y =>
    obtain ⟨hr, -, hk⟩ := hcovers
    have := hof.2
    exact ⟨by omega, Nat.lt_of_lt_of_le hk (end_le hof.1)⟩

theorem column_unique {x x' k : Nat} (h : x * scale ≤ k ∧ k < x * scale + scale)
    (h' : x' * scale ≤ k ∧ k < x' * scale + scale) : x = x' := by
  rw [← Nat.succ_mul] at h h'
  rw [← Nat.div_eq_of_lt_le h.1 h.2, ← Nat.div_eq_of_lt_le h'.1 h'.2]

theorem Covers.unique {part part' : PadPart} {r k : Nat} (h : part.Covers scale w r k)
    (h' : part'.Covers scale w r k) : part = part' := by
  cases part with
  | title =>
    cases part' with
    | title => rfl
    | pixel x' y' =>
      have := h.1
      have := h'.1
      omega
  | pixel x y =>
    cases part' with
    | title =>
      have := h.1
      have := h'.1
      omega
    | pixel x' y' =>
      have hx := column_unique h.2 h'.2
      have hy : y = y' := by
        have := h.1
        have := h'.1
        omega
      rw [hx, hy]

/-- Each cell of the picture belongs to one part. -/
theorem existsUnique {r k : Nat} (hr : r ≤ h) (hk : k < w * scale) :
    ∃! part : PadPart, part.Of w h ∧ part.Covers scale w r k := by
  have hone : ∃ part : PadPart, part.Of w h ∧ part.Covers scale w r k := by
    by_cases hzero : r = 0
    · exact ⟨.title, trivial, hzero, hk⟩
    · refine ⟨.pixel (k / scale) (r - 1), ⟨Nat.div_lt_of_lt_mul ?_, by omega⟩, by omega, ?_, ?_⟩
      · rwa [Nat.mul_comm]
      · exact Nat.div_mul_le_self k scale
      · have hscale : 0 < scale := Nat.pos_of_ne_zero fun h => by simp [h] at hk
        exact Nat.lt_div_mul_add hscale
  obtain ⟨part, hpart⟩ := hone
  exact ⟨part, hpart, fun part' hpart' => hpart'.2.unique hpart.2⟩

end PadPart

/-! ## Histories of a picture -/

namespace TerminalDisplay

open TerminalView (Event)

/-- An event while a picture of `w` by `h` pixels is shown: a pixel of it, or anything else that
begins no other picture. -/
def Inside (w h : Nat) : Event → Prop
  | .pixel x y _ => (0 ≤ x ∧ x < w) ∧ (0 ≤ y ∧ y < h)
  | .resolution _ _ => False
  | _ => True

/-- A title cut, or filled up with spaces, to a number of characters. -/
def titleLine (columns : Nat) (title : String) : List Char :=
  (title.toList.take columns).rightpad columns ' '

/-- What a history has left on the pad of a picture of `w` by `h` pixels. -/
structure Shows (scale w h : Nat) (d : TerminalDisplay) (es : List Event) : Prop where
  scale_eq : d.scale = scale
  width_eq : d.width = w
  rows_eq : d.pad.rows = h + 2
  columns_eq : d.pad.columns = w * scale + 1
  /-- The cells of a pixel are those of the last time that it was set. -/
  pixel (x y : Nat) (hof : (PadPart.pixel x y).Of w h) : ∃ lit : Bool,
    (lit ↔ LastOn (Event.pixel x y) es) ∧
    ∀ r k, (PadPart.pixel x y).Covers scale w r k → d.pad.cell? r k = some ⟨' ', lit⟩
  /-- The title is the one that was set last, unless no count is as large as the line is long. -/
  title (text : String) (hfits : Count.fits (w * scale : Nat) = true)
    (hlast : Since (fun _ e => e = .title text) (fun e => ∃ t, e = .title t) es) :
    ∀ k (hk : k < (titleLine (w * scale) text).length),
      d.pad.cell? 0 k = some ⟨(titleLine (w * scale) text)[k], true⟩

variable {scale w h : Nat} {d : TerminalDisplay} {es : List Event}

@[simp] theorem length_titleLine (columns : Nat) (title : String) :
    (titleLine columns title).length = columns := by
  simp [titleLine, List.rightpad]

theorem pixel_ne {x y x' y' : Nat} (h : ¬ (x' = x ∧ y' = y)) (lit lit' : Bool) :
    Event.pixel x y lit ≠ .pixel x' y' lit' := by
  intro heq
  obtain ⟨hx, hy, -⟩ := Event.pixel.inj heq
  exact h ⟨by omega, by omega⟩

/-! ### What is written -/

theorem titleText_eq {columns : Nat} (h : d.columns = columns) (title : String) :
    d.titleText title = titleLine columns title := by
  have hcut : Slice.initial title.toList d.columns = title.toList.take columns := by
    unfold Slice.initial
    rw [h, List.take_eq_take_iff, Slice.bound, if_neg (by omega)]
    omega
  unfold titleText titleLine
  dsimp only
  rw [hcut, h, List.rightpad]
  rfl

namespace Shows

variable (hshows : Shows scale w h d es)
include hshows

theorem columns_of : d.columns = ((w * scale : Nat) : Int) := by
  unfold columns
  rw [hshows.scale_eq, hshows.width_eq, Int.natCast_mul]

theorem writes_pixel {x y : Nat} (hof : (PadPart.pixel x y).Of w h) (lit : Bool) :
    d.pad.Writes (d.setPixel x y lit).pad (y + 1) (x * scale) (List.replicate scale ' ') lit := by
  have hpad : (d.setPixel x y lit).pad =
      d.pad.write ((y + 1 : Nat) : Int) ((x * scale : Nat) : Int) (List.replicate scale ' ')
        lit := by
    unfold setPixel pixelText
    rw [hshows.scale_eq, Int.toNat_natCast, Int.natCast_mul, Int.natCast_succ]
  have hy := hof.2
  have hend : x * scale + scale ≤ w * scale := PadPart.end_le hof.1
  rw [hpad]
  refine Pad.writes_write lit ?_ ?_
  · rw [hshows.rows_eq]
    omega
  · rw [hshows.columns_eq, List.length_replicate]
    omega

theorem setTitle_eq (hfits : Count.fits (w * scale : Nat) = true) (title : String) :
    d.setTitle title = .ok (d.writeTitle title) := by
  unfold setTitle Count.repeats
  rw [hshows.columns_of, if_pos hfits]
  rfl

theorem writes_title (title : String) :
    d.pad.Writes (d.writeTitle title).pad 0 0 (titleLine (w * scale) title) true := by
  have hpad : (d.writeTitle title).pad =
      d.pad.write ((0 : Nat) : Int) ((0 : Nat) : Int) (titleLine (w * scale) title) true := by
    unfold writeTitle
    rw [titleText_eq hshows.columns_of]
    rfl
  rw [hpad]
  refine Pad.writes_write true ?_ ?_
  · rw [hshows.rows_eq]
    omega
  · rw [hshows.columns_eq, length_titleLine]
    omega

/-! ### One event -/

theorem quiet {t : TerminalDisplay} {e : Event} (hscale : t.scale = d.scale)
    (hwidth : t.width = d.width) (hpad : t.pad = d.pad) (hpixel : ∀ x y lit, e ≠ .pixel x y lit)
    (htitle : Count.fits (w * scale : Nat) = true → ∀ text, e ≠ .title text) :
    Shows scale w h t (es ++ [e]) where
  scale_eq := hscale.trans hshows.scale_eq
  width_eq := hwidth.trans hshows.width_eq
  rows_eq := hpad ▸ hshows.rows_eq
  columns_eq := hpad ▸ hshows.columns_eq
  pixel x y hof := by
    obtain ⟨lit, hlast, hcells⟩ := hshows.pixel x y hof
    refine ⟨lit, ?_, hpad ▸ hcells⟩
    rw [hlast, lastOn_concat_of_ne (hpixel x y)]
  title text hfits hlast := by
    rw [since_concat] at hlast
    rcases hlast with hnow | ⟨-, hbefore⟩
    · exact absurd hnow (htitle hfits text)
    · exact hpad ▸ hshows.title text hfits hbefore

theorem setPixel {x y : Nat} (hof : (PadPart.pixel x y).Of w h) (lit : Bool) :
    Shows scale w h (d.setPixel x y lit) (es ++ [.pixel x y lit]) := by
  have hwrites := hshows.writes_pixel hof lit
  refine ⟨hshows.scale_eq, hshows.width_eq, hwrites.rows.trans hshows.rows_eq,
    hwrites.columns.trans hshows.columns_eq, fun x' y' hof' => ?_, fun text hfits hlast => ?_⟩
  · by_cases hsame : x' = x ∧ y' = y
    · obtain ⟨rfl, rfl⟩ := hsame
      refine ⟨lit, (lastOn_concat_set (by simp)).symm, fun r k hcovers => ?_⟩
      obtain ⟨rfl, hfirst, hbehind⟩ := hcovers
      obtain ⟨i, rfl⟩ := Nat.exists_eq_add_of_le hfirst
      have hcell := hwrites.written i (by rw [List.length_replicate]; omega)
      rwa [List.getElem_replicate] at hcell
    · obtain ⟨lit', hlast, hcells⟩ := hshows.pixel x' y' hof'
      refine ⟨lit', hlast.trans (lastOn_concat_of_ne (pixel_ne hsame lit)).symm,
        fun r k hcovers => ?_⟩
      have hother : ¬ (PadPart.pixel x y).Covers scale w r k := fun hcovers' =>
        hsame (by cases hcovers.unique hcovers'; exact ⟨rfl, rfl⟩)
      rw [← hcells r k hcovers]
      refine hwrites.kept r k ?_
      rw [List.length_replicate]
      unfold PadPart.Covers at hother
      omega
  · rw [since_concat] at hlast
    rcases hlast with hnow | ⟨-, hbefore⟩
    · cases hnow
    · intro k hk
      rw [hwrites.kept 0 k (.inl (by omega))]
      exact hshows.title text hfits hbefore k hk

theorem writeTitle (title : String) :
    Shows scale w h (d.writeTitle title) (es ++ [.title title]) := by
  have hwrites := hshows.writes_title title
  refine ⟨hshows.scale_eq, hshows.width_eq, hwrites.rows.trans hshows.rows_eq,
    hwrites.columns.trans hshows.columns_eq, fun x y hof => ?_, fun text _ hlast => ?_⟩
  · obtain ⟨lit, hlast, hcells⟩ := hshows.pixel x y hof
    refine ⟨lit, ?_, fun r k hcovers => ?_⟩
    · rw [hlast, lastOn_concat_of_ne (by simp)]
    · rw [hwrites.kept r k (.inl (by have := hcovers.1; omega))]
      exact hcells r k hcovers
  · rw [since_concat] at hlast
    rcases hlast with hnow | ⟨hends, -⟩
    · cases hnow
      intro k hk
      simpa using hwrites.written k hk
    · exact absurd ⟨title, rfl⟩ hends

end Shows

/-! ### A new picture -/

/-- A new pad is dark, and it has no title. -/
theorem shows_resize (hscale : d.scale = scale) (w h : Nat) :
    Shows scale w h (d.resize w h).1 [] := by
  have hresize : (d.resize w h).1 =
      { d with width := w, height := h, pad := .blank (h + 2) (w * scale + 1) } := by
    unfold resize padSize Pad.ofSize
    rw [hscale]
    rfl
  rw [hresize]
  refine ⟨hscale, rfl, rfl, rfl, fun x y hof => ⟨false, ?_, fun r k hcovers => ?_⟩,
    fun text _ hlast => absurd hlast not_since_nil⟩
  · simp [not_lastOn_nil]
  · obtain ⟨hr, hk⟩ := hcovers.inside hof
    dsimp only
    rw [Pad.cell?_blank, if_pos ⟨by omega, by omega⟩]
    rfl

end TerminalDisplay

namespace TerminalView

open TerminalDisplay

theorem scale_apply (v : TerminalView) (e : Event) :
    (v.apply e).1.display.scale = v.display.scale := by
  cases e with
  | pixel x y lit => rfl
  | title text =>
    rcases v.apply_title text with ⟨-, happly⟩ | ⟨-, happly⟩
    · rw [happly]
      rfl
    · rw [happly]
  | resolution width height => rfl
  | noPad width height => rfl
  | terminal rows columns => rfl
  | refresh changed =>
    unfold apply refresh
    dsimp only
    split
    · split <;> rfl
    · rfl

theorem scale_after (v : TerminalView) (es : List Event) :
    (v.after es).display.scale = v.display.scale := by
  induction es using List.reverseRecOn with
  | nil => rfl
  | append_singleton es e ih => rw [after_concat, scale_apply, ih]

theorem scale_start {scale : Int} {d : TerminalDisplay} {calls : List HostCall}
    (hstart : TerminalDisplay.start (some scale) = .ok (d, calls)) : d.scale = scale := by
  unfold TerminalDisplay.start at hstart
  cases hcount : Count.repeats ((some scale).getD usualScale) with
  | error f =>
    rw [hcount] at hstart
    cases hstart
  | ok n =>
    rw [hcount] at hstart
    cases hstart
    rfl

section Picture

variable {scale w h : Nat} {v : TerminalView} {es : List Event}

theorem shows_apply (hshows : Shows scale w h v.display es) {e : Event} (he : Inside w h e) :
    Shows scale w h (v.apply e).1.display (es ++ [e]) := by
  cases e with
  | pixel x y lit =>
    obtain ⟨⟨hx, hxw⟩, hy, hyh⟩ := he
    obtain ⟨x, rfl⟩ := Int.eq_ofNat_of_zero_le hx
    obtain ⟨y, rfl⟩ := Int.eq_ofNat_of_zero_le hy
    exact hshows.setPixel ⟨by omega, by omega⟩ lit
  | title text =>
    rcases v.apply_title text with ⟨-, happly⟩ | ⟨hrefused, happly⟩
    · rw [happly]
      exact hshows.writeTitle text
    · rw [happly]
      refine hshows.quiet rfl rfl rfl (by simp) fun hfits => ?_
      exact absurd ⟨text, rfl, by rw [hshows.setTitle_eq hfits]; rfl⟩ hrefused
  | resolution width height => exact he.elim
  | noPad width height => exact hshows.quiet rfl rfl rfl (by simp) (by simp)
  | terminal rows columns => exact hshows.quiet rfl rfl rfl (by simp) (by simp)
  | refresh changed =>
    show Shows scale w h (v.display.refresh v.terminal changed).1 _
    have hkept : ∀ t, (v.display.refresh t changed).1.scale = v.display.scale ∧
        (v.display.refresh t changed).1.width = v.display.width ∧
        (v.display.refresh t changed).1.pad = v.display.pad := by
      intro t
      unfold refresh
      split
      · split <;> exact ⟨rfl, rfl, rfl⟩
      · exact ⟨rfl, rfl, rfl⟩
    obtain ⟨hscale, hwidth, hpad⟩ := hkept v.terminal
    exact hshows.quiet hscale hwidth hpad (by simp) (by simp)

theorem shows_after (hshows : Shows scale w h v.display []) (hes : ∀ e ∈ es, Inside w h e) :
    Shows scale w h (v.after es).display es := by
  induction es using List.reverseRecOn with
  | nil => exact hshows
  | append_singleton es e ih =>
    rw [after_concat]
    exact shows_apply (ih fun d hd => hes d (List.mem_append_left _ hd)) (hes e (by simp))

end Picture

/-- **The picture on the pad.** Whatever happened before, a picture of `w` by `h` pixels gets a pad
of `h + 2` lines and `w * scale + 1` columns. After any history of it, each pixel is written on
`scale` cells of its own line, and a title on the first line, cut or filled up to the width of the
picture; neither reaches the last line or the last column. The cells of the pixels and of the title
do not overlap, and together they are the whole picture. Each of them holds what its own part was
last set to. Only a title is refused, and only if no count is as large as its line is long. -/
theorem pad_holds_picture {scale : Nat} {d : TerminalDisplay} {calls : List HostCall}
    (hstart : TerminalDisplay.start (some scale) = .ok (d, calls)) (rows columns : Nat)
    (resizable : Bool) (before : List Event) (w h : Nat) :
    let v := (opened d rows columns resizable).after before
    (∀ es, (∀ e ∈ es, Inside w h e) →
      let t := ((v.apply (.resolution w h)).1.after es).display
      Shows scale w h t es ∧
        (∀ x y, (PadPart.pixel x y).Of w h → ∀ lit,
          t.pad.Writes (t.setPixel x y lit).pad (y + 1) (x * scale) (List.replicate scale ' ')
            lit) ∧
        ∀ title, (Count.fits (w * scale : Nat) = true →
            t.setTitle title = .ok (t.writeTitle title)) ∧
          t.pad.Writes (t.writeTitle title).pad 0 0 (titleLine (w * scale) title) true ∧
          (titleLine (w * scale) title).length = w * scale) ∧
      (∀ r k, r ≤ h → k < w * scale →
        ∃! part : PadPart, part.Of w h ∧ part.Covers scale w r k) ∧
      ∀ (part : PadPart) r k, part.Of w h → part.Covers scale w r k → r ≤ h ∧ k < w * scale := by
  intro v
  have hscale : v.display.scale = scale := (scale_after _ before).trans (scale_start hstart)
  refine ⟨fun es hes => ?_, fun r k => PadPart.existsUnique,
    fun part r k hof hcovers => hcovers.inside hof⟩
  have hshows := shows_after (v := (v.apply (.resolution w h)).1) (shows_resize hscale w h) hes
  refine ⟨hshows, fun x y hof lit => hshows.writes_pixel hof lit, fun title => ?_⟩
  exact ⟨fun hfits => hshows.setTitle_eq hfits title, hshows.writes_title title,
    length_titleLine _ _⟩

/-- A title that is too long, and a pixel that is dark before it is lit. -/
def dotted : List Event := [.title "Score", .pixel 1 0 false, .pixel 1 0 true]

theorem inside_dotted : ∀ e ∈ dotted, Inside 2 1 e := by
  simp [dotted, Inside]

/-- Two pixels of two cells each: the second one is lit, the first one has never been set, and of
the title there are four characters. -/
theorem pad_holds_picture_dotted : ∃ d calls,
    TerminalDisplay.start (some (2 : Nat)) = .ok (d, calls) ∧
      let v := opened d 24 80 true
      let t := ((v.apply (.resolution 2 1)).1.after dotted).display
      (∀ e ∈ dotted, Inside 2 1 e) ∧
        t.pad.cell? 1 1 = some ⟨' ', false⟩ ∧ t.pad.cell? 1 2 = some ⟨' ', true⟩ ∧
        t.pad.cell? 0 3 = some ⟨'r', true⟩ := by
  obtain ⟨d, calls, hstart⟩ :
      ∃ d calls, TerminalDisplay.start (some (2 : Nat)) = .ok (d, calls) := ⟨_, _, rfl⟩
  obtain ⟨hpicture, -, -⟩ := pad_holds_picture hstart 24 80 true [] 2 1
  obtain ⟨hshows, -, -⟩ := hpicture dotted inside_dotted
  refine ⟨d, calls, hstart, inside_dotted, ?_, ?_, ?_⟩
  · obtain ⟨lit, hlast, hcells⟩ := hshows.pixel 0 0 (by decide)
    have hdark : lit = false := by
      rw [Bool.eq_false_iff]
      intro hlit
      obtain ⟨first, e, later, hsplit, rfl, -⟩ := hlast.mp hlit
      have hmem : Event.pixel 0 0 true ∈ dotted := by
        rw [hsplit]
        exact List.mem_append_right _ List.mem_cons_self
      exact absurd hmem (by decide)
    rw [hdark] at hcells
    exact hcells 1 1 (by decide)
  · obtain ⟨lit, hlast, hcells⟩ := hshows.pixel 1 0 (by decide)
    have hlit : lit = true :=
      hlast.mpr ⟨[.title "Score", .pixel 1 0 false], _, [], rfl, rfl, fun d hd => by cases hd⟩
    rw [hlit] at hcells
    exact hcells 1 2 (by decide)
  · exact hshows.title "Score" (by decide)
      ⟨[], _, [.pixel 1 0 false, .pixel 1 0 true], rfl, rfl, by simp⟩ 3 (by decide)

end TerminalView
end ChipEight
