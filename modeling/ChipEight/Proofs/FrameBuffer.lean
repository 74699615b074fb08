import Mathlib.Data.List.Induction
import ChipEight.Display.Terminal
import ChipEight.Display.Window
import ChipEight.Proofs.Histories

/-!
# ChipEight.Proofs.FrameBuffer

The buffer of a display in a window. It has three bytes for each pixel, row by row, and they are the
colour that the pixel was last set to.

* `colourAt`: the three bytes from a place on. `colourAt_paint_same`, `colourAt_paint_other` and
  `colourAt_filled` say what painting and filling do to them.
* `setPixel_inside`: a pixel of the picture is painted in its own place.
* `Keeps`: what a history has left in the buffer. `keeps_resize` begins it, `Keeps.paint` is its
  step, and `keeps_after` carries it through a history.
* `buffer_holds_picture`: the buffer after any history, and the only size that is refused.
-/

namespace ChipEight
namespace WindowDisplay

/-! ## Bytes -/

/-- The colour that stands in a buffer from a place on. -/
def colourAt (buffer : Array UInt8) (place : Nat) : Option Rgb :=
  match buffer[place]?, buffer[place + 1]?, buffer[place + 2]? with
  | some red, some green, some blue => some ⟨red, green, blue⟩
  | _, _, _ => none

section Paint

variable {buffer : Array UInt8} {place place' : Nat} (c : Rgb)

@[simp] theorem size_paint (buffer : Array UInt8) (place : Nat) :
    (paint buffer place c).size = buffer.size := by
  simp [paint]

theorem colourAt_paint_same (h : place + 3 ≤ buffer.size) :
    colourAt (paint buffer place c) place = some c := by
  have hred : place < buffer.size := by omega
  have hgreen : place + 1 < buffer.size := by omega
  have hblue : place + 2 < buffer.size := by omega
  simp [colourAt, paint, hred, hgreen, hblue]

theorem getElem?_paint_other {i : Nat} (h : i < place ∨ place + 3 ≤ i) :
    (paint buffer place c)[i]? = buffer[i]? := by
  unfold paint
  rw [Array.getElem?_setIfInBounds_ne (by omega), Array.getElem?_setIfInBounds_ne (by omega),
    Array.getElem?_setIfInBounds_ne (by omega)]

theorem colourAt_paint_other (h : place' + 3 ≤ place ∨ place + 3 ≤ place') :
    colourAt (paint buffer place c) place' = colourAt buffer place' := by
  unfold colourAt
  rw [getElem?_paint_other c (by omega), getElem?_paint_other c (by omega),
    getElem?_paint_other c (by omega)]

end Paint

theorem size_filled (n : Nat) (c : Rgb) : (filled n c).size = 3 * n := by
  simp [filled]
  omega

theorem getElem?_filled {n i j : Nat} (c : Rgb) (hi : i < n) (hj : j < 3) :
    (filled n c)[3 * i + j]? = [c.red, c.green, c.blue][j]? := by
  unfold filled
  rw [List.getElem?_toArray]
  induction n generalizing i with
  | zero => exact absurd hi (Nat.not_lt_zero i)
  | succ n ih =>
    rw [List.replicate_succ, List.flatten_cons]
    cases i with
    | zero => rw [List.getElem?_append_left (by simpa using hj), Nat.mul_zero, Nat.zero_add]
    | succ i =>
      have hrest : 3 * (i + 1) + j - [c.red, c.green, c.blue].length = 3 * i + j := by
        simp only [List.length_cons, List.length_nil]
        omega
      rw [List.getElem?_append_right (by simp; omega), hrest, ih (by omega)]

theorem colourAt_filled {n i : Nat} (c : Rgb) (h : i < n) :
    colourAt (filled n c) (3 * i) = some c := by
  have hred := getElem?_filled c h (j := 0) (by decide)
  have hgreen := getElem?_filled c h (j := 1) (by decide)
  have hblue := getElem?_filled c h (j := 2) (by decide)
  rw [Nat.add_zero] at hred
  unfold colourAt
  rw [hred, hgreen, hblue]
  rfl

/-! ## Histories -/

/-- What is done with the picture in a window. -/
inductive Event where
  | resolution (width height : Int)
  | pixel (x y : Int) (lit : Bool)
deriving DecidableEq, Repr

/-- One event, and why it was refused if it was. A pixel that is refused changes nothing. -/
def apply (d : WindowDisplay) : Event → WindowDisplay × Option Fault
  | .resolution width height => ((d.resize width height).1, (d.resize width height).2.2)
  | .pixel x y lit =>
    match d.setPixel x y lit with
    | .ok t => (t, none)
    | .error f => (d, some f)

def after (d : WindowDisplay) (es : List Event) : WindowDisplay :=
  es.foldl (fun t e => (t.apply e).1) d

theorem after_concat (d : WindowDisplay) (es : List Event) (e : Event) :
    d.after (es ++ [e]) = ((d.after es).apply e).1 := List.foldl_append

/-- The pixels of a picture of `w` by `h`. -/
def IsPixel (w h : Nat) (e : Event) : Prop := ∃ x y : Nat, x < w ∧ y < h ∧ ∃ lit, e = .pixel x y lit

/-- What a history has left in the buffer of a picture of `w` by `h` pixels. -/
structure Keeps (palette : Palette) (w h : Nat) (d : WindowDisplay) (es : List Event) : Prop where
  palette_eq : d.palette = palette
  stride_eq : d.stride = w
  size_eq : d.buffer.size = 3 * (w * h)
  pixel (x y : Nat) (hx : x < w) (hy : y < h) : ∃ lit : Bool, (lit ↔ LastOn (Event.pixel x y) es) ∧
    colourAt d.buffer (3 * (y * w + x)) = some (palette.colour lit)

section Picture

variable {palette : Palette} {w h x y x' y' : Nat} {d : WindowDisplay} {es : List Event}

theorem place_le (hx : x < w) (hy : y < h) : 3 * (y * w + x) + 3 ≤ 3 * (w * h) := by
  have := Pad.place_lt hy hx
  rw [Nat.mul_comm h] at this
  omega

/-- Two pixels that differ have no byte in common. -/
theorem places_apart (hx : x < w) (hx' : x' < w) (hne : ¬ (x' = x ∧ y' = y)) :
    3 * (y' * w + x') + 3 ≤ 3 * (y * w + x) ∨ 3 * (y * w + x) + 3 ≤ 3 * (y' * w + x') := by
  have : y' * w + x' ≠ y * w + x := fun heq => by
    obtain ⟨hy, hx⟩ := Pad.place_inj hx' hx heq
    exact hne ⟨hx, hy⟩
  omega

theorem setPixel_inside (hkeeps : Keeps palette w h d es) (hx : x < w) (hy : y < h) (lit : Bool) :
    d.setPixel x y lit = .ok { d with
      buffer := paint d.buffer (3 * (y * w + x)) (palette.colour lit) } := by
  have hplace : d.place x y = ((3 * (y * w + x) : Nat) : Int) := by
    unfold place
    rw [hkeeps.stride_eq]
    push_cast
    exact Int.mul_comm _ _
  -- both ends lie in the buffer, so neither is counted from behind or moved to its end
  have hend := place_le hx hy
  rw [← hkeeps.size_eq] at hend
  have hstart : Slice.bound d.buffer.size (d.place x y) = 3 * (y * w + x) := by
    rw [hplace, Slice.bound_of_mem (by omega) (by omega), Int.toNat_natCast]
  have hstop : Slice.bound d.buffer.size (d.place x y + 3) = 3 * (y * w + x) + 3 := by
    rw [hplace, Slice.bound_of_mem (by omega) (by omega)]
    omega
  have hholds : d.holds x y = true := by
    unfold holds Slice.width
    rw [hstart, hstop, Nat.add_sub_cancel_left]
    rfl
  unfold setPixel paintAt
  rw [if_pos hholds, hstart, hkeeps.palette_eq]

theorem pixel_ne (h : ¬ (x' = x ∧ y' = y)) (lit lit' : Bool) :
    Event.pixel x y lit ≠ .pixel x' y' lit' := by
  intro heq
  obtain ⟨hx, hy, -⟩ := Event.pixel.inj heq
  exact h ⟨by omega, by omega⟩

theorem Keeps.apply_pixel (hkeeps : Keeps palette w h d es) (hx : x < w) (hy : y < h)
    (lit : Bool) :
    d.apply (.pixel x y lit) =
      ({ d with buffer := paint d.buffer (3 * (y * w + x)) (palette.colour lit) }, none) := by
  unfold apply
  dsimp only
  rw [setPixel_inside hkeeps hx hy]

theorem Keeps.pixel_other (hkeeps : Keeps palette w h d es) (hx : x < w) (hy : y < h) (lit : Bool)
    (hx' : x' < w) (hne : ¬ (x' = x ∧ y' = y)) :
    colourAt (d.apply (.pixel x y lit)).1.buffer (3 * (y' * w + x')) =
      colourAt d.buffer (3 * (y' * w + x')) := by
  rw [hkeeps.apply_pixel hx hy]
  exact colourAt_paint_other _ (places_apart hx hx' hne)

theorem Keeps.apply (hkeeps : Keeps palette w h d es) {e : Event} (he : IsPixel w h e) :
    Keeps palette w h (d.apply e).1 (es ++ [e]) := by
  obtain ⟨x, y, hx, hy, lit, rfl⟩ := he
  refine ⟨?_, ?_, ?_, fun x' y' hx' hy' => ?_⟩
  · rw [hkeeps.apply_pixel hx hy]
    exact hkeeps.palette_eq
  · rw [hkeeps.apply_pixel hx hy]
    exact hkeeps.stride_eq
  · rw [hkeeps.apply_pixel hx hy, size_paint, hkeeps.size_eq]
  · by_cases hsame : x' = x ∧ y' = y
    · obtain ⟨rfl, rfl⟩ := hsame
      refine ⟨lit, (lastOn_concat_set (by simp)).symm, ?_⟩
      rw [hkeeps.apply_pixel hx hy]
      exact colourAt_paint_same _ (hkeeps.size_eq ▸ place_le hx hy)
    · obtain ⟨lit', hlast, hcolour⟩ := hkeeps.pixel x' y' hx' hy'
      refine ⟨lit', hlast.trans (lastOn_concat_of_ne (pixel_ne hsame lit)).symm, ?_⟩
      rw [hkeeps.pixel_other hx hy lit hx' hsame, hcolour]

theorem keeps_after (hkeeps : Keeps palette w h d []) (hes : ∀ e ∈ es, IsPixel w h e) :
    Keeps palette w h (d.after es) es := by
  induction es using List.reverseRecOn with
  | nil => exact hkeeps
  | append_singleton es e ih =>
    rw [after_concat]
    exact (ih fun e he => hes e (List.mem_append_left _ he)).apply (hes e (by simp))

/-! ## A new picture -/

theorem palette_apply (d : WindowDisplay) (e : Event) : (d.apply e).1.palette = d.palette := by
  cases e with
  | resolution width height =>
    unfold apply resize
    dsimp only
    split <;> rfl
  | pixel x y lit =>
    unfold apply setPixel
    dsimp only
    split
    · rename_i hok
      split at hok
      · cases hok
        rfl
      · cases hok
    · rfl

theorem palette_after (d : WindowDisplay) (es : List Event) :
    (d.after es).palette = d.palette := by
  induction es using List.reverseRecOn with
  | nil => rfl
  | append_singleton es e ih => rw [after_concat, palette_apply, ih]

theorem ofInt_natCast (n : Nat) :
    Count.ofInt n = if Count.fits n then .ok n else .error .tooLarge := by
  unfold Count.ofInt
  rw [if_neg (Int.not_lt.mpr (Int.natCast_nonneg n)), Int.toNat_natCast]

theorem bytes_eq (w h : Nat) : (w : Int) * h * 3 = ((3 * (w * h) : Nat) : Int) := by
  push_cast
  exact Int.mul_comm _ _

theorem keeps_resize (d : WindowDisplay) (hsize : Count.fits (3 * (w * h) : Nat) = true) :
    (d.resize w h).2.2 = none ∧ Keeps d.palette w h (d.resize w h).1 [] := by
  have hpixels : ((w : Int) * h).toNat = w * h := by
    rw [← Int.natCast_mul, Int.toNat_natCast]
  unfold resize
  dsimp only
  rw [bytes_eq, ofInt_natCast, if_pos hsize, hpixels]
  refine ⟨rfl, rfl, rfl, size_filled _ _, fun x y hx hy => ⟨false, ?_, ?_⟩⟩
  · simp [not_lastOn_nil]
  · refine colourAt_filled _ ?_
    rw [Nat.mul_comm w]
    exact Pad.place_lt hy hx

/-- A picture is refused if a buffer cannot be as large. The old buffer stays. -/
theorem resize_of_tooLarge (d : WindowDisplay) (hsize : ¬ Count.fits (3 * (w * h) : Nat) = true) :
    d.resize w h = ({ d with stride := w }, [], some (.size .tooLarge)) := by
  unfold resize
  dsimp only
  rw [bytes_eq, ofInt_natCast, if_neg hsize]

end Picture

theorem start_eq_ok (scale : Option Int) {background foreground : Argument String} (title : String)
    {b f : Rgb} (hb : Palette.choose Palette.usualBackground background = .ok b)
    (hf : Palette.choose Palette.usualForeground foreground = .ok f) :
    ∃ d, (start scale background foreground title).2 = .ok d ∧ d.palette = ⟨b, f⟩ := by
  unfold start Palette.read
  rw [hb]
  dsimp only
  rw [hf]
  exact ⟨_, rfl, rfl⟩

/-- **The picture in the buffer.** Whatever happened before, a picture of `w` by `h` pixels gets a
buffer of three bytes for each of them, unless a buffer cannot be as large; then the old one stays.
After any history of pixels of the picture, each has the colour that it was last set to in its own
three bytes, and that of dark pixels if it was never set. None of them is refused, and none of them
touches the bytes of another. -/
theorem buffer_holds_picture (scale : Option Int) {background foreground : Argument String}
    (title : String) {b f : Rgb}
    (hb : Palette.choose Palette.usualBackground background = .ok b)
    (hf : Palette.choose Palette.usualForeground foreground = .ok f) :
    ∃ d, (start scale background foreground title).2 = .ok d ∧ ∀ before (w h : Nat),
      let t := (d.after before).apply (.resolution w h)
      (t.2 = none ↔ Count.fits (3 * (w * h) : Nat) = true) ∧
        (t.2 ≠ none → t.1.buffer = (d.after before).buffer) ∧
        (t.2 = none → ∀ es, (∀ e ∈ es, IsPixel w h e) →
          let s := t.1.after es
          s.buffer.size = 3 * (w * h) ∧
            (∀ x y, x < w → y < h → ∃ lit : Bool, (lit ↔ LastOn (Event.pixel x y) es) ∧
              colourAt s.buffer (3 * (y * w + x)) = some (if lit then f else b)) ∧
            ∀ x y, x < w → y < h → ∀ lit, (s.apply (.pixel x y lit)).2 = none ∧
              ∀ x' y', x' < w → ¬ (x' = x ∧ y' = y) →
                colourAt (s.apply (.pixel x y lit)).1.buffer (3 * (y' * w + x')) =
                  colourAt s.buffer (3 * (y' * w + x'))) := by
  obtain ⟨d, hstart, hpalette⟩ := start_eq_ok scale title hb hf
  refine ⟨d, hstart, fun before w h => ?_⟩
  have hbefore : (d.after before).palette = ⟨b, f⟩ := (palette_after d before).trans hpalette
  by_cases hsize : Count.fits (3 * (w * h) : Nat) = true
  · obtain ⟨hset, hdark⟩ := keeps_resize (d.after before) hsize
    rw [hbefore] at hdark
    refine ⟨iff_of_true hset hsize, fun hrefused => absurd hset hrefused, fun _ es hes => ?_⟩
    have hkeeps := keeps_after hdark hes
    refine ⟨hkeeps.size_eq, hkeeps.pixel, fun x y hx hy lit => ⟨?_, fun x' y' hx' hne => ?_⟩⟩
    · exact congrArg Prod.snd (hkeeps.apply_pixel hx hy lit)
    · exact hkeeps.pixel_other hx hy lit hx' hne
  · have hrefused : ((d.after before).apply (.resolution w h)).2 ≠ none := by
      unfold apply
      dsimp only
      rw [resize_of_tooLarge _ hsize]
      exact nofun
    refine ⟨iff_of_false hrefused hsize, fun _ => ?_, fun hset => absurd hset hrefused⟩
    unfold apply
    dsimp only
    rw [resize_of_tooLarge _ hsize]

/-- A pixel that is lit and goes dark again, and one that stays lit. -/
def flashed : List Event := [.pixel 0 0 true, .pixel 1 1 true, .pixel 0 0 false]

theorem isPixel_flashed : ∀ e ∈ flashed, IsPixel 2 2 e := by
  simp only [flashed, List.mem_cons, List.not_mem_nil, or_false]
  rintro e (rfl | rfl | rfl)
  · exact ⟨0, 0, by decide, by decide, true, rfl⟩
  · exact ⟨1, 1, by decide, by decide, true, rfl⟩
  · exact ⟨0, 0, by decide, by decide, false, rfl⟩

/-- Of four pixels the last one is lit, and the others are as dark as the background, whatever the
buffer was before. -/
theorem buffer_holds_picture_flashed : ∃ d,
    (start none (.value "#0a0B0c") .absent "").2 = .ok d ∧
      let t := (d.after [.resolution 1 1, .pixel 0 0 true]).apply (.resolution 2 2)
      t.2 = none ∧ (∀ e ∈ flashed, IsPixel 2 2 e) ∧ (t.1.after flashed).buffer.size = 12 ∧
        colourAt (t.1.after flashed).buffer 0 = some ⟨10, 11, 12⟩ ∧
        colourAt (t.1.after flashed).buffer 9 = some ⟨255, 255, 255⟩ := by
  have hb : Palette.choose Palette.usualBackground (.value "#0a0B0c") = .ok ⟨10, 11, 12⟩ := rfl
  have hf : Palette.choose Palette.usualForeground .absent = .ok ⟨255, 255, 255⟩ := rfl
  obtain ⟨d, hstart, hall⟩ := buffer_holds_picture none "" hb hf
  obtain ⟨hset, -, hpicture⟩ := hall [.resolution 1 1, .pixel 0 0 true] 2 2
  have haccepted := hset.mpr (by decide)
  obtain ⟨hsize, hcolours, -⟩ := hpicture haccepted flashed isPixel_flashed
  refine ⟨d, hstart, haccepted, isPixel_flashed, hsize, ?_, ?_⟩
  · obtain ⟨lit, hlast, hcolour⟩ := hcolours 0 0 (by decide) (by decide)
    have hdark : lit = false := by
      rw [Bool.eq_false_iff]
      intro hlit
      have hon := hlast.mp hlit
      rw [show flashed = [.pixel 0 0 true, .pixel 1 1 true] ++ [.pixel 0 0 false] from rfl] at hon
      cases (lastOn_concat_set (by simp)).mp hon
    rw [hdark] at hcolour
    exact hcolour
  · obtain ⟨lit, hlast, hcolour⟩ := hcolours 1 1 (by decide) (by decide)
    have hlit : lit = true :=
      hlast.mpr ⟨[.pixel 0 0 true], _, [.pixel 0 0 false], rfl, rfl, by simp⟩
    rw [hlit] at hcolour
    exact hcolour

/-- No buffer has the bytes of `2 ^ 64` pixels, so such a picture is refused, and then so is its
first pixel. -/
theorem huge_picture_refused : ∃ d, (start none .absent .absent "").2 = .ok d ∧
    let t := d.apply (.resolution 4294967296 4294967296)
    t.2 = some (.size .tooLarge) ∧ t.1.buffer.size = 0 ∧
      (t.1.apply (.pixel 0 0 true)).2 = some .outsideBuffer := by
  refine ⟨_, rfl, ?_⟩
  decide

end WindowDisplay
end ChipEight
