import ChipEight.Display.Colour
import ChipEight.Proofs.Numerals

/-!
# ChipEight.Proofs.Colours

Which texts are colours. A colour is documented as a hash sign and six digits to base sixteen, but
a pair of characters is read as any number is, so that a sign or a blank may take the place of a
digit.

* `Colour.TwoDigits`, `Colour.Pair`: the pairs that are documented, and those that are read.
* `Numeral.read?_pair`: reading finds exactly the latter.
* `Colour.Reads`: a hash sign and three pairs of some kind.
* `parse_pairs`: what is accepted and as what, and what is refused and why.
* `signed_colour_accepted`: the documented colours are not all that is accepted.
-/

namespace ChipEight

/-! ## Digits to base sixteen -/

namespace Digit

theorem decimal?_lt {c : Char} {d : Nat} (h : decimal? c = some d) : d < 10 := by
  obtain ⟨z, -, hle, hlt, rfl⟩ := decimal?_eq_some h
  omega

theorem letter_range {first last c : Char} :
    first ≤ c ∧ c ≤ last ↔ first.toNat ≤ c.toNat ∧ c.toNat ≤ last.toNat := by
  simp only [Char.le_def, UInt32.le_iff_toNat_le]
  rfl

theorem not_isBlank_of_letter {c : Char} (h : 0x41 ≤ c.toNat ∧ c.toNat ≤ 0x66) :
    Blank.isBlank c = false := by
  have hapart : ∀ r ∈ Blank.ranges, r.2 < 0x41 ∨ 0x66 < r.1 := by decide
  unfold Blank.isBlank
  rw [List.any_eq_false]
  intro r hr
  have := hapart r hr
  simp only [Bool.and_eq_true, decide_eq_true_eq]
  omega

/-- A digit to base sixteen is a letter or a decimal digit. -/
theorem hexadecimal?_cases {c : Char} {d : Nat} (h : hexadecimal? c = some d) :
    (0x41 ≤ c.toNat ∧ c.toNat ≤ 0x66 ∧ d < 16) ∨ decimal? c = some d := by
  unfold hexadecimal? at h
  simp only [letter_range] at h
  split at h
  · rename_i hsmall
    cases h
    have hrange : 0x61 ≤ c.toNat ∧ c.toNat ≤ 0x66 := hsmall
    have hfirst : 'a'.toNat = 0x61 := rfl
    exact .inl ⟨by omega, by omega, by omega⟩
  · split at h
    · rename_i hcapital
      cases h
      have hrange : 0x41 ≤ c.toNat ∧ c.toNat ≤ 0x46 := hcapital
      have hfirst : 'A'.toNat = 0x41 := rfl
      exact .inl ⟨by omega, by omega, by omega⟩
    · exact .inr h

theorem hexadecimal?_lt {c : Char} {d : Nat} (h : hexadecimal? c = some d) : d < 16 := by
  rcases hexadecimal?_cases h with ⟨-, -, hlt⟩ | hdecimal
  · exact hlt
  · exact (decimal?_lt hdecimal).trans (by decide)

theorem not_isBlank_of_hexadecimal? {c : Char} {d : Nat} (h : hexadecimal? c = some d) :
    Blank.isBlank c = false := by
  rcases hexadecimal?_cases h with ⟨hlow, hhigh, -⟩ | hdecimal
  · exact not_isBlank_of_letter ⟨hlow, hhigh⟩
  · exact not_isBlank (Option.isSome_of_eq_some hdecimal)

/-- A character is the digit of a number below sixteen, in either case. -/
def Writes (c : Char) (d : Nat) : Prop := d < 16 ∧ (c = d.digitChar ∨ c = d.digitChar.toUpper)

theorem hexadecimal?_of_writes {c : Char} {d : Nat} (h : Writes c d) : hexadecimal? c = some d := by
  have hdigits : ∀ d < 16, hexadecimal? d.digitChar = some d ∧
      hexadecimal? d.digitChar.toUpper = some d := by
    decide
  obtain ⟨hlt, rfl | rfl⟩ := h
  · exact (hdigits d hlt).1
  · exact (hdigits d hlt).2

end Digit

/-! ## Pairs -/

namespace Colour

/-- Two digits, and their value. -/
def TwoDigits (a b : Char) (n : Int) : Prop :=
  ∃ x y, Digit.Writes a x ∧ Digit.Writes b y ∧ n = (16 * x + y : Nat)

/-- A pair of characters that is read as a number: two digits, or one with a sign in front of it or
a blank beside it. -/
inductive Pair : Char → Char → Int → Prop where
  | digits {a b : Char} {x y : Nat} (ha : Digit.hexadecimal? a = some x)
      (hb : Digit.hexadecimal? b = some y) : Pair a b (16 * x + y : Nat)
  | plus {b : Char} {y : Nat} (hb : Digit.hexadecimal? b = some y) : Pair '+' b y
  | minus {b : Char} {y : Nat} (hb : Digit.hexadecimal? b = some y) : Pair '-' b (-y)
  | indented {a b : Char} {y : Nat} (ha : Blank.isBlank a = true)
      (hb : Digit.hexadecimal? b = some y) : Pair a b y
  | trailed {a b : Char} {x : Nat} (ha : Digit.hexadecimal? a = some x)
      (hb : Blank.isBlank b = true) : Pair a b x

theorem pair_of_twoDigits {a b : Char} {n : Int} (h : TwoDigits a b n) : Pair a b n := by
  obtain ⟨x, y, ha, hb, rfl⟩ := h
  exact .digits (Digit.hexadecimal?_of_writes ha) (Digit.hexadecimal?_of_writes hb)

theorem Pair.range {a b : Char} {n : Int} (h : Pair a b n) : -15 ≤ n ∧ n ≤ 255 := by
  cases h with
  | digits ha hb =>
    have hx := Digit.hexadecimal?_lt ha
    have hy := Digit.hexadecimal?_lt hb
    omega
  | plus hb =>
    have hy := Digit.hexadecimal?_lt hb
    omega
  | minus hb =>
    have hy := Digit.hexadecimal?_lt hb
    omega
  | indented _ hb =>
    have hy := Digit.hexadecimal?_lt hb
    omega
  | trailed ha =>
    have hx := Digit.hexadecimal?_lt ha
    omega

theorem TwoDigits.range {a b : Char} {n : Int} (h : TwoDigits a b n) : 0 ≤ n ∧ n ≤ 255 := by
  obtain ⟨x, y, ⟨hx, -⟩, ⟨hy, -⟩, rfl⟩ := h
  omega

end Colour

namespace Blank

theorem trim_pair (a b : Char) :
    trim [a, b] =
      if isBlank a = true then (if isBlank b = true then [] else [b])
      else if isBlank b = true then [a] else [a, b] := by
  cases ha : isBlank a <;> cases hb : isBlank b <;> simp [trim, ha, hb]

end Blank

namespace Numeral

theorem magnitude?_single (c : Char) :
    hexadecimal.magnitude? [c] = Digit.hexadecimal? c := by
  by_cases hc : c = '_'
  · subst hc
    decide
  · have hpieces : Cut.pieces '_' [c] = [[c]] := by simp [Cut.pieces, Cut.attach, hc]
    unfold magnitude?
    rw [hpieces]
    cases hdigit : Digit.hexadecimal? c <;> simp [hexadecimal, hdigit, value]

theorem magnitude?_pair (a b : Char) :
    hexadecimal.magnitude? [a, b] =
      (Digit.hexadecimal? a).bind fun x => (Digit.hexadecimal? b).map (16 * x + ·) := by
  have hunderscore : Digit.hexadecimal? '_' = none := by decide
  by_cases ha : a = '_'
  · subst ha
    rw [hunderscore]
    rfl
  by_cases hb : b = '_'
  · subst hb
    rw [hunderscore]
    have hpieces : Cut.pieces '_' [a, '_'] = [[a], []] := by simp [Cut.pieces, Cut.attach, ha]
    unfold magnitude?
    rw [hpieces]
    cases Digit.hexadecimal? a <;> rfl
  · have hpieces : Cut.pieces '_' [a, b] = [[a, b]] := by simp [Cut.pieces, Cut.attach, ha, hb]
    unfold magnitude?
    rw [hpieces]
    cases hx : Digit.hexadecimal? a <;> cases hy : Digit.hexadecimal? b <;>
      simp [hexadecimal, hx, hy, value, Nat.mul_comm]

/-- No pair is a mark and digits: what stands behind a mark would be empty, and a mark is no two
digits either. -/
theorem magnitude?_dropMark_pair (a b : Char) :
    hexadecimal.magnitude? (hexadecimal.dropMark [a, b]) = hexadecimal.magnitude? [a, b] := by
  have hmark : Digit.hexadecimal? 'x' = none ∧ Digit.hexadecimal? 'X' = none := by decide
  unfold dropMark
  dsimp only
  split
  · rename_i h
    simp only [Bool.and_eq_true, Bool.or_eq_true, beq_iff_eq] at h
    rw [magnitude?_pair]
    rcases h.2 with rfl | rfl
    · rw [hmark.1]
      cases Digit.hexadecimal? a <;> rfl
    · rw [hmark.2]
      cases Digit.hexadecimal? a <;> rfl
  · rfl

theorem splitSign_of_unsigned {c : Char} (hminus : c ≠ '-') (hplus : c ≠ '+') (rest : List Char) :
    splitSign (c :: rest) = (false, c :: rest) := by
  unfold splitSign
  split
  · rename_i heq
    exact absurd (List.cons.inj heq).1 hminus
  · rename_i heq
    exact absurd (List.cons.inj heq).1 hplus
  · rfl

section Read

variable {s : List Char} {a b c : Char}

theorem read?_of_trim_nil (h : Blank.trim s = []) : hexadecimal.read? s = none := by
  rw [read?_eq, h]
  rfl

theorem read?_of_trim_single (h : Blank.trim s = [c]) :
    hexadecimal.read? s = (Digit.hexadecimal? c).map Int.ofNat := by
  rw [read?_eq, h]
  by_cases hminus : c = '-'
  · subst hminus
    decide
  by_cases hplus : c = '+'
  · subst hplus
    decide
  · rw [splitSign_of_unsigned hminus hplus]
    show (hexadecimal.magnitude? [c]).map Int.ofNat = _
    rw [magnitude?_single]

theorem read?_of_trim_pair (h : Blank.trim s = [a, b]) :
    hexadecimal.read? s =
      if a = '-' then (Digit.hexadecimal? b).map fun n : Nat => -(n : Int)
      else if a = '+' then (Digit.hexadecimal? b).map Int.ofNat
      else (hexadecimal.magnitude? [a, b]).map Int.ofNat := by
  rw [read?_eq, h]
  by_cases hminus : a = '-'
  · subst hminus
    rw [if_pos rfl, ← magnitude?_single]
    rfl
  by_cases hplus : a = '+'
  · subst hplus
    rw [if_neg hminus, if_pos rfl, ← magnitude?_single]
    rfl
  · rw [if_neg hminus, if_neg hplus, splitSign_of_unsigned hminus hplus]
    show (hexadecimal.magnitude? (hexadecimal.dropMark [a, b])).map Int.ofNat = _
    rw [magnitude?_dropMark_pair]

theorem pair_of_magnitude? {k : Nat} (h : hexadecimal.magnitude? [a, b] = some k) :
    Colour.Pair a b k := by
  rw [magnitude?_pair] at h
  cases hx : Digit.hexadecimal? a with
  | none => simp [hx] at h
  | some x =>
    cases hy : Digit.hexadecimal? b with
    | none => simp [hx, hy] at h
    | some y =>
      rw [hx, hy, Option.bind_some, Option.map_some, Option.some.injEq] at h
      subst h
      exact .digits hx hy

theorem pair_of_read? {n : Int} (h : hexadecimal.read? [a, b] = some n) : Colour.Pair a b n := by
  have htrim := Blank.trim_pair a b
  cases ha : Blank.isBlank a with
  | true =>
    cases hb : Blank.isBlank b with
    | true =>
      rw [ha, hb] at htrim
      rw [read?_of_trim_nil htrim] at h
      cases h
    | false =>
      rw [ha, hb] at htrim
      rw [read?_of_trim_single htrim] at h
      obtain ⟨y, hy, rfl⟩ := Option.map_eq_some_iff.mp h
      exact .indented ha hy
  | false =>
    cases hb : Blank.isBlank b with
    | true =>
      rw [ha, hb] at htrim
      rw [read?_of_trim_single htrim] at h
      obtain ⟨x, hx, rfl⟩ := Option.map_eq_some_iff.mp h
      exact .trailed hx hb
    | false =>
      -- nothing is trimmed away, so the first character is a sign or a digit
      rw [ha, hb] at htrim
      rw [read?_of_trim_pair htrim] at h
      split at h
      · rename_i hminus
        obtain ⟨y, hy, rfl⟩ := Option.map_eq_some_iff.mp h
        subst hminus
        exact .minus hy
      · split at h
        · rename_i hplus
          obtain ⟨y, hy, rfl⟩ := Option.map_eq_some_iff.mp h
          subst hplus
          exact .plus hy
        · obtain ⟨k, hk, rfl⟩ := Option.map_eq_some_iff.mp h
          exact pair_of_magnitude? hk

theorem read?_of_pair {n : Int} (h : Colour.Pair a b n) : hexadecimal.read? [a, b] = some n := by
  have htrim := Blank.trim_pair a b
  cases h with
  | digits ha hb =>
    have hsigns : Digit.hexadecimal? '-' = none ∧ Digit.hexadecimal? '+' = none := by decide
    have hminus : a ≠ '-' := by
      rintro rfl
      rw [hsigns.1] at ha
      cases ha
    have hplus : a ≠ '+' := by
      rintro rfl
      rw [hsigns.2] at ha
      cases ha
    rw [Digit.not_isBlank_of_hexadecimal? ha, Digit.not_isBlank_of_hexadecimal? hb] at htrim
    rw [read?_of_trim_pair htrim, if_neg hminus, if_neg hplus, magnitude?_pair, ha, hb]
    rfl
  | plus hb =>
    rw [Digit.not_isBlank_of_hexadecimal? hb] at htrim
    rw [read?_of_trim_pair htrim, hb]
    rfl
  | minus hb =>
    rw [Digit.not_isBlank_of_hexadecimal? hb] at htrim
    rw [read?_of_trim_pair htrim, hb]
    rfl
  | indented ha hb =>
    rw [ha, Digit.not_isBlank_of_hexadecimal? hb] at htrim
    rw [read?_of_trim_single htrim, hb]
    rfl
  | trailed ha hb =>
    rw [Digit.not_isBlank_of_hexadecimal? ha, hb] at htrim
    rw [read?_of_trim_single htrim, ha]
    rfl

/-- A pair of characters is read exactly if it is one of the pairs, and as their number. -/
theorem read?_pair {n : Int} : hexadecimal.read? [a, b] = some n ↔ Colour.Pair a b n :=
  ⟨pair_of_read?, read?_of_pair⟩

end Read
end Numeral

/-! ## Colours -/

namespace Colour

/-- A text is a hash sign and three pairs of some kind, which give the values of a colour. -/
def Reads (P : Char → Char → Int → Prop) (text : String) (c : Colour) : Prop :=
  ∃ r₁ r₂ g₁ g₂ b₁ b₂, text.toList = ['#', r₁, r₂, g₁, g₂, b₁, b₂] ∧
    P r₁ r₂ c.red ∧ P g₁ g₂ c.green ∧ P b₁ b₂ c.blue

/-- A text is a hash sign and six characters. -/
def Shaped (text : String) : Prop := ∃ cs, text.toList = '#' :: cs ∧ cs.length = 6

theorem parse_of_shape {text : String} {r₁ r₂ g₁ g₂ b₁ b₂ : Char}
    (h : text.toList = ['#', r₁, r₂, g₁, g₂, b₁, b₂]) :
    parse text =
      match pair? r₁ r₂, pair? g₁ g₂, pair? b₁ b₂ with
      | some red, some green, some blue => .ok ⟨red, green, blue⟩
      | _, _, _ => .error (.digits text) := by
  unfold parse
  rw [h]
  rfl

theorem shaped_iff {text : String} :
    Shaped text ↔ ∃ r₁ r₂ g₁ g₂ b₁ b₂, text.toList = ['#', r₁, r₂, g₁, g₂, b₁, b₂] := by
  constructor
  · rintro ⟨cs, htext, hlength⟩
    match cs, hlength with
    | [r₁, r₂, g₁, g₂, b₁, b₂], _ => exact ⟨r₁, r₂, g₁, g₂, b₁, b₂, htext⟩
  · rintro ⟨r₁, r₂, g₁, g₂, b₁, b₂, htext⟩
    exact ⟨_, htext, rfl⟩

theorem parse_of_not_shaped {text : String} (h : ¬ Shaped text) : parse text = .error .form := by
  unfold parse
  split
  · rename_i htext
    exact absurd (shaped_iff.mpr ⟨_, _, _, _, _, _, htext⟩) h
  · rfl

/-- A text is accepted exactly if it is a hash sign and three pairs that are read. -/
theorem parse_eq_ok_iff {text : String} {c : Colour} : parse text = .ok c ↔ Reads Pair text c := by
  constructor
  · intro h
    by_cases hshape : Shaped text
    · obtain ⟨r₁, r₂, g₁, g₂, b₁, b₂, htext⟩ := shaped_iff.mp hshape
      rw [parse_of_shape htext] at h
      split at h
      · rename_i red green blue hred hgreen hblue
        cases h
        exact ⟨r₁, r₂, g₁, g₂, b₁, b₂, htext, Numeral.read?_pair.mp hred,
          Numeral.read?_pair.mp hgreen, Numeral.read?_pair.mp hblue⟩
      · cases h
    · rw [parse_of_not_shaped hshape] at h
      cases h
  · rintro ⟨r₁, r₂, g₁, g₂, b₁, b₂, htext, hred, hgreen, hblue⟩
    have hr : pair? r₁ r₂ = some c.red := Numeral.read?_pair.mpr hred
    have hg : pair? g₁ g₂ = some c.green := Numeral.read?_pair.mpr hgreen
    have hb : pair? b₁ b₂ = some c.blue := Numeral.read?_pair.mpr hblue
    rw [parse_of_shape htext, hr, hg, hb]

theorem parse_eq_error_iff {text : String} {f : Fault} :
    parse text = .error f ↔
      f = .form ∧ ¬ Shaped text ∨
        f = .digits text ∧ Shaped text ∧ ¬ ∃ c, Reads Pair text c := by
  by_cases hshape : Shaped text
  · obtain ⟨r₁, r₂, g₁, g₂, b₁, b₂, htext⟩ := shaped_iff.mp hshape
    have hparse := parse_of_shape htext
    simp only [← parse_eq_ok_iff]
    split at hparse <;> rw [hparse] <;> simp [hshape, eq_comm]
  · rw [parse_of_not_shaped hshape]
    simp [hshape, eq_comm]

theorem reads_of_twoDigits {text : String} {c : Colour} (h : Reads TwoDigits text c) :
    Reads Pair text c := by
  obtain ⟨r₁, r₂, g₁, g₂, b₁, b₂, htext, hred, hgreen, hblue⟩ := h
  exact ⟨r₁, r₂, g₁, g₂, b₁, b₂, htext, pair_of_twoDigits hred, pair_of_twoDigits hgreen,
    pair_of_twoDigits hblue⟩

/-- **What a colour is.** A text is accepted exactly if it is a hash sign and three pairs that are
read, and then its values are theirs. Every other text is refused, either for its form or for its
digits. Six digits to base sixteen in either case are a colour whose values are bytes; the pairs of
other colours hold signs, blanks or digits of other scripts, and their values may be negative. -/
theorem parse_pairs (text : String) :
    (∀ c, parse text = .ok c ↔ Reads Pair text c) ∧
      (∀ f, parse text = .error f ↔
        f = .form ∧ ¬ Shaped text ∨
          f = .digits text ∧ Shaped text ∧ ¬ ∃ c, Reads Pair text c) ∧
      (∀ c, Reads TwoDigits text c → parse text = .ok c ∧
        (0 ≤ c.red ∧ c.red ≤ 255) ∧ (0 ≤ c.green ∧ c.green ≤ 255) ∧
          (0 ≤ c.blue ∧ c.blue ≤ 255)) ∧
      ∀ c, parse text = .ok c →
        (-15 ≤ c.red ∧ c.red ≤ 255) ∧ (-15 ≤ c.green ∧ c.green ≤ 255) ∧
          (-15 ≤ c.blue ∧ c.blue ≤ 255) := by
  refine ⟨fun c => parse_eq_ok_iff, fun f => parse_eq_error_iff, fun c hreads => ?_,
    fun c hparse => ?_⟩
  · refine ⟨parse_eq_ok_iff.mpr (reads_of_twoDigits hreads), ?_⟩
    obtain ⟨_, _, _, _, _, _, -, hred, hgreen, hblue⟩ := hreads
    exact ⟨hred.range, hgreen.range, hblue.range⟩
  · obtain ⟨_, _, _, _, _, _, -, hred, hgreen, hblue⟩ := parse_eq_ok_iff.mp hparse
    exact ⟨hred.range, hgreen.range, hblue.range⟩

example : parse "#fF09aB" = .ok ⟨255, 9, 171⟩ := by decide

/-- Not only six digits are accepted: three signs and digits are a colour as well, and none of its
values is a byte. -/
theorem signed_colour_accepted :
    ¬ ∀ text : String, (∃ c, parse text = .ok c) ↔ ∃ c, Reads TwoDigits text c := by
  intro h
  have hparse : parse "#-1-1-1" = .ok ⟨-1, -1, -1⟩ := by decide
  obtain ⟨c, r₁, r₂, g₁, g₂, b₁, b₂, htext, ⟨x, y, hsign, -⟩, -⟩ := (h "#-1-1-1").mp ⟨_, hparse⟩
  have hminus : r₁ = '-' := (List.cons.inj (List.cons.inj htext).2).1.symm
  have hdigit : Digit.hexadecimal? r₁ = some x := Digit.hexadecimal?_of_writes hsign
  have hnone : Digit.hexadecimal? '-' = none := by decide
  rw [hminus, hnone] at hdigit
  cases hdigit

end Colour
end ChipEight
