import Mathlib.Data.List.Induction
import Mathlib.Data.List.TakeWhile
import Mathlib.Data.Nat.Digits.Defs
import ChipEight.Text.Integer

/-!
# ChipEight.Proofs.Numerals

Which texts are read as integers, and as which. What may be written is said without reading it:
blanks, perhaps a sign, digits of any script with single underscores between them, and blanks again.

* `DigitGroups`, `Spelling`: the ways to write a natural number and an integer.
* `Numeral.Spells`: a text is one of the ways to write an integer.
* `read?_eq_some_iff`: a text is read exactly if it spells an integer, and as that integer.
* `spells_toString`: the decimal text of an integer spells it.
-/

namespace ChipEight

/-! ## Cutting and trimming -/

namespace Cut

theorem pieces_eq_splitOn (separator : Char) (s : List Char) :
    pieces separator s = s.splitOn separator := by
  induction s with
  | nil => rfl
  | cons c rest ih =>
    rw [List.splitOn_cons_eq_if_modifyHead, pieces, ih]
    by_cases hc : c = separator
    · simp [hc]
    · rw [if_neg hc, if_neg (by simpa using hc)]
      cases hrest : rest.splitOn separator with
      | nil => exact absurd hrest (List.splitOn_ne_nil _ _)
      | cons p ps => rfl

theorem mem_intercalate {separator : Char} {ps : List (List Char)} {c : Char}
    (h : c ∈ [separator].intercalate ps) : c = separator ∨ c ∈ ps.flatten := by
  induction ps with
  | nil => cases h
  | cons p ps ih =>
    cases ps with
    | nil => exact .inr (by simpa [List.intercalate] using h)
    | cons q qs =>
      rw [List.intercalate_cons_cons, List.mem_append, List.mem_append, List.mem_singleton] at h
      rcases h with (hp | rfl) | hrest
      · exact .inr (List.mem_append_left _ hp)
      · exact .inl rfl
      · exact (ih hrest).imp_right (List.mem_append_right _)

end Cut

namespace Blank

theorem dropWhile_of_none {s : List Char} (h : ∀ c ∈ s, isBlank c = false) :
    s.dropWhile isBlank = s := by
  cases s with
  | nil => rfl
  | cons c rest => rw [List.dropWhile_cons, if_neg (by simp [h c List.mem_cons_self])]

/-- What is left of a text is what stands between its blanks. -/
theorem trim_append {before core after : List Char} (hbefore : ∀ c ∈ before, isBlank c = true)
    (hcore : ∀ c ∈ core, isBlank c = false) (hafter : ∀ c ∈ after, isBlank c = true) :
    trim (before ++ core ++ after) = core := by
  unfold trim
  rw [List.append_assoc, List.dropWhile_append_of_pos hbefore]
  cases core with
  | nil =>
    rw [List.nil_append, List.dropWhile_eq_nil_iff.mpr hafter]
    rfl
  | cons c rest =>
    rw [List.cons_append, List.dropWhile_cons, if_neg (by simp [hcore c List.mem_cons_self]),
      ← List.cons_append, List.reverse_append,
      List.dropWhile_append_of_pos (fun a ha => hafter a (List.mem_reverse.mp ha)),
      dropWhile_of_none (fun a ha => hcore a (List.mem_reverse.mp ha)), List.reverse_reverse]

theorem exists_trim (s : List Char) :
    ∃ before after, s = before ++ trim s ++ after ∧ (∀ c ∈ before, isBlank c = true) ∧
      ∀ c ∈ after, isBlank c = true := by
  refine ⟨s.takeWhile isBlank, ((s.dropWhile isBlank).reverse.takeWhile isBlank).reverse, ?_,
    fun c hc => List.mem_takeWhile_imp hc,
    fun c hc => List.mem_takeWhile_imp (List.mem_reverse.mp hc)⟩
  unfold trim
  rw [List.append_assoc, ← List.reverse_append, List.takeWhile_append_dropWhile,
    List.reverse_reverse, List.takeWhile_append_dropWhile]

end Blank

/-! ## Digits -/

namespace Digit

theorem decimal?_eq_some {c : Char} {d : Nat} (h : decimal? c = some d) :
    ∃ z ∈ zeros, z ≤ c.toNat ∧ c.toNat < z + 10 ∧ d = c.toNat - z := by
  obtain ⟨z, hz, rfl⟩ := Option.map_eq_some_iff.mp h
  have hin := List.find?_some hz
  simp only [Bool.and_eq_true, decide_eq_true_eq] at hin
  exact ⟨z, List.mem_of_find?_eq_some hz, hin.1, hin.2, rfl⟩

/-- No script has a blank among its digits. -/
theorem not_isBlank {c : Char} (h : (decimal? c).isSome = true) : Blank.isBlank c = false := by
  obtain ⟨d, hd⟩ := Option.isSome_iff_exists.mp h
  obtain ⟨z, hz, hle, hlt, -⟩ := decimal?_eq_some hd
  have hapart : ∀ z ∈ zeros, ∀ r ∈ Blank.ranges, z + 10 ≤ r.1 ∨ r.2 < z := by decide
  unfold Blank.isBlank
  rw [List.any_eq_false]
  intro r hr
  have := hapart z hz r hr
  simp only [Bool.and_eq_true, decide_eq_true_eq]
  omega

/-- A digit of ASCII counts its distance from the first of them. -/
theorem decimal?_of_isDigit {c : Char} (h : c.isDigit = true) :
    decimal? c = some (c.toNat - '0'.toNat) := by
  have hrange : 48 ≤ c.toNat ∧ c.toNat ≤ 57 := by
    simpa [Char.isDigit, UInt32.le_iff_toNat_le] using h
  have hfirst : (decide (0x30 ≤ c.toNat) && decide (c.toNat < 0x30 + 10)) = true := by
    simp only [Bool.and_eq_true, decide_eq_true_eq]
    omega
  unfold decimal? zeros
  rw [List.find?_cons, hfirst]
  rfl

end Digit

/-- Digits in groups, as they stand between underscores. -/
structure DigitGroups where
  groups : List (List Char)
  groups_ne_nil : groups ≠ []
  ne_nil : ∀ g ∈ groups, g ≠ []
  isDigit : ∀ c ∈ groups.flatten, (Digit.decimal? c).isSome = true
  length_le : groups.flatten.length ≤ 4300

namespace DigitGroups

variable (d : DigitGroups)

/-- The groups with single underscores between them. -/
def text : List Char := ['_'].intercalate d.groups

/-- The number in base ten, the first digit counting most. -/
def value : Nat := Nat.ofDigits 10 (d.groups.flatten.filterMap Digit.decimal?).reverse

theorem splitOn_text : d.text.splitOn '_' = d.groups := by
  refine List.splitOn_intercalate '_' (fun g hg hmem => ?_) d.groups_ne_nil
  have hdigit := d.isDigit '_' (List.mem_flatten.mpr ⟨g, hg, hmem⟩)
  have hnone : Digit.decimal? '_' = none := by decide
  rw [hnone] at hdigit
  cases hdigit

theorem exists_cons : ∃ c rest, d.text = c :: rest ∧ (Digit.decimal? c).isSome = true := by
  obtain ⟨g, gs, hgroups⟩ := List.exists_cons_of_ne_nil d.groups_ne_nil
  obtain ⟨c, rest, hg⟩ := List.exists_cons_of_ne_nil
    (d.ne_nil g (by rw [hgroups]; exact List.mem_cons_self))
  have hdigit : (Digit.decimal? c).isSome = true := d.isDigit c (by simp [hgroups, hg])
  unfold text
  rw [hgroups, hg]
  cases gs with
  | nil => exact ⟨c, rest, by simp [List.intercalate], hdigit⟩
  | cons g' gs =>
    rw [List.intercalate_cons_cons, List.cons_append, List.cons_append]
    exact ⟨c, _, rfl, hdigit⟩

theorem not_isBlank_text : ∀ c ∈ d.text, Blank.isBlank c = false := by
  intro c hc
  rcases Cut.mem_intercalate hc with rfl | hc
  · decide
  · exact Digit.not_isBlank (d.isDigit c hc)

end DigitGroups

/-- The signs that may stand in front of digits. -/
inductive Sign where
  | none
  | plus
  | minus
deriving DecidableEq, Repr

namespace Sign

def text : Sign → List Char
  | none => []
  | plus => ['+']
  | minus => ['-']

def apply : Sign → Nat → Int
  | none, n => n
  | plus, n => n
  | minus, n => -n

theorem not_isBlank_text (s : Sign) : ∀ c ∈ s.text, Blank.isBlank c = false := by
  intro c hc
  cases s with
  | none => cases hc
  | plus =>
    rw [List.mem_singleton.mp hc]
    rfl
  | minus =>
    rw [List.mem_singleton.mp hc]
    rfl

end Sign

/-- A way to write an integer. -/
structure Spelling where
  before : List Char
  sign : Sign
  digits : DigitGroups
  after : List Char
  isBlank_before : ∀ c ∈ before, Blank.isBlank c = true
  isBlank_after : ∀ c ∈ after, Blank.isBlank c = true

namespace Spelling

def text (p : Spelling) : List Char := p.before ++ (p.sign.text ++ p.digits.text) ++ p.after

def value (p : Spelling) : Int := p.sign.apply p.digits.value

theorem trim_text (p : Spelling) : Blank.trim p.text = p.sign.text ++ p.digits.text := by
  refine Blank.trim_append p.isBlank_before (fun c hc => ?_) p.isBlank_after
  rcases List.mem_append.mp hc with hsign | hdigits
  · exact p.sign.not_isBlank_text c hsign
  · exact p.digits.not_isBlank_text c hdigits

end Spelling

/-! ## Reading -/

theorem mapM_eq_some_iff {f : α → Option β} {xs : List α} {ys : List β} :
    xs.mapM f = some ys ↔ (∀ x ∈ xs, (f x).isSome = true) ∧ xs.filterMap f = ys := by
  induction xs generalizing ys with
  | nil => simp
  | cons x xs ih =>
    rw [List.mapM_cons, List.filterMap_cons, List.forall_mem_cons]
    cases hx : f x with
    | none => simp
    | some y =>
      cases hxs : xs.mapM f with
      | none =>
        have hnot : ¬ ∀ x ∈ xs, (f x).isSome = true := fun hall => by
          have hsome := ih.mpr ⟨hall, rfl⟩
          rw [hxs] at hsome
          cases hsome
        simp [hnot]
      | some zs =>
        obtain ⟨hall, rfl⟩ := ih.mp hxs
        show some (y :: xs.filterMap f) = some ys ↔ _
        rw [Option.some.injEq]
        exact ⟨fun h => ⟨⟨rfl, hall⟩, h⟩, And.right⟩

namespace Numeral

/-- A text is one of the ways to write an integer. -/
def Spells (s : List Char) (n : Int) : Prop := ∃ p : Spelling, p.text = s ∧ p.value = n

theorem value_eq_ofDigits (base : Nat) (ds : List Nat) :
    value base ds = Nat.ofDigits base ds.reverse := by
  induction ds using List.reverseRecOn with
  | nil => rfl
  | append_singleton ds d ih =>
    have hstep : value base (ds ++ [d]) = value base ds * base + d := List.foldl_append
    rw [hstep, ih, List.reverse_append, List.reverse_singleton, List.singleton_append,
      Nat.ofDigits_cons, Nat.mul_comm, Nat.add_comm]

theorem any_isEmpty_iff {groups : List (List α)} :
    groups.any (·.isEmpty) = true ↔ [] ∈ groups := by
  simp

theorem magnitude?_decimal (s : List Char) :
    decimal.magnitude? s =
      if (s.splitOn '_').any (·.isEmpty) = true then none
      else
        match (s.splitOn '_').flatten.mapM Digit.decimal? with
        | none => none
        | some ds => if 4300 < ds.length then none else some (Nat.ofDigits 10 ds.reverse) := by
  unfold magnitude?
  rw [Cut.pieces_eq_splitOn]
  dsimp only
  split
  · rfl
  · show (match (s.splitOn '_').flatten.mapM Digit.decimal? with
      | none => none
      | some ds => if decide (4300 < ds.length) = true then none else some (value 10 ds)) = _
    split
    · rfl
    · simp only [value_eq_ofDigits, decide_eq_true_eq]

/-- Digits are read exactly if they stand in groups. -/
theorem magnitude?_eq_some_iff {s : List Char} {k : Nat} :
    decimal.magnitude? s = some k ↔ ∃ d : DigitGroups, d.text = s ∧ d.value = k := by
  rw [magnitude?_decimal]
  constructor
  · intro h
    split at h
    · cases h
    · rename_i hempty
      split at h
      · cases h
      · rename_i ds hmap
        obtain ⟨hdigit, hds⟩ := mapM_eq_some_iff.mp hmap
        split at h
        · cases h
        · rename_i hlength
          cases h
          have hne : ∀ g ∈ s.splitOn '_', g ≠ [] := by
            rintro g hg rfl
            exact hempty (any_isEmpty_iff.mpr hg)
          have hlength' : (s.splitOn '_').flatten.length ≤ 4300 := by
            rw [← List.filterMap_length_eq_length.mpr hdigit, hds]
            exact Nat.not_lt.mp hlength
          exact ⟨⟨s.splitOn '_', List.splitOn_ne_nil _ _, hne, hdigit, hlength'⟩,
            List.intercalate_splitOn _, by rw [DigitGroups.value, hds]⟩
  · rintro ⟨d, rfl, rfl⟩
    have hempty : ¬ d.groups.any (·.isEmpty) = true :=
      mt any_isEmpty_iff.mp fun hmem => d.ne_nil [] hmem rfl
    have hmap := mapM_eq_some_iff.mpr ⟨d.isDigit, rfl⟩
    have hlength : ¬ 4300 < (d.groups.flatten.filterMap Digit.decimal?).length :=
      Nat.not_lt.mpr ((List.length_filterMap_le _ _).trans d.length_le)
    rw [d.splitOn_text, if_neg hempty, hmap]
    dsimp only
    rw [if_neg hlength]
    rfl

/-- Decimal integers have no mark in front. -/
theorem dropMark_decimal (s : List Char) : decimal.dropMark s = s := by
  unfold dropMark
  split
  · exact if_neg (by simp [decimal])
  · rfl

theorem read?_eq (f : Numeral) (s : List Char) :
    f.read? s = (f.magnitude? (f.dropMark (splitSign (Blank.trim s)).2)).map fun n : Nat =>
      if (splitSign (Blank.trim s)).1 = true then -(n : Int) else n := by
  unfold read?
  dsimp only
  cases f.magnitude? (f.dropMark (splitSign (Blank.trim s)).2) <;> rfl

theorem read?_decimal (s : List Char) :
    decimal.read? s = (decimal.magnitude? (splitSign (Blank.trim s)).2).map fun n : Nat =>
      if (splitSign (Blank.trim s)).1 = true then -(n : Int) else n := by
  rw [read?_eq, dropMark_decimal]

theorem splitSign_text (sign : Sign) (d : DigitGroups) :
    splitSign (sign.text ++ d.text) = (decide (sign = .minus), d.text) := by
  cases sign with
  | plus => rfl
  | minus => rfl
  | none =>
    obtain ⟨c, rest, htext, hdigit⟩ := d.exists_cons
    rw [Sign.text, List.nil_append, htext]
    unfold splitSign
    -- a digit is no sign
    split
    · rename_i heq
      cases heq
      exact absurd hdigit (by decide)
    · rename_i heq
      cases heq
      exact absurd hdigit (by decide)
    · rfl

theorem exists_sign (s : List Char) :
    ∃ sign : Sign, s = sign.text ++ (splitSign s).2 ∧
      ∀ n : Nat, (if (splitSign s).1 = true then -(n : Int) else n) = sign.apply n := by
  unfold splitSign
  split
  · exact ⟨.minus, rfl, fun n => rfl⟩
  · exact ⟨.plus, rfl, fun n => rfl⟩
  · exact ⟨.none, rfl, fun n => rfl⟩

/-- A text is read exactly if it spells an integer, and as that integer. -/
theorem read?_eq_some_iff {s : List Char} {n : Int} : decimal.read? s = some n ↔ Spells s n := by
  rw [read?_decimal, Option.map_eq_some_iff]
  constructor
  · rintro ⟨k, hmagnitude, hn⟩
    obtain ⟨d, htext, rfl⟩ := magnitude?_eq_some_iff.mp hmagnitude
    obtain ⟨before, after, hs, hbefore, hafter⟩ := Blank.exists_trim s
    obtain ⟨sign, hsign, hvalue⟩ := exists_sign (Blank.trim s)
    refine ⟨⟨before, sign, d, after, hbefore, hafter⟩, ?_, (hvalue _).symm.trans hn⟩
    show before ++ (sign.text ++ d.text) ++ after = s
    rw [htext, ← hsign, ← hs]
  · rintro ⟨p, rfl, rfl⟩
    -- what is trimmed away are the blanks of the spelling, since it has none inside
    rw [p.trim_text, splitSign_text]
    refine ⟨p.digits.value, magnitude?_eq_some_iff.mpr ⟨_, rfl, rfl⟩, ?_⟩
    rw [Spelling.value]
    cases p.sign <;> rfl

/-- A text spells one integer at most. -/
theorem Spells.unique {s : List Char} {n k : Int} (hn : Spells s n) (hk : Spells s k) : n = k :=
  Option.some.inj ((read?_eq_some_iff.mpr hn).symm.trans (read?_eq_some_iff.mpr hk))

/-! ## Writing -/

/-- The digits that a number is written with, in one group. -/
def written (k : Nat) (h : (Nat.toDigits 10 k).length ≤ 4300) : DigitGroups where
  groups := [Nat.toDigits 10 k]
  groups_ne_nil := List.cons_ne_nil _ _
  ne_nil := by simp
  isDigit := by
    intro c hc
    rw [List.flatten_singleton] at hc
    rw [Digit.decimal?_of_isDigit (Nat.isDigit_of_mem_toDigits (by decide) (by decide) hc)]
    rfl
  length_le := by rw [List.flatten_singleton]; exact h

theorem text_written {k : Nat} (h : (Nat.toDigits 10 k).length ≤ 4300) :
    (written k h).text = k.repr.toList := by
  rw [Nat.repr_eq_ofList_toDigits, String.toList_ofList]
  simp [DigitGroups.text, written, List.intercalate]

theorem value_digits {cs : List Char} (h : ∀ c ∈ cs, c.isDigit = true) :
    value 10 (cs.filterMap Digit.decimal?) = Nat.ofDigitChars 10 cs 0 := by
  induction cs using List.reverseRecOn with
  | nil => rfl
  | append_singleton cs c ih =>
    have hc := Digit.decimal?_of_isDigit (h c (by simp))
    have hcs := ih fun a ha => h a (List.mem_append_left _ ha)
    unfold value at hcs ⊢
    rw [Nat.ofDigitChars_eq_foldl] at hcs ⊢
    rw [List.filterMap_append, List.foldl_append, List.foldl_append, hcs]
    simp [hc, Nat.mul_comm]

theorem value_written {k : Nat} (h : (Nat.toDigits 10 k).length ≤ 4300) :
    (written k h).value = k := by
  have hdigits : ∀ c ∈ Nat.toDigits 10 k, c.isDigit = true := fun c hc =>
    Nat.isDigit_of_mem_toDigits (by decide) (by decide) hc
  unfold DigitGroups.value written
  rw [List.flatten_singleton, ← value_eq_ofDigits, value_digits hdigits,
    Nat.ofDigitChars_toDigits (by decide) (by decide)]

/-- The decimal text of an integer spells it. -/
theorem spells_toString {n : Int} (h : (Nat.toDigits 10 n.natAbs).length ≤ 4300) :
    Spells (toString n).toList n := by
  have hnone : ∀ c ∈ ([] : List Char), Blank.isBlank c = true := fun c hc => by cases hc
  cases n with
  | ofNat k =>
    refine ⟨⟨[], .none, written k h, [], hnone, hnone⟩, ?_, ?_⟩
    · show (written k h).text ++ [] = k.repr.toList
      rw [text_written, List.append_nil]
    · show ((written k h).value : Int) = k
      rw [value_written]
  | negSucc k =>
    refine ⟨⟨[], .minus, written (k + 1) h, [], hnone, hnone⟩, ?_, ?_⟩
    · show ['-'] ++ (written (k + 1) h).text ++ [] = ("-" ++ (k + 1).repr).toList
      rw [text_written, List.append_nil, String.toList_append]
      rfl
    · show -((written (k + 1) h).value : Int) = Int.negSucc k
      rw [value_written]
      rfl

theorem comma_notMem_toString (n : Int) : ',' ∉ (toString n).toList := by
  have hdigits : ∀ k : Nat, ',' ∉ k.repr.toList := by
    intro k hmem
    rw [Nat.repr_eq_ofList_toDigits, String.toList_ofList] at hmem
    exact absurd (Nat.isDigit_of_mem_toDigits (by decide) (by decide) hmem) (by decide)
  cases n with
  | ofNat k => exact hdigits k
  | negSucc k =>
    show ',' ∉ ("-" ++ (k + 1).repr).toList
    rw [String.toList_append, List.mem_append, not_or]
    exact ⟨by decide, hdigits (k + 1)⟩

end Numeral

end ChipEight
