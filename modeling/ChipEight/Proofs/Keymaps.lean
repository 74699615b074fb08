import Mathlib.Data.List.FinRange
import ChipEight.Input.Keymap

/-!
# ChipEight.Proofs.Keymaps

What a keymap that is accepted says. A code stands for a key exactly if the field of that key gives
the code, so the text of the keymap can be read instead of the table that was made of it.

* `key?_foldlM_extend`: what adding fields does to the keys of codes.
* `key?_eq_some_iff`: the keys of codes, from the fields of the text.
* `Keymap.typed?`, `typed?_eq_some_iff`: the key that a typed character stands for.
-/

namespace ChipEight

theorem mapError_eq_ok {x : Except ε α} {f : ε → δ} {a : α} :
    x.mapError f = .ok a ↔ x = .ok a := by
  cases x with
  | error _ =>
    constructor
    · intro h
      cases h
    · intro h
      cases h
  | ok _ =>
    constructor
    · intro h
      cases h
      rfl
    · intro h
      cases h
      rfl

namespace Keymap

variable {codes : Codes}

theorem extend_eq_ok {m n : Keymap} {f : List Char × Key} (h : extend codes m f = .ok n) :
    ∃ c, code codes f.1 = .ok c ∧ m.key? c = none ∧ n = ⟨m.entries ++ [(c, f.2)]⟩ := by
  unfold extend at h
  cases hcode : code codes f.1 with
  | error e =>
    rw [hcode] at h
    cases h
  | ok c =>
    simp only [hcode] at h
    cases hkey : m.key? c with
    | some k => simp [hkey] at h
    | none =>
      simp only [hkey, Option.isSome_none, Bool.false_eq_true, if_false, Except.ok.injEq] at h
      exact ⟨c, rfl, hkey, h.symm⟩

/-- A new code takes nothing from the others. -/
theorem key?_concat {m : Keymap} {c : Int} (hnew : m.key? c = none) (k : Key) (d : Int) (j : Key) :
    (⟨m.entries ++ [(c, k)]⟩ : Keymap).key? d = some j ↔
      m.key? d = some j ∨ (d = c ∧ k = j) := by
  unfold key? at hnew ⊢
  rw [List.lookup_append, List.lookup_cons, List.lookup_nil]
  by_cases hd : d = c
  · subst hd
    simp [hnew]
  · have hne : (d == c) = false := by simpa using hd
    simp [hne, hd]

theorem key?_foldlM_extend {fs : List (List Char × Key)} {m n : Keymap}
    (h : fs.foldlM (extend codes) m = .ok n) (c : Int) (k : Key) :
    n.key? c = some k ↔
      m.key? c = some k ∨ ∃ field, (field, k) ∈ fs ∧ code codes field = .ok c := by
  induction fs generalizing m with
  | nil =>
    cases h
    simp
  | cons f fs ih =>
    rw [List.foldlM_cons] at h
    cases hf : extend codes m f with
    | error e =>
      rw [hf] at h
      cases h
    | ok m' =>
      rw [hf] at h
      obtain ⟨d, hcode, hnew, rfl⟩ := extend_eq_ok hf
      rw [ih h, key?_concat hnew]
      -- the code is an old one, that of the first field, or that of a later field
      constructor
      · rintro ((hold | ⟨rfl, rfl⟩) | ⟨field, hmem, hfield⟩)
        · exact .inl hold
        · exact .inr ⟨f.1, List.mem_cons_self, hcode⟩
        · exact .inr ⟨field, List.mem_cons_of_mem _ hmem, hfield⟩
      · rintro (hold | ⟨field, hmem, hfield⟩)
        · exact .inl (.inl hold)
        · rcases List.mem_cons.mp hmem with rfl | hmem
          · rw [hcode] at hfield
            exact .inl (.inr ⟨(Except.ok.inj hfield).symm, rfl⟩)
          · exact .inr ⟨field, hmem, hfield⟩

theorem mem_zip_finRange {n : Nat} (l : List α) (a : α) (k : Fin n) :
    (a, k) ∈ l.zip (List.finRange n) ↔ l[k.val]? = some a := by
  rw [List.mem_iff_getElem?]
  constructor
  · rintro ⟨i, hi⟩
    rw [List.getElem?_zip_eq_some] at hi
    obtain ⟨ha, hk⟩ := hi
    obtain ⟨hlt, hval⟩ := List.getElem?_eq_some_iff.mp hk
    have hi : i = k.val := by simpa using congrArg Fin.val hval
    rw [← hi]
    exact ha
  · intro ha
    refine ⟨k.val, List.getElem?_zip_eq_some.mpr ⟨ha, ?_⟩⟩
    rw [List.getElem?_eq_some_iff]
    exact ⟨by simp, by simp⟩

/-- A code stands for the key whose field gives it. -/
theorem key?_eq_some_iff {text : String} {m : Keymap} (h : parse codes text = .ok m) (c : Int)
    (k : Key) :
    m.key? c = some k ↔ ∃ field, (fields text)[k.val]? = some field ∧ code codes field = .ok c := by
  unfold parse at h
  dsimp only at h
  split at h
  · rw [key?_foldlM_extend h]
    simp [mem_zip_finRange, key?]
  · cases h

theorem code_characters {field : List Char} {c : Int} :
    code .characters field = .ok c ↔
      ∃ n, Numeral.decimal.read? field = some n ∧ LowerCase.ofNumber n = .ok c := by
  unfold code
  cases Numeral.decimal.read? field with
  | none => simp
  | some n =>
    dsimp only
    rw [mapError_eq_ok]
    simp

/-- The key that a character stands for when it is typed. A negative number stands for none. -/
def typed? (m : Keymap) (char : Int) : Option Key :=
  if char < 0 then none
  else
    match LowerCase.ofNumber char with
    | .ok code => m.key? code
    | .error _ => none

/-- A typed character stands for the key whose field holds a number with the same lower case. -/
theorem typed?_eq_some_iff {text : String} {m : Keymap} (h : parse .characters text = .ok m)
    (char : Int) (k : Key) :
    m.typed? char = some k ↔ 0 ≤ char ∧ ∃ field n lower, (fields text)[k.val]? = some field ∧
      Numeral.decimal.read? field = some n ∧ LowerCase.ofNumber n = .ok lower ∧
      LowerCase.ofNumber char = .ok lower := by
  unfold typed?
  by_cases hneg : char < 0
  · simp [hneg, Int.not_le.mpr hneg]
  · rw [if_neg hneg]
    cases hlower : LowerCase.ofNumber char with
    | error f => simp
    | ok lower =>
      dsimp only
      rw [key?_eq_some_iff h]
      simp only [code_characters, Except.ok.injEq]
      constructor
      · rintro ⟨field, hfield, n, hread, hnumber⟩
        exact ⟨by omega, field, n, lower, hfield, hread, hnumber, rfl⟩
      · rintro ⟨-, field, n, _, hfield, hread, hnumber, rfl⟩
        exact ⟨field, hfield, n, hread, hnumber⟩

end Keymap
end ChipEight
