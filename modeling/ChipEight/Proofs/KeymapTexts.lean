import ChipEight.Proofs.Keymaps
import ChipEight.Proofs.Numerals

/-!
# ChipEight.Proofs.KeymapTexts

Which texts are keymaps, and what is wrong with the others. The number of fields counts first; then
the leftmost field that offends decides, whether it gives no code or one that was given before.

* `Gives`, `Offends`: what fields give, and what is wrong with a field behind others.
* `foldlM_extend_eq_ok_iff`, `foldlM_extend_eq_error_iff`: adding fields one by one.
* `parse_eq_ok_iff`, `parse_eq_error_iff`: the same for a whole text.
* `parse_keys`: keymaps of host keys, and that the texts of sixteen integers are read back.
* `parse_characters`: keymaps of characters, in lower case.
-/

namespace ChipEight

namespace Keymap

variable {codes : Codes}

/-! ## Fields one by one -/

/-- The codes of a keymap, in order. -/
def given (m : Keymap) : List Int := m.entries.map Prod.fst

/-- Fields give codes, in order. -/
def Gives (codes : Codes) : List (List Char) → List Int → Prop :=
  List.Forall₂ fun field c => code codes field = .ok c

/-- What is wrong with a field behind others that gave codes: it gives none itself, or one of
those. -/
inductive Offends (codes : Codes) (cs : List Int) (field : List Char) : Fault → Prop where
  | unread {f : Fault} : code codes field = .error f → Offends codes cs field f
  | repeated {c : Int} : code codes field = .ok c → c ∈ cs → Offends codes cs field .duplicate

theorem isSome_key? {m : Keymap} {c : Int} : (m.key? c).isSome = true ↔ c ∈ m.given := by
  unfold key? given
  rw [← not_iff_not, Bool.not_eq_true, Option.isSome_eq_false_iff, Option.isNone_iff_eq_none,
    List.lookup_eq_none_iff, List.mem_map]
  constructor
  · rintro hnone ⟨p, hp, rfl⟩
    simpa using hnone p hp
  · intro hnot p hp
    exact bne_iff_ne.mpr fun heq => hnot ⟨p, hp, heq.symm⟩

section Extend

variable {m : Keymap} {field : List Char} {c : Int} {k : Key}

theorem extend_unread {f : Fault} (hcode : code codes field = .error f) :
    extend codes m (field, k) = .error f := by
  unfold extend
  rw [hcode]

theorem extend_repeated (hcode : code codes field = .ok c) (hold : c ∈ m.given) :
    extend codes m (field, k) = .error .duplicate := by
  unfold extend
  rw [hcode]
  exact if_pos (isSome_key?.mpr hold)

theorem extend_new (hcode : code codes field = .ok c) (hnew : c ∉ m.given) :
    extend codes m (field, k) = .ok ⟨m.entries ++ [(c, k)]⟩ := by
  unfold extend
  rw [hcode]
  exact if_neg (mt isSome_key?.mp hnew)

theorem extend_of_offends {f : Fault} (h : Offends codes m.given field f) :
    extend codes m (field, k) = .error f := by
  cases h with
  | unread hcode => exact extend_unread hcode
  | repeated hcode hold => exact extend_repeated hcode hold

theorem given_concat (m : Keymap) (c : Int) (k : Key) :
    (⟨m.entries ++ [(c, k)]⟩ : Keymap).given = m.given ++ [c] := by
  simp [given]

end Extend

theorem nodup_given_concat {m : Keymap} {c : Int} (k : Key) {cs : List Int} :
    ((⟨m.entries ++ [(c, k)]⟩ : Keymap).given ++ cs).Nodup ↔ (m.given ++ c :: cs).Nodup := by
  rw [given_concat, List.append_assoc, List.singleton_append]

theorem nodup_given {m : Keymap} {c : Int} (hm : m.given.Nodup) (hnew : c ∉ m.given) (k : Key) :
    (⟨m.entries ++ [(c, k)]⟩ : Keymap).given.Nodup := by
  rw [given_concat, ← List.concat_eq_append]
  exact hm.concat hnew

theorem notMem_of_nodup {old cs : List Int} {c : Int} (h : (old ++ c :: cs).Nodup) : c ∉ old :=
  fun hmem => (List.nodup_append'.mp h).2.2 hmem List.mem_cons_self

/-- The first of some fields that offends behind those that gave the codes `old`. -/
def OffendsFirst (codes : Codes) (old : List Int) (fs : List (List Char)) (f : Fault) : Prop :=
  ∃ before field later cs, fs = before ++ field :: later ∧ Gives codes before cs ∧
    (old ++ cs).Nodup ∧ Offends codes (old ++ cs) field f

section Fold

variable {field : List Char} {fs : List (List Char)} {k : Key} {ks : List Key} {m : Keymap}

theorem foldlM_extend_cons {c : Int} (hcode : code codes field = .ok c) (hnew : c ∉ m.given) :
    ((field :: fs).zip (k :: ks)).foldlM (extend codes) m =
      (fs.zip ks).foldlM (extend codes) ⟨m.entries ++ [(c, k)]⟩ := by
  rw [List.zip_cons_cons, List.foldlM_cons, extend_new hcode hnew]
  rfl

theorem foldlM_extend_of_offends {f : Fault} (h : Offends codes m.given field f) :
    ((field :: fs).zip (k :: ks)).foldlM (extend codes) m = .error f := by
  rw [List.zip_cons_cons, List.foldlM_cons, extend_of_offends h]
  rfl

/-- The first of some fields offends, or it gives a new code. -/
theorem offends_or_new (codes : Codes) (field : List Char) (old : List Int) :
    (∃ f, Offends codes old field f) ∨ ∃ c, code codes field = .ok c ∧ c ∉ old := by
  cases hcode : code codes field with
  | error f => exact .inl ⟨f, .unread hcode⟩
  | ok c =>
    by_cases hold : c ∈ old
    · exact .inl ⟨_, .repeated hcode hold⟩
    · exact .inr ⟨c, rfl, hold⟩

theorem Offends.unique {old : List Int} {f g : Fault} (hf : Offends codes old field f)
    (hg : Offends codes old field g) : f = g := by
  cases hf with
  | unread hf =>
    cases hg with
    | unread hg => exact Except.error.inj (hf.symm.trans hg)
    | repeated hread _ => cases hf.symm.trans hread
  | repeated hread _ =>
    cases hg with
    | unread hg => cases hread.symm.trans hg
    | repeated _ _ => rfl

theorem not_offends_of_new {old : List Int} {c : Int} (hcode : code codes field = .ok c)
    (hnew : c ∉ old) (f : Fault) : ¬ Offends codes old field f := by
  rintro (hunread | ⟨hread, hold⟩)
  · rw [hcode] at hunread
    cases hunread
  · rw [hcode] at hread
    cases hread
    exact hnew hold

/-- Fields make a keymap exactly if each gives a code and no code comes twice. -/
theorem foldlM_extend_eq_ok_iff (hlength : fs.length = ks.length) {n : Keymap}
    (hm : m.given.Nodup) :
    (fs.zip ks).foldlM (extend codes) m = .ok n ↔
      ∃ cs, Gives codes fs cs ∧ (m.given ++ cs).Nodup ∧ n.entries = m.entries ++ cs.zip ks := by
  induction fs generalizing m ks with
  | nil =>
    constructor
    · rintro ⟨⟩
      exact ⟨[], .nil, by rwa [List.append_nil], by simp⟩
    · rintro ⟨cs, ⟨⟩, -, hentries⟩
      rw [List.zip_nil_left, List.append_nil] at hentries
      cases n
      cases hentries
      rfl
  | cons field fs ih =>
    cases ks with
    | nil => cases hlength
    | cons k ks =>
    have hrest : fs.length = ks.length := Nat.succ.inj hlength
    -- the code of the first field joins those that were given, and the rest is a keymap behind them
    constructor
    · intro h
      rcases offends_or_new codes field m.given with ⟨f, hoffends⟩ | ⟨c, hcode, hnew⟩
      · rw [foldlM_extend_of_offends hoffends] at h
        cases h
      · rw [foldlM_extend_cons hcode hnew] at h
        have hm' : (⟨m.entries ++ [(c, k)]⟩ : Keymap).given.Nodup := nodup_given hm hnew k
        obtain ⟨cs, hgives, hnodup, hentries⟩ := (ih hrest hm').mp h
        exact ⟨c :: cs, .cons hcode hgives, (nodup_given_concat k).mp hnodup,
          by simpa using hentries⟩
    · rintro ⟨cs, hgives, hnodup, hentries⟩
      cases hgives with
      | @cons _ c _ cs hcode hgives =>
        have hnew := notMem_of_nodup hnodup
        rw [foldlM_extend_cons hcode hnew, ih hrest (nodup_given hm hnew k)]
        exact ⟨cs, hgives, (nodup_given_concat k).mpr hnodup, by simpa using hentries⟩

theorem not_offendsFirst_nil {old : List Int} {f : Fault} : ¬ OffendsFirst codes old [] f := by
  rintro ⟨before, field, later, cs, hsplit, -⟩
  cases before <;> cases hsplit

theorem offendsFirst_cons_of_offends {old : List Int} {f g : Fault} (hold : old.Nodup)
    (h : Offends codes old field g) : OffendsFirst codes old (field :: fs) f ↔ g = f := by
  constructor
  · rintro ⟨before, first, later, cs, hsplit, hgives, hnodup, hfirst⟩
    cases hgives with
    | nil =>
      cases hsplit
      rw [List.append_nil] at hfirst
      exact h.unique hfirst
    | @cons _ c _ cs hcode _ =>
      cases hsplit
      exact absurd h (not_offends_of_new hcode (notMem_of_nodup hnodup) g)
  · rintro rfl
    exact ⟨[], field, fs, [], rfl, .nil, by rwa [List.append_nil], by rwa [List.append_nil]⟩

/-- A field that gives a new code leaves the decision to those behind it. -/
theorem offendsFirst_cons_of_new {old : List Int} {c : Int} {f : Fault}
    (hcode : code codes field = .ok c) (hnew : c ∉ old) :
    OffendsFirst codes old (field :: fs) f ↔ OffendsFirst codes (old ++ [c]) fs f := by
  have hmove : ∀ cs, old ++ c :: cs = old ++ [c] ++ cs := fun cs => by
    rw [List.append_assoc, List.singleton_append]
  constructor
  · rintro ⟨before, first, later, cs, hsplit, hgives, hnodup, hfirst⟩
    cases hgives with
    | nil =>
      cases hsplit
      rw [List.append_nil] at hfirst
      exact absurd hfirst (not_offends_of_new hcode hnew f)
    | @cons _ d before cs hread hgives =>
      cases hsplit
      cases hcode.symm.trans hread
      rw [hmove] at hnodup hfirst
      exact ⟨before, first, later, cs, rfl, hgives, hnodup, hfirst⟩
  · rintro ⟨before, first, later, cs, rfl, hgives, hnodup, hfirst⟩
    rw [← hmove] at hnodup hfirst
    exact ⟨field :: before, first, later, c :: cs, rfl, .cons hcode hgives, hnodup, hfirst⟩

/-- Fields make no keymap exactly if one of them offends, and the first that does decides. -/
theorem foldlM_extend_eq_error_iff (hlength : fs.length = ks.length) {f : Fault}
    (hm : m.given.Nodup) :
    (fs.zip ks).foldlM (extend codes) m = .error f ↔ OffendsFirst codes m.given fs f := by
  induction fs generalizing m ks with
  | nil =>
    rw [iff_false_right not_offendsFirst_nil]
    rintro ⟨⟩
  | cons field fs ih =>
    cases ks with
    | nil => cases hlength
    | cons k ks =>
    have hrest : fs.length = ks.length := Nat.succ.inj hlength
    -- either the decision falls here, or the code joins those that were given
    rcases offends_or_new codes field m.given with ⟨g, hoffends⟩ | ⟨c, hcode, hnew⟩
    · rw [foldlM_extend_of_offends hoffends, offendsFirst_cons_of_offends hm hoffends,
        Except.error.injEq]
    · rw [foldlM_extend_cons hcode hnew, ih hrest (nodup_given hm hnew k), given_concat,
        offendsFirst_cons_of_new hcode hnew]

end Fold

/-! ## Whole texts -/

theorem fields_eq_splitOn (text : String) : fields text = text.toList.splitOn ',' :=
  Cut.pieces_eq_splitOn ',' text.toList

theorem nodup_given_nil : (⟨[]⟩ : Keymap).given.Nodup := List.nodup_nil

section Parse

variable {text : String}

theorem parse_of_count (hcount : (text.toList.splitOn ',').length = 16) :
    parse codes text =
      ((text.toList.splitOn ',').zip (List.finRange 16)).foldlM (extend codes) ⟨[]⟩ := by
  unfold parse
  rw [fields_eq_splitOn]
  exact if_pos hcount

theorem parse_of_wrong_count (hcount : (text.toList.splitOn ',').length ≠ 16) :
    parse codes text = .error .wrongCount := by
  unfold parse
  rw [fields_eq_splitOn]
  exact if_neg hcount

/-- A text is a keymap exactly if it has sixteen fields, each gives a code and no code comes
twice. -/
theorem parse_eq_ok_iff {m : Keymap} :
    parse codes text = .ok m ↔
      (text.toList.splitOn ',').length = 16 ∧
        ∃ cs, Gives codes (text.toList.splitOn ',') cs ∧ cs.Nodup ∧
          m.entries = cs.zip (List.finRange 16) := by
  by_cases hcount : (text.toList.splitOn ',').length = 16
  · have hlength : (text.toList.splitOn ',').length = (List.finRange 16).length := by
      rw [hcount, List.length_finRange]
    rw [parse_of_count hcount, foldlM_extend_eq_ok_iff hlength nodup_given_nil]
    exact (and_iff_right hcount).symm
  · rw [parse_of_wrong_count hcount]
    constructor
    · rintro ⟨⟩
    · rintro ⟨h, -⟩
      exact absurd h hcount

/-- A text is no keymap because of the number of its fields, or else because of the first of them
that offends. -/
theorem parse_eq_error_iff {f : Fault} :
    parse codes text = .error f ↔
      (text.toList.splitOn ',').length ≠ 16 ∧ f = .wrongCount ∨
        (text.toList.splitOn ',').length = 16 ∧
          OffendsFirst codes [] (text.toList.splitOn ',') f := by
  by_cases hcount : (text.toList.splitOn ',').length = 16
  · have hlength : (text.toList.splitOn ',').length = (List.finRange 16).length := by
      rw [hcount, List.length_finRange]
    rw [parse_of_count hcount, foldlM_extend_eq_error_iff hlength nodup_given_nil]
    simp [hcount, given]
  · rw [parse_of_wrong_count hcount]
    simp [hcount, eq_comm]

/-- Each key has one code in a keymap. -/
theorem exists_code {m : Keymap} (h : parse codes text = .ok m) (k : Key) :
    ∃ c, ∀ d, m.key? d = some k ↔ d = c := by
  obtain ⟨hcount, cs, hgives, -, -⟩ := parse_eq_ok_iff.mp h
  rw [← fields_eq_splitOn] at hcount hgives
  have hk : k.val < (fields text).length := by
    rw [hcount]
    exact k.isLt
  have hk' : k.val < cs.length := by
    rw [← List.Forall₂.length_eq hgives]
    exact hk
  have hcode : code codes (fields text)[k.val] = .ok cs[k.val] := List.Forall₂.get hgives hk hk'
  refine ⟨cs[k.val], fun d => ?_⟩
  rw [key?_eq_some_iff h, List.getElem?_eq_getElem hk]
  constructor
  · rintro ⟨field, hfield, hread⟩
    cases hfield
    exact Except.ok.inj (hread.symm.trans hcode)
  · rintro rfl
    exact ⟨_, rfl, hcode⟩

end Parse

/-! ## Host keys -/

theorem code_keys_eq_ok_iff {field : List Char} {n : Int} :
    code .keys field = .ok n ↔ Numeral.Spells field n := by
  rw [← Numeral.read?_eq_some_iff]
  unfold code
  cases Numeral.decimal.read? field <;> simp

theorem code_keys_eq_error_iff {field : List Char} {f : Fault} :
    code .keys field = .error f ↔ f = .notInteger ∧ ¬ ∃ n, Numeral.Spells field n := by
  simp only [← Numeral.read?_eq_some_iff]
  unfold code
  cases Numeral.decimal.read? field <;> simp [eq_comm]

theorem gives_keys_iff {fs : List (List Char)} {ns : List Int} :
    Gives .keys fs ns ↔ List.Forall₂ Numeral.Spells fs ns := by
  unfold Gives
  simp only [code_keys_eq_ok_iff]

theorem offends_keys_iff {ns : List Int} {field : List Char} {f : Fault} :
    Offends .keys ns field f ↔
      f = .notInteger ∧ (¬ ∃ n, Numeral.Spells field n) ∨
        f = .duplicate ∧ ∃ n ∈ ns, Numeral.Spells field n := by
  constructor
  · rintro (hunread | ⟨hread, hold⟩)
    · exact .inl (code_keys_eq_error_iff.mp hunread)
    · exact .inr ⟨rfl, _, hold, code_keys_eq_ok_iff.mp hread⟩
  · rintro (hunread | ⟨rfl, n, hold, hspells⟩)
    · exact .unread (code_keys_eq_error_iff.mpr hunread)
    · exact .repeated (code_keys_eq_ok_iff.mpr hspells) hold

theorem offendsFirst_keys_iff {fs : List (List Char)} {f : Fault} :
    OffendsFirst .keys [] fs f ↔
      ∃ before field later ns, fs = before ++ field :: later ∧
        List.Forall₂ Numeral.Spells before ns ∧ ns.Nodup ∧
        (f = .notInteger ∧ (¬ ∃ n, Numeral.Spells field n) ∨
          f = .duplicate ∧ ∃ n ∈ ns, Numeral.Spells field n) := by
  unfold OffendsFirst
  simp only [gives_keys_iff, offends_keys_iff, List.nil_append]

theorem splitOn_written {ns : List Int} (hne : ns ≠ []) :
    (",".intercalate (ns.map toString)).toList.splitOn ',' =
      ns.map fun n => (toString n).toList := by
  rw [String.toList_intercalate, List.map_map]
  refine List.splitOn_intercalate ',' (fun s hs hcomma => ?_) (by simpa using hne)
  obtain ⟨n, -, rfl⟩ := List.mem_map.mp hs
  exact Numeral.comma_notMem_toString n hcomma

/-- The texts of sixteen different integers, with commas between them, are read back. -/
theorem parse_written {ns : List Int} (hcount : ns.length = 16) (hnodup : ns.Nodup)
    (hshort : ∀ n ∈ ns, (Nat.toDigits 10 n.natAbs).length ≤ 4300) :
    parse .keys (",".intercalate (ns.map toString)) = .ok ⟨ns.zip (List.finRange 16)⟩ := by
  have hne : ns ≠ [] := by
    rintro rfl
    cases hcount
  rw [parse_eq_ok_iff, splitOn_written hne]
  refine ⟨by rw [List.length_map, hcount], ns, ?_, hnodup, rfl⟩
  rw [gives_keys_iff, List.forall₂_map_left_iff, List.forall₂_same]
  exact fun n hn => Numeral.spells_toString (hshort n hn)

theorem key?_of_spells {text : String} {m : Keymap} (h : parse .keys text = .ok m) {i : Key}
    {field : List Char} {n : Int} (hfield : (text.toList.splitOn ',')[i.val]? = some field)
    (hspells : Numeral.Spells field n) : m.key? n = some i := by
  rw [key?_eq_some_iff h, fields_eq_splitOn]
  exact ⟨field, hfield, code_keys_eq_ok_iff.mpr hspells⟩

/-- Sixteen fields that spell different integers are a keymap, and nothing else is. The first field
that offends decides what a text of sixteen fields is reported as; and whatever sixteen integers
differ, their decimal texts are a keymap in which each stands for its place. -/
theorem parse_keys :
    (∀ (text : String) (m : Keymap), parse .keys text = .ok m ↔
      (text.toList.splitOn ',').length = 16 ∧
        ∃ ns, List.Forall₂ Numeral.Spells (text.toList.splitOn ',') ns ∧ ns.Nodup ∧
          m.entries = ns.zip (List.finRange 16)) ∧
    (∀ (text : String) (m : Keymap), parse .keys text = .ok m →
      m.entries.length = 16 ∧ ∀ (i : Key) (field : List Char) (n : Int),
        (text.toList.splitOn ',')[i.val]? = some field → Numeral.Spells field n →
          m.key? n = some i) ∧
    (∀ (text : String) (f : Fault), parse .keys text = .error f ↔
      (text.toList.splitOn ',').length ≠ 16 ∧ f = .wrongCount ∨
        (text.toList.splitOn ',').length = 16 ∧
          ∃ before field later ns, text.toList.splitOn ',' = before ++ field :: later ∧
            List.Forall₂ Numeral.Spells before ns ∧ ns.Nodup ∧
            (f = .notInteger ∧ (¬ ∃ n, Numeral.Spells field n) ∨
              f = .duplicate ∧ ∃ n ∈ ns, Numeral.Spells field n)) ∧
    (Fault.wrongCount.message =
        "Incorrect number of keys defined -- 16 required.  Use commas to split numbers" ∧
      Fault.notInteger.message = "Defined keys are not all integer values" ∧
      Fault.duplicate.message = "Duplicate keys defined") ∧
    (∀ ns : List Int, ns.length = 16 → ns.Nodup →
      (∀ n ∈ ns, (Nat.toDigits 10 n.natAbs).length ≤ 4300) →
        ∃ m, parse .keys (",".intercalate (ns.map toString)) = .ok m ∧
          m.entries = ns.zip (List.finRange 16) ∧
          ∀ (i : Key) (n : Int), ns[i.val]? = some n → m.key? n = some i) := by
  refine ⟨fun text m => ?_, fun text m hm => ⟨?_, fun i field n => key?_of_spells hm⟩,
    fun text f => ?_, ⟨rfl, rfl, rfl⟩, fun ns hcount hnodup hshort => ?_⟩
  · rw [parse_eq_ok_iff]
    simp only [gives_keys_iff]
  · obtain ⟨hcount, ns, hgives, -, hentries⟩ := parse_eq_ok_iff.mp hm
    rw [hentries, List.length_zip, ← hgives.length_eq, hcount]
    rfl
  · rw [parse_eq_error_iff, offendsFirst_keys_iff]
  · have hparse := parse_written hcount hnodup hshort
    refine ⟨_, hparse, rfl, fun i n hn => ?_⟩
    have hne : ns ≠ [] := by
      rintro rfl
      cases hcount
    have hfield : ((",".intercalate (ns.map toString)).toList.splitOn ',')[i.val]? =
        some (toString n).toList := by
      rw [splitOn_written hne, List.getElem?_map, hn]
      rfl
    exact key?_of_spells hparse hfield
      (Numeral.spells_toString (hshort n (List.mem_of_getElem? hn)))

theorem parse_keys_signed :
    ∃ m, parse .keys "-8,-7,-6,-5,-4,-3,-2,-1,0,1,2,3,4,5,6,7" = .ok m ∧ m.entries.length = 16 ∧
      m.key? (-8) = some 0 ∧ m.key? 7 = some 15 := by
  obtain ⟨m, hm, -, hkey⟩ := parse_keys.2.2.2.2
    [-8, -7, -6, -5, -4, -3, -2, -1, 0, 1, 2, 3, 4, 5, 6, 7] rfl (by decide) (by decide)
  obtain ⟨hlength, hfield⟩ := parse_keys.2.1 _ m hm
  have hspells : Numeral.Spells "-8".toList (-8) := Numeral.read?_eq_some_iff.mp (by decide)
  exact ⟨m, hm, hlength, hfield 0 "-8".toList (-8) rfl hspells, hkey 15 7 rfl⟩

example : parse .keys "65,1,2,3,4,5,6,7,8,9,10,11,12,13,14, +6_5" = .error .duplicate := by decide

/-! ## Characters -/

end Keymap

namespace LowerCase

/-- The numbers of the characters whose lower case is one character. -/
def HasSingle (n : Int) : Prop := 0 ≤ n ∧ n ≤ 0x10FFFF ∧ n ≠ dottedI

theorem ofNumber_of_hasSingle {n : Int} (h : HasSingle n) :
    ofNumber n = .ok (single n.toNat) := by
  obtain ⟨hlow, hhigh, hdotted⟩ := h
  have hcode : ofCode n.toNat = [single n.toNat] := by
    unfold ofCode
    rw [if_neg fun heq => hdotted (by omega)]
  unfold ofNumber
  rw [if_neg (by omega), if_neg (by omega), hcode]

theorem ofNumber_of_not_hasSingle {n : Int} (h : ¬ HasSingle n) : ∃ f, ofNumber n = .error f := by
  unfold ofNumber
  split
  · exact ⟨_, rfl⟩
  · split
    · exact ⟨_, rfl⟩
    · rename_i hwide hcharacter
      have hdotted : n.toNat = dottedI := by
        by_contra hne
        exact h ⟨by omega, by omega, fun heq => hne (by omega)⟩
      rw [hdotted]
      exact ⟨_, rfl⟩

theorem ofNumber_eq_ok_iff {n c : Int} :
    ofNumber n = .ok c ↔ HasSingle n ∧ c = single n.toNat := by
  by_cases h : HasSingle n
  · rw [ofNumber_of_hasSingle h]
    simp [h, eq_comm]
  · obtain ⟨f, hf⟩ := ofNumber_of_not_hasSingle h
    rw [hf]
    simp [h]

theorem exists_ofNumber_eq_error_iff {n : Int} : (∃ f, ofNumber n = .error f) ↔ ¬ HasSingle n := by
  constructor
  · rintro ⟨f, hf⟩ h
    rw [ofNumber_of_hasSingle h] at hf
    cases hf
  · exact ofNumber_of_not_hasSingle

end LowerCase

namespace Keymap

/-- The codes of characters that are given by their numbers. -/
def lowered (ns : List Int) : List Int := ns.map fun n => LowerCase.single n.toNat

theorem gives_characters_iff {fs : List (List Char)} {cs : List Int} :
    Gives .characters fs cs ↔
      ∃ ns, List.Forall₂ Numeral.Spells fs ns ∧ (∀ n ∈ ns, LowerCase.HasSingle n) ∧
        cs = lowered ns := by
  induction fs generalizing cs with
  | nil =>
    constructor
    · rintro ⟨⟩
      exact ⟨[], .nil, by simp, rfl⟩
    · rintro ⟨ns, ⟨⟩, -, rfl⟩
      exact .nil
  | cons field fs ih =>
    constructor
    · rintro (_ | ⟨hcode, hgives⟩)
      obtain ⟨n, hread, hnumber⟩ := code_characters.mp hcode
      obtain ⟨hsingle, rfl⟩ := LowerCase.ofNumber_eq_ok_iff.mp hnumber
      obtain ⟨ns, hspells, hall, rfl⟩ := ih.mp hgives
      exact ⟨n :: ns, .cons (Numeral.read?_eq_some_iff.mp hread) hspells,
        List.forall_mem_cons.mpr ⟨hsingle, hall⟩, rfl⟩
    · rintro ⟨ns, hspells, hall, rfl⟩
      cases hspells with
      | @cons _ n _ ns hfield hspells =>
        obtain ⟨hsingle, hall⟩ := List.forall_mem_cons.mp hall
        exact .cons (code_characters.mpr ⟨n, Numeral.read?_eq_some_iff.mpr hfield,
          LowerCase.ofNumber_of_hasSingle hsingle⟩) (ih.mpr ⟨ns, hspells, hall, rfl⟩)

theorem code_characters_eq_error_iff {field : List Char} {f : Fault} :
    code .characters field = .error f ↔
      f = .notInteger ∧ (¬ ∃ n, Numeral.Spells field n) ∨
        ∃ n g, Numeral.Spells field n ∧ LowerCase.ofNumber n = .error g ∧ f = .character g := by
  simp only [← Numeral.read?_eq_some_iff]
  unfold code
  cases Numeral.decimal.read? field with
  | none => simp [eq_comm]
  | some n =>
    cases hnumber : LowerCase.ofNumber n <;> simp [hnumber, Except.mapError, eq_comm]

theorem offends_characters_iff {cs : List Int} {field : List Char} {f : Fault} :
    Offends .characters cs field f ↔
      f = .notInteger ∧ (¬ ∃ n, Numeral.Spells field n) ∨
        (∃ n g, Numeral.Spells field n ∧ LowerCase.ofNumber n = .error g ∧ f = .character g) ∨
        f = .duplicate ∧ ∃ n, Numeral.Spells field n ∧ LowerCase.HasSingle n ∧
          (LowerCase.single n.toNat : Int) ∈ cs := by
  constructor
  · rintro (hunread | ⟨hread, hold⟩)
    · exact (code_characters_eq_error_iff.mp hunread).imp_right .inl
    · obtain ⟨n, hn, hnumber⟩ := code_characters.mp hread
      obtain ⟨hsingle, rfl⟩ := LowerCase.ofNumber_eq_ok_iff.mp hnumber
      exact .inr (.inr ⟨rfl, n, Numeral.read?_eq_some_iff.mp hn, hsingle, hold⟩)
  · rintro (hnone | hnumber | ⟨rfl, n, hspells, hsingle, hold⟩)
    · exact .unread (code_characters_eq_error_iff.mpr (.inl hnone))
    · exact .unread (code_characters_eq_error_iff.mpr (.inr hnumber))
    · exact .repeated (code_characters.mpr ⟨n, Numeral.read?_eq_some_iff.mpr hspells,
        LowerCase.ofNumber_of_hasSingle hsingle⟩) hold

theorem offendsFirst_characters_iff {fs : List (List Char)} {f : Fault} :
    OffendsFirst .characters [] fs f ↔
      ∃ before field later ns, fs = before ++ field :: later ∧
        List.Forall₂ Numeral.Spells before ns ∧ (∀ n ∈ ns, LowerCase.HasSingle n) ∧
        (lowered ns).Nodup ∧
        (f = .notInteger ∧ (¬ ∃ n, Numeral.Spells field n) ∨
          (∃ n g, Numeral.Spells field n ∧ LowerCase.ofNumber n = .error g ∧ f = .character g) ∨
          f = .duplicate ∧ ∃ n, Numeral.Spells field n ∧ LowerCase.HasSingle n ∧
            (LowerCase.single n.toNat : Int) ∈ lowered ns) := by
  unfold OffendsFirst
  simp only [gives_characters_iff, offends_characters_iff, List.nil_append]
  constructor
  · rintro ⟨before, field, later, _, hsplit, ⟨ns, hspells, hall, rfl⟩, hnodup, hfirst⟩
    exact ⟨before, field, later, ns, hsplit, hspells, hall, hnodup, hfirst⟩
  · rintro ⟨before, field, later, ns, hsplit, hspells, hall, hnodup, hfirst⟩
    exact ⟨before, field, later, _, hsplit, ⟨ns, hspells, hall, rfl⟩, hnodup, hfirst⟩

/-- Whether a fault is reported as one of the keymap. The others are those of the numbers. -/
def Fault.isReported : Fault → Bool
  | .character _ => false
  | _ => true

/-- Sixteen fields that spell characters with different lower cases are a keymap, and nothing else
is. What is wrong with another text is reported, unless the first field that offends spells a number
that no character has, or that of the one character whose lower case is two. -/
theorem parse_characters (text : String) :
    (∀ m : Keymap, parse .characters text = .ok m ↔
      (text.toList.splitOn ',').length = 16 ∧
        ∃ ns, List.Forall₂ Numeral.Spells (text.toList.splitOn ',') ns ∧
          (∀ n ∈ ns, LowerCase.HasSingle n) ∧ (lowered ns).Nodup ∧
          m.entries = (lowered ns).zip (List.finRange 16)) ∧
    (∀ f : Fault, parse .characters text = .error f ↔
      (text.toList.splitOn ',').length ≠ 16 ∧ f = .wrongCount ∨
        (text.toList.splitOn ',').length = 16 ∧
          ∃ before field later ns, text.toList.splitOn ',' = before ++ field :: later ∧
            List.Forall₂ Numeral.Spells before ns ∧ (∀ n ∈ ns, LowerCase.HasSingle n) ∧
            (lowered ns).Nodup ∧
            (f = .notInteger ∧ (¬ ∃ n, Numeral.Spells field n) ∨
              (∃ n g, Numeral.Spells field n ∧ LowerCase.ofNumber n = .error g ∧
                f = .character g) ∨
              f = .duplicate ∧ ∃ n, Numeral.Spells field n ∧ LowerCase.HasSingle n ∧
                (LowerCase.single n.toNat : Int) ∈ lowered ns)) ∧
    ((∃ f, parse .characters text = .error f ∧ f.isReported = false) ↔
      (text.toList.splitOn ',').length = 16 ∧
        ∃ before field later ns n, text.toList.splitOn ',' = before ++ field :: later ∧
          List.Forall₂ Numeral.Spells before ns ∧ (∀ k ∈ ns, LowerCase.HasSingle k) ∧
          (lowered ns).Nodup ∧ Numeral.Spells field n ∧ ¬ LowerCase.HasSingle n) := by
  have herror := fun f : Fault =>
    (@parse_eq_error_iff .characters text f).trans
      (or_congr_right (and_congr_right fun _ => offendsFirst_characters_iff))
  refine ⟨fun m => ?_, herror, ?_⟩
  · rw [parse_eq_ok_iff]
    simp only [gives_characters_iff]
    constructor
    · rintro ⟨hcount, _, ⟨ns, hspells, hall, rfl⟩, hnodup, hentries⟩
      exact ⟨hcount, ns, hspells, hall, hnodup, hentries⟩
    · rintro ⟨hcount, ns, hspells, hall, hnodup, hentries⟩
      exact ⟨hcount, _, ⟨ns, hspells, hall, rfl⟩, hnodup, hentries⟩
  · constructor
    · rintro ⟨f, hparse, hunreported⟩
      rcases (herror f).mp hparse with ⟨-, rfl⟩ |
        ⟨hcount, before, field, later, ns, hsplit, hgiven, hall, hnodup, hfirst⟩
      · cases hunreported
      rcases hfirst with ⟨rfl, -⟩ | ⟨n, g, hspells, hnumber, rfl⟩ | ⟨rfl, -⟩
      · cases hunreported
      · exact ⟨hcount, before, field, later, ns, n, hsplit, hgiven, hall, hnodup, hspells,
          LowerCase.exists_ofNumber_eq_error_iff.mp ⟨g, hnumber⟩⟩
      · cases hunreported
    · rintro ⟨hcount, before, field, later, ns, n, hsplit, hgiven, hall, hnodup, hspells, hnot⟩
      obtain ⟨g, hnumber⟩ := LowerCase.ofNumber_of_not_hasSingle hnot
      exact ⟨.character g, (herror _).mpr (.inr ⟨hcount, before, field, later, ns, hsplit,
        hgiven, hall, hnodup, .inr (.inl ⟨n, g, hspells, hnumber, rfl⟩)⟩), rfl⟩

theorem negative_code_unreported :
    ¬ ∀ text : String, (∃ m, parse .characters text = .ok m) ∨
      ∃ f, parse .characters text = .error f ∧ f.isReported = true := by
  intro h
  have hparse : parse .characters "-1,49,50,51,113,119,101,97,115,100,122,99,52,114,102,118" =
      .error (.character (.noCharacter (-1))) := by decide
  rcases h "-1,49,50,51,113,119,101,97,115,100,122,99,52,114,102,118" with
    ⟨m, hm⟩ | ⟨f, hf, hreported⟩
  · rw [hparse] at hm
    cases hm
  · rw [hparse] at hf
    cases hf
    cases hreported

end Keymap
end ChipEight
