import Mathlib.Data.List.Perm.Basic
import Mathlib.Data.List.TakeWhile
import Mathlib.Data.Set.BooleanAlgebra
import Mathlib.Data.Set.Disjoint
import Mathlib.Order.CompletePartialOrder
import ChipEight.Proofs.Drawing

/-!
# ChipEight.Proofs.Collisions

Several sprites on a dark screen. Which of them meets another one is a matter of the order in which
they are drawn; whether any two of them meet is not, and neither is the picture that they leave.

* `Placement.cells`: the cells that a sprite covers at its place.
* `drawAll?`: some draws one after the other, with what each of them reports.
* `reports_eq_false_iff`: as long as nothing collides, the cells covered so far are the lit ones.
* `after_draws_perm`: the screen after some draws, in any order.
* `collisions_in_any_order`: no draw reports a collision exactly if no two sprites share a cell.
-/

namespace ChipEight
namespace Screen

/-- A sprite and the place at which it is drawn. -/
structure Placement where
  sprite : List UInt8
  x : Int
  y : Int
deriving DecidableEq, Repr

namespace Placement

def cells (p : Placement) : Set Cell := {c | Covers (p.sprite.map UInt8.toNat) p.x p.y c}

instance (p : Placement) : DecidablePred (· ∈ p.cells) := fun c =>
  inferInstanceAs (Decidable (Covers (p.sprite.map UInt8.toNat) p.x p.y c))

def stroke (p : Placement) : Stroke := .draw p.sprite p.x p.y

end Placement

/-- Draws sprites one after the other and collects what they report. A sprite that is too tall ends
this. -/
def drawAll? (s : Screen) : List Placement → Except Fault (Screen × List Bool)
  | [] => .ok (s, [])
  | p :: ps =>
    match s.draw? p.sprite p.x p.y with
    | .error f => .error f
    | .ok (t, erased) => (t.drawAll? ps).map fun (u, flags) => (u, erased :: flags)

/-- What sprites report that are all drawn. -/
def reports (s : Screen) : List Placement → List Bool
  | [] => []
  | p :: ps => (s.draw p.sprite p.x p.y).2 :: (s.draw p.sprite p.x p.y).1.reports ps

theorem length_reports (ps : List Placement) : ∀ s : Screen, (s.reports ps).length = ps.length := by
  induction ps with
  | nil => intro s; rfl
  | cons p ps ih =>
    intro s
    simp [reports, ih]

theorem drawAll?_eq {ps : List Placement} (h : ∀ p ∈ ps, p.sprite.length ≤ 15) :
    ∀ s : Screen, s.drawAll? ps = .ok (s.after (ps.map Placement.stroke), s.reports ps) := by
  induction ps with
  | nil => intro s; rfl
  | cons p ps ih =>
    intro s
    have hp : p.sprite.length ≤ 15 := h p List.mem_cons_self
    have hps := ih fun q hq => h q (List.mem_cons_of_mem p hq)
    have hfirst : s.stroke p.stroke = (s.draw p.sprite p.x p.y).1 := stroke_draw s p.x p.y hp
    rw [drawAll?, draw?, if_neg (Nat.not_lt.mpr hp)]
    simp only [hps, Except.map, reports, List.map_cons, after, List.foldl_cons, hfirst]

/-! ## Reports -/

theorem erased_eq_false_iff (s : Screen) (p : Placement) :
    (s.draw p.sprite p.x p.y).2 = false ↔ ∀ c ∈ p.cells, s.lit c = false := by
  rw [Bool.eq_false_iff, ne_eq, erased_draw]
  constructor
  · intro h c hc
    exact Bool.eq_false_iff.mpr fun hlit => h ⟨c, hc, hlit⟩
  · rintro h ⟨c, hc, hlit⟩
    rw [h c hc] at hlit
    cases hlit

/-- A draw that meets nothing lights what it covers and leaves the rest as it was. -/
theorem dark_draw_iff {s : Screen} {p : Placement} (h : ∀ c ∈ p.cells, s.lit c = false) (c : Cell) :
    (s.draw p.sprite p.x p.y).1.lit c = false ↔ c ∉ p.cells ∧ s.lit c = false := by
  rw [lit_draw]
  by_cases hc : c ∈ p.cells
  · have hcovers : Covers (p.sprite.map UInt8.toNat) p.x p.y c := hc
    simp [hc, hcovers, h c hc]
  · have hcovers : ¬ Covers (p.sprite.map UInt8.toNat) p.x p.y c := hc
    simp [hc, hcovers]

theorem reports_eq_false_iff (ps : List Placement) : ∀ s : Screen,
    (∀ b ∈ s.reports ps, b = false) ↔
      (∀ p ∈ ps, ∀ c ∈ p.cells, s.lit c = false) ∧
        ps.Pairwise fun p q => Disjoint p.cells q.cells := by
  induction ps with
  | nil => intro s; simp [reports]
  | cons p ps ih =>
    intro s
    rw [reports, List.forall_mem_cons, erased_eq_false_iff, ih, List.forall_mem_cons,
      List.pairwise_cons]
    constructor
    · rintro ⟨hp, hps, hpairs⟩
      -- a cell that is dark behind the first draw was dark before it and is none of its cells
      have hrest : ∀ q ∈ ps, ∀ c ∈ q.cells, c ∉ p.cells ∧ s.lit c = false :=
        fun q hq c hc => (dark_draw_iff hp c).mp (hps q hq c hc)
      refine ⟨⟨hp, fun q hq c hc => (hrest q hq c hc).2⟩, fun q hq => ?_, hpairs⟩
      exact Set.disjoint_right.mpr fun c hc => (hrest q hq c hc).1
    · rintro ⟨⟨hp, hps⟩, hfirst, hpairs⟩
      refine ⟨hp, fun q hq c hc => ?_, hpairs⟩
      exact (dark_draw_iff hp c).mpr
        ⟨Set.disjoint_right.mp (hfirst q hq) hc, hps q hq c hc⟩

theorem reports_blank_eq_false_iff (ps : List Placement) :
    (∀ b ∈ blank.reports ps, b = false) ↔ ps.Pairwise fun p q => Disjoint p.cells q.cells := by
  rw [reports_eq_false_iff]
  simp

theorem mem_reports_blank_iff (ps : List Placement) :
    true ∈ blank.reports ps ↔ ¬ ps.Pairwise fun p q => Disjoint p.cells q.cells := by
  rw [← reports_blank_eq_false_iff]
  simp

/-! ## Pictures -/

/-- Without a clear every draw of a history counts. -/
theorem coverings_draws (ps : List Placement) (c : Cell) :
    coverings (ps.map Placement.stroke) c = ps.countP fun p => decide (p.stroke.Covers c) := by
  have hdraws : ∀ k ∈ (ps.map Placement.stroke).reverse, decide (k ≠ .clear) = true := by
    simp [Placement.stroke]
  unfold coverings
  rw [List.takeWhile_eq_self_iff.mpr hdraws, List.countP_reverse, List.countP_map]
  rfl

theorem after_draws_perm {ps qs : List Placement} (h : ps.Perm qs) :
    blank.after (ps.map Placement.stroke) = blank.after (qs.map Placement.stroke) := by
  refine ext_lit fun c => ?_
  rw [lit_after, lit_after, coverings_draws, coverings_draws, h.countP_eq]

/-- **Collisions do not depend on the order.** Sprites of up to fifteen rows are drawn on a dark
screen. None of them reports a collision exactly if no two of them share a cell of the screen. In any
other order they leave the same picture, and some draw reports a collision exactly if one did before.
It need not be the same one: of two sprites that share a cell, the one that comes second reports
it. -/
theorem collisions_in_any_order {ps : List Placement} (h : ∀ p ∈ ps, p.sprite.length ≤ 15) :
    ∃ t flags, blank.drawAll? ps = .ok (t, flags) ∧ flags.length = ps.length ∧
      ((∀ b ∈ flags, b = false) ↔ ps.Pairwise fun p q => Disjoint p.cells q.cells) ∧
      (∀ qs, qs.Perm ps → ∃ others, blank.drawAll? qs = .ok (t, others) ∧
        (true ∈ others ↔ true ∈ flags)) ∧
      ∀ p ∈ ps, ∀ q ∈ ps, ¬ Disjoint p.cells q.cells →
        ∃ u, blank.drawAll? [p, q] = .ok (u, [false, true]) := by
  refine ⟨_, _, drawAll?_eq h blank, length_reports ps blank, reports_blank_eq_false_iff ps,
    fun qs hperm => ?_, fun p hp q hq hmeet => ?_⟩
  · have hqs : ∀ q ∈ qs, q.sprite.length ≤ 15 := fun q hq => h q (hperm.mem_iff.mp hq)
    refine ⟨blank.reports qs, ?_, ?_⟩
    · rw [drawAll?_eq hqs, after_draws_perm hperm]
    · have hpairs : qs.Pairwise (fun p q => Disjoint p.cells q.cells) ↔ ps.Pairwise _ :=
        hperm.pairwise_iff fun hdisjoint => hdisjoint.symm
      rw [mem_reports_blank_iff, mem_reports_blank_iff, hpairs]
  · have htwo : ∀ r ∈ [p, q], r.sprite.length ≤ 15 := by
      simp [h p hp, h q hq]
    have hfirst : (blank.draw p.sprite p.x p.y).2 = false :=
      (erased_eq_false_iff blank p).mpr fun c _ => lit_blank c
    have hreport : true ∈ blank.reports [p, q] :=
      (mem_reports_blank_iff [p, q]).mpr (by simp [hmeet])
    have hflags : blank.reports [p, q] = [false, true] := by
      simp only [reports, hfirst, List.mem_cons, List.not_mem_nil, or_false, Bool.true_eq_false,
        false_or] at hreport ⊢
      rw [← hreport]
    exact ⟨blank.after [p.stroke, q.stroke], hflags ▸ drawAll?_eq htwo blank⟩

/-- Two sprites that meet in the corner of the screen, where one of them is cut off on the right, and
one that meets neither. Drawn the other way round they leave the same picture, again with a
collision. -/
theorem collisions_in_any_order_corner :
    ∃ t flags others,
      blank.drawAll? [⟨[0x81], -1, 33⟩, ⟨[0xFF], 8, 8⟩, ⟨[0xC0], 62, -31⟩] = .ok (t, flags) ∧
      blank.drawAll? [⟨[0xC0], 62, -31⟩, ⟨[0xFF], 8, 8⟩, ⟨[0x81], -1, 33⟩] = .ok (t, others) ∧
      true ∈ flags ∧ true ∈ others ∧
      ∃ u, blank.drawAll? [⟨[0xC0], 62, -31⟩, ⟨[0x81], -1, 33⟩] = .ok (u, [false, true]) := by
  have hsmall : ∀ p ∈ [(⟨[0x81], -1, 33⟩ : Placement), ⟨[0xFF], 8, 8⟩, ⟨[0xC0], 62, -31⟩],
      p.sprite.length ≤ 15 := by decide
  have hmeet : ¬ Disjoint (⟨[0x81], -1, 33⟩ : Placement).cells
      (⟨[0xC0], 62, -31⟩ : Placement).cells :=
    Set.not_disjoint_iff.mpr ⟨⟨63, 1⟩, by decide, by decide⟩
  obtain ⟨t, flags, hdraws, -, hsilent, hperm, hsecond⟩ := collisions_in_any_order hsmall
  obtain ⟨others, hother, hsame⟩ :=
    hperm [⟨[0xC0], 62, -31⟩, ⟨[0xFF], 8, 8⟩, ⟨[0x81], -1, 33⟩] (by decide)
  have hflag : true ∈ flags := by
    by_contra hnone
    have hfalse : ∀ b ∈ flags, b = false := fun b hb =>
      Bool.eq_false_iff.mpr fun e => hnone (e ▸ hb)
    have hpairs := hsilent.mp hfalse
    simp [hmeet] at hpairs
  exact ⟨t, flags, others, hdraws, hother, hflag, hsame.mpr hflag,
    hsecond _ (by simp) _ (by simp) fun hdisjoint => hmeet hdisjoint.symm⟩

end Screen
end ChipEight
