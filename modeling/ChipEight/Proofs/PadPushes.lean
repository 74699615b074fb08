import Mathlib.Data.List.Induction
import ChipEight.Display.Terminal
import ChipEight.Proofs.Histories

/-!
# ChipEight.Proofs.PadPushes

When a display in a terminal pushes its pad to the terminal. Between two refreshes there may be
pixels, titles and new resolutions, and the terminal may change its size; the display sees that only
when it is refreshed.

* `TerminalView`: a display, its terminal, and the size that the last refresh found.
* `TerminalView.Due`: an update that no push has shown yet. `Unanswered`: a changed picture that was
  neither pushed nor met by a later refresh at an unchanged size.
* `pushes_refresh_iff`, `pending_apply`: one event.
* `Tracks`: what the display remembers is what has happened. `tracks_after` carries it through a
  history, `pending_of_unanswered` is the same for `Unanswered`.
* `pad_pushes`: which refreshes push the pad, whatever happened before.
-/

namespace ChipEight

/-- A display in a terminal, at a time. -/
structure TerminalView where
  display : TerminalDisplay
  rows : Nat
  columns : Nat
  /-- Whether the terminal can be told its size. -/
  resizable : Bool
  /-- The size of the terminal that the last refresh found. The display has no part in this. -/
  found : Option (Nat × Nat)
deriving DecidableEq, Repr

namespace TerminalView

/-- What happens to the display or to its terminal. -/
inductive Event where
  | pixel (x y : Int) (lit : Bool)
  | title (text : String)
  | resolution (width height : Int)
  /-- A resolution for which the terminal refuses a pad. -/
  | noPad (width height : Int)
  | terminal (rows columns : Nat)
  | refresh (changed : Bool)
deriving DecidableEq, Repr

/-- A display that has not been refreshed yet. -/
def opened (d : TerminalDisplay) (rows columns : Nat) (resizable : Bool) : TerminalView :=
  ⟨d, rows, columns, resizable, none⟩

def terminal (v : TerminalView) : Terminal := ⟨v.rows, v.columns, v.resizable⟩

/-- One event, with the calls to the host. A title may be refused, or the pad for a resolution; then
the display stays as it is. -/
def apply (v : TerminalView) : Event → TerminalView × List HostCall
  | .pixel x y lit => ({ v with display := v.display.setPixel x y lit }, [])
  | .title text =>
    match v.display.setTitle text with
    | .error _ => (v, [])
    | .ok display => ({ v with display }, [])
  | .resolution width height =>
    let (display, calls) := v.display.resize width height
    ({ v with display }, calls)
  | .noPad width height => (v, (v.display.resize width height).2)
  | .terminal rows columns => ({ v with rows, columns }, [])
  | .refresh changed =>
    let (display, calls) := v.display.refresh v.terminal changed
    ({ v with display, found := some (v.rows, v.columns) }, calls)

/-- The view after a history of events, the first of them first. -/
def after (v : TerminalView) (es : List Event) : TerminalView :=
  es.foldl (fun w e => (w.apply e).1) v

/-- The events of a history, each with the view that it meets. -/
def steps (v : TerminalView) : List Event → List (TerminalView × Event)
  | [] => []
  | e :: es => (v, e) :: (v.apply e).1.steps es

theorem after_concat (v : TerminalView) (es : List Event) (e : Event) :
    v.after (es ++ [e]) = ((v.after es).apply e).1 := List.foldl_append

theorem steps_concat (v : TerminalView) (es : List Event) (e : Event) :
    v.steps (es ++ [e]) = v.steps es ++ [(v.after es, e)] := by
  induction es generalizing v with
  | nil => rfl
  | cons d es ih =>
    rw [List.cons_append, steps, ih]
    rfl

/-! ## What has happened -/

/-- A refresh now would find the size that the refresh before it found. -/
def Steady (v : TerminalView) : Prop := v.found = some (v.rows, v.columns)

/-- The pad is pushed to the terminal. -/
def Pushes (v : TerminalView) (e : Event) : Prop :=
  ∃ row column, HostCall.showPad row column ∈ (v.apply e).2

/-- A title is set, and not refused. -/
def Titles (v : TerminalView) (e : Event) : Prop :=
  ∃ text, e = .title text ∧ (v.display.setTitle text).isOk = true

/-- A refresh that finds the size of the terminal changed; the first one does. -/
def FindsChange (v : TerminalView) (e : Event) : Prop := (∃ c, e = .refresh c) ∧ ¬ v.Steady

/-- A title has been set, or a refresh has found a changed size, and the pad has not been pushed
since. -/
def Due (steps : List (TerminalView × Event)) : Prop :=
  Since (fun _ s => s.1.Titles s.2 ∨ s.1.FindsChange s.2) (fun s => s.1.Pushes s.2) steps

/-- A refresh of a changed picture has not pushed the pad, and no refresh since then has found the
size unchanged. -/
def Unanswered (steps : List (TerminalView × Event)) : Prop :=
  Since (fun _ s => s.2 = .refresh true ∧ ¬ s.1.Pushes s.2)
    (fun s => (∃ c, s.2 = .refresh c) ∧ s.1.Steady) steps

/-! ## One event -/

/-- The display remembers the size that the last refresh found. Before the first one it remembers a
size that no terminal has. -/
def RemembersSize (v : TerminalView) : Prop :=
  v.display.lastSize = (v.found.map fun s => ((s.1 : Int), (s.2 : Int))).getD (-1, -1)

section Event

variable {v : TerminalView}

theorem lastSize_eq_iff (h : v.RemembersSize) :
    v.display.lastSize = ((v.rows : Int), (v.columns : Int)) ↔ v.Steady := by
  unfold RemembersSize at h
  unfold Steady
  rw [h]
  cases v.found with
  | none => simp [Prod.ext_iff]
  | some s =>
    simp only [Option.map_some, Option.getD_some, Option.some.injEq, Prod.ext_iff, Int.natCast_inj]

theorem apply_refresh (v : TerminalView) (changed : Bool) :
    v.apply (.refresh changed) =
      ({ v with
          display := (v.display.refresh v.terminal changed).1, found := some (v.rows, v.columns) },
        (v.display.refresh v.terminal changed).2) := rfl

theorem refresh_steady (h : v.RemembersSize) (hsteady : v.Steady) (changed : Bool) :
    v.display.refresh v.terminal changed =
      if changed || v.display.pending then
        ({ v.display with pending := false }, [.showPad (v.rows - 1) (v.columns - 1)])
      else (v.display, []) := by
  unfold TerminalDisplay.refresh
  exact if_pos ((lastSize_eq_iff h).mpr hsteady)

theorem refresh_moved (h : v.RemembersSize) (hmoved : ¬ v.Steady) (changed : Bool) :
    v.display.refresh v.terminal changed =
      ({ v.display with lastSize := (v.rows, v.columns), pending := true },
        [.clearTerminal] ++ (if v.resizable then [.resizeTerminal v.rows v.columns] else []) ++
          [.refreshTerminal]) := by
  unfold TerminalDisplay.refresh
  exact if_neg fun hsame => hmoved ((lastSize_eq_iff h).mp hsame)

/-- A refresh pushes the pad at an unchanged size only, and there if anything asks for it. -/
theorem pushes_refresh_iff (h : v.RemembersSize) (changed : Bool) :
    v.Pushes (.refresh changed) ↔ v.Steady ∧ (changed = true ∨ v.display.pending = true) := by
  unfold Pushes
  rw [apply_refresh]
  by_cases hsteady : v.Steady
  · rw [refresh_steady h hsteady]
    cases changed <;> cases v.display.pending <;> simp [hsteady]
  · rw [refresh_moved h hsteady]
    cases v.resizable <;> simp [hsteady]

theorem setTitle_eq_ok {d t : TerminalDisplay} {text : String} (h : d.setTitle text = .ok t) :
    t = d.writeTitle text := by
  unfold TerminalDisplay.setTitle at h
  cases hcount : Count.repeats d.columns with
  | error f =>
    rw [hcount] at h
    cases h
  | ok n =>
    rw [hcount] at h
    cases h
    rfl

/-- A title that is set makes a push due. One that is refused changes nothing. -/
theorem apply_title (v : TerminalView) (text : String) :
    (v.Titles (.title text) ∧
        v.apply (.title text) = ({ v with display := v.display.writeTitle text }, [])) ∨
      (¬ v.Titles (.title text) ∧ v.apply (.title text) = (v, [])) := by
  unfold apply
  dsimp only
  cases hset : v.display.setTitle text with
  | error f =>
    refine .inr ⟨?_, rfl⟩
    rintro ⟨_, hsame, hok⟩
    cases hsame
    rw [hset] at hok
    cases hok
  | ok d =>
    cases setTitle_eq_ok hset
    exact .inl ⟨⟨text, rfl, by rw [hset]; rfl⟩, rfl⟩

theorem not_pushes_of_not_refresh {e : Event} (hother : ∀ c, e ≠ .refresh c) : ¬ v.Pushes e := by
  rintro ⟨row, column, hmem⟩
  cases e with
  | pixel x y lit => cases hmem
  | title text =>
    rcases v.apply_title text with ⟨-, happly⟩ | ⟨-, happly⟩
    · rw [happly] at hmem
      cases hmem
    · rw [happly] at hmem
      cases hmem
  | resolution width height => simp [apply, TerminalDisplay.resize] at hmem
  | noPad width height => simp [apply, TerminalDisplay.resize] at hmem
  | terminal rows columns => cases hmem
  | refresh changed => exact hother changed rfl

theorem remembersSize_apply (h : v.RemembersSize) (e : Event) : (v.apply e).1.RemembersSize := by
  unfold RemembersSize at h ⊢
  cases e with
  | pixel x y lit => exact h
  | title text =>
    rcases v.apply_title text with ⟨-, happly⟩ | ⟨-, happly⟩
    · rw [happly]
      exact h
    · rw [happly]
      exact h
  | resolution width height => exact h
  | noPad width height => exact h
  | terminal rows columns => exact h
  | refresh changed =>
    rw [apply_refresh]
    by_cases hsteady : v.Steady
    · rw [refresh_steady h hsteady]
      have hsize := (lastSize_eq_iff h).mpr hsteady
      split <;> exact hsize
    · rw [refresh_moved h hsteady]
      rfl

/-- What neither sets a title nor refreshes leaves due what was due. -/
theorem due_quiet {e : Event} (htitle : ∀ text, e ≠ .title text) (hrefresh : ∀ c, e ≠ .refresh c) :
    ((v.Titles e ∨ v.FindsChange e) ∨ (¬ v.Pushes e ∧ v.display.pending = true)) ↔
      v.display.pending = true := by
  have hpush : ¬ v.Pushes e := not_pushes_of_not_refresh hrefresh
  have hnothing : ¬ (v.Titles e ∨ v.FindsChange e) := by
    rintro (⟨text, hsame, -⟩ | ⟨⟨c, hsame⟩, -⟩)
    · exact htitle text hsame
    · exact hrefresh c hsame
  simp [hpush, hnothing]

/-- A push is due after an event if the event makes it so, or if it was due and is not made. -/
theorem pending_apply (h : v.RemembersSize) (e : Event) :
    (v.apply e).1.display.pending = true ↔
      (v.Titles e ∨ v.FindsChange e) ∨ (¬ v.Pushes e ∧ v.display.pending = true) := by
  cases e with
  | pixel x y lit =>
    rw [due_quiet (by simp) (by simp)]
    rfl
  | title text =>
    have hpush : ¬ v.Pushes (.title text) := not_pushes_of_not_refresh (by simp)
    rcases v.apply_title text with ⟨htitle, happly⟩ | ⟨htitle, happly⟩
    · simp [happly, htitle, TerminalDisplay.writeTitle]
    · simp [happly, htitle, FindsChange, hpush]
  | resolution width height =>
    rw [due_quiet (by simp) (by simp)]
    rfl
  | noPad width height =>
    rw [due_quiet (by simp) (by simp)]
    rfl
  | terminal rows columns =>
    rw [due_quiet (by simp) (by simp)]
    rfl
  | refresh changed =>
    rw [pushes_refresh_iff h, apply_refresh]
    by_cases hsteady : v.Steady
    · rw [refresh_steady h hsteady]
      cases changed <;> cases hp : v.display.pending <;> simp [hsteady, hp, Titles, FindsChange]
    · rw [refresh_moved h hsteady]
      simp [hsteady, FindsChange]

end Event

/-! ## Histories -/

/-- What a display remembers of a history: the size that the last refresh found, and whether a push
is due. -/
structure Tracks (v : TerminalView) (steps : List (TerminalView × Event)) : Prop where
  size : v.RemembersSize
  pending : v.display.pending = true ↔ Due steps

section History

variable {v : TerminalView}

theorem due_concat {steps : List (TerminalView × Event)} {e : Event} :
    Due (steps ++ [(v, e)]) ↔
      (v.Titles e ∨ v.FindsChange e) ∨ (¬ v.Pushes e ∧ Due steps) := since_concat

theorem unanswered_concat {steps : List (TerminalView × Event)} {e : Event} :
    Unanswered (steps ++ [(v, e)]) ↔
      (e = .refresh true ∧ ¬ v.Pushes e) ∨
        (¬ ((∃ c, e = .refresh c) ∧ v.Steady) ∧ Unanswered steps) := since_concat

theorem tracks_after (hstart : Tracks v []) (es : List Event) :
    Tracks (v.after es) (v.steps es) := by
  induction es using List.reverseRecOn with
  | nil => exact hstart
  | append_singleton es e ih =>
    rw [after_concat, steps_concat]
    refine ⟨remembersSize_apply ih.size e, ?_⟩
    rw [pending_apply ih.size, ih.pending, due_concat]

/-- A changed picture that was not pushed goes on being due. -/
theorem pending_of_unanswered (hstart : Tracks v []) (es : List Event)
    (hunanswered : Unanswered (v.steps es)) : (v.after es).display.pending = true := by
  induction es using List.reverseRecOn with
  | nil => exact absurd hunanswered not_since_nil
  | append_singleton es e ih =>
    have hsize := (tracks_after hstart es).size
    rw [steps_concat, unanswered_concat] at hunanswered
    rw [after_concat, pending_apply hsize]
    rcases hunanswered with ⟨hrefresh, hpush⟩ | ⟨hlater, hbefore⟩
    · -- a changed picture is pushed unless the size has changed
      rw [hrefresh, pushes_refresh_iff hsize] at hpush
      exact .inl (.inr ⟨⟨true, hrefresh⟩, fun hsteady => hpush ⟨hsteady, .inl rfl⟩⟩)
    · refine .inr ⟨fun hpush => ?_, ih hbefore⟩
      by_cases hrefresh : ∃ c, e = .refresh c
      · obtain ⟨c, rfl⟩ := hrefresh
        exact hlater ⟨⟨c, rfl⟩, ((pushes_refresh_iff hsize c).mp hpush).1⟩
      · exact not_pushes_of_not_refresh (fun c hc => hrefresh ⟨c, hc⟩) hpush

end History

theorem remembered_start {scale : Option Int} {d : TerminalDisplay} {calls : List HostCall}
    (hstart : TerminalDisplay.start scale = .ok (d, calls)) :
    d.pending = false ∧ d.lastSize = (-1, -1) := by
  unfold TerminalDisplay.start at hstart
  cases hcount : Count.repeats (scale.getD TerminalDisplay.usualScale) with
  | error f =>
    rw [hcount] at hstart
    cases hstart
  | ok n =>
    rw [hcount] at hstart
    cases hstart
    exact ⟨rfl, rfl⟩

theorem tracks_opened {scale : Option Int} {d : TerminalDisplay} {calls : List HostCall}
    (hstart : TerminalDisplay.start scale = .ok (d, calls)) (rows columns : Nat)
    (resizable : Bool) : Tracks (opened d rows columns resizable) [] := by
  obtain ⟨hpending, hsize⟩ := remembered_start hstart
  refine ⟨hsize, iff_of_false ?_ not_since_nil⟩
  show ¬ d.pending = true
  rw [hpending]
  decide

/-- **No update of the display is lost.** Whatever happened since the display was opened, a refresh
that finds the size of the refresh before it pushes the pad exactly if the picture has changed, or a
title has been set or a changed size been found since the last push. A refresh that finds a changed
size clears and refreshes the terminal and pushes nothing. So a changed picture is pushed by its own
refresh, or else by the next one that finds the size unchanged. -/
theorem pad_pushes {scale : Option Int} {d : TerminalDisplay} {calls : List HostCall}
    (hstart : TerminalDisplay.start scale = .ok (d, calls)) (rows columns : Nat)
    (resizable : Bool) (es : List Event) (changed : Bool) :
    let start := opened d rows columns resizable
    let v := start.after es
    (v.Steady → (v.Pushes (.refresh changed) ↔ changed = true ∨ Due (start.steps es))) ∧
      (¬ v.Steady →
        (v.apply (.refresh changed)).2 =
          [.clearTerminal] ++ (if v.resizable then [.resizeTerminal v.rows v.columns] else []) ++
            [.refreshTerminal]) ∧
      (Unanswered (start.steps es) → v.Steady → v.Pushes (.refresh changed)) := by
  intro start v
  have hopened := tracks_opened hstart rows columns resizable
  obtain ⟨hsize, hpending⟩ := tracks_after hopened es
  refine ⟨fun hsteady => ?_, fun hmoved => ?_, fun hunanswered hsteady => ?_⟩
  · rw [pushes_refresh_iff hsize, hpending]
    exact and_iff_right hsteady
  · rw [apply_refresh, refresh_moved hsize hmoved]
  · have hdue := pending_of_unanswered hopened es hunanswered
    exact (pushes_refresh_iff hsize changed).mpr ⟨hsteady, .inr hdue⟩

/-- The first refresh finds no size before it, so the picture that it is told of is pushed by the
second one. -/
theorem pad_pushes_second : ∃ d calls, TerminalDisplay.start none = .ok (d, calls) ∧
    ¬ (opened d 24 80 true).Pushes (.refresh true) ∧
      ((opened d 24 80 true).after [.refresh true]).Steady ∧
      ((opened d 24 80 true).after [.refresh true]).Pushes (.refresh false) := by
  obtain ⟨d, calls, hstart⟩ : ∃ d calls, TerminalDisplay.start none = .ok (d, calls) :=
    ⟨_, _, rfl⟩
  have hfirst : ¬ (opened d 24 80 true).Pushes (.refresh true) := by
    rintro ⟨row, column, hmem⟩
    obtain ⟨-, hcalls, -⟩ := pad_pushes hstart 24 80 true [] true
    have hmoved : ¬ ((opened d 24 80 true).after []).Steady := nofun
    have hpushed := hcalls hmoved ▸ hmem
    simp [opened, after] at hpushed
  obtain ⟨-, -, hnext⟩ := pad_pushes hstart 24 80 true [.refresh true] false
  have hunanswered : Unanswered ([] ++ [(opened d 24 80 true, .refresh true)]) :=
    unanswered_concat.mpr (.inl ⟨rfl, hfirst⟩)
  exact ⟨d, calls, hstart, hfirst, rfl, hnext hunanswered rfl⟩

end TerminalView
end ChipEight
