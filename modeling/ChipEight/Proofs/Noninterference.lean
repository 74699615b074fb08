import ChipEight.Proofs.Agreement

/-!
# ChipEight.Proofs.Noninterference

Two runs of equal length side by side, which see other clocks, other keys or other random bytes.

* `InStep`: at every cycle the machines agree, and both cycles answer alike.
* `after_shares`: two runs stay in step as long as they meet no operation that asks for what they do
  not share.
* `noninterference`: time, keys, random bytes and the sound timer, each by itself.
-/

namespace ChipEight
namespace Machine

/-! ## Runs -/

/-- The random bytes that a run draws, the first of them first. -/
def drawn (m : Machine) : List Moment → List UInt8
  | [] => []
  | c :: ms => (if m.wantsRandom then [c.random] else []) ++ (m.cycleAt c).1.drawn ms

/-- Two runs have the same random bytes: cycle by cycle, whether the byte is drawn or not, or draw
by draw. -/
def SameDice (m t : Machine) (ps : List (Moment × Moment)) : Prop :=
  (∀ p ∈ ps, p.1.random = p.2.random) ∨ m.drawn (ps.map Prod.fst) = t.drawn (ps.map Prod.snd)

/-- No word of a run belongs to a row. -/
def Never (m : Machine) (op : Operation) (ms : List Moment) : Prop :=
  ∀ w ∈ m.words ms, ¬ op.Owns w

/-- Two runs beside each other: before and after each cycle the machines agree, and both cycles
answer with the same screen or the same fault. -/
def InStep (m t : Machine) (ps : List (Moment × Moment)) : Prop :=
  ∀ before p later, ps = before ++ p :: later →
    let u := m.after (before.map Prod.fst)
    let w := t.after (before.map Prod.snd)
    u.Agrees w ∧ (u.cycleAt p.1).1.Agrees (w.cycleAt p.2).1 ∧
      (u.cycleAt p.1).2.map Report.screen = (w.cycleAt p.2).2.map Report.screen

section Runs

variable {known : Set Source} {m t : Machine} {p : Moment × Moment} {ps : List (Moment × Moment)}

theorem sameDice_cons (h : m.wantsRandom = t.wantsRandom) (hdice : SameDice m t (p :: ps)) :
    (m.wantsRandom → p.1.random = p.2.random) ∧
      SameDice (m.cycleAt p.1).1 (t.cycleAt p.2).1 ps := by
  rcases hdice with hcycles | hdrawn
  · exact ⟨fun _ => hcycles p List.mem_cons_self,
      .inl fun q hq => hcycles q (List.mem_cons_of_mem _ hq)⟩
  · rw [List.map_cons, List.map_cons, drawn, drawn, ← h] at hdrawn
    by_cases hwants : m.wantsRandom
    · rw [if_pos hwants, if_pos hwants] at hdrawn
      obtain ⟨hfirst, hrest⟩ := List.cons.inj hdrawn
      exact ⟨fun _ => hfirst, .inr hrest⟩
    · rw [if_neg hwants, if_neg hwants] at hdrawn
      exact ⟨fun hw => absurd hw hwants, .inr hdrawn⟩

theorem inStep_cons (h : m.Agrees t) (hnext : (m.cycleAt p.1).1.Agrees (t.cycleAt p.2).1)
    (hanswer : (m.cycleAt p.1).2.map Report.screen = (t.cycleAt p.2).2.map Report.screen)
    (hrest : InStep (m.cycleAt p.1).1 (t.cycleAt p.2).1 ps) : InStep m t (p :: ps) := by
  intro before q later hsplit
  cases before with
  | nil =>
    obtain ⟨rfl, -⟩ := List.cons.inj hsplit
    exact ⟨h, hnext, hanswer⟩
  | cons b before =>
    obtain ⟨rfl, hps⟩ := List.cons.inj hsplit
    exact hrest before q later hps

/-- A run that asks for shared sources only keeps two machines in agreement. -/
theorem after_shares (h : Shares known m t) (hps : ∀ p ∈ ps, p.1.Shares known p.2)
    (hdice : .dice ∈ known → SameDice m t ps)
    (hasks : ∀ w ∈ m.words (ps.map Prod.fst), ∀ (op : Operation) s,
      op.Owns w → op.Asks s → s ∈ known) :
    Shares known (m.after (ps.map Prod.fst)) (t.after (ps.map Prod.snd)) ∧ InStep m t ps := by
  induction ps generalizing m t with
  | nil =>
    refine ⟨h, fun before p later hsplit => ?_⟩
    cases before <;> cases hsplit
  | cons p ps ih =>
    rw [List.map_cons, words] at hasks
    have hfirst : m.wantsRandom → .dice ∈ known → p.1.random = p.2.random :=
      fun hwants hknown => (sameDice_cons h.wantsRandom (hdice hknown)).1 hwants
    obtain ⟨hnext, hanswer⟩ := cycle_shares h (hps p List.mem_cons_self) hfirst
      fun op s hruns => hasks m.word (by rw [if_pos hruns.1]; exact List.mem_cons_self) op s hruns.2
    -- the first words are the same, so the second machine needs no hypothesis on its own
    obtain ⟨hafter, hrest⟩ := ih hnext (fun q hq => hps q (List.mem_cons_of_mem _ hq))
      (fun hknown => (sameDice_cons h.wantsRandom (hdice hknown)).2)
      fun w hw => hasks w (List.mem_append_right _ hw)
    exact ⟨hafter, inStep_cons h.toAgrees hnext.toAgrees hanswer hrest⟩

end Runs

/-! ## Single sources -/

theorem asks_delay_iff {op : Operation} : op.Asks .delay ↔ op = .readDelay := by
  cases op <;> simp [Operation.Asks]

theorem asks_keys_iff {op : Operation} :
    op.Asks .keys ↔ op = .skipKey ∨ op = .skipNotKey ∨ op = .waitKey := by
  cases op <;> simp [Operation.Asks]

theorem asks_dice_iff {op : Operation} : op.Asks .dice ↔ op = .random := by
  cases op <;> simp [Operation.Asks]

theorem not_asks_sound (op : Operation) : ¬ op.Asks .sound := by
  cases op <;> simp [Operation.Asks]

theorem not_asks_past (op : Operation) : ¬ op.Asks .past := by
  cases op <;> simp [Operation.Asks]

theorem shares_of_agrees {m t : Machine} (h : m.Agrees t) : Shares {.keys, .dice} m t :=
  { h with
    delay := by simp
    sound := by simp
    lastTick := by simp
    keys := by simp
    instruction := by simp }

theorem shares_setSound (m : Machine) (sound : Int) :
    Shares {s | s ≠ .sound} m { m with sound } :=
  { shares_refl {s | s ≠ .sound} m with sound := fun hs => absurd rfl hs }

/-- Sharing all but the sound timer leaves nothing else open. -/
theorem Shares.eq_setSound {m t : Machine} (h : Shares {s | s ≠ .sound} m t) :
    t = { m with sound := t.sound } := by
  obtain ⟨⟨hv, hindex, hpc, hexecuting, hcalls, hmemory, hscreen⟩, hdelay, -, hlast, hkeys,
    hinstruction⟩ := h
  have hdelay := hdelay (by simp)
  have hlast := hlast (by simp)
  have hkeys := hkeys (by simp) (by simp)
  have hinstruction := hinstruction (by simp)
  cases m
  cases t
  simp only at *
  subst_vars
  rfl

section Single

variable {m t : Machine} {ps : List (Moment × Moment)}

theorem inStep_of_time (h : m.Agrees t) (hkeys : ∀ p ∈ ps, p.1.keys = p.2.keys)
    (hdice : SameDice m t ps) (hnever : m.Never .readDelay (ps.map Prod.fst)) : InStep m t ps := by
  refine (after_shares (shares_of_agrees h) (fun p hp => ⟨by simp, fun _ => hkeys p hp⟩)
    (fun _ => hdice) fun w hw op s hop hasks => ?_).2
  cases s with
  | delay => exact absurd (asks_delay_iff.mp hasks ▸ hop) (hnever w hw)
  | sound => exact absurd hasks (not_asks_sound op)
  | keys => simp
  | dice => simp
  | past => exact absurd hasks (not_asks_past op)

theorem inStep_of_keys (htime : ∀ p ∈ ps, p.1.time = p.2.time) (hdice : SameDice m m ps)
    (hskip : m.Never .skipKey (ps.map Prod.fst)) (hskipNot : m.Never .skipNotKey (ps.map Prod.fst))
    (hwait : m.Never .waitKey (ps.map Prod.fst)) : InStep m m ps := by
  refine (after_shares (shares_refl {s | s ≠ .keys} m)
    (fun p hp => ⟨fun _ => htime p hp, fun hk => absurd rfl hk⟩)
    (fun _ => hdice) fun w hw op s hop hasks => ?_).2
  rintro rfl
  rcases asks_keys_iff.mp hasks with rfl | rfl | rfl
  · exact hskip w hw hop
  · exact hskipNot w hw hop
  · exact hwait w hw hop

theorem inStep_of_dice (hps : ∀ p ∈ ps, p.1.time = p.2.time ∧ p.1.keys = p.2.keys)
    (hnever : m.Never .random (ps.map Prod.fst)) : InStep m m ps := by
  refine (after_shares (shares_refl {s | s ≠ .dice} m)
    (fun p hp => ⟨fun _ => (hps p hp).1, fun _ => (hps p hp).2⟩)
    (fun hd => absurd rfl hd) fun w hw op s hop hasks => ?_).2
  rintro rfl
  exact hnever w hw (asks_dice_iff.mp hasks ▸ hop)

/-- The sound timer is the only thing in which the two runs ever differ. -/
theorem shares_after_setSound (m : Machine) (sound : Int) (ms : List Moment) :
    Shares {s | s ≠ .sound} (m.after ms) (({ m with sound } : Machine).after ms) := by
  have hpairs : ∀ p ∈ ms.map fun c => (c, c), p.1 = p.2 := by
    intro p hp
    obtain ⟨c, -, rfl⟩ := List.mem_map.mp hp
    rfl
  have hsilent : ∀ (op : Operation) s, op.Asks s → s ≠ .sound := by
    rintro op s hasks rfl
    exact not_asks_sound op hasks
  obtain ⟨hafter, -⟩ := after_shares (shares_setSound m sound)
    (fun p hp => ⟨fun _ => congrArg Moment.time (hpairs p hp),
      fun _ => congrArg Moment.keys (hpairs p hp)⟩)
    (fun _ => .inl fun p hp => congrArg Moment.random (hpairs p hp))
    fun w _ op s _ => hsilent op s
  simpa [Function.comp_def] using hafter

end Single

/-- **Time, keys, random bytes and the sound timer reach a program through the operations that ask
for them, and in no other way.** Whether a run meets such an operation is asked of the first of the
two only, since the other one takes up the same words. -/
theorem noninterference :
    (∀ (m t : Machine) (ps : List (Moment × Moment)), m.Agrees t →
      (∀ p ∈ ps, p.1.keys = p.2.keys) → SameDice m t ps →
      m.Never .readDelay (ps.map Prod.fst) → InStep m t ps) ∧
    (∀ (m : Machine) (ps : List (Moment × Moment)),
      (∀ p ∈ ps, p.1.time = p.2.time) → SameDice m m ps →
      m.Never .skipKey (ps.map Prod.fst) → m.Never .skipNotKey (ps.map Prod.fst) →
      m.Never .waitKey (ps.map Prod.fst) → InStep m m ps) ∧
    (∀ (m : Machine) (ps : List (Moment × Moment)),
      (∀ p ∈ ps, p.1.time = p.2.time ∧ p.1.keys = p.2.keys) →
      m.Never .random (ps.map Prod.fst) → InStep m m ps) ∧
    ∀ (m : Machine) (sound : Int) (ms : List Moment) (c : Moment),
      let t : Machine := { m with sound }
      (∃ left, t.after ms = { m.after ms with sound := left }) ∧
        ((t.after ms).cycleAt c).2.map Report.screen =
          ((m.after ms).cycleAt c).2.map Report.screen := by
  refine ⟨fun m t ps => inStep_of_time, fun m ps => inStep_of_keys, fun m ps => inStep_of_dice,
    fun m sound ms c => ?_⟩
  have hafter := shares_after_setSound m sound ms
  refine ⟨⟨_, hafter.eq_setSound⟩, ?_⟩
  refine (cycle_shares hafter ⟨fun _ => rfl, fun _ => rfl⟩ (fun _ _ => rfl) ?_).2.symm
  rintro op s - hasks rfl
  exact not_asks_sound op hasks

/-- A machine that jumps to where it is. -/
def circling : Machine := boot #[0x12, 0x00] 0

theorem circle {m : Machine} (hpc : m.pc = 0x200) (hword : m.word = 0x1200) (c : Moment) :
    (m.cycleAt c).1.pc = 0x200 ∧ (m.cycleAt c).1.word = 0x1200 := by
  have hin : 0 ≤ m.pc ∧ m.pc ≤ 0xFFE := by omega
  have hop : (m.taken c.keys c.time).operation = .jump :=
    (taken_operation_eq_iff _ _ (by decide) hin).mpr
      ⟨hin, by rw [hword]; exact ⟨rfl, trivial, trivial, trivial⟩⟩
  have htarget : (m.taken c.keys c.time).instruction.nnn = 0x200 := by
    show m.fetched.raw % 0x1000 = 0x200
    rw [raw_fetched, hword]
  have hexec : (m.taken c.keys c.time).execute c.random =
      .ok { m.taken c.keys c.time with pc := 0x200 } := by
    unfold operation at hop
    unfold execute
    simp only [hop, htarget]
    rfl
  unfold cycleAt
  rw [cycle_inside _ _ hin, hexec]
  refine ⟨rfl, ?_⟩
  rw [← hword]
  unfold word peek taken
  simp only [take, tick_memory, hpc]

theorem words_circling (ms : List Moment) : ∀ w ∈ circling.words ms, w = 0x1200 := by
  have hcircle : ∀ m : Machine, m.pc = 0x200 → m.word = 0x1200 → ∀ w ∈ m.words ms, w = 0x1200 := by
    induction ms with
    | nil => intro m _ _ w hw; cases hw
    | cons c ms ih =>
      intro m hpc hword w hw
      obtain ⟨hpc', hword'⟩ := circle hpc hword c
      rw [words, if_pos (by omega)] at hw
      rcases List.mem_append.mp hw with hfirst | hrest
      · exact (List.mem_singleton.mp hfirst).trans hword
      · exact ih _ hpc' hword' w hrest
  refine hcircle circling rfl ?_
  rw [circling, word_boot (by decide) (by decide)]
  rfl

/-- Two runs that began with other timers and look at other clocks. -/
theorem noninterference_circling :
    circling.InStep { circling with delay := 7, sound := 200, lastTick := 9 }
      [(⟨.released, 0, 3⟩, ⟨.released, 10, 3⟩), (⟨.released, 1, 5⟩, ⟨.released, 10, 5⟩)] := by
  refine noninterference.1 circling _ _ ⟨rfl, rfl, rfl, rfl, rfl, rfl, rfl⟩ ?_ (.inl ?_) ?_
  · simp
  · simp
  · intro w hw
    rw [words_circling _ w hw]
    rintro ⟨hfamily, -⟩
    exact absurd (show 0x1200 / 0x1000 % 16 = 15 from hfamily) (by decide)

end Machine
end ChipEight
