import ChipEight.Startup.Launch

/-!
# ChipEight.Proofs.Grants

What the host grants of what it is asked.

* `Answers.mem_requests_of_granted`, `Answers.granted_of_mem`, `Answers.notMem_of_refused`: only what
  is asked for is granted; all of it if nothing is refused, and else not the last of it.
* `Startup.grantedCalls`: the calls that were granted while the program ran.
* `Startup.grantedCalls_close`: closing some parts asks for all that closing them asks for in one go.
-/

namespace ChipEight

/-! ## Requests -/

namespace Reply

theorem grantedCall?_eq_some {reply : Reply} {c : HostCall} :
    reply.grantedCall? = some c ↔ reply = .granted (.call c) := by
  cases reply with
  | granted r => cases r <;> simp [grantedCall?, Request.call?]
  | refused r => simp [grantedCall?]

theorem mem_granted {replies : List Reply} {c : HostCall} :
    c ∈ replies.filterMap grantedCall? ↔ .granted (.call c) ∈ replies := by
  simp [grantedCall?_eq_some]

theorem filterMap_granted (calls : List HostCall) :
    ((calls.map Request.call).map granted).filterMap grantedCall? = calls := by
  rw [List.filterMap_map]
  exact Request.filterMap_call? calls

end Reply

namespace Answers

variable {answers : Answers} {n : Nat} {requests : List Request} {r : Request}

/-- Only what is asked for is granted. -/
theorem mem_requests_of_granted (h : .granted r ∈ (answers.ask n requests).1) : r ∈ requests := by
  induction requests generalizing n with
  | nil => cases h
  | cons x rest ih =>
    rw [ask] at h
    cases hx : answers n x with
    | none =>
      rw [hx] at h
      rcases List.mem_cons.mp h with heq | h
      · cases heq
        exact List.mem_cons_self
      · exact List.mem_cons_of_mem _ (ih h)
    | some f =>
      rw [hx] at h
      dsimp only at h
      split at h
      · rcases List.mem_cons.mp h with heq | h
        · cases heq
        · exact List.mem_cons_of_mem _ (ih h)
      · simp at h

theorem mem_of_grantedCall {calls : List HostCall} {c : HostCall}
    (h : c ∈ (answers.ask n (calls.map .call)).1.filterMap Reply.grantedCall?) : c ∈ calls := by
  obtain ⟨d, hd, heq⟩ := List.mem_map.mp (mem_requests_of_granted (Reply.mem_granted.mp h))
  cases heq
  exact hd

/-- What is asked for is granted, unless it can be passed over, if nothing stops the asking. -/
theorem granted_of_mem (h : (answers.ask n requests).2 = none) (hr : r ∈ requests)
    (hneeded : r.isOptional = false) : .granted r ∈ (answers.ask n requests).1 := by
  induction requests generalizing n with
  | nil => cases hr
  | cons x rest ih =>
    rw [ask] at h ⊢
    cases hx : answers n x with
    | none =>
      rw [hx] at h
      rcases List.mem_cons.mp hr with rfl | hr
      · exact List.mem_cons_self
      · exact List.mem_cons_of_mem _ (ih h hr)
    | some f =>
      rw [hx] at h
      dsimp only at h ⊢
      split at h
      · rename_i hoptional
        rw [if_pos hoptional]
        rcases List.mem_cons.mp hr with rfl | hr
        · rw [hneeded] at hoptional
          cases hoptional
        · exact List.mem_cons_of_mem _ (ih h hr)
      · cases h

/-- If something stops the asking, the last request is not granted. -/
theorem notMem_of_refused (h : (answers.ask n (requests ++ [r])).2 ≠ none) (hr : r ∉ requests) :
    .granted r ∉ (answers.ask n (requests ++ [r])).1 := by
  intro hgranted
  rw [ask_append] at h hgranted
  have hearlier : .granted r ∉ (answers.ask n requests).1 :=
    fun hmem => hr (mem_requests_of_granted hmem)
  generalize answers.ask n requests = asking at h hgranted hearlier
  obtain ⟨replies, _ | refusal⟩ := asking
  · dsimp only at h hgranted hearlier
    rw [ask] at h hgranted
    cases hlast : answers (n + replies.length) r with
    | none =>
      rw [hlast] at h
      exact h rfl
    | some f =>
      rw [hlast] at h hgranted
      dsimp only at h hgranted
      split at h
      · exact h rfl
      · rename_i hneeded
        rw [if_neg hneeded] at hgranted
        rcases List.mem_append.mp hgranted with hmem | hmem
        · exact hearlier hmem
        · simp at hmem
  · exact hearlier hgranted

end Answers

/-! ## Calls while the program runs -/

namespace Startup

/-- The calls that the host has granted. -/
def grantedCalls (es : List Event) : List HostCall :=
  es.filterMap fun
    | .asked reply => reply.grantedCall?
    | _ => none

@[simp] theorem grantedCalls_append (es fs : List Event) :
    grantedCalls (es ++ fs) = grantedCalls es ++ grantedCalls fs := List.filterMap_append

@[simp] theorem grantedCalls_asked (replies : List Reply) :
    grantedCalls (replies.map .asked) = replies.filterMap Reply.grantedCall? := by
  unfold grantedCalls
  rw [List.filterMap_map]
  rfl

@[simp] theorem grantedCalls_hear (host : OpenHost) (replies : List Reply) :
    grantedCalls (host.hear replies).events =
      grantedCalls host.events ++ replies.filterMap Reply.grantedCall? := by
  rw [OpenHost.hear, grantedCalls_append, grantedCalls_asked]

@[simp] theorem grantedCalls_hold (host : OpenHost) (p : OpenPart) :
    grantedCalls (host.hold p).events = grantedCalls host.events :=
  (grantedCalls_append _ _).trans (List.append_nil _)

@[simp] theorem grantedCalls_drop (host : OpenHost) (p : OpenPart) :
    grantedCalls (host.drop p).events = grantedCalls host.events :=
  (grantedCalls_append _ _).trans (List.append_nil _)

/-- Closing parts asks for all that closing them asks for, in one go. -/
theorem grantedCalls_close (host : OpenHost) (parts : List OpenPart) :
    grantedCalls (host.close parts).1.events =
        grantedCalls host.events ++
          (host.answers.ask host.asked ((parts.flatMap OpenPart.stop).map .call)).1.filterMap
            Reply.grantedCall? ∧
      (host.close parts).2 =
        (host.answers.ask host.asked ((parts.flatMap OpenPart.stop).map .call)).2 := by
  induction parts generalizing host with
  | nil => exact ⟨(List.append_nil _).symm, rfl⟩
  | cons p rest ih =>
    rw [OpenHost.close, OpenHost.call, List.flatMap_cons, List.map_append, Answers.ask_append]
    have hanswers : (host.drop p).answers = host.answers := rfl
    have hasked : (host.drop p).asked = host.asked := rfl
    rw [hanswers, hasked]
    rcases host.answers.ask host.asked (p.stop.map .call) with ⟨replies, _ | refusal⟩
    · obtain ⟨hcalls, hrefused⟩ := ih ((host.drop p).hear replies)
      dsimp only
      refine ⟨?_, hrefused⟩
      rw [hcalls, grantedCalls_hear, grantedCalls_drop, List.filterMap_append, List.append_assoc]
      rfl
    · dsimp only
      rw [grantedCalls_hear, grantedCalls_drop]
      exact ⟨rfl, rfl⟩

end Startup
end ChipEight
