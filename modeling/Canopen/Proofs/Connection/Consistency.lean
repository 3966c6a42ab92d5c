import Canopen.Proofs.Connection.Step
/-!
# Every connection is consistent

A new connection is consistent (`Consistent.init`) and each step keeps it so, whoever takes it
(`Consistent.step`). What every step keeps holds along all runs (`Consistent.invariant`).
-/
namespace Canopen

namespace Connection

namespace Consistent

variable {c : Connection} (h : c.Consistent)
include h

theorem settle (p : UInt16 → Bool) {x : Inbox} (hx : x ≠ .empty) : (c.settle p x).Consistent where
  distinct := (List.filter_sublist.map Prod.fst).nodup h.distinct
  mem_slots s id := by
    simp only [Connection.settle, List.mem_filter, h.mem_slots, List.getElem?_map]
    constructor
    · rintro ⟨⟨call, hcall, rfl, hp⟩, hs⟩
      refine ⟨call.hear p x, by simp [hcall], by simp, ?_⟩
      simpa [Call.isPending_hear hx, hp] using hs
    · rintro ⟨_, hheard, rfl, hp⟩
      obtain ⟨call, hcall, rfl⟩ := Option.map_eq_some_iff.mp hheard
      rw [Call.isPending_hear hx, Bool.and_eq_true] at hp
      exact ⟨⟨call, hcall, by simp, hp.1⟩, by simpa using hp.2⟩
  fresh := by
    simp only [Connection.settle, List.mem_map]
    rintro _ ⟨call, hcall, rfl⟩ hstage
    rw [Call.stage_hear] at hstage
    rw [Call.hear_of_numbered hstage]
    exact h.fresh call hcall hstage
  up := h.up
  quiet party hparty := by
    simp only [Connection.settle, List.mem_map]
    rintro _ ⟨call, hcall, rfl⟩ hp
    rw [Call.isPending_hear hx, Bool.and_eq_true] at hp
    rw [Call.stage_hear]
    exact h.quiet party hparty call hcall hp.1

/-- A change of a request that keeps its number and whether it waits. -/
theorem modifyCall {id : Nat} {call : Call} (hcall : c.calls[id]? = some call) {f : Call → Call}
    (hseq : (f call).sequence = call.sequence) (hp : (f call).isPending ↔ call.isPending)
    (hf : (f call).stage ≠ .numbered)
    (hq : ∀ party, c.condition party = .ended → call.isPending → (f call).stage = .listed) :
    (c.modifyCall id f).Consistent := by
  refine ⟨h.distinct, fun s j => ?_, fun other ho => ?_, h.up, fun party hparty other ho hp' => ?_⟩
  · have hslots := h.mem_slots s j
    rw [getElem?_modifyCall]
    change (s, j) ∈ c.slots ↔ _
    by_cases hid : id = j
    · subst hid
      simpa [hcall, hseq, hp] using hslots
    · simpa [hid] using hslots
  · rcases mem_of_mem_modifyCall hcall ho with ho | rfl
    · exact h.fresh other ho
    · exact fun hn => absurd hn hf
  · rcases mem_of_mem_modifyCall hcall ho with ho | rfl
    · exact h.quiet party hparty other ho hp'
    · exact hq party hparty (hp.mp hp')

/-- A request that begins has no slot. -/
theorem append {new : Call} (hp : new.isPending = false) (hi : new.inbox = .empty)
    (counter : UInt16) : { c with counter, calls := c.calls ++ [new] }.Consistent := by
  have hmem {call : Call} (hcall : call ∈ c.calls ++ [new]) : call ∈ c.calls ∨ call = new := by
    simpa using hcall
  refine ⟨h.distinct, fun s id => ?_, fun call hcall => ?_, h.up, fun party hparty call hcall => ?_⟩
  · rw [h.mem_slots, List.getElem?_append]
    by_cases hid : id < c.calls.length
    · simp [hid]
    · rw [List.getElem?_eq_none (Nat.le_of_not_lt hid)]
      by_cases h0 : id - c.calls.length = 0 <;> simp [hid, h0, hp]
  · rcases hmem hcall with hcall | rfl
    · exact h.fresh call hcall
    · exact fun _ => hi
  · rcases hmem hcall with hcall | rfl
    · exact h.quiet party hparty call hcall
    · simp [hp]

theorem start (request : Request) (limit : Duration) : (c.start request limit).Consistent := by
  unfold Connection.start
  refine h.append ?_ rfl _
  cases hs : request.sendFault? with
  | none => exact Call.isPending_of_numbered rfl
  | some fault => exact Call.isPending_of_finished rfl

theorem list {id : Nat} {call : Call} (hcall : c.calls[id]? = some call)
    (hs : call.stage = .numbered) :
    ((c.withSlot call.sequence id).modifyCall id
      fun call => { call with stage := .listed }).Consistent := by
  have hd := h.settle (· == call.sequence) (x := .dropped) (by simp)
  have hold := Call.isPending_of_numbered hs
  have hid : (c.settle (· == call.sequence) .dropped).calls[id]? = some call := by
    simp [hcall, Call.hear_of_numbered hs]
  have hempty := h.fresh call (List.mem_of_getElem? hcall) hs
  have hnew : Call.isPending { call with stage := .listed } := by
    simp [Call.isPending_iff, Call.hasListed_iff, hempty]
  have hnone (j : Nat) : (call.sequence, j) ∉ (c.settle (· == call.sequence) .dropped).slots := by
    simp [Connection.settle]
  rw [withSlot]
  generalize c.settle (· == call.sequence) .dropped = d at hd hid hnone
  refine ⟨?_, fun s j => ?_, fun other ho => ?_, hd.up, fun party hparty other ho hp => ?_⟩
  · refine List.nodup_cons.mpr ⟨fun hmem => ?_, hd.distinct⟩
    obtain ⟨⟨_, j⟩, hj, rfl⟩ := List.mem_map.mp hmem
    exact hnone j hj
  · change (s, j) ∈ (call.sequence, id) :: d.slots ↔ _
    rw [getElem?_modifyCall, List.mem_cons, hd.mem_slots]
    by_cases hj : id = j
    · subst hj
      simp only [hid, Option.map_some, Option.some.injEq, if_true]
      constructor
      · rintro (hslot | ⟨other, rfl, -, hp⟩)
        · exact ⟨_, rfl, (congrArg Prod.fst hslot).symm, hnew⟩
        · simp [hold] at hp
      · rintro ⟨other, rfl, rfl, -⟩
        exact .inl rfl
    · simp [hj, Ne.symm hj]
  · rcases mem_of_mem_modifyCall (c := { d with slots := _ }) hid ho with ho | rfl
    · exact hd.fresh other ho
    · exact fun _ => hempty
  · rcases mem_of_mem_modifyCall (c := { d with slots := _ }) hid ho with ho | rfl
    · exact hd.quiet party hparty other ho hp
    · rfl

theorem finish {id : Nat} {call : Call} (hcall : c.calls[id]? = some call) (outcome : Outcome) :
    ((c.settle (fun s => call.hasListed && s == call.sequence) .dropped).modifyCall id
      fun call => { call with stage := .finished outcome }).Consistent := by
  generalize hn : (fun s => call.hasListed && s == call.sequence) = numbers
  have hp : (call.hear numbers .dropped).isPending = false := by
    rw [Call.isPending_hear (by simp), ← hn]
    by_cases hl : call.hasListed <;> simp [Call.isPending, hl]
  have hheard : (c.settle numbers .dropped).calls[id]? = some (call.hear numbers .dropped) := by
    simp [hcall]
  refine (h.settle _ (by simp)).modifyCall hheard rfl ?_ (by simp) (by simp [hp])
  rw [hp, Call.isPending_of_finished rfl]

theorem step {a : Action} {c' : Connection} (hstep : c.Step a c') : c'.Consistent := by
  cases hstep with
  | start request limit => exact h.start request limit
  | list hcall hs => exact h.list hcall hs
  | check hcall hs hc =>
    refine h.modifyCall hcall rfl ?_ (by simp) fun party hparty => ?_
    · simp [Call.isPending_iff, Call.hasListed_iff, hs]
    · have := h.up party hc
      simp_all
  | @queue id call hcall hs hw hroom =>
    have hc : { c with queued := c.queued ++ [call.frame] }.Consistent :=
      ⟨h.distinct, h.mem_slots, h.fresh, h.up, h.quiet⟩
    refine hc.modifyCall hcall rfl ?_ (by simp) fun party hparty hp => ?_
    · simp [Call.isPending_iff, Call.hasListed_iff, hs]
    · have := h.quiet party hparty call (List.mem_of_getElem? hcall) hp
      simp_all
  | finish hcall _ => exact h.finish hcall _
  | takeFrame hw hu hf => exact ⟨h.distinct, h.mem_slots, h.fresh, h.up, h.quiet⟩
  | write hw h0 hc => exact ⟨h.distinct, h.mem_slots, h.fresh, h.up, h.quiet⟩
  | tell => exact ⟨h.distinct, h.mem_slots, h.fresh, h.up, h.quiet⟩
  | hear => exact h.settle _ (Inbox.ofFrame_ne_empty _)
  | @cut party hp =>
    refine ⟨by simpa using h.distinct, by simpa using h.mem_slots, by simpa using h.fresh, by simp,
      fun other hother => ?_⟩
    change (c.setCondition .cutting party).condition other = .ended at hother
    rw [condition_setCondition] at hother
    split at hother
    · contradiction
    · simpa using h.quiet other hother
  | @clear party hp =>
    have hset := h.settle (fun _ => true) (x := .dropped) (by simp)
    refine ⟨by simpa using hset.distinct, by simpa using hset.mem_slots, by simpa using hset.fresh,
      fun other hc => ?_, fun other hother call hcall => ?_⟩
    · have hrun := h.up party (by simpa [Connection.settle] using hc)
      simp [hp] at hrun
    · rw [calls_setCondition, Connection.settle, List.mem_map] at hcall
      obtain ⟨before, -, rfl⟩ := hcall
      simp [Call.isPending_hear]

theorem run? {actions : List Action} {c' : Connection} (hrun : c.run? actions = some c') :
    c'.Consistent := by
  induction actions generalizing c with
  | nil =>
    cases hrun
    exact h
  | cons a rest ih =>
    obtain ⟨next, hnext, hrest⟩ := Option.bind_eq_some_iff.mp hrun
    exact ih (h.step (h.step_of_step? hnext)) hrest

omit h in
/-- What holds of a connection and the actions so far and is kept by each step holds after a run. -/
theorem invariant {P : List Action → Connection → Prop}
    (hP : ∀ past c a c', c.Consistent → P past c → c.Step a c' → P (past ++ [a]) c')
    (past : List Action) {actions : List Action} {c' : Connection} (h : c.Consistent)
    (hpast : P past c) (hrun : c.run? actions = some c') : P (past ++ actions) c' := by
  induction actions generalizing past c with
  | nil =>
    cases hrun
    simpa using hpast
  | cons a rest ih =>
    obtain ⟨next, hnext, hrest⟩ := Option.bind_eq_some_iff.mp hrun
    have hstep := h.step_of_step? hnext
    simpa using ih (past ++ [a]) (h.step hstep) (hP past c a next h hpast hstep) hrest

end Consistent

theorem Reachable.consistent {c : Connection} (h : c.Reachable) : c.Consistent :=
  let ⟨_, hrun⟩ := h
  Consistent.init.run? hrun

end Connection

end Canopen
