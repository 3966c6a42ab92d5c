import Canopen.Connection.Basic
/-!
# Slots and the requests that own them

The slots of a connection are those of the requests that have put one and have heard nothing
(`Consistent.mem_slots`). So whatever is done to slots can be said of the requests alone: something
comes in under some numbers, and whoever waits under one of them hears it (`settle`). Here the
operations on slots are read this way (`release_eq`, `receive_eq`, `clear_eq`, `finish_eq`).
-/
namespace Canopen

/-- What a frame brings in for the request that waits for it. -/
def Inbox.ofFrame (f : Frame) : Inbox :=
  match Reply.ofFrame f with
  | .ok r => .reply r
  | .error _ => .dropped

theorem Inbox.ofFrame_ne_empty (f : Frame) : Inbox.ofFrame f ≠ .empty := by
  unfold Inbox.ofFrame; split <;> simp

theorem Inbox.ofFrame_eq_reply_iff {f : Frame} {r : Reply} :
    Inbox.ofFrame f = .reply r ↔ Reply.ofFrame f = .ok r := by
  unfold Inbox.ofFrame; split <;> simp_all

namespace Call

/-- Holds of a request that has put its slot and for which nothing has come in. -/
def isPending (c : Call) : Bool := c.hasListed && c.inbox = .empty

theorem isPending_iff {c : Call} : c.isPending ↔ c.hasListed ∧ c.inbox = .empty := by
  simp [isPending]

theorem isOpen_of_isPending {c : Call} (h : c.isPending) : c.isOpen := by
  simp only [isPending, hasListed, Bool.and_eq_true] at h
  exact h.1.1

theorem isPending_of_finished {c : Call} {outcome : Outcome} (h : c.stage = .finished outcome) :
    c.isPending = false := by
  simp [isPending, hasListed, isOpen, h]

theorem isPending_of_numbered {c : Call} (h : c.stage = .numbered) : c.isPending = false := by
  simp [isPending, hasListed, h]

/-- What becomes of a request when something comes in under certain numbers. -/
def hear (numbers : UInt16 → Bool) (inbox : Inbox) (c : Call) : Call :=
  if c.isPending && numbers c.sequence then { c with inbox } else c

section

variable (p : UInt16 → Bool) (x : Inbox) (c : Call)

@[simp] theorem sequence_hear : (c.hear p x).sequence = c.sequence := by unfold hear; split <;> rfl

@[simp] theorem stage_hear : (c.hear p x).stage = c.stage := by unfold hear; split <;> rfl

end

variable {p : UInt16 → Bool} {x : Inbox} {c : Call}

theorem isPending_hear (hx : x ≠ .empty) :
    (c.hear p x).isPending = (c.isPending && !p c.sequence) := by
  by_cases hp : c.isPending <;> by_cases hs : p c.sequence <;> simp [hear, hp, hs]
  simp [isPending, hx]

theorem hear_eq_self (h : ¬(c.isPending ∧ p c.sequence)) : c.hear p x = c := by
  simp only [hear, Bool.and_eq_true, if_neg h]

theorem hear_of_numbered (h : c.stage = .numbered) : c.hear p x = c :=
  hear_eq_self (by simp [isPending_of_numbered h])

theorem hear_of (h : c.isPending) (hs : p c.sequence) : c.hear p x = { c with inbox := x } := by
  simp [hear, h, hs]

/-- Tells a request that nothing will come in for it, unless something has. -/
def drop (c : Call) : Call := if c.inbox = .empty then { c with inbox := .dropped } else c

@[simp] theorem drop_drop (c : Call) : c.drop.drop = c.drop := by
  by_cases h : c.inbox = .empty <;> simp [drop, h]

theorem drop_of_isPending (h : c.isPending) : c.drop = { c with inbox := .dropped } := by
  simp_all [drop, isPending]

end Call

namespace Connection

theorem mem_of_mem_modifyCall {c : Connection} {id : Nat} {call other : Call} {f : Call → Call}
    (hcall : c.calls[id]? = some call) (ho : other ∈ (c.modifyCall id f).calls) :
    other ∈ c.calls ∨ other = f call := by
  obtain ⟨j, hj⟩ := List.getElem?_of_mem ho
  rw [getElem?_modifyCall] at hj
  by_cases hid : id = j
  · subst hid
    simp only [if_true, hcall, Option.map_some, Option.some.injEq] at hj
    exact .inr hj.symm
  · rw [if_neg hid] at hj
    exact .inl (List.mem_of_getElem? hj)

theorem lookup_eq_some_iff {slots : List (UInt16 × Nat)} (h : (slots.map Prod.fst).Nodup)
    {s : UInt16} {id : Nat} : slots.lookup s = some id ↔ (s, id) ∈ slots := by
  induction slots with
  | nil => simp
  | cons slot slots ih =>
    obtain ⟨k, v⟩ := slot
    simp only [List.map_cons, List.nodup_cons] at h
    rw [List.lookup_cons]
    by_cases hk : s = k
    · subst hk
      have : (s, id) ∉ slots := fun hm => h.1 (List.mem_map_of_mem hm)
      simp [this, eq_comm]
    · have : (s == k) = false := by simp [hk]
      simp [this, ih h.2, hk]

/-- What becomes of a connection when something comes in under certain numbers. -/
def settle (c : Connection) (numbers : UInt16 → Bool) (x : Inbox) : Connection :=
  { c with
    slots := c.slots.filter fun slot => !numbers slot.1
    calls := c.calls.map (Call.hear numbers x) }

@[simp] theorem getElem?_settle (c : Connection) (p : UInt16 → Bool) (x : Inbox) (id : Nat) :
    (c.settle p x).calls[id]? = (c.calls[id]?).map (Call.hear p x) := List.getElem?_map

@[simp] theorem length_calls_settle (c : Connection) (p : UInt16 → Bool) (x : Inbox) :
    (c.settle p x).calls.length = c.calls.length := List.length_map ..

/-- What comes in under no number is heard by nobody. -/
@[simp] theorem settle_false (c : Connection) (x : Inbox) : c.settle (fun _ => false) x = c := by
  have hslots : (c.slots.filter fun _ => true) = c.slots := List.filter_eq_self.mpr (by simp)
  have hcalls : c.calls.map (Call.hear (fun _ => false) x) = c.calls :=
    (List.map_congr_left fun call _ => Call.hear_eq_self (by simp)).trans (List.map_id c.calls)
  simp [settle, hslots, hcalls]

/-- What becomes of a connection when a request puts its slot. -/
def withSlot (c : Connection) (s : UInt16) (id : Nat) : Connection :=
  let before := c.settle (· == s) .dropped
  { before with slots := (s, id) :: before.slots }

@[simp] theorem getElem?_withSlot (c : Connection) (s : UInt16) (id j : Nat) :
    (c.withSlot s id).calls[j]? = (c.calls[j]?).map (Call.hear (· == s) .dropped) :=
  getElem?_settle ..

@[simp] theorem length_calls_withSlot (c : Connection) (s : UInt16) (id : Nat) :
    (c.withSlot s id).calls.length = c.calls.length := length_calls_settle ..

/-- What every connection that has come about satisfies. -/
structure Consistent (c : Connection) : Prop where
  /-- No number has two slots. -/
  distinct : (c.slots.map Prod.fst).Nodup
  /-- The slots are those of the requests that wait for something to come in. -/
  mem_slots : ∀ s id, (s, id) ∈ c.slots ↔
    ∃ call, c.calls[id]? = some call ∧ call.sequence = s ∧ call.isPending
  /-- Nothing comes in before the slot is put. -/
  fresh : ∀ call ∈ c.calls, call.stage = .numbered → call.inbox = .empty
  /-- A connection that is up is served by both parties. -/
  up : ∀ party, c.connected = true → c.condition party = .running
  /-- Once a party has emptied the slots, only requests that have not looked yet have one. -/
  quiet : ∀ party, c.condition party = .ended →
    ∀ call ∈ c.calls, call.isPending → call.stage = .listed

namespace Consistent

theorem init : ({} : Connection).Consistent := by
  refine ⟨by simp, by simp, by simp, fun party _ => ?_, by simp⟩
  cases party <;> rfl

/-- Emptying slots drops whatever their owners wait for. -/
theorem foldl_dropInbox (slots : List (UInt16 × Nat)) (c : Connection) :
    slots.foldl (fun c slot => c.dropInbox slot.2) c =
      { c with calls := c.calls.mapIdx fun id call =>
          if id ∈ slots.map Prod.snd then call.drop else call } := by
  induction slots generalizing c with
  | nil =>
    have hcalls : (c.calls.mapIdx fun _ call => call) = c.calls :=
      List.ext_getElem? fun j => by rw [List.getElem?_mapIdx]; simp
    simp [hcalls]
  | cons slot slots ih =>
    rw [List.foldl_cons, ih]
    congr 1
    apply List.ext_getElem?
    intro j
    change ((c.calls.modify slot.2 Call.drop).mapIdx _)[j]? = _
    simp only [List.getElem?_mapIdx, List.getElem?_modify, List.map_cons, List.mem_cons]
    cases c.calls[j]? with
    | none => simp
    | some call =>
      by_cases hj : slot.2 = j
      · subst hj
        simp
      · have hmem : (j = slot.2 ∨ j ∈ slots.map Prod.snd) ↔ j ∈ slots.map Prod.snd :=
          or_iff_right (Ne.symm hj)
        simp only [if_neg hj, hmem]
        rfl

variable {c : Connection} (h : c.Consistent)
include h

/-- Two requests that wait under one number are one request. -/
theorem eq_of_isPending {i j : Nat} {a b : Call} (ha : c.calls[i]? = some a)
    (hb : c.calls[j]? = some b) (hpa : a.isPending) (hpb : b.isPending)
    (hs : a.sequence = b.sequence) : i = j := by
  have hi := (h.mem_slots a.sequence i).mpr ⟨a, ha, rfl, hpa⟩
  have hj := (h.mem_slots a.sequence j).mpr ⟨b, hb, hs.symm, hpb⟩
  rw [← lookup_eq_some_iff h.distinct] at hi hj
  exact Option.some.inj (hi.symm.trans hj)

/-- What comes in under a number without a slot is heard by nobody. -/
theorem settle_of_lookup_eq_none {s : UInt16} (x : Inbox) (hs : c.slots.lookup s = none) :
    c.settle (· == s) x = c := by
  have hnone := List.lookup_eq_none_iff.mp hs
  have hslots : (c.slots.filter fun slot => !(slot.1 == s)) = c.slots := by
    rw [List.filter_eq_self]
    intro slot hslot
    simpa [bne, Bool.beq_comm] using hnone slot hslot
  have hcalls : c.calls.map (Call.hear (· == s) x) = c.calls.map id := by
    refine List.map_congr_left fun call hcall => Call.hear_eq_self ?_
    rintro ⟨hp, hseq⟩
    obtain ⟨id, hid⟩ := List.getElem?_of_mem hcall
    have hmem := (h.mem_slots call.sequence id).mpr ⟨call, hid, rfl, hp⟩
    simpa [eq_of_beq hseq] using hnone _ hmem
  rw [settle, hslots, hcalls, List.map_id]

/-- What comes in under a number with a slot is heard by its owner alone. -/
theorem settle_of_lookup_eq_some {s : UInt16} (x : Inbox) {owner : Nat}
    (hs : c.slots.lookup s = some owner) (f : Call → Call)
    (hf : ∀ call, call.inbox = .empty → f call = { call with inbox := x }) :
    c.settle (· == s) x =
      { c with slots := c.slots.filter fun slot => slot.1 != s }.modifyCall owner f := by
  rw [lookup_eq_some_iff h.distinct] at hs
  obtain ⟨call, hcall, hseq, hp⟩ := (h.mem_slots s owner).mp hs
  have hcalls : c.calls.map (Call.hear (· == s) x) = c.calls.modify owner f := by
    apply List.ext_getElem?
    intro j
    rw [List.getElem?_map, List.getElem?_modify]
    by_cases hj : owner = j
    · subst hj
      have hempty : call.inbox = .empty := (Call.isPending_iff.mp hp).2
      simp [hcall, Call.hear, hseq, hp, hf call hempty]
    · cases hother : c.calls[j]? with
      | none => rfl
      | some other =>
        have hself : other.hear (· == s) x = other := by
          apply Call.hear_eq_self
          rintro ⟨hp', hseq'⟩
          exact hj (h.eq_of_isPending hcall hother hp hp' (hseq.trans (eq_of_beq hseq').symm))
        simp [hj, hself]
  rw [settle, hcalls]
  rfl

theorem release_eq (s : UInt16) : c.release s = c.settle (· == s) .dropped := by
  unfold release
  cases hs : c.slots.lookup s with
  | none => exact (h.settle_of_lookup_eq_none _ hs).symm
  | some owner =>
    exact (h.settle_of_lookup_eq_some _ hs _ fun call hcall => by simp [hcall]).symm

theorem putSlot_eq (s : UInt16) (id : Nat) : c.putSlot s id = c.withSlot s id := by
  rw [putSlot, h.release_eq]
  rfl

theorem receive_eq {f : Frame} (hf : f.isEvent = false) :
    c.receive f = c.settle (· == f.sequence) (Inbox.ofFrame f) := by
  simp only [receive, hf, Bool.false_eq_true, if_false, Inbox.ofFrame]
  cases hs : c.slots.lookup f.sequence with
  | none => exact (h.settle_of_lookup_eq_none _ hs).symm
  | some owner =>
    cases hr : Reply.ofFrame f with
    | ok r => exact (h.settle_of_lookup_eq_some _ hs _ fun call _ => rfl).symm
    | error e => exact (h.settle_of_lookup_eq_some _ hs _ fun call hcall => by simp [hcall]).symm

theorem clear_eq : c.clear = c.settle (fun _ => true) .dropped := by
  have hcalls : (c.calls.mapIdx fun id call =>
      if id ∈ c.slots.map Prod.snd then call.drop else call) =
        c.calls.map (Call.hear (fun _ => true) .dropped) := by
    apply List.ext_getElem?
    intro j
    rw [List.getElem?_map, List.getElem?_mapIdx]
    cases hcall : c.calls[j]? with
    | none => rfl
    | some call =>
      have hmem : j ∈ c.slots.map Prod.snd ↔ call.isPending := by
        constructor
        · intro hj
          obtain ⟨⟨s, _⟩, hslot, rfl⟩ := List.mem_map.mp hj
          obtain ⟨other, hother, -, hp⟩ := (h.mem_slots s _).mp hslot
          rw [hcall] at hother
          exact Option.some.inj hother ▸ hp
        · intro hp
          exact List.mem_map.mpr ⟨_, (h.mem_slots call.sequence j).mpr ⟨call, hcall, rfl, hp⟩, rfl⟩
      by_cases hp : call.isPending
      · simp [hmem, hp, Call.hear, Call.drop_of_isPending hp]
      · simp [hmem, hp, Call.hear]
  rw [clear, foldl_dropInbox, hcalls, settle]
  simp

theorem finish_eq (id : Nat) (call : Call) (outcome : Outcome) :
    c.finish id call outcome =
      (c.settle (fun s => call.hasListed && s == call.sequence) .dropped).modifyCall id
        fun call => { call with stage := .finished outcome } := by
  by_cases hl : call.hasListed
  · simp only [finish, hl, if_true, h.release_eq, Bool.true_and]
  · simp [finish, hl]

end Consistent

end Connection

end Canopen
