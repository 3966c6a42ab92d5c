import Canopen.Proofs.Connection.Consistency
/-!
# What an action can make of one request

Most of what holds of a connection is a fact about each of its requests. `Move` has one case for
each thing that an action can make of a request, whether or not it is the one that acts, and
`Step.move` finds the case of a step. A step forgets no request, and only `start` adds one.
-/
namespace Canopen

/-- The request that begins with an action. -/
def Connection.Action.request? : Connection.Action → Option Request
  | .start request _ => some request
  | _ => none

def Call.begin (counter : UInt16) (request : Request) (limit : Duration) : Call where
  request := request
  limit := limit
  sequence := (SequenceDraw.take counter).number
  stage :=
    match request.sendFault? with
    | some fault => .finished (.failed (.notSent fault))
    | none => .numbered

@[simp] theorem Call.inbox_begin (counter : UInt16) (request : Request) (limit : Duration) :
    (Call.begin counter request limit).inbox = .empty := rfl

theorem Call.stage_begin {counter : UInt16} {request : Request} {limit : Duration}
    (h : request.sendFault? = none) : (Call.begin counter request limit).stage = .numbered := by
  simp [Call.begin, h]

@[simp] theorem Call.hasListed_begin (counter : UInt16) (request : Request) (limit : Duration) :
    (Call.begin counter request limit).hasListed = false := by
  unfold begin
  cases h : request.sendFault? <;> simp [hasListed, isOpen]

namespace Connection

/-- Everything that an action can make of a request. -/
inductive Move (c : Connection) (id : Nat) (call : Call) : Action → Call → Prop where
  | stay (a : Action) : Move c id call a call
  | list (hs : call.stage = .numbered) : Move c id call (.list id) { call with stage := .listed }
  | check (hs : call.stage = .listed) (hc : c.connected = true) :
      Move c id call (.check id) { call with stage := .admitted }
  | queue (hs : call.stage = .admitted) :
      Move c id call (.queue id) { call with stage := .waiting }
  | hear {f : Frame} (hf : f.isEvent = false) (hseq : call.sequence = f.sequence)
      (hp : call.isPending) : Move c id call (.receive f) { call with inbox := Inbox.ofFrame f }
  | drop (a : Action) (hp : call.isPending) : Move c id call a { call with inbox := .dropped }
  | finish {a : Action} {outcome : Outcome} {x : Inbox} (hend : Ending c id call a outcome)
      (hx : x = call.inbox ∨ x = .dropped) :
      Move c id call a { call with stage := .finished outcome, inbox := x }

namespace Move

variable {c : Connection} {id : Nat} {call call' : Call} {a : Action} (h : Move c id call a call')
include h

theorem sequence_eq : call'.sequence = call.sequence := by cases h <;> rfl

theorem request_eq : call'.request = call.request := by cases h <;> rfl

theorem frame_eq : call'.frame = call.frame := by
  rw [Call.frame, h.request_eq, h.sequence_eq, Call.frame]

/-- A request that has ended is not changed any more. -/
theorem eq_of_finished {outcome : Outcome} (hs : call.stage = .finished outcome) :
    call' = call := by
  cases h with
  | stay => rfl
  | list hs' | check hs' | queue hs' => simp [hs] at hs'
  | hear _ _ hp | drop _ hp => simp [Call.isPending_of_finished hs] at hp
  | finish hend =>
    cases hend with
    | refused hs' | closed hs' | answered hs' | lost hs' => simp [hs] at hs'
    | expired hs' => simp [hs] at hs'
    | abandoned ho => simp [Call.isOpen, hs] at ho

/-- A request that has put its slot and is open was so before, if it has not just put it. -/
theorem hasListed_of (hl : call'.hasListed) : call.hasListed ∨ a = .list id := by
  cases h with
  | stay => exact .inl hl
  | list => exact .inr rfl
  | check hs | queue hs => simp [Call.hasListed_iff, hs]
  | hear _ _ hp | drop _ hp => exact .inl (Call.isPending_iff.mp hp).1
  | finish => simp [Call.hasListed, Call.isOpen] at hl

/-- A request that waits for something to come in waited before, if it has not just put its slot. -/
theorem isPending_of (hp : call'.isPending) : call.isPending ∨ a = .list id := by
  obtain ⟨hl, hi⟩ := Call.isPending_iff.mp hp
  rcases h.hasListed_of hl with hl | ha
  · refine .inl (Call.isPending_iff.mpr ⟨hl, ?_⟩)
    cases h with
    | hear | drop => exact (Call.isPending_iff.mp ‹_›).2
    | finish => simp [Call.isPending, Call.hasListed, Call.isOpen] at hp
    | _ => exact hi
  · exact .inr ha

/-- An open request was open before. -/
theorem isOpen_of (ho : call'.isOpen) : call.isOpen := by
  cases hs : call.stage with
  | finished outcome =>
    rw [h.eq_of_finished hs] at ho
    exact ho
  | _ => simp [Call.isOpen, hs]

/-- A request that has queued its frame waits from then on, until it ends. -/
theorem hasQueued (hq : call.stage = .waiting ∨ call.isOpen = false) :
    call'.stage = .waiting ∨ call'.isOpen = false := by
  rcases hq with hq | hq
  · cases h with
    | stay | hear | drop => exact .inl hq
    | list hs | check hs | queue hs => simp [hq] at hs
    | finish => exact .inr rfl
  · refine .inr (Bool.eq_false_iff.mpr fun ho => ?_)
    simp [h.isOpen_of ho] at hq

end Move

section

variable {c c' : Connection} {a : Action}

/-- What comes in unreadable drops a request or leaves it as it is. -/
theorem Move.hear_dropped (p : UInt16 → Bool) (id : Nat) (call : Call) (a : Action) :
    Move c id call a (call.hear p .dropped) := by
  by_cases hp : call.isPending ∧ p call.sequence
  · rw [Call.hear_of hp.1 hp.2]
    exact .drop a hp.1
  · rw [Call.hear_eq_self hp]
    exact .stay a

/-- A step makes of a request that has begun what one of the moves makes of it. -/
theorem Step.move (hstep : c.Step a c') {id : Nat} {call : Call}
    (hcall : c.calls[id]? = some call) :
    ∃ call', c'.calls[id]? = some call' ∧ Move c id call a call' := by
  cases hstep with
  | start request limit =>
    obtain ⟨hid, -⟩ := List.getElem?_eq_some_iff.mp hcall
    exact ⟨call, by simp [Connection.start, List.getElem?_append_left hid, hcall], .stay _⟩
  | @list acting before hacting hs =>
    by_cases hid : acting = id
    · subst hid
      obtain rfl : before = call := Option.some.inj (hacting.symm.trans hcall)
      exact ⟨_, by simp [hcall, Call.hear_of_numbered hs], .list hs⟩
    · exact ⟨_, by simp [hid, hcall], .hear_dropped (· == before.sequence) id call _⟩
  | @check acting before hacting hs hc =>
    by_cases hid : acting = id
    · subst hid
      obtain rfl : before = call := Option.some.inj (hacting.symm.trans hcall)
      exact ⟨{ before with stage := .admitted }, by simp [hcall], .check hs hc⟩
    · exact ⟨call, by simp [hid, hcall], .stay _⟩
  | @queue acting before hacting hs hw hroom =>
    by_cases hid : acting = id
    · subst hid
      obtain rfl : before = call := Option.some.inj (hacting.symm.trans hcall)
      exact ⟨{ before with stage := .waiting }, by simp [hcall], .queue hs⟩
    · exact ⟨call, by simp [hid, hcall], .stay _⟩
  | @finish acting before _ outcome hacting hend =>
    generalize hn : (fun s => before.hasListed && s == before.sequence) = numbers
    by_cases hid : acting = id
    · subst hid
      obtain rfl : before = call := Option.some.inj (hacting.symm.trans hcall)
      refine ⟨{ before.hear numbers .dropped with stage := .finished outcome },
        by simp [hcall], ?_⟩
      by_cases hp : before.isPending ∧ numbers before.sequence
      · rw [Call.hear_of hp.1 hp.2]
        exact .finish hend (.inr rfl)
      · rw [Call.hear_eq_self hp]
        exact .finish hend (.inl rfl)
    · exact ⟨call.hear numbers .dropped, by simp [hid, hcall], .hear_dropped numbers id call a⟩
  | takeFrame | write | tell => exact ⟨call, hcall, .stay _⟩
  | @hear f hr hf =>
    by_cases hp : call.isPending ∧ call.sequence == f.sequence
    · have hheard : call.hear (· == f.sequence) (Inbox.ofFrame f) =
          { call with inbox := Inbox.ofFrame f } := Call.hear_of hp.1 hp.2
      exact ⟨_, by simp [hcall, hheard], .hear hf (eq_of_beq hp.2) hp.1⟩
    · have hself : call.hear (· == f.sequence) (Inbox.ofFrame f) = call := Call.hear_eq_self hp
      exact ⟨call, by simp [hcall, hself], .stay _⟩
  | cut => exact ⟨call, by simpa using hcall, .stay _⟩
  | clear => exact ⟨_, by simp [hcall], .hear_dropped (fun _ => true) id call _⟩

theorem calls_start (c : Connection) (request : Request) (limit : Duration) :
    (c.start request limit).calls = c.calls ++ [Call.begin c.counter request limit] := rfl

/-- A step begins a request, or begins none and leaves the counter and the number of requests. -/
theorem Step.begins (hstep : c.Step a c') :
    (∃ request limit, a = .start request limit ∧ c' = c.start request limit) ∨
      a.request? = none ∧ c'.counter = c.counter ∧ c'.calls.length = c.calls.length := by
  cases hstep with
  | start request limit => exact .inl ⟨request, limit, rfl, rfl⟩
  | finish _ hend => exact .inr ⟨by cases hend <;> rfl, rfl, by simp⟩
  | @cut party | @clear party => cases party <;> exact .inr ⟨rfl, rfl, by simp⟩
  | takeFrame | write | tell => exact .inr ⟨rfl, rfl, rfl⟩
  | _ => exact .inr ⟨rfl, rfl, by simp⟩

/-- A request of a connection after a step was there before, or begins with the step. -/
theorem Step.exists_move (hstep : c.Step a c') {id : Nat} {call' : Call}
    (hcall' : c'.calls[id]? = some call') :
    (∃ call, c.calls[id]? = some call ∧ Move c id call a call') ∨
      ∃ request limit, a = .start request limit ∧ c' = c.start request limit ∧
        id = c.calls.length ∧ call' = Call.begin c.counter request limit := by
  by_cases hid : id < c.calls.length
  · obtain ⟨moved, hmoved, hmove⟩ := hstep.move (List.getElem?_eq_getElem hid)
    obtain rfl := Option.some.inj (hmoved.symm.trans hcall')
    exact .inl ⟨_, List.getElem?_eq_getElem hid, hmove⟩
  · have hid' : id < c'.calls.length := (List.getElem?_eq_some_iff.mp hcall').1
    rcases hstep.begins with ⟨request, limit, rfl, rfl⟩ | ⟨-, -, hlen⟩
    · rw [calls_start, List.length_append, List.length_singleton] at hid'
      obtain rfl : id = c.calls.length := by omega
      rw [calls_start, List.getElem?_concat_length] at hcall'
      exact .inr ⟨request, limit, rfl, rfl, rfl, (Option.some.inj hcall').symm⟩
    · omega

end

end Connection

end Canopen
