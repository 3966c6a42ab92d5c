import Canopen.Proofs.Connection.Move
/-!
# Slots over the life of a connection

However the steps of requests, of the receiver and of the writer are ordered, a slot belongs to a
request that is open, a frame is heard by one request at most, and a connection that is down stays
down. After a party has marked the connection as down and emptied the slots, nobody waits for a
reply that cannot come: a request that puts its slot later looks at the connection afterwards.
-/
namespace Canopen

namespace Call

/-- Holds of a request for which a reply has come in, also once it has ended with it. -/
def Holds (call : Call) (r : Reply) : Prop :=
  call.inbox = .reply r ∨ call.stage = .finished (.answered r)

/-- Holds of a request that has got no further than its look at a connection that is down. -/
def IsRefused (call : Call) : Prop :=
  call.stage = .numbered ∨ call.stage = .listed ∨ call.stage = .finished (.failed .closed) ∨
    call.stage = .finished .abandoned ∨
    ∃ fault, call.request.sendFault? = some fault ∧
      call.stage = .finished (.failed (.notSent fault))

variable {call : Call} {r : Reply}

/-- A request that holds a reply waits for nothing. -/
theorem isPending_of_holds (h : call.Holds r) : call.isPending = false := by
  rcases h with hi | hs
  · simp [isPending, hi]
  · exact isPending_of_finished hs

theorem not_holds_begin (counter : UInt16) (request : Request) (limit : Duration) :
    ¬(begin counter request limit).Holds r := by
  rintro (hr | hs)
  · simp at hr
  · unfold begin at hs
    cases h : request.sendFault? <;> simp [h] at hs

theorem isRefused_begin (counter : UInt16) (request : Request) (limit : Duration) :
    (begin counter request limit).IsRefused := by
  unfold begin IsRefused
  cases request.sendFault? <;> simp

end Call

namespace Connection

/-- Every slot is under the number of a request that has begun and is open, and no number has two
slots. -/
def SlotsAreOpen (c : Connection) : Prop :=
  (c.slots.map Prod.fst).Nodup ∧
    ∀ s id, (s, id) ∈ c.slots →
      ∃ call, c.calls[id]? = some call ∧ call.sequence = s ∧ call.isOpen

/-- A frame that comes in changes one request at most, which is open and has its number. -/
def HeardByOne (c : Connection) : Prop :=
  ∀ (f : Frame) (c' : Connection), c.step? (.receive f) = some c' →
    ∀ id : Nat, c'.calls[id]? ≠ c.calls[id]? →
    f.isEvent = false ∧
    (∃ call : Call, c.calls[id]? = some call ∧ call.isOpen ∧ call.sequence = f.sequence) ∧
    ∀ other : Nat, c'.calls[other]? ≠ c.calls[other]? → other = id

/-- Every request that holds a reply has it from a frame of its own, which came in under its
number. -/
def AnsweredApart (actions : List Action) (c : Connection) : Prop :=
  ∃ source : Nat → Nat,
    (∀ id call r, c.calls[id]? = some call → call.Holds r →
      ∃ f, actions[source id]? = some (.receive f) ∧ f.isEvent = false ∧
        f.sequence = call.sequence ∧ Reply.ofFrame f = .ok r) ∧
    ∀ i j a b r q, c.calls[i]? = some a → c.calls[j]? = some b → a.Holds r → b.Holds q →
      source i = source j → i = j

/-- A connection that is down is down after all further steps. -/
def StaysDown (c : Connection) : Prop :=
  ∀ actions c', c.run? actions = some c' → c.connected = false → c'.connected = false

/-- Once a party has emptied the slots, no request that has found the connection up has one, and
each that has queued its frame can end at once. -/
def NobodyLeft (c : Connection) : Prop :=
  ∀ party, c.condition party = .ended →
    c.connected = false ∧
    (∀ s id, (s, id) ∈ c.slots → ∃ call, c.calls[id]? = some call ∧ call.stage = .listed) ∧
    ∀ id call, c.calls[id]? = some call → call.stage = .waiting →
      ∃ c', c.step? (.collect id) = some c'

/-- A request that begins when the connection is down never queues its frame, and its own next steps
end it, where it is still open, as one on a closed connection and take its slot away. -/
def LateRefused (c : Connection) : Prop :=
  c.connected = false → ∀ actions c', c.run? actions = some c' →
    ∀ id call, c.calls.length ≤ id → c'.calls[id]? = some call →
      call.IsRefused ∧
      (call.isOpen →
        ∃ looks ended, c'.run? looks = some ended ∧
          (looks = [.check id] ∨ looks = [.list id, .check id]) ∧
          (∃ last, ended.calls[id]? = some last ∧ last.stage = .finished (.failed .closed)) ∧
          call.sequence ∉ ended.slots.map Prod.fst)

variable {c c' : Connection} {a : Action}

theorem Consistent.slotsAreOpen (h : c.Consistent) : c.SlotsAreOpen := by
  refine ⟨h.distinct, fun s id hslot => ?_⟩
  obtain ⟨call, hcall, hseq, hp⟩ := (h.mem_slots s id).mp hslot
  exact ⟨call, hcall, hseq, Call.isOpen_of_isPending hp⟩

/-- A request that a frame changes has waited for it. -/
theorem Step.of_receive_ne {f : Frame} (hstep : c.Step (.receive f) c') {id : Nat}
    (hne : c'.calls[id]? ≠ c.calls[id]?) :
    f.isEvent = false ∧
      ∃ call, c.calls[id]? = some call ∧ call.isPending ∧ call.sequence = f.sequence := by
  cases hstep with
  | finish _ hend => nomatch hend
  | tell => exact absurd rfl hne
  | hear hr hf =>
    rw [getElem?_settle] at hne
    cases hcall : c.calls[id]? with
    | none => simp [hcall] at hne
    | some call =>
      by_cases hp : call.isPending ∧ call.sequence == f.sequence
      · exact ⟨hf, call, rfl, hp.1, eq_of_beq hp.2⟩
      · have hself : call.hear (· == f.sequence) (Inbox.ofFrame f) = call := Call.hear_eq_self hp
        simp [hcall, hself] at hne

theorem Consistent.heardByOne (h : c.Consistent) : c.HeardByOne := by
  unfold HeardByOne
  intro f c' hstep id hne
  have hstep := h.step_of_step? hstep
  obtain ⟨hf, call, hcall, hp, hseq⟩ := hstep.of_receive_ne hne
  refine ⟨hf, ⟨call, hcall, Call.isOpen_of_isPending hp, hseq⟩, fun other hother => ?_⟩
  obtain ⟨-, heard, hheard, hp', hseq'⟩ := hstep.of_receive_ne hother
  exact h.eq_of_isPending hheard hcall hp' hp (hseq'.trans hseq.symm)

/-- A move gives a request a reply only when its frame comes in. -/
theorem Move.holds {id : Nat} {call call' : Call} {r : Reply} (hmove : Move c id call a call')
    (hr : call'.Holds r) :
    call.Holds r ∨ ∃ f, a = .receive f ∧ f.isEvent = false ∧ f.sequence = call.sequence ∧
      call.isPending ∧ Reply.ofFrame f = .ok r := by
  cases hmove with
  | stay => exact .inl hr
  | list | check | queue => exact .inl (.inl (by simpa [Call.Holds] using hr))
  | @hear f hf hseq hp =>
    rcases hr with hi | hs
    · exact .inr ⟨f, rfl, hf, hseq.symm, hp, Inbox.ofFrame_eq_reply_iff.mp hi⟩
    · exact .inl (.inr hs)
  | drop _ hp =>
    rcases hr with hi | hs
    · simp at hi
    · exact .inl (.inr hs)
  | finish hend hx =>
    rcases hr with hi | hs
    · rcases hx with rfl | rfl
      · exact .inl (.inl hi)
      · simp at hi
    · simp only [Stage.finished.injEq] at hs
      cases hend with
      | answered _ hi => cases hs; exact .inl (.inl hi)
      | _ => simp at hs

theorem AnsweredApart.step {past : List Action} (h : c.Consistent) (hapart : AnsweredApart past c)
    (hstep : c.Step a c') : AnsweredApart (past ++ [a]) c' := by
  obtain ⟨source, hfrom, happart⟩ := hapart
  -- a request that waits holds nothing yet: what it gets in this step comes from this step
  let next (id : Nat) := if (c.calls[id]?).any Call.isPending then past.length else source id
  have hnext {id : Nat} {call' : Call} {r : Reply} (hcall' : c'.calls[id]? = some call')
      (hr : call'.Holds r) :
      ∃ call, c.calls[id]? = some call ∧ call.sequence = call'.sequence ∧
        (call.Holds r ∧ next id = source id ∨
          next id = past.length ∧ call.isPending ∧ ∃ f, a = .receive f ∧ f.isEvent = false ∧
            f.sequence = call.sequence ∧ Reply.ofFrame f = .ok r) := by
    rcases hstep.exists_move hcall' with ⟨call, hcall, hmove⟩ | ⟨_, _, -, -, -, rfl⟩
    · refine ⟨call, hcall, hmove.sequence_eq.symm, ?_⟩
      rcases hmove.holds hr with hold | ⟨f, ha, hf, hseq, hp, hreply⟩
      · exact .inl ⟨hold, by simp [next, hcall, Call.isPending_of_holds hold]⟩
      · exact .inr ⟨by simp [next, hcall, hp], hp, f, ha, hf, hseq, hreply⟩
    · exact absurd hr (Call.not_holds_begin _ _ _)
  have hbefore {id : Nat} {call : Call} {r : Reply} (hcall : c.calls[id]? = some call)
      (hr : call.Holds r) : source id < past.length := by
    obtain ⟨f, hf, -⟩ := hfrom id call r hcall hr
    exact (List.getElem?_eq_some_iff.mp hf).1
  refine ⟨next, fun id call' r hcall' hr => ?_, fun i j a b r q hi hj ha hb hsame => ?_⟩
  · obtain ⟨call, hcall, hseq, ⟨hold, hsource⟩ | ⟨hsource, -, f, rfl, hf, hseq', hreply⟩⟩ :=
      hnext hcall' hr
    · obtain ⟨f, hpast, hf, hseq', hreply⟩ := hfrom id call r hcall hold
      refine ⟨f, ?_, hf, hseq'.trans hseq, hreply⟩
      rw [hsource, List.getElem?_append_left (hbefore hcall hold), hpast]
    · exact ⟨f, by simp [hsource], hf, hseq'.trans hseq, hreply⟩
  · obtain ⟨a, hcalli, -, hi⟩ := hnext hi ha
    obtain ⟨b, hcallj, -, hj⟩ := hnext hj hb
    rcases hi with ⟨hi, hni⟩ | ⟨hni, hpi, f, rfl, -, hseqi, -⟩ <;>
      rcases hj with ⟨hj, hnj⟩ | ⟨hnj, hpj, g, hg, -, hseqj, -⟩
    · exact happart i j a b r q hcalli hcallj hi hj (hni ▸ hnj ▸ hsame)
    · have := hbefore hcalli hi
      omega
    · have := hbefore hcallj hj
      omega
    · cases hg
      exact h.eq_of_isPending hcalli hcallj hpi hpj (hseqi.symm.trans hseqj)

/-- No step brings a connection up. -/
theorem Step.stays_down (hstep : c.Step a c') (hdown : c.connected = false) :
    c'.connected = false := by
  cases hstep with
  | cut => rfl
  | clear => rw [connected_setCondition]; exact hdown
  | _ => exact hdown

theorem Consistent.staysDown (h : c.Consistent) : c.StaysDown := fun _ _ hrun hdown =>
  Consistent.invariant (P := fun _ c => c.connected = false)
    (fun _ _ _ _ _ hdown hstep => hstep.stays_down hdown) [] h hdown hrun

theorem Consistent.nobodyLeft (h : c.Consistent) : c.NobodyLeft := by
  intro party hparty
  refine ⟨?_, fun s id hslot => ?_, fun id call hcall hs => ?_⟩
  · cases hup : c.connected with
    | false => rfl
    | true => simp [h.up party hup] at hparty
  · obtain ⟨call, hcall, -, hp⟩ := (h.mem_slots s id).mp hslot
    exact ⟨call, hcall, h.quiet party hparty call (List.mem_of_getElem? hcall) hp⟩
  · have hp : ¬call.isPending := fun hp => by
      simpa [hs] using h.quiet party hparty call (List.mem_of_getElem? hcall) hp
    cases hi : call.inbox with
    | empty => simp [Call.isPending_iff, Call.hasListed_iff, hs, hi] at hp
    | reply r => exact ⟨_, h.step?_of_step (.finish hcall (.answered hs hi))⟩
    | dropped => exact ⟨_, h.step?_of_step (.finish hcall (.lost hs hi))⟩

/-- A request that has got no further than its look gets no further while the connection is down. -/
theorem Move.isRefused {id : Nat} {call call' : Call} (hmove : Move c id call a call')
    (hdown : c.connected = false) (h : call.IsRefused) : call'.IsRefused := by
  cases hmove with
  | stay => exact h
  | list => exact .inr (.inl rfl)
  | check _ hc => simp [hdown] at hc
  | queue hs => simp [Call.IsRefused, hs] at h
  | hear | drop => exact h
  | finish hend =>
    cases hend with
    | refused => exact .inr (.inr (.inl rfl))
    | abandoned => exact .inr (.inr (.inr (.inl rfl)))
    | closed hs | answered hs | lost hs => simp [Call.IsRefused, hs] at h
    | expired hs => rcases hs with hs | ⟨hs, -⟩ <;> simp [Call.IsRefused, hs] at h

/-- Where the connection is down, a request that has put its slot ends with its look. -/
theorem Consistent.exists_check (h : c.Consistent) (hdown : c.connected = false) {id : Nat}
    {call : Call} (hcall : c.calls[id]? = some call) (hs : call.stage = .listed) :
    ∃ ended, c.step? (.check id) = some ended ∧
      (∃ last, ended.calls[id]? = some last ∧ last.stage = .finished (.failed .closed)) ∧
      call.sequence ∉ ended.slots.map Prod.fst := by
  have hl : call.hasListed := Call.hasListed_iff.mpr (.inl hs)
  refine ⟨_, h.step?_of_step (.finish hcall (.refused hs hdown)), ?_, ?_⟩
  · simp [hcall]
  · simp [hl, Connection.settle]

theorem Consistent.lateRefused (h : c.Consistent) : c.LateRefused := by
  intro hdown actions c' hrun id call hid hcall
  obtain ⟨hdown', hrefused⟩ := Consistent.invariant
    (P := fun _ d => d.connected = false ∧ ∀ id (call : Call),
      c.calls.length ≤ id → d.calls[id]? = some call → call.IsRefused)
    (fun _ d a d' _ ⟨hdown, hrefused⟩ hstep => by
      refine ⟨hstep.stays_down hdown, fun id call' hid hcall' => ?_⟩
      rcases hstep.exists_move hcall' with ⟨call, hcall, hmove⟩ | ⟨_, _, -, -, -, rfl⟩
      · exact hmove.isRefused hdown (hrefused id call hid hcall)
      · exact Call.isRefused_begin _ _ _)
    [] h ⟨hdown, fun id call hid hcall => by simp [List.getElem?_eq_none hid] at hcall⟩ hrun
  have h' := h.run? hrun
  have hcall' := hrefused id call hid hcall
  refine ⟨hcall', fun hopen => ?_⟩
  rcases hcall' with hs | hs | hs | hs | ⟨fault, -, hs⟩
  · have hstep := Step.list hcall hs
    have hlisted : ((c'.withSlot call.sequence id).modifyCall id fun call =>
        { call with stage := .listed }).calls[id]? = some { call with stage := .listed } := by
      simp [hcall, Call.hear_of_numbered hs]
    obtain ⟨ended, hended, hlast, hslot⟩ :=
      (h'.step hstep).exists_check (hstep.stays_down hdown') hlisted rfl
    have hrun' : c'.run? [.list id, .check id] = some ended := by
      simp [h'.step?_of_step hstep, hended]
    exact ⟨_, ended, hrun', .inr rfl, hlast, hslot⟩
  · obtain ⟨ended, hended, hlast, hslot⟩ := h'.exists_check hdown' hcall hs
    exact ⟨[.check id], ended, by simp [hended], .inl rfl, hlast, hslot⟩
  all_goals simp [Call.isOpen, hs] at hopen

/-- However the steps of all parties have been ordered, slots belong to open requests, frames are
heard by one request each, the connection stays down once it is, nobody is left waiting when it has
been closed, and who comes later is refused. -/
theorem slots_over_run (actions : List Action) (c : Connection)
    (hrun : ({} : Connection).run? actions = some c) :
    c.SlotsAreOpen ∧ c.HeardByOne ∧ AnsweredApart actions c ∧ c.StaysDown ∧ c.NobodyLeft ∧
      c.LateRefused := by
  have h := Consistent.init.run? hrun
  have hapart : AnsweredApart actions c :=
    Consistent.invariant (fun _ _ _ _ h hapart hstep => hapart.step h hstep) [] .init
      ⟨fun _ => 0, by simp, by simp⟩ hrun
  exact ⟨h.slotsAreOpen, h.heardByOne, hapart, h.staysDown, h.nobodyLeft, h.lateRefused⟩

/-- A run in which the receiver closes the connection between the steps of four requests: the first
has its reply, the second waits, the third has put its slot, and the fourth comes after. -/
def closingRun : List Action :=
  [.start (.queryState 1) ⟨1000⟩, .list 0, .check 0, .queue 0,
    .start (.queryState 2) ⟨1000⟩, .list 1, .check 1, .queue 1,
    .receive ⟨0x06, 1, [5]⟩, .collect 0, .cut .receiver,
    .start (.queryState 3) ⟨1000⟩, .list 2, .clear .receiver,
    .start (.queryState 4) ⟨1000⟩, .list 3, .check 2]

/-- The first request is answered, the second has lost its slot and knows that nothing comes, the
third has been refused, and the fourth, whose slot was put after the closing, is yet to look. -/
theorem slots_over_closingRun :
    ∃ c, ({} : Connection).run? closingRun = some c ∧
      c.calls.map Call.stage =
        [.finished (.answered (.state 5)), .waiting, .finished (.failed .closed), .listed] ∧
      c.calls.map Call.inbox = [.reply (.state 5), .dropped, .dropped, .empty] ∧
      c.slots = [(4, 3)] ∧ c.connected = false ∧
      c.SlotsAreOpen ∧ c.HeardByOne ∧ AnsweredApart closingRun c ∧ c.StaysDown ∧ c.NobodyLeft ∧
        c.LateRefused := by
  have hrun : (({} : Connection).run? closingRun).any fun c =>
      c.calls.map Call.stage =
        [.finished (.answered (.state 5)), .waiting, .finished (.failed .closed), .listed] &&
      c.calls.map Call.inbox = [.reply (.state 5), .dropped, .dropped, .empty] &&
      c.slots = [(4, 3)] && c.connected = false := by
    decide +kernel
  simp only [Option.any_eq_true, Bool.and_eq_true, decide_eq_true_eq] at hrun
  obtain ⟨c, hc, ⟨⟨hstages, hinboxes⟩, hslots⟩, hdown⟩ := hrun
  exact ⟨c, hc, hstages, hinboxes, hslots, hdown, slots_over_run closingRun c hc⟩

end Connection

end Canopen
