import Canopen.Connection.Stream
import Canopen.Operation
import Canopen.Proofs.Daemon.Serving
/-!
# Operations over a connection

An operation makes its requests on a connection that others use too. It begins a request, waits until
this has ended and goes on with the answer. All that happens on the connection in the meantime is left
open: the steps of its own request among those of others, what the daemon does, what comes in late, and
who closes the connection. An operation whose request is not given up can always be ended by steps of
its own (`Errand.exists_done`): its requests run out of time at the latest.
-/
namespace Canopen

/-- Holds of the steps that a request takes itself, but for giving it up. -/
def Connection.Action.advances (id : Nat) : Connection.Action → Bool
  | .list j | .check j | .queue j | .collect j | .expire j => j = id
  | _ => false

theorem Connection.Action.not_bringsReply_of_advances {a : Connection.Action} {id : Nat}
    (h : a.advances id) : a.bringsReply = false := by
  cases a with
  | receive f => contradiction
  | _ => rfl

namespace Connection

variable {c c' : Connection} {id : Nat} {call : Call}

/-- Holds of a request that comes to an answer by its own steps. -/
def EndsAlone (c : Connection) (id : Nat) : Prop :=
  ∃ actions c' answer, (∀ a ∈ actions, a.advances id) ∧ c.run? actions = some c' ∧
    c'.answer? id = some answer

theorem answer?_of_finished {outcome : Outcome} (hcall : c.calls[id]? = some call)
    (hs : call.stage = .finished outcome) (hgiven : outcome ≠ .abandoned) :
    ∃ answer, c.answer? id = some answer := by
  rw [answer?, hcall, Option.map_some, hs]
  cases outcome with
  | answered r => exact ⟨.ok r, rfl⟩
  | failed e => exact ⟨.error e, rfl⟩
  | abandoned => contradiction

/-- The answer to a request that has ended stays. -/
theorem Step.answer?_eq {a : Action} {answer : Answer} (hstep : c.Step a c')
    (h : c.answer? id = some answer) : c'.answer? id = some answer := by
  unfold answer? at h ⊢
  cases hcall : c.calls[id]? with
  | none => simp [hcall] at h
  | some call =>
    obtain ⟨call', hcall', hmove⟩ := hstep.move hcall
    rw [hcall, Option.map_some] at h
    rw [hcall', Option.map_some]
    cases hs : call.stage with
    | finished outcome => rwa [hmove.eq_of_finished hs]
    | _ => simp [hs] at h

/-- A connection ends a request that does not fit at once. -/
theorem answer?_start {r : Request} {fault : SendFault} (h : r.sendFault? = some fault)
    (c : Connection) (limit : Duration) :
    (c.start r limit).answer? c.calls.length = some (.error (.notSent fault)) := by
  simp [Connection.start, answer?, h]

theorem Consistent.endsAlone_of_step (h : c.Consistent) {a : Action} (hstep : c.Step a c')
    (ha : a.advances id) (hends : c'.EndsAlone id) : c.EndsAlone id := by
  obtain ⟨actions, last, answer, hall, hrun, hanswer⟩ := hends
  refine ⟨a :: actions, last, answer, List.forall_mem_cons.mpr ⟨ha, hall⟩, ?_, hanswer⟩
  rw [run?_cons, h.step?_of_step hstep, Option.bind_some, hrun]

theorem Consistent.endsAlone_of_ending (h : c.Consistent) (hcall : c.calls[id]? = some call)
    {a : Action} {outcome : Outcome} (hend : Ending c id call a outcome) (ha : a.advances id) :
    c.EndsAlone id := by
  have hgiven : outcome ≠ .abandoned := by
    rintro rfl
    cases hend
    contradiction
  have hstep := Step.finish hcall hend
  generalize hc' : (c.settle (fun s => call.hasListed && s == call.sequence) .dropped).modifyCall id
    (fun call => { call with stage := .finished outcome }) = c' at hstep
  have hfinished : c'.calls[id]? =
      some { call.hear (fun s => call.hasListed && s == call.sequence) .dropped with
        stage := .finished outcome } := by
    simp [← hc', hcall]
  obtain ⟨answer, hanswer⟩ := answer?_of_finished hfinished rfl hgiven
  exact h.endsAlone_of_step hstep ha ⟨[], c', answer, by simp, rfl, hanswer⟩

/-- A request that has not been given up comes to an answer by its own steps, whatever state the
connection is in. -/
theorem Consistent.endsAlone (h : c.Consistent) (hcall : c.calls[id]? = some call)
    (hgiven : call.stage ≠ .finished .abandoned) : c.EndsAlone id := by
  have hadmitted {c : Connection} {call : Call} (h : c.Consistent)
      (hcall : c.calls[id]? = some call) (hs : call.stage = .admitted) : c.EndsAlone id :=
    h.endsAlone_of_ending hcall (.expired (.inl hs)) (by simp [Action.advances])
  have hlisted {c : Connection} {call : Call} (h : c.Consistent)
      (hcall : c.calls[id]? = some call) (hs : call.stage = .listed) : c.EndsAlone id := by
    cases hup : c.connected with
    | false => exact h.endsAlone_of_ending hcall (.refused hs hup) (by simp [Action.advances])
    | true =>
      have hstep := Step.check hcall hs hup
      refine h.endsAlone_of_step hstep (by simp [Action.advances]) ?_
      exact hadmitted (h.step hstep) (by simp [hcall]; rfl) rfl
  cases hs : call.stage with
  | numbered =>
    have hstep := Step.list hcall hs
    refine h.endsAlone_of_step hstep (by simp [Action.advances]) ?_
    exact hlisted (h.step hstep) (by simp [hcall, Call.hear_of_numbered hs]; rfl) rfl
  | listed => exact hlisted h hcall hs
  | admitted => exact hadmitted h hcall hs
  | waiting =>
    cases hi : call.inbox with
    | empty =>
      exact h.endsAlone_of_ending hcall (.expired (.inr ⟨hs, hi⟩)) (by simp [Action.advances])
    | reply r => exact h.endsAlone_of_ending hcall (.answered hs hi) (by simp [Action.advances])
    | dropped => exact h.endsAlone_of_ending hcall (.lost hs hi) (by simp [Action.advances])
  | finished outcome =>
    obtain ⟨answer, hanswer⟩ :=
      answer?_of_finished hcall hs fun heq => hgiven (hs.trans (congrArg _ heq))
    exact ⟨[], c, answer, by simp, rfl, hanswer⟩

end Connection

/-- An operation that has its requests carried out on a connection. -/
structure Errand (α : Type) where
  line : Served
  /-- What is left to do. -/
  rest : Operation α
  observed : NodeState
  limit : Duration
  /-- The requests that the operation has made. -/
  made : List Nat := []
  /-- The request that it waits for. -/
  awaited : Option Nat := none

namespace Errand

variable {α : Type}

inductive Turn where
  /-- Something happens on the connection. -/
  | line (t : Served.Turn)
  /-- The operation begins a request. -/
  | ask
  /-- It goes on with the answer. -/
  | resume
  /-- It looks at the state observed last, or notes one. -/
  | heed
  deriving DecidableEq, Repr

def turn? (c : Errand α) : Turn → Option (Errand α)
  | .line t => (c.line.turn? t).map fun line => { c with line }
  | .ask =>
    match c.rest, c.awaited with
    | .ask request _, none =>
      (c.line.turn? (.act (.start request c.limit))).map fun line =>
        let id := c.line.connection.calls.length
        { c with line, made := c.made ++ [id], awaited := some id }
    | _, _ => none
  | .resume =>
    match c.rest, c.awaited with
    | .ask _ next, some id =>
      (c.line.connection.answer? id).map fun answer =>
        { c with rest := next answer, awaited := none }
    | _, _ => none
  | .heed =>
    match c.rest with
    | .look next => some { c with rest := next c.observed }
    | .note state next => some { c with rest := next, observed := state }
    | _ => none

def run? (c : Errand α) : List Turn → Option (Errand α)
  | [] => some c
  | t :: rest => (c.turn? t).bind fun c => c.run? rest

/-- Holds of the turns that an operation takes itself: its own, and the steps of requests that it has
made, but for giving them up. -/
def Turn.isOwn (made : List Nat) : Turn → Bool
  | .line (.act a) => made.any fun id => a.advances id
  | .line _ => false
  | _ => true

theorem run?_append (c : Errand α) (xs ys : List Turn) :
    c.run? (xs ++ ys) = (c.run? xs).bind fun c => c.run? ys := by
  induction xs generalizing c with
  | nil => rfl
  | cons t rest ih =>
    simp only [List.cons_append, run?]
    cases c.turn? t with
    | none => rfl
    | some c => simp [ih]

theorem run?_trans {c c' c'' : Errand α} {xs ys : List Turn} (h : c.run? xs = some c')
    (h' : c'.run? ys = some c'') : c.run? (xs ++ ys) = some c'' := by
  rw [run?_append, h, Option.bind_some, h']

/-- Everything that a turn can make of an errand. -/
inductive Progress (c : Errand α) : Turn → Errand α → Prop where
  | line {t : Served.Turn} {line : Served} (ht : c.line.turn? t = some line) :
      Progress c (.line t) { c with line }
  | ask {request : Request} {next : Answer → Operation α} {line : Served}
      (hrest : c.rest = .ask request next) (hnone : c.awaited = none)
      (ht : c.line.turn? (.act (.start request c.limit)) = some line) :
      Progress c .ask { c with
        line
        made := c.made ++ [c.line.connection.calls.length]
        awaited := some c.line.connection.calls.length }
  | resume {request : Request} {next : Answer → Operation α} {id : Nat} {answer : Answer}
      (hrest : c.rest = .ask request next) (hid : c.awaited = some id)
      (hanswer : c.line.connection.answer? id = some answer) :
      Progress c .resume { c with rest := next answer, awaited := none }
  | look {next : NodeState → Operation α} (hrest : c.rest = .look next) :
      Progress c .heed { c with rest := next c.observed }
  | note {state : NodeState} {next : Operation α} (hrest : c.rest = .note state next) :
      Progress c .heed { c with rest := next, observed := state }

variable {c c' : Errand α} {t : Turn} {first : Daemon}

theorem progress_of_turn? (h : c.turn? t = some c') : c.Progress t c' := by
  cases t with
  | line t =>
    obtain ⟨line, hline, rfl⟩ := Option.map_eq_some_iff.mp h
    exact .line hline
  | ask =>
    simp only [turn?] at h
    split at h
    · rename_i hrest hnone
      obtain ⟨line, hline, rfl⟩ := Option.map_eq_some_iff.mp h
      exact .ask hrest hnone hline
    · contradiction
  | resume =>
    simp only [turn?] at h
    split at h
    · rename_i hrest hid
      obtain ⟨answer, hanswer, rfl⟩ := Option.map_eq_some_iff.mp h
      exact .resume hrest hid hanswer
    · contradiction
  | heed =>
    simp only [turn?] at h
    split at h
    · rename_i hrest
      cases h
      exact .look hrest
    · rename_i hrest
      cases h
      exact .note hrest
    · contradiction

theorem turn?_of_progress (h : c.Progress t c') : c.turn? t = some c' := by
  cases h with
  | line ht => simp [turn?, ht]
  | ask hrest hnone ht => simp [turn?, hrest, hnone, ht]
  | resume hrest hid hanswer => simp [turn?, hrest, hid, hanswer]
  | look hrest | note hrest => simp [turn?, hrest]

/-- What holds of every errand over a connection with a certain daemon behind it. -/
structure Sound (first : Daemon) (c : Errand α) : Prop where
  line : c.line.Sound first
  made : ∀ id ∈ c.made, id < c.line.connection.calls.length
  awaited : ∀ id, c.awaited = some id → id ∈ c.made

theorem Sound.init (first : Daemon) (x : Operation α) (observed : NodeState) (limit : Duration) :
    Sound first { line := { daemon := first }, rest := x, observed, limit } where
  line := .init first
  made := by simp
  awaited := by simp

theorem Sound.progress (h : Sound first c) (hp : c.Progress t c') : Sound first c' := by
  cases hp with
  | line ht =>
    have hle := Served.length_calls_le h.line.coherent ht
    exact ⟨h.line.turn ht, fun id hid => Nat.lt_of_lt_of_le (h.made id hid) hle, h.awaited⟩
  | ask _ _ ht =>
    refine ⟨h.line.turn ht, fun id hid => ?_, fun id hid => ?_⟩
    · rw [(Served.connection_start ht).1, Connection.calls_start, List.length_append,
        List.length_singleton]
      rcases List.mem_append.mp hid with hid | hid
      · exact Nat.lt_succ_of_lt (h.made id hid)
      · rw [List.mem_singleton.mp hid]
        exact Nat.lt_succ_self _
    · cases hid
      exact List.mem_append_right _ List.mem_cons_self
  | resume => exact ⟨h.line, h.made, by simp⟩
  | look | note => exact ⟨h.line, h.made, h.awaited⟩

/-- What holds at first and is kept by each turn holds after a run. -/
theorem Sound.invariant {P : Errand α → Prop}
    (hP : ∀ c t c', Sound first c → P c → c.Progress t c' → P c') {turns : List Turn}
    (h : Sound first c) (hc : P c) (hrun : c.run? turns = some c') : Sound first c' ∧ P c' := by
  induction turns generalizing c with
  | nil =>
    cases hrun
    exact ⟨h, hc⟩
  | cons t rest ih =>
    obtain ⟨next, hnext, hrest⟩ := Option.bind_eq_some_iff.mp hrun
    have hp := progress_of_turn? hnext
    exact ih (h.progress hp) (hP c t next h hc hp) hrest

/-- What happens on the connection alone leaves the operation where it is. -/
theorem run?_lines {turns : List Served.Turn} {line : Served} (h : c.line.run? turns = some line) :
    c.run? (turns.map .line) = some { c with line } := by
  induction turns generalizing c with
  | nil =>
    cases h
    rfl
  | cons t rest ih =>
    obtain ⟨next, hnext, hrest⟩ := Option.bind_eq_some_iff.mp h
    rw [List.map_cons, run?, turn?_of_progress (.line hnext), Option.bind_some]
    exact ih hrest

/-- A request, what happens until it has ended, and going on with its answer. -/
theorem run?_exchange {request : Request} {next : Answer → Operation α} {turns : List Served.Turn}
    {line : Served} {answer : Answer} (hrest : c.rest = .ask request next) (hnone : c.awaited = none)
    (hrun : c.line.run? (.act (.start request c.limit) :: turns) = some line)
    (hanswer : line.connection.answer? c.line.connection.calls.length = some answer) :
    c.run? (.ask :: turns.map .line ++ [.resume]) = some { c with
      line
      rest := next answer
      made := c.made ++ [c.line.connection.calls.length]
      awaited := none } := by
  obtain ⟨begun, hbegun, hturns⟩ := Option.bind_eq_some_iff.mp hrun
  have hask := turn?_of_progress (Progress.ask hrest hnone hbegun)
  generalize hasking : ({ c with
    line := begun
    made := c.made ++ [c.line.connection.calls.length]
    awaited := some c.line.connection.calls.length } : Errand α) = asking at hask
  have hlines : asking.run? (turns.map .line) = some { asking with line } :=
    run?_lines (by rw [← hasking]; exact hturns)
  have hresume := turn?_of_progress (Progress.resume (c := { asking with line })
    (by rw [← hasking]; exact hrest) (by rw [← hasking]) hanswer)
  rw [List.cons_append, run?, hask, Option.bind_some, run?_append, hlines, Option.bind_some, run?,
    hresume]
  subst hasking
  rfl

/-- An operation whose request has not been given up can be ended by turns of its own. -/
theorem Sound.exists_done (h : Sound first c)
    (hgiven : ∀ id call, c.awaited = some id → c.line.connection.calls[id]? = some call →
      call.stage ≠ .finished .abandoned) :
    ∃ turns c' a, c.run? turns = some c' ∧ c'.rest = .done a ∧ c.made ⊆ c'.made ∧
      ∀ t ∈ turns, t.isOwn c'.made := by
  -- by induction on what is left to do; a request that is awaited is ended by its own steps
  obtain ⟨x, hx⟩ : ∃ x, c.rest = x := ⟨_, rfl⟩
  induction x generalizing c with
  | done a => exact ⟨[], c, a, rfl, hx, List.Subset.refl _, by simp⟩
  | look next ih =>
    have hp := Progress.look hx
    obtain ⟨turns, c', a, hrun, hdone, hmade, hown⟩ := ih _ (h.progress hp) hgiven rfl
    refine ⟨.heed :: turns, c', a, ?_, hdone, hmade, List.forall_mem_cons.mpr ⟨rfl, hown⟩⟩
    rw [run?, turn?_of_progress hp, Option.bind_some, hrun]
  | note state next ih =>
    have hp := Progress.note hx
    obtain ⟨turns, c', a, hrun, hdone, hmade, hown⟩ := ih (h.progress hp) hgiven rfl
    refine ⟨.heed :: turns, c', a, ?_, hdone, hmade, List.forall_mem_cons.mpr ⟨rfl, hown⟩⟩
    rw [run?, turn?_of_progress hp, Option.bind_some, hrun]
  | ask request next ih =>
    have hawaited {c : Errand α} (h : Sound first c) (hx : c.rest = .ask request next) {id : Nat}
        (hid : c.awaited = some id)
        (hgiven : ∀ call, c.line.connection.calls[id]? = some call →
          call.stage ≠ .finished .abandoned) :
        ∃ turns c' a, c.run? turns = some c' ∧ c'.rest = .done a ∧ c.made ⊆ c'.made ∧
          ∀ t ∈ turns, t.isOwn c'.made := by
      have hlt := h.made id (h.awaited id hid)
      obtain ⟨actions, connection, answer, hall, hacts, hanswer⟩ :=
        h.line.coherent.consistent.endsAlone (List.getElem?_eq_getElem hlt)
          (hgiven _ (List.getElem?_eq_getElem hlt))
      obtain ⟨line, hline, rfl⟩ := Served.exists_run_acts
        (fun a ha => Connection.Action.not_bringsReply_of_advances (hall a ha)) hacts
      have hlines := run?_lines hline
      have hended := (h.invariant (P := fun _ => True) (fun _ _ _ _ _ _ => trivial) trivial hlines).1
      have hp : Progress { c with line } .resume _ := .resume hx hid hanswer
      obtain ⟨turns, c', a, hrun, hdone, hmade, hown⟩ :=
        ih answer (hended.progress hp) (by simp) rfl
      refine ⟨(actions.map .act).map .line ++ .resume :: turns, c', a, ?_, hdone, hmade, ?_⟩
      · rw [run?_append, hlines, Option.bind_some, run?, turn?_of_progress hp, Option.bind_some,
          hrun]
      · intro t ht
        rcases List.mem_append.mp ht with ht | ht
        · obtain ⟨_, hturn, rfl⟩ := List.mem_map.mp ht
          obtain ⟨action, haction, rfl⟩ := List.mem_map.mp hturn
          exact List.any_eq_true.mpr ⟨id, hmade (h.awaited id hid), hall action haction⟩
        · rcases List.mem_cons.mp ht with rfl | ht
          · rfl
          · exact hown t ht
    cases hid : c.awaited with
    | some id => exact hawaited h hx hid fun call => hgiven id call hid
    | none =>
      obtain ⟨line, hline⟩ : ∃ line, c.line.turn? (.act (.start request c.limit)) = some line :=
        ⟨_, rfl⟩
      have hp := Progress.ask hx hid hline
      have hstart := (Served.connection_start hline).1
      have hbegun : ∀ call, line.connection.calls[c.line.connection.calls.length]? = some call →
          call.stage ≠ .finished .abandoned := by
        intro call hcall
        rw [hstart, Connection.calls_start, List.getElem?_concat_length] at hcall
        obtain rfl := Option.some.inj hcall
        unfold Call.begin
        cases request.sendFault? <;> simp
      obtain ⟨turns, c', a, hrun, hdone, hmade, hown⟩ := hawaited (h.progress hp) hx rfl hbegun
      refine ⟨.ask :: turns, c', a, ?_, hdone, fun id hid => hmade (List.mem_append_left _ hid),
        List.forall_mem_cons.mpr ⟨rfl, hown⟩⟩
      rw [run?, turn?_of_progress hp, Option.bind_some, hrun]

end Errand

end Canopen
