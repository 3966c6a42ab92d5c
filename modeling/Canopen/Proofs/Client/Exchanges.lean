import Canopen.Proofs.Client.Interference
import Canopen.Proofs.Client.Locality
import Canopen.Proofs.Operation.Replay
/-!
# What deeds ask and what they learn

Whatever a client does for a node, it only asks for that node. It learns the state of the node by asking
for it and in no other way, and it sends a command only where the state observed last allows it
(`Deed.Replayed`).
-/
namespace Canopen.Client

variable {α β : Type} {node : UInt8}

/-- Holds of operations that only ask for a node, do not command it and note no state of it. -/
def Plain (node : UInt8) : Operation α → Prop
  | .done _ => True
  | .ask r next => (r.node? = some node ∧ ∀ code, r ≠ .command node code) ∧
      ∀ answer, Plain node (next answer)
  | .look next => ∀ state, Plain node (next state)
  | .note _ _ => False

theorem Plain.asks {x : Operation α} (h : Plain node x) : x.Asks fun r => r.node? = some node := by
  induction x with
  | done a => trivial
  | ask r next ih => exact ⟨h.1.1, fun answer => ih answer (h.2 answer)⟩
  | look next ih => exact fun state => ih state (h state)
  | note state next ih => exact h.elim

/-- A plain operation leaves the state observed last as it is, and sends no command. -/
theorem Plain.of_replay {x : Operation α} (h : Plain node x) {observed observed' : NodeState}
    {t : List Exchange} {a : α} (ht : x.replay observed t = some (a, observed')) :
    observed' = observed ∧ ∀ e ∈ t, ∀ code, e.1 ≠ .command node code := by
  induction x generalizing t with
  | done a =>
    cases t with
    | nil => exact ⟨(congrArg Prod.snd (Option.some.inj ht)).symm, by simp⟩
    | cons e t => contradiction
  | ask r next ih =>
    cases t with
    | nil => contradiction
    | cons e t =>
      rw [Operation.replay] at ht
      split at ht
      · rename_i heq
        obtain ⟨hobserved, hrest⟩ := ih e.2 (h.2 _) ht
        exact ⟨hobserved, List.forall_mem_cons.mpr ⟨fun code => heq ▸ h.1.2 code, hrest⟩⟩
      · contradiction
  | look next ih => exact ih observed (h observed) ht
  | note state next ih => exact h.elim

theorem Plain.bind {x : Operation α} {f : α → Operation β} (hx : Plain node x)
    (hf : ∀ a, Plain node (f a)) : Plain node (x.bind f) := by
  induction x with
  | done a => exact hf a
  | ask r next ih => exact ⟨hx.1, fun answer => ih answer (hx.2 answer)⟩
  | look next ih => exact fun state => ih state (hx state)
  | note state next ih => exact hx.elim

/-- Requests for the node that are no commands make up plain attempts. -/
theorem composable_plain (node : UInt8) :
    Composable (fun r => r.node? = some node ∧ ∀ code, r ≠ .command node code)
      fun _ => Plain node where
  done _ := trivial
  exchange hr hf := by
    refine ⟨hr, fun answer => ?_⟩
    cases answer with
    | error e => trivial
    | ok q =>
      cases q with
      | refusal why => trivial
      | _ => exact hf _
  andThen hx hf := by
    refine hx.bind fun r => ?_
    cases r with
    | ok a => exact hf a
    | error e => trivial

section Replay

variable {observed observed' : NodeState} {t : List Exchange}

/-- A request is followed by what the reply leads to, or by nothing where it ends the operation. -/
theorem exists_of_replay_exchange {r : Request} {f : Reply → Attempt α} {out : Except ClientError α}
    (h : (exchange r f).replay observed t = some (out, observed')) :
    ∃ answer t', t = (r, answer) :: t' ∧
      ((∃ q, answer = .ok q ∧ (f q).replay observed t' = some (out, observed')) ∨
        (∀ code, answer ≠ .ok (.state code)) ∧ (∃ e, out = .error e) ∧ observed' = observed ∧
          t' = []) := by
  rcases t with _ | ⟨⟨r', answer⟩, t'⟩
  · contradiction
  · rw [exchange, Operation.replay] at h
    split at h
    · rename_i heq
      obtain rfl : r' = r := heq
      refine ⟨answer, t', rfl, ?_⟩
      cases answer with
      | error e =>
        cases t' <;> cases h
        exact .inr ⟨by simp, ⟨_, rfl⟩, rfl, rfl⟩
      | ok q =>
        cases q with
        | refusal why =>
          cases t' <;> cases h
          exact .inr ⟨by simp, ⟨_, rfl⟩, rfl, rfl⟩
        | _ => exact .inl ⟨_, rfl, h⟩
    · contradiction

theorem of_replay_acknowledge {r : Request} {out : Except ClientError Unit}
    (h : (acknowledge r).replay observed t = some (out, observed')) :
    observed' = observed ∧ ∃ answer, t = [(r, answer)] := by
  unfold acknowledge at h
  obtain ⟨answer, t', rfl, ⟨q, rfl, hq⟩ | ⟨-, -, hobserved, rfl⟩⟩ := exists_of_replay_exchange h
  · cases q <;> cases t' <;> cases hq <;> exact ⟨rfl, _, rfl⟩
  · exact ⟨hobserved, answer, rfl⟩

/-- The state of a node is known where the reply tells a known code, and nowhere else. -/
theorem of_replay_state {out : Except ClientError NodeState}
    (h : (state node).replay observed t = some (out, observed')) :
    ∃ answer, t = [(.queryState node, answer)] ∧
      ((∃ s code, answer = .ok (.state code) ∧ NodeState.ofCode? code = some s ∧ out = .ok s ∧
          observed' = s) ∨
        (∀ code, answer = .ok (.state code) → NodeState.ofCode? code = none) ∧
          (∃ e, out = .error e) ∧ observed' = observed) := by
  unfold state at h
  obtain ⟨answer, t', rfl, ⟨q, rfl, hq⟩ | ⟨hanswer, hout, hobserved, rfl⟩⟩ :=
    exists_of_replay_exchange h
  · cases q with
    | state code =>
      dsimp only at hq
      split at hq
      · rename_i s hs
        cases t' <;> cases hq
        exact ⟨_, rfl, .inl ⟨_, code, rfl, hs, rfl, rfl⟩⟩
      · rename_i hnone
        cases t' <;> cases hq
        refine ⟨_, rfl, .inr ⟨fun other heq => ?_, ⟨_, rfl⟩, rfl⟩⟩
        cases heq
        exact hnone
    | _ =>
      cases t' <;> cases hq
      exact ⟨_, rfl, .inr ⟨fun _ => nofun, ⟨_, rfl⟩, rfl⟩⟩
  · exact ⟨answer, rfl, .inr ⟨fun code heq => absurd heq (hanswer code), hout, hobserved⟩⟩

theorem of_replay_command {c : NodeCommand} {out : Except ClientError Unit}
    (h : (command node c).replay observed t = some (out, observed')) :
    observed' = observed ∧ ∀ e ∈ t, observed.allows c ∧ e.1 = .command node c.code := by
  unfold command NodeCommand.check at h
  simp only [Operation.replay] at h
  by_cases hallows : observed.allows c
  · simp only [if_pos hallows] at h
    obtain ⟨hobserved, answer, rfl⟩ := of_replay_acknowledge h
    exact ⟨hobserved, List.forall_mem_singleton.mpr ⟨hallows, rfl⟩⟩
  · simp only [if_neg hallows] at h
    cases t <;> cases h
    exact ⟨rfl, by simp⟩

end Replay

/-- What tells the state to a client that waits is a heartbeat of the node with a known code. -/
theorem heard_eq_ok_iff {x : Signal} {s : NodeState} : heard node x = some (.ok s) ↔
    ∃ code, x = .event (.heartbeat node code) ∧ NodeState.ofCode? code = some s := by
  constructor
  · intro h
    unfold heard at h
    split at h
    · split at h
      · rename_i hsender
        obtain ⟨s', hs, hok⟩ := Option.map_eq_some_iff.mp h
        cases hok
        exact ⟨_, by rw [hsender], hs⟩
      · contradiction
    all_goals cases h
  · rintro ⟨code, rfl, hs⟩
    simp [heard, hs]

/-- Nothing is heard in heartbeats of other nodes and in such with unknown codes. -/
theorem heard_eq_none_iff {x : Signal} : heard node x = none ↔ x ≠ .ended ∧
    ∀ code, x = .event (.heartbeat node code) → NodeState.ofCode? code = none := by
  cases x with
  | event e =>
    cases e with
    | heartbeat sender code =>
      by_cases hsender : sender = node <;> simp [heard, hsender]
    | _ => simp [heard]
  | _ => simp [heard]

/-- The state that is waited for is told by the first heartbeat of the node that has a known code, where
the subscription has not ended before. -/
theorem awaitHeartbeat_eq_ok_iff {limit : Duration} {signals : List Signal} {s : NodeState} :
    awaitHeartbeat node limit signals = .ok s ↔
      ∃ before code after, signals = before ++ .event (.heartbeat node code) :: after ∧
        NodeState.ofCode? code = some s ∧ ∀ x ∈ before, x ≠ .ended ∧
          ∀ other, x = .event (.heartbeat node other) → NodeState.ofCode? other = none := by
  have hfound : awaitHeartbeat node limit signals = .ok s ↔
      signals.findSome? (heard node) = some (.ok s) := by
    unfold awaitHeartbeat
    cases signals.findSome? (heard node) <;> simp
  rw [hfound, List.findSome?_eq_some_iff]
  constructor
  · rintro ⟨before, x, after, rfl, hx, hbefore⟩
    obtain ⟨code, rfl, hs⟩ := heard_eq_ok_iff.mp hx
    exact ⟨before, code, after, rfl, hs, fun y hy => heard_eq_none_iff.mp (hbefore y hy)⟩
  · rintro ⟨before, code, after, rfl, hs, hbefore⟩
    exact ⟨before, _, after, rfl, heard_eq_ok_iff.mpr ⟨code, rfl, hs⟩,
      fun y hy => heard_eq_none_iff.mpr (hbefore y hy)⟩

namespace Deed

/-- The command that a deed consists in. -/
def command? : Deed α → Option NodeCommand
  | .command c => some c
  | _ => none

/-- Holds of the deed that asks for the state. -/
def isQuery : Deed α → Bool
  | .state => true
  | _ => false

/-- The state of the node that the outcome of a deed tells. -/
def sighted? : Deed α → Except ClientError α → Option NodeState
  | .state, .ok s => some s
  | _, _ => none

theorem command?_eq_none_of_isQuery {d : Deed α} (h : d.isQuery) : d.command? = none := by
  cases d <;> first | rfl | contradiction

/-- A deed asks for the state, is a command or is plain. -/
theorem cases_plain {motive : ∀ {α : Type}, Deed α → Prop} (state : motive .state)
    (command : ∀ c, motive (.command c))
    (plain : ∀ {α : Type} (d : Deed α), (∀ node, Plain node (d.attempt node)) →
      d.isQuery = false → (∀ r, d.sighted? r = none) → motive d) (d : Deed α) : motive d := by
  have hP := composable_plain
  have he (node : UInt8) (e : Entry) :
      ReachedBy (fun r => r.node? = some node ∧ ∀ code, r ≠ .command node code) node e :=
    ⟨⟨rfl, by simp⟩, fun _ => ⟨rfl, by simp⟩⟩
  cases d with
  | readRaw e => exact plain _ (fun node => (hP node).readRaw (he node e)) rfl fun _ => rfl
  | read e => exact plain _ (fun node => (hP node).read (he node e)) rfl fun _ => rfl
  | readField e field =>
    exact plain _ (fun node => (hP node).readField (he node e) field) rfl fun _ => rfl
  | writeRaw e data =>
    exact plain _ (fun node => (hP node).writeRaw (he node e) data) rfl fun _ => rfl
  | write e v => exact plain _ (fun node => (hP node).write (he node e) v) rfl fun _ => rfl
  | writeField e field input =>
    exact plain _ (fun node => (hP node).writeField (he node e) field input) rfl fun _ => rfl
  | state => exact state
  | command c => exact command c
  | sendEmergency code info =>
    exact plain _ (fun node => (hP node).acknowledge ⟨rfl, by simp⟩) rfl fun _ => rfl
  | sendPdo number =>
    exact plain _ (fun node => (hP node).acknowledge ⟨rfl, by simp⟩) rfl fun _ => rfl
  | receiveFile name => exact plain _ (fun node => (hP node).receiveFile (he node) name) rfl fun _ => rfl
  | sendFile name data =>
    exact plain _ (fun node => (hP node).sendFile (he node) name data) rfl fun _ => rfl

theorem asks (node : UInt8) (d : Deed α) : (d.attempt node).Asks fun r => r.node? = some node :=
  (closed_asks _).attempt (fun _ hr => hr) d

/-- What is said of a deed for a node by its exchanges, its outcome and the state observed before and
after it. -/
structure Replayed (node : UInt8) (d : Deed α) (observed : NodeState) (t : List Exchange)
    (out : Except ClientError α) (observed' : NodeState) : Prop where
  observed_eq : observed' = (d.sighted? out).getD observed
  /-- A state is learnt where the daemon replies to a query with a known code, and nowhere else. -/
  sighted_iff : ∀ s, d.sighted? out = some s ↔ d.isQuery ∧ ∃ code,
    t = [(.queryState node, .ok (.state code))] ∧ NodeState.ofCode? code = some s
  /-- A command is only sent by the deed that consists in it, and where the guard lets it pass. -/
  guarded : ∀ e ∈ t, ∀ code, e.1 = .command node code →
    ∃ c, d.command? = some c ∧ c.code = code ∧ observed.allows c

theorem replayed {observed observed' : NodeState} {t : List Exchange} {out : Except ClientError α}
    {d : Deed α} (h : (d.attempt node).replay observed t = some (out, observed')) :
    Replayed node d observed t out observed' := by
  induction d using cases_plain with
  | state =>
    obtain ⟨answer, rfl, ⟨s, code, rfl, hs, rfl, rfl⟩ | ⟨hanswer, ⟨e, rfl⟩, rfl⟩⟩ := of_replay_state h
    · refine ⟨rfl, fun s' => ?_, by simp⟩
      simp [sighted?, isQuery, hs]
    · refine ⟨rfl, fun s => ⟨nofun, ?_⟩, by simp⟩
      rintro ⟨-, code, ht, hs⟩
      have hnone := hanswer code (congrArg Prod.snd (List.singleton_inj.mp ht))
      rw [hs] at hnone
      contradiction
  | command c =>
    obtain ⟨rfl, hsent⟩ := of_replay_command h
    refine ⟨rfl, by simp [sighted?, isQuery], fun e he code heq => ?_⟩
    obtain ⟨hallows, hcode⟩ := hsent e he
    rw [hcode] at heq
    cases heq
    exact ⟨c, rfl, rfl, hallows⟩
  | plain d hd hquery hnone =>
    obtain ⟨rfl, hcommand⟩ := (hd node).of_replay h
    refine ⟨by rw [hnone, Option.getD_none], by simp [hnone, hquery], fun e he code heq => ?_⟩
    exact absurd heq (hcommand e he code)

end Deed

end Canopen.Client
