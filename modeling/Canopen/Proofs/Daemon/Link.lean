import Canopen.Bench.Basic
import Canopen.Proofs.Daemon.Store
import Canopen.Proofs.Operation.Interleaving
import Canopen.Proofs.Operation.Outcome
/-!
# The link to the daemon itself

What a client gets of a request that is handed to the daemon, and what becomes of the daemon, with
everything around it left out: the clock, the latency and the log of a bench. A bench without prepared
answers does what this link does (`Bench.Shows.run`).
-/
namespace Canopen

namespace Daemon

/-- The link to the daemon over a line that may be cut. A silent node is waited for in vain. -/
def link (connected : Bool) : Link Daemon := fun limit r d =>
  if connected then
    match d.handle r with
    | (some reply, d, _) => (.ok reply, d)
    | (none, d, _) => (Bench.silence limit, d)
  else (.error .closed, d)

variable {connected : Bool} {limit : Duration} {d : Daemon} {node : UInt8} {a : Address}
  {data : List UInt8} {r : Request}

theorem link_snd (connected : Bool) (limit : Duration) (r : Request) (d : Daemon) :
    (link connected limit r d).2 = if connected then (d.handle r).2.1 else d := by
  unfold link
  split
  · split <;> rename_i heq <;> rw [heq]
  · rfl

theorem link_fst_congr {d' : Daemon} (h : (d.handle r).1 = (d'.handle r).1) :
    (link connected limit r d).1 = (link connected limit r d').1 := by
  simp only [link]
  split
  · revert h
    rcases d.handle r with ⟨_ | reply, after, events⟩ <;>
      rcases d'.handle r with ⟨_ | reply', after', events'⟩ <;>
      intro h <;> cases h <;> rfl
  · rfl

theorem link_eq_ok_iff {reply : Reply} : (link connected limit r d).1 = .ok reply ↔
    connected = true ∧ (d.handle r).1 = some reply := by
  unfold link
  split
  · rename_i hconnected
    split
    · rename_i heq
      simp [hconnected, heq]
    · rename_i heq
      simp [hconnected, heq, Bench.silence]
  · rename_i hconnected
    simp [hconnected]

/-- Nothing is changed by reading. -/
@[simp] theorem link_readEntry_snd (connected : Bool) (limit : Duration) (node : UInt8) (a : Address)
    (d : Daemon) : (link connected limit (.readEntry node a) d).2 = d := by
  have h := d.handling (.readEntry node a)
  rw [link_snd]
  generalize d.handle (.readEntry node a) = out at h ⊢
  cases h <;> exact ite_self _

/-- A write that is not acknowledged changes nothing. -/
theorem link_writeEntry_snd_of_ne
    (h : (link connected limit (.writeEntry node a data) d).1 ≠ .ok .ack) :
    (link connected limit (.writeEntry node a data) d).2 = d := by
  rw [ne_eq, link_eq_ok_iff] at h
  rw [link_snd]
  have hout := d.handling (.writeEntry node a data)
  generalize d.handle (.writeEntry node a data) = out at h hout ⊢
  cases hout with
  | written =>
    have hcut : ¬connected = true := fun hconnected => h ⟨hconnected, rfl⟩
    exact if_neg hcut
  | _ => exact ite_self _

/-- The bytes that are replied are those of the entry, or spoiled ones. -/
theorem access_of_link_readEntry
    (h : (link connected limit (.readEntry node a) d).1 = .ok (.entry data)) :
    (d.failing.get? node = none ∧ ∃ e, d.access node a = .ok e ∧ e.data = data) ∨
      d.failing.get? node = some .malformed ∧ (d.bytes? node a).getD [] ++ [0xFF] = data := by
  obtain ⟨-, hreply⟩ := link_eq_ok_iff.mp h
  rw [handle_readEntry] at hreply
  cases hfail : d.failing.get? node with
  | none =>
    have hnone : d.failure? (.readEntry node a) = none := by
      simp [failure?, Request.node?, hfail]
    rw [hnone] at hreply
    cases he : d.access node a with
    | error why => simp [he] at hreply
    | ok e => exact .inl ⟨rfl, e, rfl, by simpa [he] using hreply⟩
  | some failing =>
    cases failing with
    | malformed => exact .inr ⟨rfl, by simpa [failure?, Request.node?, hfail] using hreply⟩
    | silent => simp [failure?, Request.node?, hfail] at hreply
    | abort code => simp [failure?, Request.node?, hfail] at hreply

/-- An acknowledged write has set the bytes of an entry that can be used. -/
theorem access_of_link_writeEntry
    (h : (link connected limit (.writeEntry node a data) d).1 = .ok .ack) :
    connected = true ∧ (∃ e, d.access node a = .ok e) ∧
      (link connected limit (.writeEntry node a data) d).2 = d.put node a data := by
  obtain ⟨hconnected, hreply⟩ := link_eq_ok_iff.mp h
  rw [link_snd, if_pos hconnected]
  have hout := d.handling (.writeEntry node a data)
  generalize d.handle (.writeEntry node a data) = out at hreply hout ⊢
  cases hout with
  | written hn he hlen => exact ⟨hconnected, ⟨_, by rw [access, hn]; exact he⟩, rfl⟩
  | _ => cases hreply

theorem link_readEntry {e : Stored} (hconnected : connected = true) (hfail : d.failing.get? node = none)
    (he : d.access node a = .ok e) :
    (link connected limit (.readEntry node a) d).1 = .ok (.entry e.data) := by
  have hnone : d.failure? (.readEntry node a) = none := by
    simp [failure?, Request.node?, hfail]
  refine link_eq_ok_iff.mpr ⟨hconnected, ?_⟩
  rw [handle_readEntry, hnone, he]

/-- Requests for different entries make no difference to one another. -/
theorem link_commute {r' : Request} {t t' : UInt8 × Address} (hr : r.target? = some t)
    (hr' : r'.target? = some t') (h : t ≠ t') : (link connected).Commute r r' := by
  cases connected with
  | false => exact ⟨fun _ _ _ => rfl, fun _ _ _ => rfl, fun _ _ _ => rfl⟩
  | true =>
    refine ⟨fun limit limit' d => ?_, fun limit limit' d => ?_, fun limit limit' d => ?_⟩
    · exact link_fst_congr (by rw [link_snd, if_pos rfl, handle_handle_fst hr' hr h.symm])
    · exact link_fst_congr (by rw [link_snd, if_pos rfl, handle_handle_fst hr hr' h])
    · simp only [link_snd, if_pos, handle_handle_comm hr hr' h]

end Daemon

namespace Bench

variable {connected : Bool} {earlier : List Request} {b : Bench} {d : Daemon}
  {s : Daemon × List Request}

/-- Holds of a bench without prepared answers and its daemon. -/
structure Serves (connected : Bool) (b : Bench) (d : Daemon) : Prop where
  prepared : b.prepared = []
  line : b.connected = connected
  daemon : b.daemon = d

/-- The bench answers what the link to its daemon does. -/
theorem Serves.exchange (h : b.Serves connected d) (limit : Duration) (r : Request) :
    (Bench.exchange limit r b).1 = (Daemon.link connected limit r d).1 ∧
      (Bench.exchange limit r b).2.Serves connected (Daemon.link connected limit r d).2 := by
  obtain ⟨hprepared, rfl, rfl⟩ := h
  have hunprepared : (b.log r).prepared = [] := hprepared
  unfold Bench.exchange
  simp only [hunprepared, Daemon.link]
  cases hline : b.connected with
  | false =>
    have hcut : (b.log r).connected = false := hline
    simp only [hcut, Bool.not_false, if_true, Bool.false_eq_true, if_false]
    exact ⟨trivial, ⟨hprepared, hline, rfl⟩⟩
  | true =>
    have hopen : (b.log r).connected = true := hline
    have hhandled : ((b.log r).wait (b.log r).latency).daemon.handle r = b.daemon.handle r := rfl
    simp only [hopen, Bool.not_true, Bool.false_eq_true, if_false, if_true, serve, hhandled]
    rcases b.daemon.handle r with ⟨_ | reply, d, events⟩
    · exact ⟨rfl, ⟨hprepared, hline, rfl⟩⟩
    · exact ⟨rfl, ⟨hprepared, hline, rfl⟩⟩

/-- The bench keeps the requests handed to it. -/
theorem sent_exchange (limit : Duration) (r : Request) (b : Bench) :
    (Bench.exchange limit r b).2.sent = b.sent ++ [r] := by
  unfold Bench.exchange
  dsimp only
  split
  · rfl
  · split
    · rfl
    · split
      all_goals
        rename_i heq
        exact (congrArg (fun out => out.2.sent) heq).symm

/-- Holds of a bench, its daemon, and the requests handed to it behind earlier ones. -/
structure Shows (connected : Bool) (earlier : List Request) (b : Bench)
    (s : Daemon × List Request) : Prop extends b.Serves connected s.1 where
  sent : b.sent = earlier ++ s.2

theorem shows_self (h : b.prepared = []) : b.Shows b.connected b.sent (b.daemon, []) :=
  ⟨⟨h, rfl, rfl⟩, (List.append_nil _).symm⟩

theorem Shows.exchange (h : b.Shows connected earlier s) (limit : Duration) (r : Request) :
    (Bench.exchange limit r b).1 = (Link.recorded (Daemon.link connected) limit r s).1 ∧
      (Bench.exchange limit r b).2.Shows connected earlier
        (Link.recorded (Daemon.link connected) limit r s).2 := by
  obtain ⟨hanswer, hserves⟩ := h.toServes.exchange limit r
  refine ⟨hanswer, hserves, ?_⟩
  rw [sent_exchange, h.sent, List.append_assoc]
  rfl

/-- An operation on the bench comes to what it comes to over the link to the daemon. -/
theorem Serves.run {α : Type} (h : b.Serves connected d) (x : Operation α) (limit : Duration)
    (observed : NodeState) :
    let (a, state, b') := x.run Bench.exchange limit observed b
    let (a', state', d') := x.run (Daemon.link connected) limit observed d
    a = a' ∧ state = state' ∧ b'.Serves connected d' := by
  have hstep (limit : Duration) (r : Request) (b : Bench) (d : Daemon)
      (h : b.Serves connected d) := h.exchange limit r
  exact Operation.run_simulation hstep x limit observed h

theorem Shows.run {α : Type} (h : b.Shows connected earlier s) (x : Operation α) (limit : Duration)
    (observed : NodeState) :
    (x.run Bench.exchange limit observed b).1 =
        (x.run (Link.recorded (Daemon.link connected)) limit observed s).1 ∧
      (x.run Bench.exchange limit observed b).2.2.Shows connected earlier
        (x.run (Link.recorded (Daemon.link connected)) limit observed s).2.2 := by
  have hstep (limit : Duration) (r : Request) (b : Bench) (s : Daemon × List Request)
      (h : b.Shows connected earlier s) := h.exchange limit r
  have hrun := Operation.run_simulation hstep x limit observed h
  exact ⟨hrun.1, hrun.2.2⟩

end Bench

end Canopen
