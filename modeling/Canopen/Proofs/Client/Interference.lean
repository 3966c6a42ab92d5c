import Canopen.Proofs.Client.Attempts
import Canopen.Proofs.Daemon.Link
import Canopen.Proofs.Network.Registry
/-!
# Deeds with different entries do not interfere

Whatever a client does with an entry of a node, it only asks for this entry. Deeds with different
entries therefore come to the same whatever the order of their requests at the daemon, and so does what
is done at once with an entry of all registered nodes (`interleaving_irrelevant`).
-/
namespace Canopen

namespace Client

variable {α β : Type}

/-- What attempts ask for is what their parts ask for. -/
theorem closed_asks (asked : Request → Prop) : Closed asked fun _ x => x.Asks asked where
  done _ := trivial
  exchange hr hf := by
    refine ⟨hr, fun answer => ?_⟩
    cases answer with
    | error e => trivial
    | ok q =>
      cases q with
      | refusal why => trivial
      | _ => exact hf _
  andThen hx hf := by
    refine Operation.Asks.bind hx fun r => ?_
    cases r with
    | ok a => exact hf a
    | error e => trivial
  look hf := hf
  note _ _ hx := hx

variable (node : UInt8) (e : Entry)

/-- Holds of operations that only ask for an entry of a node. -/
def About (x : Operation α) : Prop := x.Asks fun r => r.target? = some (node, e.address)

/-- Operations that only ask for different entries do not see one another. -/
theorem apart_of_about {node' : UInt8} {e' : Entry} {x : Operation α} {y : Operation β}
    (hx : About node e x) (hy : About node' e' y)
    (h : (node, e.address) ≠ (node', e'.address)) (connected : Bool) :
    x.Apart (Daemon.link connected) y :=
  ⟨_, _, hx, hy, fun _ _ hr hr' => Daemon.link_commute hr hr' h⟩

/-- What a client does with an entry. -/
inductive EntryDeed where
  | readRaw
  | read
  | readField (field : String)
  | writeRaw (data : List UInt8)
  | write (v : Value)
  | writeField (field : String) (input : FieldInput)
  deriving DecidableEq, Repr

namespace EntryDeed

def Result : EntryDeed → Type
  | readRaw => List UInt8
  | read => Value
  | readField _ => FieldValue
  | writeRaw _ | write _ | writeField _ _ => Unit

def attempt (node : UInt8) (e : Entry) : (d : EntryDeed) → Attempt d.Result
  | readRaw => Client.readRaw node e
  | read => Client.read node e
  | readField field => Client.readField node e field
  | writeRaw data => Client.writeRaw node e data
  | write v => Client.write node e v
  | writeField field input => Client.writeField node e field input

theorem about (d : EntryDeed) : About node e (d.attempt node e) := by
  have hP := (closed_asks fun r => r.target? = some (node, e.address)).toComposable
  have he : ReachedBy (fun r => r.target? = some (node, e.address)) node e := ⟨rfl, fun _ => rfl⟩
  cases d with
  | readRaw => exact hP.readRaw he
  | read => exact hP.read he
  | readField field => exact hP.readField he field
  | writeRaw data => exact hP.writeRaw he data
  | write v => exact hP.write he v
  | writeField field input => exact hP.writeField he field input

end EntryDeed

/-- A deed to be done with an entry of a node, by a client with its time limit and the state it has
observed last. -/
structure Job where
  node : UInt8
  entry : Entry
  deed : EntryDeed
  limit : Duration
  observed : NodeState := .initializing

namespace Job

def target (j : Job) : UInt8 × Address := (j.node, j.entry.address)

/-- The job to be carried out; what comes of it is told with the deed. -/
def underway (j : Job) : Underway (Σ d : EntryDeed, Except ClientError d.Result) :=
  (j.limit, j.observed, (j.deed.attempt j.node j.entry).map fun r => ⟨j.deed, r⟩)

def alone (connected : Bool) (d : Daemon) (j : Job) :
    (Σ deed : EntryDeed, Except ClientError deed.Result) × NodeState :=
  Underway.alone (Daemon.link connected) d j.underway

theorem apart_underway {j k : Job} (h : j.target ≠ k.target) (connected : Bool) :
    Underway.Apart (Daemon.link connected) j.underway k.underway := by
  have hj := (j.deed.about j.node j.entry).map fun r =>
    (⟨j.deed, r⟩ : Σ d : EntryDeed, Except ClientError d.Result)
  have hk := (k.deed.about k.node k.entry).map fun r =>
    (⟨k.deed, r⟩ : Σ d : EntryDeed, Except ClientError d.Result)
  exact apart_of_about j.node j.entry hj hk h connected

theorem pairwise_underway {jobs : List Job} (h : jobs.Pairwise fun j k => j.target ≠ k.target)
    (connected : Bool) : (jobs.map underway).Pairwise (Underway.Apart (Daemon.link connected)) :=
  List.pairwise_map.mpr (h.imp fun hjk => apart_underway hjk connected)

end Job

end Client

namespace Session

open Client

/-- The jobs of doing something with an entry of every registered node. -/
def jobs (s : Session) (e : Entry) (d : EntryDeed) : List Job :=
  s.network.handles.toList.map fun p => ⟨p.2.node, e, d, p.2.limit, s.observed p.2⟩

theorem pairwise_jobs (s : Session) (h : s.network.Made) (e : Entry) (d : EntryDeed) :
    (s.jobs e d).Pairwise fun j k => j.target ≠ k.target := by
  have hnodes : (s.network.handles.toList.map fun p => p.2.node).Nodup := by
    rw [h.nodes_eq]
    exact SortedMap.nodup_keys s.network.handles
  refine List.pairwise_map.mpr ((List.pairwise_map.mp hnodes).imp fun hne heq => ?_)
  exact hne (congrArg Prod.fst heq)

theorem pairwise_underways (s : Session) (h : s.network.Made) (e : Entry) (d : EntryDeed)
    (connected : Bool) :
    (s.underways fun node => d.attempt node e).Pairwise
      (Underway.Apart (Daemon.link connected)) := by
  have htargets := List.pairwise_map.mp (s.pairwise_jobs h e d)
  refine List.pairwise_map.mpr (htargets.imp fun {p q} hpq => ?_)
  exact apart_of_about p.2.node e (d.about p.2.node e) (d.about q.2.node e) hpq connected

/-- The jobs leave behind the daemon that the operations do. -/
theorem foldl_after_jobs (s : Session) (e : Entry) (deed : EntryDeed) (connected : Bool) (d : Daemon) :
    ((s.jobs e deed).map Job.underway).foldl (Underway.after (Daemon.link connected)) d =
      (s.underways fun node => deed.attempt node e).foldl
        (Underway.after (Daemon.link connected)) d := by
  simp only [jobs, underways, List.map_map, List.foldl_map]
  refine congrArg (List.foldl · d _) (funext fun d => funext fun p => ?_)
  simp only [Underway.after, Function.comp_apply, Job.underway, Operation.run_map]

end Session

namespace Client

/-- Holds of jobs that come to what each of them comes to alone, and leave behind one and the same
daemon, whatever is handled in between of the requests of one of them. -/
structure Independent (connected : Bool) (d : Daemon) (jobs : List Job) (after : Daemon) : Prop where
  byTurns : ∀ turns,
    Channel.interleave (Daemon.link connected) turns (jobs.map Job.underway) d =
      (jobs.map (Job.alone connected d), after)
  inAnyOrder : ∀ order : List Job, order.Perm jobs →
    Channel.runInTurn (Daemon.link connected) (order.map Job.underway) d =
      (order.map (Job.alone connected d), after)

theorem independent_of_pairwise {jobs : List Job}
    (h : jobs.Pairwise fun j k => j.target ≠ k.target) (connected : Bool) (d : Daemon) :
    Independent connected d jobs
      ((jobs.map Job.underway).foldl (Underway.after (Daemon.link connected)) d) := by
  have hapart := Job.pairwise_underway h connected
  constructor
  case byTurns =>
    intro turns
    rw [Channel.interleave_eq hapart, Channel.runInTurn_eq hapart, List.map_map]
    rfl
  case inAnyOrder =>
    intro order horder
    have hperm := horder.map Job.underway
    have horder' := hapart.perm hperm.symm Underway.Apart.symm
    rw [Channel.runInTurn_eq horder', Channel.foldl_after_of_perm hapart hperm, List.map_map]
    rfl

/-- Jobs about different entries are independent: it makes no difference in which turns their requests
are handled, nor in which order they are done one after another. In particular the jobs of a deed with
an entry of every registered node are, and the deed with all nodes comes to what they come to, by
whatever turns. -/
theorem interleaving_irrelevant (connected : Bool) (d : Daemon) :
    (∀ jobs : List Job, (jobs.Pairwise fun j k => j.target ≠ k.target) →
      ∃ after, Independent connected d jobs after) ∧
    ∀ s : Session, s.network.Made → ∀ (e : Entry) (deed : EntryDeed),
      ∃ after, Independent connected d (s.jobs e deed) after ∧
        ∀ turns,
          let all := s.performAll (Channel.byTurns (Daemon.link connected) turns)
            (fun node => deed.attempt node e) d
          all.2.2 = after ∧ all.1 = s.network.handles.toList.map fun p =>
            (p.2.node, ((deed.attempt p.2.node e).run (Daemon.link connected) p.2.limit
              (s.observed p.2) d).1) := by
  constructor
  · intro jobs hjobs
    exact ⟨_, independent_of_pairwise hjobs connected d⟩
  · intro s hmade e deed
    refine ⟨_, independent_of_pairwise (s.pairwise_jobs hmade e deed) connected d, fun turns => ?_⟩
    have hapart := s.pairwise_underways hmade e deed connected
    obtain ⟨hturns, houtcomes⟩ := Session.performAll_byTurns hapart turns d
    dsimp only
    rw [hturns, houtcomes]
    refine ⟨?_, rfl⟩
    rw [Session.foldl_after_jobs, Session.performAll_eq]
    simp only [Channel.inTurn, Channel.runInTurn_eq hapart]

/-- Two field writes with entries of one node, of which both succeed, and a write to all nodes of a
registry, one of which the daemon does not know. -/
theorem interleaving_irrelevant_fieldWrites :
    let flag : BitField := ⟨"flag", 1, 1, none, by decide, by decide⟩
    let low : Entry :=
      { address := ⟨0x2000, 1⟩, name := "low", type := .unsigned .w8, fields := [flag] }
    let high : Entry :=
      { address := ⟨0x2000, 2⟩, name := "high", type := .unsigned .w16, fields := [flag] }
    let n : NodeStore :=
      { entries := [(low.address, ⟨[1], some 1⟩), (high.address, ⟨[1, 1], some 2⟩)] }
    let d : Daemon := { nodes := SortedMap.empty.insert 1 n }
    let jobs : List Job :=
      [⟨1, low, .writeField "flag" (.raw 1), ⟨50⟩, .operational⟩,
        ⟨1, high, .writeField "flag" (.raw 1), ⟨50⟩, .operational⟩]
    let network := (((({ limit := ⟨50⟩ } : Network).add {} 1).2.1).add {} 2).2.1
    let session : Session := { network }
    jobs.map (fun j => (j.alone true d).1) =
        [⟨.writeField "flag" (.raw 1), .ok ()⟩, ⟨.writeField "flag" (.raw 1), .ok ()⟩] ∧
      (∃ after, Independent true d jobs after) ∧
      ∃ after, Independent true d (session.jobs low (.write (.uint 7))) after := by
  intro flag low high n d jobs network session
  have hjobs : jobs.Pairwise fun j k => j.target ≠ k.target := by
    refine List.pairwise_cons.mpr ⟨fun k hk => ?_, List.pairwise_singleton ..⟩
    cases List.mem_singleton.mp hk
    exact fun heq => absurd (congrArg (fun t => t.2.subIndex) heq) (by decide)
  have hmade : session.network.Made := .add (.add (.new ⟨50⟩) {} 1) {} 2
  obtain ⟨hany, hall⟩ := interleaving_irrelevant true d
  obtain ⟨after, hindependent, -⟩ := hall session hmade low (.write (.uint 7))
  exact ⟨rfl, hany jobs hjobs, after, hindependent⟩

end Client

end Canopen
