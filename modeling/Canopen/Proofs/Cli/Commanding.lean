import Canopen.Cli.Command
import Canopen.Proofs.Network.Sighting
/-!
# Commands to all nodes and to one

The command asks for the state of a node before it sends anything to it, so that the guard is about the
present. To one node it sends nothing if the state cannot be told. To all nodes it does not look at what has
come of the question: a node of which no state has been told counts as initializing, as one of which
nothing has been observed. The two agree about a node if and only if its state is told, or the command is
not meant for a node that is initializing (`Cli.sent_as_alone_iff`).
-/
namespace Canopen

variable {σ : Type}

/-- The channel that carries out several operations by turns, which may be others at any time. -/
def Channel.scheduled (link : Link σ) (turns : σ → List Nat) : Channel σ where
  link := link
  together us s := interleave link (turns s) us s

theorem Session.handles_observeAll (s : Session) (pairs : List (Handle × NodeState)) :
    (s.observeAll pairs).handles = s.handles := by
  rw [handles, network_observeAll, handles]

namespace Client

variable {node : UInt8} {c : NodeCommand} {observed observed' : NodeState} {t : List Exchange}

/-- The state of a node that an answer to the question for it tells. -/
def toldState? : Answer → Option NodeState
  | .ok (.state code) => NodeState.ofCode? code
  | _ => none

/-- To ask for the state is one request. -/
theorem query_of_replay {out : Except ClientError NodeState}
    (h : (state node).replay observed t = some (out, observed')) :
    ∃ a, t = [(.queryState node, a)] ∧ out.toOption = toldState? a ∧
      observed' = (toldState? a).getD observed := by
  obtain ⟨a, rfl, ⟨s, code, rfl, hs, rfl, rfl⟩ | ⟨hunknown, ⟨e, rfl⟩, rfl⟩⟩ := of_replay_state h
  · exact ⟨_, rfl, hs.symm, by rw [toldState?, hs, Option.getD_some]⟩
  · have hnone : toldState? a = none := by
      unfold toldState?
      split
      · exact hunknown _ rfl
      · rfl
    exact ⟨a, rfl, hnone.symm, by rw [hnone, Option.getD_none]⟩

/-- A command is one request where the state observed allows it, and none otherwise. -/
theorem sent_of_replay {out : Except ClientError Unit}
    (h : (command node c).replay observed t = some (out, observed')) :
    if observed.allows c then ∃ reply, t = [(.command node c.code, reply)] else t = [] := by
  unfold command NodeCommand.check at h
  simp only [Operation.replay] at h
  split
  · rename_i hallows
    simp only [if_pos hallows] at h
    exact (of_replay_acknowledge h).2
  · rename_i hallows
    simp only [if_neg hallows] at h
    cases t with
    | nil => rfl
    | cons e t => contradiction

end Client

namespace Cli

open Client

variable {node : UInt8} {c : NodeCommand} {limit : Duration} {style : Style}

/-- Holds of exchanges about a node that is sent a command or not: its state is asked for, and then the
command is sent if the answer lets it go. -/
inductive Commanded (node : UInt8) (c : NodeCommand) (goes : Answer → Prop) : List Exchange → Prop
  | held {a : Answer} (h : ¬goes a) : Commanded node c goes [(.queryState node, a)]
  | sent {a reply : Answer} (h : goes a) :
      Commanded node c goes [(.queryState node, a), (.command node c.code, reply)]

/-- Behind the question for the state the command goes by the state observed. -/
theorem commanded_of_replay {goes : Answer → Prop} {a : Answer} {observed observed' : NodeState}
    {t : List Exchange} {out : Except ClientError Unit} (hgoes : goes a ↔ observed.allows c)
    (h : (Client.command node c).replay observed t = some (out, observed')) :
    Commanded node c goes ((.queryState node, a) :: t) := by
  have hsent := sent_of_replay h
  split at hsent
  · rename_i hallows
    obtain ⟨reply, rfl⟩ := hsent
    exact .sent (hgoes.mpr hallows)
  · rename_i hallows
    subst hsent
    exact .held (mt hgoes.mp hallows)

/-- A client without nodes, over a link that keeps what is exchanged. -/
def unused (limit : Duration) (w : σ) : Console (σ × List Exchange) :=
  { session := { network := { limit } }, world := (w, []) }

def exchangesOfOne (link : Link σ) (limit : Duration) (style : Style) (c : NodeCommand) (node : UInt8)
    (w : σ) : List Exchange :=
  (command (Channel.inTurn link.logged) style c (.node node) (unused limit w)).2.world.2

def exchangesOfAll (link : Link σ) (turns : σ × List Exchange → List Nat) (limit : Duration)
    (style : Style) (c : NodeCommand) (w : σ) : List Exchange :=
  (command (Channel.scheduled link.logged turns) style c .all (unused limit w)).2.world.2

/-- What an operation through a handle comes to is read off what it exchanges. -/
theorem exists_during_perform {α : Type} (op : UInt8 → Attempt α) (h : Handle)
    (hop : (op h.node).Asks fun r => r.node? = some h.node) (activity : Activity) (link : Link σ)
    (c : Console (σ × List Exchange)) :
    ∃ r observed w t, (op h.node).replay (c.session.observed h) t = some (r, observed) ∧
      Step.during activity (Step.perform (Channel.inTurn link.logged) h op) c =
        (within activity (ofClient r),
          { c with session := c.session.observe h observed, world := (w, c.world.2 ++ t) }) := by
  obtain ⟨s, ⟨w, log⟩, transcript⟩ := c
  obtain ⟨t, -, hlog, hreplay⟩ :=
    Operation.exists_run_logged hop link h.limit (s.observed h) w log
  rcases hrun : (op h.node).run link.logged h.limit (s.observed h) (w, log) with
    ⟨r, observed, w', log'⟩
  rw [hrun] at hlog hreplay
  obtain rfl : log' = log ++ t := hlog
  refine ⟨r, observed, w', t, hreplay, ?_⟩
  simp only [Step.during, Step.perform_eq, Session.perform, Channel.inTurn, hrun]

/-- Whatever is printed behind a step, nothing more is exchanged. -/
theorem world_bind_print {α : Type} (x : Step σ α) (f : Transcript → Transcript) (c : Console σ) :
    ((x >>= fun _ => Step.print f) c).2.world = (x c).2.world := by
  rcases hx : x c with ⟨_ | a, c'⟩
  · rw [Step.bind_of_error hx]
  · rw [Step.bind_of_ok hx]
    rfl

/-- One node is sent the command if its state is told and allows it. -/
theorem commanded_exchangesOfOne (link : Link σ) (limit : Duration) (style : Style) (c : NodeCommand)
    (node : UInt8) (w : σ) :
    Commanded node c (fun a => ∃ s, toldState? a = some s ∧ s.allows c)
      (exchangesOfOne link limit style c node w) := by
  let h : Handle := ⟨node, limit, 0⟩
  let registered : Console (σ × List Exchange) :=
    { unused limit w with session := ((unused limit w).session.register node).2 }
  have hregister : Step.register node (unused limit w) = (.ok h, registered) := rfl
  obtain ⟨r, observed, w', t, hreplay, hquery⟩ := exists_during_perform Client.state h
    (Deed.state.asks node) (.querying (nodeLabel node)) link registered
  obtain ⟨a, rfl, hr, hobserved⟩ := query_of_replay hreplay
  rw [exchangesOfOne, command, Step.bind_of_ok hregister]
  cases r with
  | error e =>
    have htold : toldState? a = none := hr.symm
    rw [Step.bind_of_error hquery]
    exact .held (by simp [htold])
  | ok s =>
    have htold : toldState? a = some s := hr.symm
    obtain rfl : observed = s := by rw [hobserved, htold, Option.getD_some]
    let queried : Console (σ × List Exchange) :=
      { registered with
        session := registered.session.observe h observed
        world := (w', [(.queryState node, a)]) }
    have hquery : Step.during (.querying (nodeLabel node))
        (Step.perform (Channel.inTurn link.logged) h Client.state) registered =
          (.ok observed, queried) := hquery
    obtain ⟨r', observed', w'', t', hreplay', hcommand⟩ := exists_during_perform
      (fun node => Client.command node c) h ((Deed.command c).asks node)
      (.commanding c.text (nodeLabel node)) link queried
    have hnow : queried.session.observed h = observed := rfl
    rw [hnow] at hreplay'
    rw [Step.bind_of_ok hquery, world_bind_print, hcommand]
    exact commanded_of_replay (by simp [htold]) hreplay'

/-- What comes of a deed with all nodes is read off what it exchanges. -/
theorem exists_performAll {α : Type} (d : Deed α) (link : Link σ)
    (turns : σ × List Exchange → List Nat) (c : Console (σ × List Exchange))
    (hmade : c.session.network.Made) :
    ∃ t rows w, Session.Deals c.session d t rows ∧
      Step.performAll (Channel.scheduled link.logged turns) d.attempt c =
        (.ok (rows.map fun x => (x.1.node, x.2.1)),
          { c with
            session := c.session.observeAll (rows.map fun x => (x.1, x.2.2))
            world := (w, c.world.2 ++ t) }) := by
  obtain ⟨s, ⟨w, log⟩, transcript⟩ := c
  obtain ⟨t, rows, w', hrows, hall⟩ := Session.exists_deals hmade d link (turns (w, log)) w log
  have hscheduled : s.performAll (Channel.scheduled link.logged turns) d.attempt (w, log) = _ := hall
  refine ⟨t, rows, w', hrows, ?_⟩
  simp only [Step.performAll, hscheduled]

/-- A listed node is asked for its state, and the guard of the command is about the answer. -/
theorem commanded_of_deals {s : Session} {t t' : List Exchange}
    {rows : List (Handle × Except ClientError NodeState × NodeState)}
    {rows' : List (Handle × Except ClientError Unit × NodeState)} (hs : s.Sound [] [])
    (hrows : Session.Deals s .state t rows)
    (hrows' : Session.Deals (s.observeAll (rows.map fun x => (x.1, x.2.2))) (.command c) t' rows')
    (hnode : node ∈ s.network.nodes) :
    Commanded node c (fun a => ((toldState? a).getD .initializing).allows c)
      (exchangesAbout node (t ++ t')) := by
  rw [← Session.map_node_handles hs.made] at hnode
  obtain ⟨h, hmem, rfl⟩ := List.mem_map.mp hnode
  have hrow : h ∈ rows.map Prod.fst := hrows.handles_eq ▸ hmem
  obtain ⟨x, hx, rfl⟩ := List.mem_map.mp hrow
  obtain ⟨a, hquery, -, hobserved⟩ := query_of_replay (hrows.replay_eq x hx)
  have hfirst : s.observed x.1 = .initializing := hs.latest x.1
  have hseen := hrows.observed_eq hs hx
  -- the command goes through the same handle
  have hrow' : x.1 ∈ rows'.map Prod.fst := by rwa [hrows'.handles_eq, Session.handles_observeAll]
  obtain ⟨y, hy, hsame⟩ := List.mem_map.mp hrow'
  have hreplay := hrows'.replay_eq y hy
  rw [hsame, hseen, hobserved, hfirst] at hreplay
  have happend : exchangesAbout x.1.node (t ++ t') =
      exchangesAbout x.1.node t ++ exchangesAbout x.1.node t' := List.filter_append ..
  rw [happend, hquery]
  exact commanded_of_replay Iff.rfl hreplay

theorem listNodes_unused (link : Link σ) (turns : σ × List Exchange → List Nat) (limit : Duration)
    (w : σ) :
    Step.listNodes (Channel.scheduled link.logged turns) (unused limit w) =
      let (answer, w') := link limit .listNodes w
      let (r, network, observations) := ({ limit } : Network).update {} answer
      (ofClient r,
        { session := { network, observations }, world := (w', [(.listNodes, answer)]) }) := rfl

/-- Where the nodes cannot be listed, nothing more is asked. -/
theorem exchangesOfAll_of_error {link : Link σ} {w : σ} {e : ClientError}
    (hlisted : Network.listed (link limit .listNodes w).1 = .error e)
    (turns : σ × List Exchange → List Nat) (style : Style) (c : NodeCommand) :
    exchangesOfAll link turns limit style c w = [(.listNodes, (link limit .listNodes w).1)] := by
  rcases hlink : link limit .listNodes w with ⟨answer, w'⟩
  rw [hlink] at hlisted
  have hupdate : ({ limit } : Network).update {} answer = (.error e, { limit }, {}) := by
    simp only [Network.update, hlisted]
  have hlist : Step.listNodes (Channel.scheduled link.logged turns) (unused limit w) =
      (.error (.client e), { unused limit w with world := (w', [(.listNodes, answer)]) }) := by
    rw [listNodes_unused, hlink]
    dsimp only
    rw [hupdate]
    rfl
  rw [exchangesOfAll, command, Step.bind_of_error hlist]

/-- All nodes are sent a command in three steps: the nodes are listed, each is asked for its state, and each
is sent the command that its guard lets go. -/
theorem exists_exchangesOfAll (link : Link σ) (turns : σ × List Exchange → List Nat) (limit : Duration)
    (style : Style) (c : NodeCommand) (w : σ) {ids : List UInt8}
    (hids : Network.listed (link limit .listNodes w).1 = .ok ids) :
    ∃ t, exchangesOfAll link turns limit style c w =
        (.listNodes, (link limit .listNodes w).1) :: t ∧
      (∀ node ∈ ids, Commanded node c (fun a => ((toldState? a).getD .initializing).allows c)
        (exchangesAbout node t)) ∧
      ∀ e ∈ t, ∃ node ∈ ids, e.1.node? = some node := by
  rcases hlink : link limit .listNodes w with ⟨answer, w'⟩
  rw [hlink] at hids
  let network : Network := { limit }
  have hupdate : network.update {} answer = (.ok ids, network.refresh {} ids) := by
    simp only [Network.update, hids]
  let s : Session := ⟨(network.refresh {} ids).1, (network.refresh {} ids).2⟩
  have hmade : s.network.Made := by
    have h := Network.Made.update (.new limit) {} answer
    rwa [hupdate] at h
  have hsound : s.Sound [] [] :=
    (Session.Sound.start limit).evolve hmade (Network.Evolves.refresh network {} ids) (by simp)
  let listed : Console (σ × List Exchange) := { session := s, world := (w', [(.listNodes, answer)]) }
  have hlist : Step.listNodes (Channel.scheduled link.logged turns) (unused limit w) =
      (.ok ids, listed) := by
    rw [listNodes_unused, hlink]
    dsimp only
    rw [hupdate]
    rfl
  obtain ⟨t, rows, w₁, hrows, hquery⟩ := exists_performAll .state link turns listed hmade
  let queried : Console (σ × List Exchange) :=
    { listed with
      session := s.observeAll (rows.map fun x => (x.1, x.2.2))
      world := (w₁, (.listNodes, answer) :: t) }
  have hquery : Step.performAll (Channel.scheduled link.logged turns) Client.state listed =
      (.ok (rows.map fun x => (x.1.node, x.2.1)), queried) := hquery
  have hmade' : queried.session.network.Made := by rwa [Session.network_observeAll]
  obtain ⟨t', rows', w₂, hrows', hcommand⟩ := exists_performAll (.command c) link turns queried hmade'
  have hcommand : Step.performAll (Channel.scheduled link.logged turns)
      (fun node => Client.command node c) queried = _ := hcommand
  have hnodes (node : UInt8) : node ∈ s.network.nodes ↔ node ∈ ids := by
    rw [Network.nodes, SortedMap.mem_keys]
    exact Network.isSome_handle?_refresh network {} ids node
  have hhandles (h : Handle) (hmem : h ∈ s.handles) : h.node ∈ ids := by
    rw [← hnodes, ← Session.map_node_handles hmade]
    exact List.mem_map_of_mem hmem
  refine ⟨t ++ t', ?_, fun node hmem => ?_, fun e he => ?_⟩
  · rw [exchangesOfAll, command, Step.bind_of_ok hlist, Step.bind_of_ok hquery,
      Step.bind_of_ok hcommand]
    rfl
  · exact commanded_of_deals hsound hrows hrows' ((hnodes node).mpr hmem)
  · rcases List.mem_append.mp he with he | he
    · obtain ⟨h, hmem, hnode⟩ := hrows.about e he
      exact ⟨h.node, hhandles h hmem, hnode⟩
    · obtain ⟨h, hmem, hnode⟩ := hrows'.about e he
      rw [Session.handles_observeAll] at hmem
      exact ⟨h.node, hhandles h hmem, hnode⟩

/-- Holds of an answer to the request for the nodes and a node that it lists. -/
def Lists (answer : Answer) (node : UInt8) : Prop :=
  ∃ replied, answer = .ok (.nodes replied) ∧ node ∈ replied

theorem lists_iff {answer : Answer} :
    Lists answer node ↔ ∃ ids, Network.listed answer = .ok ids ∧ node ∈ ids := by
  constructor
  · rintro ⟨replied, rfl, hmem⟩
    exact ⟨_, rfl, Network.mem_sortedNodes.mpr hmem⟩
  · rintro ⟨ids, hids, hmem⟩
    unfold Network.listed at hids
    split at hids <;> cases hids
    exact ⟨_, rfl, Network.mem_sortedNodes.mp hmem⟩

/-- A listed node is sent the command if its state allows it, for which initializing stands where none is
told. A node that is not listed is left alone. -/
theorem commanded_exchangesOfAll (link : Link σ) (turns : σ × List Exchange → List Nat)
    (limit : Duration) (style : Style) (c : NodeCommand) (w : σ) (node : UInt8) :
    let t := exchangesAbout node (exchangesOfAll link turns limit style c w)
    (Lists (link limit .listNodes w).1 node →
      Commanded node c (fun a => ((toldState? a).getD .initializing).allows c) t) ∧
    (¬Lists (link limit .listNodes w).1 node → t = []) := by
  have hlisting (answer : Answer) (t : List Exchange) :
      exchangesAbout node ((.listNodes, answer) :: t) = exchangesAbout node t :=
    List.filter_cons_of_neg (by simp [Request.node?])
  cases hids : Network.listed (link limit .listNodes w).1 with
  | error e =>
    have hnot : ¬Lists (link limit .listNodes w).1 node := fun h => by
      obtain ⟨ids, hok, -⟩ := lists_iff.mp h
      cases hids.symm.trans hok
    refine ⟨fun h => absurd h hnot, fun _ => ?_⟩
    rw [exchangesOfAll_of_error hids]
    exact hlisting _ []
  | ok ids =>
    obtain ⟨t, hall, hlisted, habout⟩ := exists_exchangesOfAll link turns limit style c w hids
    dsimp only
    rw [hall, hlisting]
    refine ⟨fun h => ?_, fun hnot => exchangesAbout_eq_nil fun e he hnode => ?_⟩
    · obtain ⟨ids', hids', hmem⟩ := lists_iff.mp h
      cases hids.symm.trans hids'
      exact hlisted node hmem
    · obtain ⟨other, hmem, hother⟩ := habout e he
      cases hnode.symm.trans hother
      exact hnot (lists_iff.mpr ⟨ids, hids, hmem⟩)

def Sends (node : UInt8) (t : List Exchange) : Prop :=
  ∃ code reply, (Request.command node code, reply) ∈ t

theorem sends_exchangesAbout {t : List Exchange} : Sends node (exchangesAbout node t) ↔ Sends node t := by
  simp [Sends, exchangesAbout, Request.node?]

/-- A node that is initializing can neither be started nor stopped. -/
theorem not_initializing_allows_iff : ¬NodeState.initializing.allows c ↔ c = .start ∨ c = .stop := by
  cases c <;> decide

/-- The answer to the one question for the state decides. -/
theorem Commanded.sends_iff {goes : Answer → Prop} {t : List Exchange} (h : Commanded node c goes t)
    {a : Answer} (ha : (.queryState node, a) ∈ t) : Sends node t ↔ goes a := by
  cases h with
  | held hheld =>
    obtain rfl : a = _ := by simpa using ha
    simp [Sends, hheld]
  | sent hsent =>
    obtain rfl : a = _ := by simpa using ha
    simp [Sends, hsent]

/-- Whatever is answered and whatever the turns, a command to all nodes asks every listed node for its state
and sends the command if the state that is told allows it, or if none is told and the command can be meant
for a node that is initializing. A command to one node sends nothing if no state is told. So where both get
the same answer, they agree if and only if it tells a state or the command is one of the two that cannot be
meant for a node that is initializing. -/
theorem sent_as_alone_iff (link : Link σ) (turns : σ × List Exchange → List Nat) (limit : Duration)
    (style : Style) (c : NodeCommand) (w : σ) (node : UInt8) :
    let listing := (link limit .listNodes w).1
    let all := exchangesOfAll link turns limit style c w
    (¬Lists listing node → exchangesAbout node all = []) ∧
    (Lists listing node →
      Commanded node c (fun a => ((toldState? a).getD .initializing).allows c)
        (exchangesAbout node all)) ∧
    ∀ {τ : Type} (link' : Link τ) (limit' : Duration) (style' : Style) (w' : τ),
      let one := exchangesOfOne link' limit' style' c node w'
      Commanded node c (fun a => ∃ s, toldState? a = some s ∧ s.allows c) one ∧
        (Lists listing node → ∀ a, (.queryState node, a) ∈ all → (.queryState node, a) ∈ one →
          ((Sends node all ↔ Sends node one) ↔
            (toldState? a).isSome ∨ c = .start ∨ c = .stop)) := by
  obtain ⟨hlisted, hunlisted⟩ := commanded_exchangesOfAll link turns limit style c w node
  refine ⟨hunlisted, hlisted, fun link' limit' style' w' => ?_⟩
  have hone := commanded_exchangesOfOne link' limit' style' c node w'
  refine ⟨hone, fun hnode a hall ha => ?_⟩
  have habout : (.queryState node, a) ∈
      exchangesAbout node (exchangesOfAll link turns limit style c w) :=
    List.mem_filter.mpr ⟨hall, by simp [Request.node?]⟩
  rw [← sends_exchangesAbout, (hlisted hnode).sends_iff habout, hone.sends_iff ha,
    ← not_initializing_allows_iff]
  cases toldState? a with
  | none => simp
  | some s => simp

/-- A reset of two nodes, of which the second one does not tell its state: it is reset among all nodes, and
not alone. -/
theorem sent_as_alone_iff_silent :
    let link : Link Unit := fun limit r _ =>
      (if r = .listNodes then .ok (.nodes [1, 2])
        else if r = .queryState 1 then .ok (.state 0x05)
        else if r = .queryState 2 then .error (.silent (.node limit))
        else .ok .ack, ())
    let all := exchangesOfAll link (fun _ => [1, 0]) ⟨50⟩ {} .reset ()
    let one (node : UInt8) := exchangesOfOne link ⟨50⟩ {} .reset node ()
    exchangesAbout 3 all = [] ∧ (Sends 1 all ↔ Sends 1 (one 1)) ∧ Sends 2 all ∧ ¬Sends 2 (one 2) := by
  intro link all one
  have hlists : Lists (.ok (.nodes [1, 2])) 1 ∧ ¬Lists (.ok (.nodes [1, 2])) 3 := by simp [Lists]
  have hfirst : (.queryState 1, .ok (.state 0x05)) ∈ all := by decide
  have hfirst' : (.queryState 1, .ok (.state 0x05)) ∈ one 1 := by decide
  have hsecond : (.queryState 2, .error (.silent (.node ⟨50⟩))) ∈ one 2 := by decide
  obtain ⟨hunlisted, -, -⟩ := sent_as_alone_iff link (fun _ => [1, 0]) ⟨50⟩ {} .reset () 3
  obtain ⟨-, -, halone⟩ := sent_as_alone_iff link (fun _ => [1, 0]) ⟨50⟩ {} .reset () 1
  obtain ⟨-, -, halone'⟩ := sent_as_alone_iff link (fun _ => [1, 0]) ⟨50⟩ {} .reset () 2
  have hagree := (halone link ⟨50⟩ {} ()).2 hlists.1 _ hfirst hfirst'
  have hsends := (halone' link ⟨50⟩ {} ()).1.sends_iff hsecond
  refine ⟨hunlisted hlists.2, hagree.mpr (.inl rfl), ⟨0x81, .ok .ack, by decide⟩, ?_⟩
  rw [hsends]
  rintro ⟨s, hs, -⟩
  contradiction

/-- A node that does not tell its state is not always left alone. -/
theorem not_always_as_alone :
    ¬∀ (link : Link Unit) (turns : Unit × List Exchange → List Nat) (limit : Duration) (c : NodeCommand)
      (node : UInt8), Lists (link limit .listNodes ()).1 node →
        (Sends node (exchangesOfAll link turns limit {} c ()) ↔
          Sends node (exchangesOfOne link limit {} c node ())) := by
  intro h
  let link : Link Unit := fun limit r _ =>
    (if r = .listNodes then .ok (.nodes [1])
      else if r = .queryState 1 then .error (.silent (.node limit))
      else .ok .ack, ())
  have hnode := h link (fun _ => []) ⟨50⟩ .reset 1 ⟨[1], rfl, List.mem_singleton_self 1⟩
  have hall : Sends 1 (exchangesOfAll link (fun _ => []) ⟨50⟩ {} .reset ()) :=
    ⟨0x81, .ok .ack, by decide⟩
  have hquery : (.queryState 1, .error (.silent (.node ⟨50⟩))) ∈
      exchangesOfOne link ⟨50⟩ {} .reset 1 () := by decide
  have hone := (commanded_exchangesOfOne link ⟨50⟩ {} .reset 1 ()).sends_iff hquery
  obtain ⟨s, hs, -⟩ := hone.mp (hnode.mp hall)
  contradiction

end Cli

end Canopen
