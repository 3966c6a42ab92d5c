import Canopen.Proofs.Network.Sighting
/-!
# The observed state over the use of a client

A client is used through its registry and through the handles that it has given out, in any order, over
any link and with any events. Whatever has been done, the state observed of a node is the one that has
been seen last through a handle of the same registration, and a command has only been handed to the link
where the state observed allows it (`Usage.observed_over_run`).
-/
namespace Canopen

open Client

inductive Act : Type 1 where
  | register (node : UInt8)
  | find (node : UInt8)
  | unregister (node : UInt8)
  | list
  | through {α : Type} (k : Nat) (limit : Duration) (d : Deed α)
  | await (k : Nat) (limit : Duration) (signals : List Signal)
  | all {α : Type} (turns : List Nat) (d : Deed α)

/-- A client in use, with the handles it has given out, what it has exchanged with the daemon and what
has been seen of the nodes: the states that successful queries and waits have given. -/
structure Usage (σ : Type) where
  session : Session
  world : σ
  log : List Exchange := []
  given : List Handle := []
  seen : List Sighting := []

namespace Usage

variable {σ : Type} {u u' : Usage σ} {a : Act} {t : List Exchange} {seen : List Sighting}

def start (limit : Duration) (world : σ) : Usage σ := { session := { network := { limit } }, world }

def act (link : Link σ) (u : Usage σ) : Act → Usage σ
  | .register node =>
    let (h, session) := u.session.register node
    { u with session, given := u.given ++ [h] }
  | .find node => { u with given := u.given ++ (u.session.network.handle? node).toList }
  | .unregister node =>
    let (h?, network) := u.session.network.remove node
    { u with session := { u.session with network }, given := u.given ++ h?.toList }
  | .list =>
    let (_, session, world, log) :=
      u.session.listNodes (Channel.inTurn link.logged) (u.world, u.log)
    { u with session, world, log }
  | .through k limit d =>
    match u.given[k]? with
    | none => u
    | some h =>
      let h := { h with limit }
      let (r, session, world, log) :=
        u.session.perform (Channel.inTurn link.logged) h d.attempt (u.world, u.log)
      let seen := (d.sighted? r).toList.map fun state => (h, state)
      { u with session, world, log, seen := u.seen ++ seen }
  | .await k limit signals =>
    match u.given[k]? with
    | none => u
    | some h =>
      let (r, session) := Session.awaitHeartbeat h limit signals u.session
      { u with session, seen := u.seen ++ r.toOption.toList.map fun state => (h, state) }
  | .all turns d =>
    let (results, session, world, log) :=
      u.session.performAll (Channel.byTurns link.logged turns) d.attempt (u.world, u.log)
    { u with session, world, log, seen := u.seen ++ u.session.sightings d results }

def run (link : Link σ) (u : Usage σ) (acts : List Act) : Usage σ := acts.foldl (act link) u

/-- Holds of clients in use that observe what has been seen last. -/
abbrev Sound (u : Usage σ) : Prop := u.session.Sound u.given u.seen

/-- Holds of what an act shows of the state of a node by its exchanges and signals: what the daemon
replies to a query, or what the first heartbeat of the node with a known code says. -/
def Shown (u : Usage σ) (t : List Exchange) : Act → Sighting → Prop
  | .through k limit d, (h, s) => d.isQuery ∧
      (∃ copy, u.given[k]? = some copy ∧ h = { copy with limit }) ∧ ∃ code,
        t = [(.queryState h.node, .ok (.state code))] ∧ NodeState.ofCode? code = some s
  | .await k _ signals, (h, s) => u.given[k]? = some h ∧
      ∃ before code after, signals = before ++ .event (.heartbeat h.node code) :: after ∧
        NodeState.ofCode? code = some s ∧ ∀ x ∈ before, x ≠ .ended ∧
          ∀ other, x = .event (.heartbeat h.node other) → NodeState.ofCode? other = none
  | .all _ d, (h, s) => d.isQuery ∧ h ∈ u.session.handles ∧
      ∃ code, exchangesAbout h.node t = [(.queryState h.node, .ok (.state code))] ∧
        NodeState.ofCode? code = some s
  | _, _ => False

/-- Holds of an act that is to send a command through a handle. -/
def Commands (u : Usage σ) : Act → Handle → NodeCommand → Prop
  | .through k _ d, h, c => d.command? = some c ∧ u.given[k]? = some h
  | .all _ d, h, c => d.command? = some c ∧ h ∈ u.session.handles
  | _, _, _ => False

/-- An act that sends commands shows no state. -/
theorem Commands.not_shown {h : Handle} {c : NodeCommand} (hc : Commands u a h c) (p : Sighting) :
    ¬Shown u t a p := by
  intro hp
  cases a with
  | through k limit d | all turns d =>
    have hnone := Deed.command?_eq_none_of_isQuery hp.1
    rw [hc.1] at hnone
    contradiction
  | _ => exact hc

/-- What is said of an act by its exchanges and what has been seen in it. -/
structure Progress (u : Usage σ) (a : Act) (t : List Exchange) (seen : List Sighting)
    (u' : Usage σ) : Prop where
  log_eq : u'.log = u.log ++ t
  seen_eq : u'.seen = u.seen ++ seen
  /-- A node that stays registered keeps its handle. -/
  stays : ∀ node h h', u.session.network.handle? node = some h →
    u'.session.network.handle? node = some h' → h' = h
  /-- A node that is newly registered has a handle of which no other one is a copy. -/
  afresh : ∀ node h, u.session.network.handle? node = none →
    u'.session.network.handle? node = some h → h.node = node ∧ u'.session.observed h = .initializing ∧
      (∀ h' ∈ u.session.handles ++ u.given, h'.cell ≠ h.cell) ∧ ∀ p ∈ u'.seen, p.1.cell ≠ h.cell
  shown : ∀ p, p ∈ seen ↔ Shown u t a p
  /-- The state observed changes only to what has been seen through a copy of the handle. -/
  changes : ∀ h, u'.session.observed h ≠ u.session.observed h →
    ∃ h', (h', u'.session.observed h) ∈ seen ∧ h'.cell = h.cell
  /-- A command is only handed to the link where it is asked for and where the state that is observed
  all along allows it. -/
  guarded : ∀ e ∈ t, ∀ node code, e.1 = .command node code → ∃ h c, Commands u a h c ∧
    h.node = node ∧ c.code = code ∧
    (u.session.observed h = c.target ∨ (u.session.observed h).canBecome c.target) ∧
    ∀ h', u'.session.observed h' = u.session.observed h'

/-- The registry may change, where nothing is seen and no command is sent. -/
theorem Progress.of_evolves (hu : u.Sound) (he : Network.Evolves u.session.network
      u.session.observations u'.session.network u'.session.observations)
    (hstays : ∀ node h h', u.session.network.handle? node = some h →
      u'.session.network.handle? node = some h' → h' = h)
    (hlog : u'.log = u.log ++ t) (hseen : u'.seen = u.seen) (hshown : ∀ p, ¬Shown u t a p)
    (ht : ∀ e ∈ t, ∀ node code, e.1 ≠ .command node code) : Progress u a t [] u' where
  log_eq := hlog
  seen_eq := hseen.trans (List.append_nil _).symm
  stays := hstays
  afresh node h hnone hsome := by
    have hnew : u.session.network.handle? node ≠ some h := by simp [hnone]
    obtain ⟨hnode, -, hlow, -⟩ := (he.joins node h hsome).resolve_left hnew
    refine ⟨hnode, (he.get_eq h.cell).trans (Observations.get_of_length_le hlow), ?_, ?_⟩
    · exact fun h' hmem => Nat.ne_of_lt (Nat.lt_of_lt_of_le (hu.bounded h' hmem) hlow)
    · rw [hseen]
      exact fun p hp => Nat.ne_of_lt (Nat.lt_of_lt_of_le (hu.seen_bounded p hp) hlow)
  shown p := by simp [hshown p]
  changes h hne := absurd (he.get_eq h.cell) hne
  guarded e he' node code heq := absurd heq (ht e he' node code)

/-- The registry stays as it is where states are observed. -/
theorem Progress.of_sound (hu : u.Sound) (hu' : u'.session.Sound u'.given (u.seen ++ seen))
    (hnetwork : u'.session.network = u.session.network) (hlog : u'.log = u.log ++ t)
    (hseen : u'.seen = u.seen ++ seen) (hshown : ∀ p, p ∈ seen ↔ Shown u t a p)
    (hguarded : ∀ e ∈ t, ∀ node code, e.1 = .command node code → ∃ h c, Commands u a h c ∧
      h.node = node ∧ c.code = code ∧ (u.session.observed h).allows c) :
    Progress u a t seen u' := by
  have hchanges : ∀ h, u'.session.observed h ≠ u.session.observed h →
      ∃ h', (h', u'.session.observed h) ∈ seen ∧ h'.cell = h.cell :=
    fun h hne => hu.exists_of_ne hu' hne
  refine ⟨hlog, hseen, ?_, ?_, hshown, hchanges, ?_⟩
  · intro node h h' hnode hnode'
    rw [hnetwork, hnode] at hnode'
    exact (Option.some.inj hnode').symm
  · intro node h hnone hsome
    rw [hnetwork, hnone] at hsome
    contradiction
  · intro e he node code heq
    obtain ⟨h, c, hcommands, hnode, hcode, hallows⟩ := hguarded e he node code heq
    refine ⟨h, c, hcommands, hnode, hcode, by simpa [NodeState.allows] using hallows, fun h' => ?_⟩
    refine Decidable.byContradiction fun hne => ?_
    obtain ⟨h'', hmem, -⟩ := hchanges h' hne
    exact hcommands.not_shown _ ((hshown _).mp hmem)

/-- Holds where an act leads to a client that is sound, with all that is said of an act. -/
def Follows (u : Usage σ) (a : Act) (u' : Usage σ) : Prop :=
  u'.Sound ∧ ∃ t seen, Progress u a t seen u'

/-- A handle is known before it is given out. -/
theorem mem_of_mem_given {node : UInt8} {h : Handle}
    (hmem : h ∈ u.given ++ (u.session.network.handle? node).toList) :
    h ∈ u.session.handles ++ u.given := by
  rcases List.mem_append.mp hmem with hmem | hmem
  · exact List.mem_append_right _ hmem
  · exact List.mem_append_left _ (Session.mem_handles.mpr ⟨node, Option.mem_toList.mp hmem⟩)

section Acts

variable (hu : u.Sound)
include hu

theorem follows_register (link : Link σ) (node : UInt8) :
    Follows u (.register node) (u.act link (.register node)) := by
  have he := Network.Evolves.add u.session.network u.session.observations node
  have hself := Network.handle?_add u.session.network u.session.observations node node
  constructor
  · refine Session.Sound.evolve hu (.add hu.made _ node) he fun h hmem => ?_
    rcases List.mem_append.mp hmem with hmem | hmem
    · exact .inl (List.mem_append_right _ hmem)
    · obtain rfl := List.mem_singleton.mp hmem
      exact .inr ⟨node, hself.trans (if_pos rfl)⟩
  · refine ⟨[], [], .of_evolves hu he (fun other h h' hold hnew => ?_) (List.append_nil _).symm rfl
      (fun _ => id) (by simp)⟩
    have hkept := Network.handle?_add_of_some hold u.session.observations node
    exact Option.some.inj (hnew.symm.trans hkept)

/-- Handles that are known may be given out, where no state is shown. -/
theorem follows_give {given : List Handle}
    (hgiven : ∀ h ∈ given, h ∈ u.session.handles ++ u.given) (hshown : ∀ p, ¬Shown u [] a p) :
    Follows u a { u with given } := by
  have he := Network.Evolves.refl u.session.network u.session.observations
  constructor
  · exact Session.Sound.evolve hu hu.made he fun h hmem => .inl (hgiven h hmem)
  · exact ⟨[], [], .of_evolves hu he (fun node h h' hold hnew => Option.some.inj (hnew.symm.trans hold))
      (List.append_nil _).symm rfl hshown (by simp)⟩

theorem follows_self (hshown : ∀ p, ¬Shown u [] a p) : Follows u a u :=
  follows_give hu (fun _ hmem => List.mem_append_right _ hmem) hshown

theorem follows_find (link : Link σ) (node : UInt8) :
    Follows u (.find node) (u.act link (.find node)) :=
  follows_give hu (fun _ hmem => mem_of_mem_given hmem) fun _ => id

theorem follows_unregister (link : Link σ) (node : UInt8) :
    Follows u (.unregister node) (u.act link (.unregister node)) := by
  have he := Network.Evolves.filterKeys u.session.network u.session.observations fun n => n != node
  constructor
  · exact Session.Sound.evolve hu (.remove hu.made node) he fun h hmem =>
      .inl (mem_of_mem_given hmem)
  · refine ⟨[], [], .of_evolves hu he (fun other h h' hold hnew => ?_) (List.append_nil _).symm rfl
      (fun _ => id) (by simp)⟩
    exact Option.some.inj ((Network.handle?_of_filterKeys hnew).symm.trans hold)

theorem follows_list (link : Link σ) : Follows u .list (u.act link .list) := by
  let answer := (link u.session.network.limit .listNodes u.world).1
  have he := Network.Evolves.update u.session.network u.session.observations answer
  constructor
  · exact Session.Sound.evolve hu (.update hu.made _ answer) he fun h hmem =>
      .inl (List.mem_append_right _ hmem)
  · refine ⟨[(.listNodes, answer)], [], .of_evolves hu he (fun node h h' hold hnew => ?_) rfl rfl
      (fun _ => id) (by simp)⟩
    exact Network.handle?_update_eq hold hnew

theorem follows_await (link : Link σ) (k : Nat) (limit : Duration) (signals : List Signal) :
    Follows u (.await k limit signals) (u.act link (.await k limit signals)) := by
  rcases hk : u.given[k]? with _ | h
  · simp only [act, hk]
    exact follows_self hu fun p hp => by simp [Shown, hk] at hp
  · have hcell := hu.bounded h (List.mem_append_right _ (List.mem_of_getElem? hk))
    -- the outcome is a state exactly where one is shown
    have hshown : ∀ p, Shown u [] (.await k limit signals) p ↔
        p.1 = h ∧ awaitHeartbeat h.node limit signals = .ok p.2 := by
      rintro ⟨h', s⟩
      rw [awaitHeartbeat_eq_ok_iff]
      simp only [Shown, hk, Option.some.injEq]
      constructor <;> rintro ⟨rfl, hfirst⟩ <;> exact ⟨rfl, hfirst⟩
    simp only [act, hk, Session.awaitHeartbeat]
    rcases hr : awaitHeartbeat h.node limit signals with e | state
    · simp only [Except.toOption, Option.toList_none, List.map_nil, List.append_nil]
      exact follows_self hu fun p hp => by simpa [hr] using (hshown p).mp hp
    · have hsound := hu.observe hcell (some state)
      refine ⟨hsound, [], [(h, state)], .of_sound hu hsound rfl (List.append_nil _).symm rfl
        (fun p => ?_) (by simp)⟩
      rw [hshown, hr, List.mem_singleton, Prod.ext_iff, Except.ok.injEq, eq_comm (a := state)]

theorem follows_through {α : Type} (link : Link σ) (k : Nat) (limit : Duration) (d : Deed α) :
    Follows u (.through k limit d) (u.act link (.through k limit d)) := by
  rcases hk : u.given[k]? with _ | h
  · simp only [act, hk]
    exact follows_self hu fun p hp => by simp [Shown, hk] at hp
  · have hcell := hu.bounded h (List.mem_append_right _ (List.mem_of_getElem? hk))
    obtain ⟨t, habout, hlog, hreplay⟩ := Operation.exists_run_logged (d.asks h.node) link limit
      (u.session.observed h) u.world u.log
    rcases hrun : (d.attempt h.node).run link.logged limit (u.session.observed h) (u.world, u.log)
      with ⟨r, state, world, log⟩
    rw [hrun] at hlog hreplay
    dsimp only at hlog hreplay
    obtain ⟨rfl, hsighted, hguarded⟩ := Deed.replayed hreplay
    have hact : u.act link (.through k limit d) =
        { u with
          session := u.session.observe { h with limit }
            ((d.sighted? r).getD (u.session.observed { h with limit }))
          world, log
          seen := u.seen ++ (d.sighted? r).toList.map fun state => ({ h with limit }, state) } := by
      simp only [act, hk, Session.perform, Channel.inTurn]
      rw [show u.session.observed { h with limit } = u.session.observed h from rfl, hrun]
    have hsound := hu.observe (h := { h with limit }) hcell (d.sighted? r)
    rw [hact]
    refine ⟨hsound, t, _, .of_sound hu hsound rfl hlog rfl (fun p => ?_) fun e he node code heq => ?_⟩
    · rw [mem_map_toList, hsighted]
      constructor
      · rintro ⟨hp, hquery, hcode⟩
        exact ⟨hquery, ⟨h, hk, hp⟩, by rwa [hp]⟩
      · rintro ⟨hquery, ⟨copy, hcopy, hp⟩, hcode⟩
        obtain rfl : h = copy := Option.some.inj (hk.symm.trans hcopy)
        exact ⟨hp, hquery, by rwa [hp] at hcode⟩
    · obtain rfl : node = h.node :=
        Option.some.inj ((congrArg Request.node? heq).symm.trans (habout e he))
      obtain ⟨c, hc, hcode, hallows⟩ := hguarded e he code heq
      exact ⟨h, c, ⟨hc, hk⟩, rfl, hcode, hallows⟩

theorem follows_all {α : Type} (link : Link σ) (turns : List Nat) (d : Deed α) :
    Follows u (.all turns d) (u.act link (.all turns d)) := by
  obtain ⟨t, rows, world, hrows, hall⟩ := Session.exists_deals hu.made d link turns u.world u.log
  have hsound := hrows.sound hu
  simp only [act, hall]
  refine ⟨hsound, t, _, .of_sound hu hsound (Session.network_observeAll ..) rfl rfl
    (fun p => hrows.mem_sightings_iff hu.made) fun e he node code heq => ?_⟩
  obtain ⟨h, hh, hnode⟩ := hrows.about e he
  obtain ⟨x, hx, rfl⟩ := List.mem_map.mp (hrows.handles_eq ▸ hh)
  obtain rfl : node = x.1.node := Option.some.inj ((congrArg Request.node? heq).symm.trans hnode)
  have hown : e ∈ exchangesAbout x.1.node t := List.mem_filter.mpr ⟨he, by simpa using hnode⟩
  obtain ⟨c, hc, hcode, hallows⟩ := (Deed.replayed (hrows.replay_eq x hx)).guarded e hown code heq
  exact ⟨x.1, c, ⟨hc, hh⟩, rfl, hcode, hallows⟩

theorem follows_act (link : Link σ) (a : Act) : Follows u a (u.act link a) := by
  cases a with
  | register node => exact follows_register hu link node
  | find node => exact follows_find hu link node
  | unregister node => exact follows_unregister hu link node
  | list => exact follows_list hu link
  | through k limit d => exact follows_through hu link k limit d
  | await k limit signals => exact follows_await hu link k limit signals
  | all turns d => exact follows_all hu link turns d

theorem Sound.run (link : Link σ) (acts : List Act) : (u.run link acts).Sound := by
  induction acts generalizing u with
  | nil => exact hu
  | cons a rest ih => exact ih (follows_act hu link a).1

end Acts

/-- Whatever has been done with a client, over any link, the state observed of a registered node is the
one seen last through a copy of its handle, and it counts as initializing where none has been seen.
Whatever is done next, nodes that stay keep their handles, the states change to what has been seen and
in no other way, and commands are only sent where the state observed allows them. -/
theorem observed_over_run (link : Link σ) (limit : Duration) (world : σ) (acts : List Act) :
    let u := (start limit world).run link acts
    u.Sound ∧
      (∀ node h, u.session.network.handle? node = some h → h.node = node ∧
        u.session.observed h = (lastSeen? h.cell u.seen).getD .initializing) ∧
      ∀ a, ∃ t seen, Progress u a t seen (u.act link a) := by
  have hu : ((start limit world).run link acts).Sound :=
    Sound.run (Session.Sound.start limit) link acts
  exact ⟨hu, fun node h hnode => ⟨hu.made.named node h hnode, hu.latest h⟩,
    fun a => (follows_act hu link a).2⟩

/-- A start is refused until the node has been seen in a state that allows it. -/
example :
    let link : Link Unit := fun _ r _ =>
      (.ok (match r with | .queryState _ => .state 0x7F | _ => .ack), ())
    let u := (start ⟨50⟩ ()).run link
      [.register 1, .through 0 ⟨50⟩ (.command .start), .through 0 ⟨50⟩ .state,
        .through 0 ⟨50⟩ (.command .start)]
    u.log = [(.queryState 1, .ok (.state 0x7F)), (.command 1 0x01, .ok .ack)] ∧
      u.seen = [(⟨1, ⟨50⟩, 0⟩, .preOperational)] := by
  decide

end Usage

end Canopen
