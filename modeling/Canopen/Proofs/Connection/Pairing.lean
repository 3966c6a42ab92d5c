import Canopen.Proofs.Connection.Asking
import Canopen.Proofs.Connection.Dialogue
import Canopen.Proofs.Connection.Lifetime
/-!
# Which answers requests end with

The number of a request comes again with the 65535th request after it. If no request takes that long
to put its slot or to get its answer, every request that ends with a reply ends with the answer to
itself (`paired_of_inTime`). One that does can be mistaken, and then the bound is exact.
-/
namespace Canopen

namespace Connection

/-- What has been asked under the number of a request that waits is no later request. -/
def Latest (asked : List Nat) (c : Connection) : Prop :=
  ∀ (id : Nat) (call : Call), c.calls[id]? = some call → call.isPending →
    ∀ (j : Nat) (other : Call), c.calls[j]? = some other → other.hasListed ∨ j ∈ asked →
      other.sequence = call.sequence → j ≤ id

variable {c c' : Connection} {a : Action} {asked : List Nat}

theorem Consistent.isPending_of_list (h : c.Consistent) {id : Nat} (hstep : c.Step (.list id) c') :
    ∃ call, c'.calls[id]? = some call ∧ call.isPending := by
  cases hstep with
  | @list _ call hcall hs =>
    have hempty := h.fresh call (List.mem_of_getElem? hcall) hs
    refine ⟨{ call with stage := .listed }, by simp [hcall, Call.hear_of_numbered hs], ?_⟩
    simp [Call.isPending_iff, Call.hasListed_iff, hempty]
  | finish _ hend => nomatch hend

/-- What has been asked with a step has been asked before, or puts its slot with the step. -/
theorem Outgoing.asked_before (ho : Outgoing asked c) (hstep : c.Step a c')
    {j : Nat} {other' : Call} (hother' : c'.calls[j]? = some other')
    (hasked : other'.hasListed ∨ j ∈ asked ++ (c.queues? a).toList) :
    (∃ other, c.calls[j]? = some other ∧ other.sequence = other'.sequence ∧
      (other.hasListed ∨ j ∈ asked)) ∨ a = .list j := by
  rcases hstep.exists_move hother' with ⟨other, hother, hmove⟩ | ⟨_, _, rfl, -, rfl, rfl⟩
  · have hseq := hmove.sequence_eq.symm
    rw [List.mem_append, Option.mem_toList] at hasked
    rcases hasked with hl | hj | hj
    · rcases hmove.hasListed_of hl with hl | ha
      · exact .inl ⟨other, hother, hseq, .inl hl⟩
      · exact .inr ha
    · exact .inl ⟨other, hother, hseq, .inr hj⟩
    · cases hstep.outflow with
      | still hid | take hid => simp [hid] at hj
      | queue hid hcall hadm =>
        obtain rfl := Option.some.inj (hid.symm.trans hj)
        obtain rfl := Option.some.inj (hcall.symm.trans hother)
        exact .inl ⟨_, hother, hseq, .inl (Call.hasListed_iff.mpr (.inr (.inl hadm)))⟩
  · simp only [Call.hasListed_begin, queues?, Option.toList_none, List.append_nil,
      Bool.false_eq_true, false_or] at hasked
    exact absurd (ho.lt_of_mem hasked) (Nat.lt_irrefl _)

/-- A step keeps the order of what has been asked, if a request that puts its slot in it began less
than 65535 requests ago. -/
theorem Latest.step (hl : Latest asked c) (h : c.Consistent) (hn : c.Numbered)
    (ho : Outgoing asked c) (hstep : c.Step a c')
    (hslow : ∀ id, a = .list id → c.calls.length ≤ id + 65535) :
    Latest (asked ++ (c.queues? a).toList) c' := by
  intro id call' hcall' hp' j other' hother' hasked hseq
  rcases hstep.exists_move hcall' with ⟨call, hcall, hmove⟩ | ⟨_, _, -, -, -, rfl⟩
  · rcases hmove.isPending_of hp' with hp | rfl
    · rcases ho.asked_before hstep hother' hasked with ⟨other, hother, hsame, hasked⟩ | rfl
      · exact hl id call hcall hp j other hother hasked
          (hsame.trans (hseq.trans hmove.sequence_eq))
      · -- the slot of the request that waited would have been taken away
        obtain ⟨listed, hlisted, hpj⟩ := h.isPending_of_list hstep
        obtain rfl := Option.some.inj (hother'.symm.trans hlisted)
        exact Nat.le_of_eq ((h.step hstep).eq_of_isPending hother' hcall' hpj hp' hseq)
    · obtain ⟨_, _, ⟨⟩, -⟩ | ⟨-, -, hlen⟩ := hstep.begins
      have hj := (List.getElem?_eq_some_iff.mp hother').1
      have hsame := ((hn.step hstep).sequence_eq_iff hother' hcall').mp hseq
      have := hslow id rfl
      omega
  · simp [Call.isPending] at hp'

end Connection

namespace Dialogue

/-- Allows a request to put its slot while at most `slow` requests have begun after it, and an
answer to come in while at most `late` requests have begun after the one that it answers. -/
def inTime (slow late : Nat) (d : Dialogue) : Turn → Bool
  | .act (.list id) => d.connection.calls.length ≤ id + 1 + slow
  | .answer id _ => d.connection.calls.length ≤ id + 1 + late
  | _ => true

/-- What turns in time keep: what has been asked under the number of a request that waits is no
later request, and a reply that a request holds is the answer to it. -/
structure Orderly (d : Dialogue) : Prop where
  latest : d.connection.Latest d.asked
  own : ∀ id call r, d.connection.calls[id]? = some call → call.Holds r →
    ∃ f, (id, f) ∈ d.answers ∧ Reply.ofFrame f = .ok r

variable {d d' : Dialogue} {slow late : Nat}

/-- An answer that comes in in time is heard by the request that it answers, if by any. -/
theorem Orderly.eq_of_hears (h : d.Orderly) (hd : d.Coherent) {id j : Nat} {call other : Call}
    (hcall : d.connection.calls[id]? = some call) (hp : call.isPending)
    (hother : d.connection.calls[j]? = some other) (hheard : j ∈ d.heard)
    (hseq : other.sequence = call.sequence) (hlate : d.connection.calls.length ≤ j + 65535) :
    j = id := by
  have hle := h.latest id call hcall hp j other hother (.inr (List.mem_of_mem_take hheard)) hseq
  have hsame := (hd.numbered.sequence_eq_iff hother hcall).mp hseq
  have hid := (List.getElem?_eq_some_iff.mp hcall).1
  omega

theorem Orderly.progress (h : d.Orderly) (hd : d.Coherent) (hslow : slow < 65535)
    (hlate : late < 65535) {t : Turn} (ht : d.inTime slow late t) (hp : d.Progress t d') :
    d'.Orderly := by
  cases hp with
  | @act a c ha hstep =>
    refine ⟨?_, fun id call' r hcall' hr => ?_⟩
    · refine h.latest.step hd.consistent hd.numbered hd.outgoing hstep fun id ha => ?_
      subst ha
      simp only [inTime, decide_eq_true_eq] at ht
      omega
    · rcases hstep.exists_move hcall' with ⟨call, hcall, hmove⟩ | ⟨_, _, -, -, -, rfl⟩
      · rcases hmove.holds hr with hr | ⟨f, rfl, hf, -⟩
        · exact h.own id call r hcall hr
        · simp [Connection.Action.bringsReply, hf] at ha
      · exact absurd hr (Call.not_holds_begin _ _ _)
  | @answer j f other c hother hheard hnew hf hseq hstep =>
    refine ⟨?_, fun id call' r hcall' hr => ?_⟩
    · simpa using h.latest.step hd.consistent hd.numbered hd.outgoing hstep (by simp)
    · rcases hstep.exists_move hcall' with ⟨call, hcall, hmove⟩ | ⟨_, _, ha, -⟩
      · rcases hmove.holds hr with hr | ⟨g, hg, -, hseq', hp, hreply⟩
        · obtain ⟨g, hg, hreply⟩ := h.own id call r hcall hr
          exact ⟨g, List.mem_append_left _ hg, hreply⟩
        · obtain rfl := Connection.Action.receive.inj hg
          simp only [inTime, decide_eq_true_eq] at ht
          obtain rfl := h.eq_of_hears hd hcall hp hother hheard (hseq.symm.trans hseq') (by omega)
          exact ⟨f, by simp, hreply⟩
      · contradiction

/-- Where neither slots nor answers take as long as 65535 requests, every request that ends with a
reply ends with the answer to itself. -/
theorem paired_of_inTime (hslow : slow < 65535) (hlate : late < 65535)
    (h : ReachableBy (inTime slow late) d) : d.Paired := by
  have horderly : d.Orderly :=
    (h.invariant ⟨by simp [Connection.Latest], by simp⟩
      fun _ _ _ hd ht h hp => h.progress hd hslow hlate ht hp).2
  exact fun id call r hcall hs => horderly.own id call r hcall (.inr hs)

/-- The daemon has heard all that has been asked where all that has been queued is written. -/
theorem Coherent.heard_of_ready (h : d.Coherent) (hr : d.connection.Ready) :
    d.heard = d.asked := by
  have hlen : d.asked.length = d.connection.queued.length := by
    simpa using congrArg List.length h.outgoing.frames
  rw [heard, h.outgoing.written_eq hr.backlog_eq hr.unwritten, h.outgoing.readAll_queued,
    List.take_of_length_le (Nat.le_of_eq hlen)]

/-- Requests that are given up as soon as they have begun only move the counter on. -/
theorem ReachableBy.giveUp (h : ReachableBy (inTime slow late) d) (hr : d.connection.Ready)
    {request : Request} (hfit : request.sendFault? = none) (limit : Duration) (n : Nat) :
    ∃ d', ReachableBy (inTime slow late) d' ∧ d'.connection.Ready ∧ d'.asked = d.asked ∧
      d'.answers = d.answers ∧ d'.connection.calls.length = d.connection.calls.length + n ∧
      ∀ (id : Nat) (call : Call), d.connection.calls[id]? = some call →
        d'.connection.calls[id]? = some call := by
  induction n with
  | zero => exact ⟨d, h, hr, rfl, rfl, rfl, fun _ _ => id⟩
  | succ n ih =>
    obtain ⟨m, hm, hr, hasked, hanswers, hlen, hkeep⟩ := ih
    have hbegun := hm.act rfl rfl (.start request limit)
    have hgone := hbegun.act rfl rfl (m.connection.exists_giveUp hfit limit)
    refine ⟨_, hgone, ⟨hr.connected, hr.receiver, hr.writer, hr.taken, hr.unwritten⟩, ?_, hanswers,
      ?_, fun id call hcall => ?_⟩
    · simpa [Connection.queues?] using hasked
    · simp [Connection.calls_start, hlen, Nat.add_assoc]
    · have hid := (List.getElem?_eq_some_iff.mp (hkeep id call hcall)).1
      have hne : m.connection.calls.length ≠ id := by omega
      simp [Connection.calls_start, hne, List.getElem?_append_left hid, hkeep id call hcall]

/-- A request can put its slot, find the connection up and queue its frame. -/
theorem ReachableBy.ask (h : ReachableBy (inTime slow late) d) (hup : d.connection.connected = true)
    (hw : d.connection.writer = .running)
    (hroom : d.connection.backlog.length < Connection.queueLength) {id : Nat} {call : Call}
    (hcall : d.connection.calls[id]? = some call) (hs : call.stage = .numbered)
    (hslow : d.connection.calls.length ≤ id + 1 + slow) :
    ReachableBy (inTime slow late) { d with
      connection := d.connection.asking id call
      asked := d.asked ++ [id] } := by
  obtain ⟨listed, admitted, hlist, hcheck, hqueue, hwriter⟩ :=
    Connection.exists_asking hup hw hroom hcall hs
  have hasked := ((h.act (by simpa [inTime] using hslow) rfl hlist).act rfl rfl hcheck).act rfl rfl
    hqueue
  simpa [Connection.queues?, hwriter] using hasked

/-- A request can begin, ask and have its frame written. -/
theorem ReachableBy.send (h : ReachableBy (inTime slow late) d) (hr : d.connection.Ready)
    {request : Request} (hfit : request.sendFault? = none) (limit : Duration) :
    ∃ d' call, ReachableBy (inTime slow late) d' ∧ d'.connection.Ready ∧
      d'.asked = d.asked ++ [d.connection.calls.length] ∧ d'.answers = d.answers ∧
      d'.connection.calls.length = d.connection.calls.length + 1 ∧
      d'.connection.calls[d.connection.calls.length]? = some call ∧ call.stage = .waiting ∧
      call.inbox = .empty ∧
      ∀ (id : Nat) (other : Call), d.connection.calls[id]? = some other →
        other.stage = .numbered → d'.connection.calls[id]? = some other := by
  let call := Call.begin d.connection.counter request limit
  have hbegun := h.act rfl rfl (.start request limit)
  have hcall : (d.connection.start request limit).calls[d.connection.calls.length]? =
      some call := by
    simp [Connection.calls_start, call]
  have hs : call.stage = .numbered := Call.stage_begin hfit
  have hback : (d.connection.start request limit).backlog = [] := hr.backlog_eq
  have hroom : (d.connection.start request limit).backlog.length < Connection.queueLength := by
    simp [hback, Connection.queueLength]
  have hasked := hbegun.ask hr.connected hr.writer hroom hcall hs (by simp [Connection.calls_start])
  let asking := (d.connection.start request limit).asking d.connection.calls.length call
  have hnext : asking.queued[asking.taken]? = some call.frame := by
    change (d.connection.queued ++ [call.frame])[d.connection.taken]? = _
    rw [hr.taken, List.getElem?_concat_length]
  obtain ⟨taken, htake, hwrite⟩ :=
    Connection.exists_taken (c := asking) hr.writer hr.unwritten hnext
  have hready : Connection.Ready { asking with
      taken := asking.taken + 1
      written := asking.written ++ call.frame.encode
      unwritten := [] } := by
    refine ⟨hr.connected, hr.receiver, hr.writer, ?_, rfl⟩
    change d.connection.taken + 1 = (d.connection.queued ++ [call.frame]).length
    rw [hr.taken, List.length_append, List.length_singleton]
  refine ⟨_, _, (hasked.act rfl rfl htake).act rfl rfl hwrite, hready, ?_, rfl, ?_,
    Connection.getElem?_asking _ hcall hs, rfl, rfl, fun id other hother hnumbered => ?_⟩
  · simp [Connection.queues?]
  · simp [asking, Connection.calls_start]
  · have hid := (List.getElem?_eq_some_iff.mp hother).1
    have hne : d.connection.calls.length ≠ id := by omega
    refine Connection.getElem?_asking_of_ne _ hne ?_ hnumbered
    rw [Connection.calls_start, List.getElem?_append_left hid, hother]

/-- Where a request waits, the late answer to another one with its number ends it. -/
theorem ReachableBy.exists_not_paired (h : ReachableBy (inTime slow late) d)
    (hr : d.connection.receiver = .running) {id j : Nat} {call other : Call}
    (hcall : d.connection.calls[id]? = some call) (hs : call.stage = .waiting)
    (hi : call.inbox = .empty) (hother : d.connection.calls[j]? = some other) (hne : j ≠ id)
    (hheard : j ∈ d.heard) (hseq : other.sequence = call.sequence) (hnone : d.answers = [])
    (hlate : d.connection.calls.length ≤ j + 1 + late) :
    ∃ d', ReachableBy (inTime slow late) d' ∧ ¬d'.Paired := by
  let f : Frame := ⟨0x06, other.sequence, [5]⟩
  have hf : f.isEvent = false := by
    simpa [Frame.isEvent, f] using h.coherent.numbered.sequence_ne hother
  have hallowed : inTime slow late d (.answer j f) := by simpa [inTime] using hlate
  have hanswered := h.answer hallowed hother hheard (by simp [hnone]) hf rfl (.hear hr hf)
  have hheard : (d.connection.settle (· == f.sequence) (Inbox.ofFrame f)).calls[id]? =
      some { call with inbox := .reply (.state 5) } := by
    have hp : call.isPending := Call.isPending_iff.mpr ⟨Call.hasListed_iff.mpr (by simp [hs]), hi⟩
    have hears : call.hear (· == f.sequence) (Inbox.ofFrame f) =
        { call with inbox := .reply (.state 5) } := Call.hear_of hp (by simp [f, hseq])
    rw [Connection.getElem?_settle, hcall, Option.map_some, hears]
  have hended := hanswered.act (a := .collect id) rfl rfl (.finish hheard (.answered hs rfl))
  refine ⟨_, hended, fun hpaired => ?_⟩
  obtain ⟨g, hg, -⟩ := hpaired id _ _ (by simp [hheard]; rfl) rfl
  rw [hnone, List.nil_append, List.mem_singleton, Prod.mk.injEq] at hg
  exact hne hg.1.symm

/-- If an answer may come in 65535 requests late, a request can end with the answer to the one that
had its number before. -/
theorem exists_not_paired_of_late (slow : Nat) (hlate : 65535 ≤ late) :
    ∃ d, ReachableBy (inTime slow late) d ∧ ¬d.Paired := by
  have h₀ : ReachableBy (inTime slow late) {} := .init
  have hfit : (Request.queryState 1).sendFault? = none := by decide
  obtain ⟨d₁, -, h₁, hr₁, hasked₁, hnone₁, hlen₁, -⟩ :=
    h₀.send ⟨rfl, rfl, rfl, rfl, rfl⟩ hfit ⟨1000⟩
  obtain ⟨d₂, h₂, hr₂, hasked₂, hnone₂, hlen₂, -⟩ := h₁.giveUp hr₁ hfit ⟨1000⟩ 65534
  obtain ⟨d₃, call, h₃, hr₃, hasked₃, hnone₃, hlen₃, hcall, hs, hi, -⟩ := h₂.send hr₂ hfit ⟨1000⟩
  have hbegun : d₂.connection.calls.length = 65535 := by
    rw [hlen₂, hlen₁]
    rfl
  rw [hbegun] at hlen₃ hcall hasked₃
  have hfirst := List.getElem?_eq_getElem (l := d₃.connection.calls) (i := 0) (by omega)
  have hheard : 0 ∈ d₃.heard := by
    rw [h₃.coherent.heard_of_ready hr₃, hasked₃, hasked₂, hasked₁]
    simp
  have hseq := (h₃.coherent.numbered.sequence_eq_iff hfirst hcall).mpr rfl
  exact h₃.exists_not_paired hr₃.receiver hcall hs hi hfirst (by decide) hheard hseq
    (by rw [hnone₃, hnone₂, hnone₁]) (by omega)

/-- If a slot may be put 65535 requests late, a request can end with the answer to the one that has
its number next. -/
theorem exists_not_paired_of_slow (hslow : 65535 ≤ slow) (late : Nat) :
    ∃ d, ReachableBy (inTime slow late) d ∧ ¬d.Paired := by
  have h₀ : ReachableBy (inTime slow late) {} := .init
  have hfit : (Request.queryState 1).sendFault? = none := by decide
  let first := Call.begin 1 (.queryState 1) ⟨1000⟩
  have hnumbered : first.stage = .numbered := Call.stage_begin hfit
  have h₁ := h₀.act rfl rfl (.start (.queryState 1) ⟨1000⟩)
  obtain ⟨d₂, h₂, hr₂, hasked₂, hnone₂, hlen₂, hkeep₂⟩ :=
    h₁.giveUp ⟨rfl, rfl, rfl, rfl, rfl⟩ hfit ⟨1000⟩ 65534
  obtain ⟨d₃, call, h₃, hr₃, hasked₃, hnone₃, hlen₃, hcall, hs, hi, hkeep₃⟩ :=
    h₂.send hr₂ hfit ⟨1000⟩
  have hbegun : d₂.connection.calls.length = 65535 := by
    rw [hlen₂]
    rfl
  rw [hbegun] at hlen₃ hcall hasked₃
  have hfirst : d₃.connection.calls[0]? = some first :=
    hkeep₃ 0 first (hkeep₂ 0 first rfl) hnumbered
  have hroom : d₃.connection.backlog.length < Connection.queueLength := by
    simp [hr₃.backlog_eq, Connection.queueLength]
  have h₄ := h₃.ask hr₃.connected hr₃.writer hroom hfirst hnumbered (by omega)
  have hheard : 65535 ∈ (d₃.asked ++ [0]).take (Frame.readAll d₃.connection.written).1.length := by
    rw [List.take_append]
    refine List.mem_append_left _ ?_
    change 65535 ∈ d₃.heard
    rw [h₃.coherent.heard_of_ready hr₃, hasked₃]
    simp
  have hwaits := d₃.connection.getElem?_asking hfirst hnumbered
  have hlast : 65535 < (d₃.connection.asking 0 first).calls.length := by
    rw [Connection.length_calls_asking, hlen₃]
    decide
  have hnext := List.getElem?_eq_getElem hlast
  have hseq := (h₄.coherent.numbered.sequence_eq_iff hnext hwaits).mpr rfl
  exact h₄.exists_not_paired hr₃.receiver hwaits rfl rfl hnext (by decide) hheard hseq
    (hnone₃.trans hnone₂) (by simp; omega)

end Dialogue

end Canopen
