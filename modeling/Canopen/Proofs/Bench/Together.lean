import Canopen.Bench.Together
import Canopen.Proofs.Client.Interference
/-!
# At the same time means by some turns

However a bench carries out operations at the same time, with the clock moving from one wake time to
the next, its daemon has handled their requests by some turns (`Bench.together_eq_interleave`). So what
is done with an entry of all registered nodes at the same time comes to what each of the nodes gives
alone (`Bench.performAll_channel`).
-/
namespace Canopen

variable {α σ : Type} {link : Link σ}

namespace Channel

theorem takeTurns_append (link : Link σ) (turns more : List Nat) (us : List (Underway α)) (s : σ) :
    takeTurns link (turns ++ more) us s =
      takeTurns link more (takeTurns link turns us s).1 (takeTurns link turns us s).2 := by
  induction turns generalizing us s with
  | nil => rfl
  | cons i turns ih =>
    rw [List.cons_append, takeTurns, takeTurns]
    cases us[i]? with
    | none => exact ih us s
    | some u => exact ih _ _

theorem takeTurns_map_succ (link : Link σ) (turns : List Nat) (u : Underway α)
    (us : List (Underway α)) (s : σ) :
    takeTurns link (turns.map (· + 1)) (u :: us) s =
      (u :: (takeTurns link turns us s).1, (takeTurns link turns us s).2) := by
  induction turns generalizing us s with
  | nil => rfl
  | cons i turns ih =>
    rw [List.map_cons, takeTurns, takeTurns, List.getElem?_cons_succ]
    cases us[i]? with
    | none => exact ih us s
    | some v => exact ih _ _

/-- Holds where operations come by some turns from one state of things to another. -/
def Leads (link : Link σ) (us : List (Underway α)) (s : σ) (us' : List (Underway α)) (s' : σ) : Prop :=
  ∃ turns, takeTurns link turns us s = (us', s')

variable {u : Underway α} {us us' us'' : List (Underway α)} {s s' s'' : σ}

theorem Leads.refl (us : List (Underway α)) (s : σ) : Leads link us s us s := ⟨[], rfl⟩

theorem Leads.trans (h : Leads link us s us' s') (h' : Leads link us' s' us'' s'') :
    Leads link us s us'' s'' := by
  obtain ⟨turns, hturns⟩ := h
  obtain ⟨more, hmore⟩ := h'
  refine ⟨turns ++ more, ?_⟩
  rw [takeTurns_append, hturns]
  exact hmore

/-- The first operation acts. -/
theorem Leads.act (h : Leads link ((u.act link s).1 :: us) (u.act link s).2 us' s') :
    Leads link (u :: us) s us' s' := by
  obtain ⟨turns, hturns⟩ := h
  exact ⟨0 :: turns, hturns⟩

/-- The operations behind the first one act. -/
theorem Leads.cons (h : Leads link us s us' s') (u : Underway α) :
    Leads link (u :: us) s (u :: us') s' := by
  obtain ⟨turns, hturns⟩ := h
  refine ⟨turns.map (· + 1), ?_⟩
  rw [takeTurns_map_succ, hturns]

end Channel

namespace Bench

open Channel

variable {b b' : Bench} {d : Daemon} {r : Request} {next : Answer → Operation α}

theorem Serves.log (h : b.Serves true d) (r : Request) : (b.log r).Serves true d :=
  ⟨h.prepared, h.line, h.daemon⟩

/-- What comes of a request that the daemon of a connected bench handles. -/
theorem Serves.serve (h : b.Serves true d) {reply? : Option Reply} (hserve : b.serve r = (reply?, b'))
    (limit : Duration) :
    ∃ d', b'.Serves true d' ∧
      Daemon.link true limit r d = (reply?.elim (silence limit) .ok, d') := by
  obtain ⟨hprepared, hline, rfl⟩ := h
  simp only [Bench.serve] at hserve
  simp only [Daemon.link, if_true]
  generalize b.daemon.handle r = out at hserve ⊢
  obtain ⟨_ | reply, d', events⟩ := out
  all_goals
    cases hserve
    exact ⟨d', ⟨hprepared, hline, rfl⟩, rfl⟩

/-- A request that is handled is the next action of its operation. -/
theorem Serves.leads (h : b.Serves true d) {reply? : Option Reply} (hserve : b.serve r = (reply?, b'))
    (limit : Duration) (observed : NodeState) (rest : List (Underway α)) :
    ∃ d', b'.Serves true d' ∧
      Leads (Daemon.link true) ((limit, observed, .ask r next) :: rest) d
        ((limit, observed, next (reply?.elim (silence limit) .ok)) :: rest) d' := by
  obtain ⟨d', hb', hlink⟩ := h.serve hserve limit
  refine ⟨d', hb', Leads.act ?_⟩
  simp only [Underway.act, hlink]
  exact Leads.refl _ _

namespace Task

def underway (t : Task α) : Underway α :=
  match t.progress with
  | .finished a => (t.limit, t.observed, .done a)
  | .underway _ r next => (t.limit, t.observed, .ask r next)
  | .unanswered _ next => (t.limit, t.observed, next (silence t.limit))

theorem leads_advance (h : b.Serves true d) (limit : Duration) (observed : NodeState)
    (x : Operation α) (rest : List (Underway α)) :
    ∃ d', (advance limit observed b x).2.Serves true d' ∧
      Leads (Daemon.link true) ((limit, observed, x) :: rest) d
        ((advance limit observed b x).1.underway :: rest) d' := by
  induction x generalizing observed b d with
  | done a => exact ⟨d, h, Leads.refl _ _⟩
  | look next ih =>
    obtain ⟨d', hb', hleads⟩ := ih observed h observed
    exact ⟨d', hb', hleads.act⟩
  | note state next ih =>
    obtain ⟨d', hb', hleads⟩ := ih h state
    exact ⟨d', hb', hleads.act⟩
  | ask r next ih =>
    have hlog := h.log r
    unfold advance
    simp only [hlog.prepared, hlog.line, Bool.not_true, Bool.false_eq_true, if_false]
    split
    · exact ⟨d, hlog, Leads.refl _ _⟩
    · split
      · rename_i reply b' hserve
        obtain ⟨d₁, hb', hask⟩ := hlog.leads hserve limit observed rest
        obtain ⟨d₂, hb₂, hleads⟩ := ih _ hb' observed
        exact ⟨d₂, hb₂, hask.trans hleads⟩
      · rename_i b' hserve
        obtain ⟨d₁, hb', hask⟩ := hlog.leads hserve limit observed rest
        split
        · exact ⟨d₁, hb', hask⟩
        · obtain ⟨d₂, hb₂, hleads⟩ := ih _ hb' observed
          exact ⟨d₂, hb₂, hask.trans hleads⟩

theorem leads_resume (h : b.Serves true d) (t : Task α) (rest : List (Underway α)) :
    ∃ d', (t.resume b).2.Serves true d' ∧
      Leads (Daemon.link true) (t.underway :: rest) d ((t.resume b).1.underway :: rest) d' := by
  obtain ⟨limit, observed, progress⟩ := t
  cases progress with
  | finished a => exact ⟨d, h, Leads.refl _ _⟩
  | unanswered deadline next => exact leads_advance h limit observed _ rest
  | underway arrival r next =>
    simp only [resume]
    split
    · rename_i reply b' hserve
      obtain ⟨d₁, hb', hask⟩ := h.leads hserve limit observed rest
      obtain ⟨d₂, hb₂, hleads⟩ := leads_advance hb' limit observed _ rest
      exact ⟨d₂, hb₂, hask.trans hleads⟩
    · rename_i b' hserve
      obtain ⟨d₁, hb', hask⟩ := h.leads hserve limit observed rest
      split
      · exact ⟨d₁, hb', hask⟩
      · obtain ⟨d₂, hb₂, hleads⟩ := leads_advance hb' limit observed _ rest
        exact ⟨d₂, hb₂, hask.trans hleads⟩

theorem leads_resumeAll (h : b.Serves true d) (turn : Nat) (tasks : List (Task α)) :
    ∃ d', (resumeAll turn tasks b).2.Serves true d' ∧
      Leads (Daemon.link true) (tasks.map underway) d
        ((resumeAll turn tasks b).1.map underway) d' := by
  induction tasks generalizing turn b d with
  | nil => exact ⟨d, h, Leads.refl _ _⟩
  | cons t rest ih =>
    unfold resumeAll
    split
    · obtain ⟨d', hb', hrest⟩ := ih h turn
      exact ⟨d', hb', hrest.cons _⟩
    · cases turn with
      | zero =>
        -- put off: the tasks behind it go on first
        obtain ⟨d₁, hb₁, hrest⟩ := ih h 0
        obtain ⟨d₂, hb₂, hfirst⟩ := leads_resume hb₁ t _
        exact ⟨d₂, hb₂, (hrest.cons _).trans hfirst⟩
      | succ left =>
        obtain ⟨d₁, hb₁, hfirst⟩ := leads_resume h t (rest.map underway)
        obtain ⟨d₂, hb₂, hrest⟩ := ih hb₁ left
        exact ⟨d₂, hb₂, hfirst.trans (hrest.cons _)⟩

/-- To finish a task is to carry out what is left of its operation. -/
theorem finish_eq (h : b.Serves true d) (t : Task α) :
    (t.finish b).1 = Underway.alone (Daemon.link true) d t.underway ∧
      (t.finish b).2.Serves true (Underway.after (Daemon.link true) d t.underway) := by
  obtain ⟨limit, observed, progress⟩ := t
  cases progress with
  | finished a => exact ⟨rfl, h⟩
  | unanswered deadline next =>
    obtain ⟨ha, hstate, hb'⟩ := h.run (next (silence limit)) limit observed
    exact ⟨Prod.ext ha hstate, hb'⟩
  | underway arrival r next =>
    simp only [finish, underway, Underway.alone, Underway.after, Operation.run]
    split
    · rename_i reply b' hserve
      obtain ⟨d₁, hb₁, hlink⟩ := h.serve hserve limit
      obtain ⟨ha, hstate, hb'⟩ := hb₁.run (next (.ok reply)) limit observed
      simp only [hlink]
      exact ⟨Prod.ext ha hstate, hb'⟩
    · rename_i b' hserve
      obtain ⟨d₁, hb₁, hlink⟩ := h.serve hserve limit
      obtain ⟨ha, hstate, hb'⟩ := hb₁.run (next (silence limit)) limit observed
      simp only [hlink]
      exact ⟨Prod.ext ha hstate, hb'⟩

theorem finishAll_eq (h : b.Serves true d) (tasks : List (Task α)) :
    ∃ d', (finishAll tasks b).2.Serves true d' ∧
      runInTurn (Daemon.link true) (tasks.map underway) d = ((finishAll tasks b).1, d') := by
  induction tasks generalizing b d with
  | nil => exact ⟨d, h, rfl⟩
  | cons t rest ih =>
    obtain ⟨houtcome, hb'⟩ := finish_eq h t
    obtain ⟨d', hserves, hrest⟩ := ih hb'
    refine ⟨d', hserves, ?_⟩
    rw [List.map_cons, runInTurn_cons, hrest, ← houtcome]
    rfl

theorem rounds_eq (h : b.Serves true d) (fuel : Nat) (tasks : List (Task α)) :
    ∃ turns d', (rounds fuel tasks b).2.Serves true d' ∧
      interleave (Daemon.link true) turns (tasks.map underway) d = ((rounds fuel tasks b).1, d') := by
  induction fuel generalizing tasks b d with
  | zero =>
    obtain ⟨d', hserves, hfinish⟩ := finishAll_eq h tasks
    exact ⟨[], d', hserves, hfinish⟩
  | succ fuel ih =>
    unfold rounds
    split
    · obtain ⟨d', hserves, hfinish⟩ := finishAll_eq h tasks
      exact ⟨[], d', hserves, hfinish⟩
    · rename_i time _
      have hmoved : ({ b with clock := ⟨time⟩ } : Bench).Serves true d :=
        ⟨h.prepared, h.line, h.daemon⟩
      obtain ⟨d₁, hb₁, turns, hturns⟩ := leads_resumeAll hmoved turnLength tasks
      obtain ⟨more, d₂, hb₂, hmore⟩ := ih hb₁ _
      refine ⟨turns ++ more, d₂, hb₂, ?_⟩
      rw [interleave, takeTurns_append, hturns]
      exact hmore

end Task

theorem leads_startAll (h : b.Serves true d) (us : List (Underway α)) :
    ∃ d', (startAll us b).2.Serves true d' ∧
      Leads (Daemon.link true) us d ((startAll us b).1.map Task.underway) d' := by
  induction us generalizing b d with
  | nil => exact ⟨d, h, Leads.refl _ _⟩
  | cons u rest ih =>
    obtain ⟨limit, observed, x⟩ := u
    obtain ⟨d₁, hb₁, hfirst⟩ := Task.leads_advance h limit observed x rest
    obtain ⟨d₂, hb₂, hrest⟩ := ih hb₁
    exact ⟨d₂, hb₂, hfirst.trans (hrest.cons _)⟩

/-- What a connected bench carries out at the same time, its daemon has handled by some turns. -/
theorem together_eq_interleave (hprepared : b.prepared = []) (hline : b.connected = true)
    (us : List (Underway α)) : ∃ turns,
      interleave (Daemon.link true) turns us b.daemon =
        ((together us b).1, (together us b).2.daemon) := by
  have h : b.Serves true b.daemon := ⟨hprepared, hline, rfl⟩
  obtain ⟨d₁, hb₁, turns, hturns⟩ := leads_startAll h us
  obtain ⟨more, d₂, hb₂, hmore⟩ := Task.rounds_eq hb₁ (waitsPerOperation * us.length) (startAll us b).1
  refine ⟨turns ++ more, ?_⟩
  rw [interleave, takeTurns_append, hturns]
  exact hmore.trans (congrArg (_, ·) hb₂.daemon.symm)

/-- A deed with an entry of all registered nodes at the same time comes to what each of the nodes gives
alone. -/
theorem performAll_channel (hprepared : b.prepared = []) (hline : b.connected = true) (s : Session)
    (hmade : s.network.Made) (e : Entry) (deed : Client.EntryDeed) :
    (s.performAll channel (fun node => deed.attempt node e) b).1 =
      s.network.handles.toList.map fun p => (p.2.node,
        ((deed.attempt p.2.node e).run (Daemon.link true) p.2.limit (s.observed p.2) b.daemon).1) := by
  have hapart := s.pairwise_underways hmade e deed true
  obtain ⟨turns, hturns⟩ := together_eq_interleave hprepared hline
    (s.underways fun node => deed.attempt node e)
  have houtcomes := congrArg Prod.fst hturns
  rw [← (Session.performAll_byTurns hapart turns b.daemon).2]
  rw [interleave_eq hapart] at houtcomes
  rw [Session.performAll_eq, Session.performAll_eq]
  simp only [channel, inTurn, houtcomes]

end Bench

end Canopen
