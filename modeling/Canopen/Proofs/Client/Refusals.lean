import Canopen.Proofs.Client.Exchanges
import Canopen.Proofs.Daemon.OverStream
/-!
# Refusals in what comes of a deed

A refusal ends whatever a client does with the error that tells it (`Client.HeedsRefusals`). If the refusal
has a code, `ClientError.abortCode?` gives it, unless it means that there is no such entry
(`Client.abortCode_given_iff`).
-/
namespace Canopen

namespace AbortCode

theorem isNotFound_iff {code : AbortCode} :
    code.isNotFound ↔ code = 0x06020000 ∨ code = 0x06090011 := by
  rw [isNotFound, Bool.or_eq_true, decide_eq_true_eq, decide_eq_true_eq]
  rfl

end AbortCode

namespace Client

variable {α σ : Type}

/-- Holds of attempts that end where a request is refused, with the error that tells the refusal. -/
def HeedsRefusals (α : Type) : Attempt α → Prop
  | .done _ => True
  | .ask _ next => (∀ why, next (.ok (.refusal why)) = fail (.refused why)) ∧
      ∀ answer, HeedsRefusals α (next answer)
  | .look next => ∀ state, HeedsRefusals α (next state)
  | .note _ next => HeedsRefusals α next

theorem closed_heedsRefusals : Closed (fun _ => True) HeedsRefusals where
  done _ := trivial
  exchange _ hf := by
    refine ⟨fun _ => rfl, fun answer => ?_⟩
    cases answer with
    | error e => trivial
    | ok q =>
      cases q with
      | refusal why => trivial
      | _ => exact hf _
  look hf := hf
  note _ _ hx := hx
  andThen {α β x f} hx hf := by
    simp only [andThen]
    induction x with
    | done r =>
      cases r with
      | ok a => exact hf a
      | error e => trivial
    | ask request next ih =>
      -- a refusal has ended what comes first, and so all of it
      refine ⟨fun why => ?_, fun answer => ih answer (hx.2 answer)⟩
      dsimp only
      rw [hx.1 why]
      rfl
    | look next ih => exact fun state => ih state (hx state)
    | note state next ih => exact ih hx

/-- A refusal is the last thing that is exchanged, and what the attempt comes to. -/
theorem HeedsRefusals.of_replay {x : Attempt α} (hx : HeedsRefusals α x)
    {observed observed' : NodeState} {t : List Exchange} {r : Except ClientError α}
    {request : Request} {why : Refusal} (ht : x.replay observed t = some (r, observed'))
    (hmem : (request, .ok (.refusal why)) ∈ t) : r = .error (.refused why) := by
  induction x generalizing observed t with
  | done a => cases t <;> contradiction
  | ask asked next ih =>
    cases t with
    | nil => contradiction
    | cons e t =>
      rw [Operation.replay] at ht
      split at ht
      · rcases List.mem_cons.mp hmem with rfl | hmem
        · rw [hx.1] at ht
          cases t <;> cases ht
          rfl
        · exact ih e.2 (hx.2 _) ht hmem
      · contradiction
  | look next ih => exact ih observed (hx observed) ht hmem
  | note state next ih => exact ih hx ht hmem

/-- Holds of an exchange in which the daemon gives a request up with a code. The answer says so, be it
handed over as it is or read from the frame in which it has come. -/
def Aborts (code : AbortCode) (e : Exchange) : Prop :=
  e.2 = .ok (.refusal (.abort code)) ∨ ∃ sequence : UInt16,
    (Reply.refusal (.abort code)).overStream e.1.messageId sequence =
      e.2.map fun reply => some (sequence, reply)

/-- The code travels through a frame as it is. -/
theorem Aborts.answer_eq {code : AbortCode} {e : Exchange} (h : Aborts code e) :
    e.2 = .ok (.refusal (.abort code)) := by
  rcases h with hdirect | ⟨sequence, hframe⟩
  · exact hdirect
  · have hread : (Reply.refusal (.abort code)).overStream e.1.messageId sequence =
        .ok (some (sequence, .refusal (.abort code))) :=
      (Reply.overStream_eq_iff rfl sequence).mpr trivial
    rw [hread] at hframe
    rcases e with ⟨request, _ | reply⟩
    · contradiction
    · have hreply := congrArg Prod.snd (Option.some.inj (Except.ok.inj hframe))
      exact congrArg Except.ok hreply.symm

/-- What comes of a deed where the daemon has given a request up with a code. -/
structure GivenUp (code : AbortCode) (r : Except ClientError α) : Prop where
  refused : r = .error (.refused (.abort code))
  /-- The error gives the code unless it means that there is no such entry. -/
  given_iff : (∃ e, r = .error e ∧ e.abortCode? = some code) ↔
    code ≠ 0x06020000 ∧ code ≠ 0x06090011
  /-- Then it is of a kind of its own, and the code stands in its words alone. -/
  notFound : code = 0x06020000 ∨ code = 0x06090011 → ∃ e, r = .error e ∧ e.kind = .notFound ∧
    e.abortCode? = none ∧
    e.detail = s!"{code.description} (abort 0x{Text.Hex.padded 8 code.toNat})"

theorem givenUp_refused (code : AbortCode) :
    GivenUp code (.error (.refused (.abort code)) : Except ClientError α) := by
  have hcode : (∃ e, (.error (.refused (.abort code)) : Except ClientError α) = .error e ∧
      e.abortCode? = some code) ↔ ¬code.isNotFound := by simp [ClientError.abortCode?]
  refine ⟨rfl, ?_, fun h => ?_⟩
  · rw [hcode, AbortCode.isNotFound_iff, not_or]
  · have hfound := AbortCode.isNotFound_iff.mpr h
    have hkind : (ClientError.refused (.abort code)).kind = .notFound := if_pos hfound
    have hnone : (ClientError.refused (.abort code)).abortCode? = none := if_pos hfound
    exact ⟨_, rfl, hkind, hnone, rfl⟩

/-- Whatever a client does for a node and whatever the link, if the daemon gives one of the requests
up with a code, directly or in a frame, then the deed fails, and the error gives the code exactly if
it is not one of the two that mean that there is no such entry. -/
theorem abortCode_given_iff (d : Deed α) (node : UInt8) (link : Link σ) (limit : Duration)
    (observed : NodeState) (s : σ) (code : AbortCode) :
    let (r, _, _, t) := (d.attempt node).run link.logged limit observed (s, [])
    (∃ e ∈ t, Aborts code e) → GivenUp code r := by
  obtain ⟨t, -, hlog, hreplay⟩ := Operation.exists_run_logged (d.asks node) link limit observed s []
  rcases hrun : (d.attempt node).run link.logged limit observed (s, []) with ⟨r, observed', s', log⟩
  rw [hrun, List.nil_append] at hlog
  rw [hrun] at hreplay
  obtain rfl : log = t := hlog
  rintro ⟨⟨request, answer⟩, hmem, habort⟩
  obtain rfl : answer = .ok (.refusal (.abort code)) := habort.answer_eq
  have hr := (closed_heedsRefusals.attempt (fun _ _ => trivial) d).of_replay hreplay hmem
  obtain rfl : r = .error (.refused (.abort code)) := hr
  exact givenUp_refused code

/-- A link that acknowledges the choice of a file and gives everything else up, as the state of the node
does not allow it. -/
def choosing : Link Unit := fun _ r s =>
  match r with
  | .writeEntry _ ⟨_, 3⟩ _ => (.ok .ack, s)
  | _ => (.ok (.refusal (.abort 0x08000022)), s)

theorem abortCode_given_iff_samples :
    GivenUp 0x08000022
        ((receiveFile 5 "log").run choosing.logged ⟨1000⟩ .operational ((), [])).1 ∧
      GivenUp 0x06020000 ((readRaw 5 Standard.freadFileData).run (Daemon.link true).logged ⟨1000⟩
        .operational (Daemon.halfSilent, [])).1 := by
  constructor
  · refine abortCode_given_iff (.receiveFile "log") 5 choosing ⟨1000⟩ .operational () 0x08000022
      ⟨(.readEntry 5 ⟨0x3004, 4⟩, .ok (.refusal (.abort 0x08000022))), ?_, .inr ⟨7, ?_⟩⟩
    · exact .tail _ (.head _)
    · exact (Reply.overStream_eq_iff rfl 7).mpr trivial
  · exact abortCode_given_iff (.readRaw Standard.freadFileData) 5 _ ⟨1000⟩ .operational
      Daemon.halfSilent 0x06020000 ⟨_, List.mem_singleton_self _, .inl rfl⟩

/-- A daemon whose node 5 has no file to read says that there is no such object, and the code of that is
not given. -/
theorem not_always_given : ¬∀ (α σ : Type) (d : Deed α) (node : UInt8) (link : Link σ)
    (limit : Duration) (observed : NodeState) (s : σ) (code : AbortCode),
    let (r, _, _, t) := (d.attempt node).run link.logged limit observed (s, [])
    (∃ e ∈ t, Aborts code e) → ∃ e, r = .error e ∧ e.abortCode? = some code := by
  intro h
  obtain ⟨e, he, hcode⟩ := h _ _ (.readRaw Standard.freadFileData) 5 (Daemon.link true) default
    .initializing Daemon.halfSilent 0x06020000 ⟨_, List.mem_singleton_self _, .inl rfl⟩
  cases he
  contradiction

end Client

end Canopen
