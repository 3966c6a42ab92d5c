import Canopen.Proofs.Frame.Stream
import Canopen.Proofs.Reply.Codec
import Canopen.Proofs.Request.Codec
import Canopen.Server
/-!
# The daemon behind streams is the daemon

A request that goes to the daemon in a frame, and whose reply comes back in a frame, does to the
daemon what it does when it is handled at once, and gets the same reply, as far as request and reply
fit their frames (`stream_transparent`). The daemon answers each request with a reply of its kind
(`answers_of_handle`), which is why the reply can be read back.
-/
namespace Canopen

namespace Reply

/-- Holds of the replies that travel in a frame. -/
def Fits : Reply → Prop
  | entry data => data.length ≤ Frame.maxLength - Frame.headerLength
  | nodes ids => ids.length ≤ maxNodes
  | _ => True

instance (q : Reply) : Decidable q.Fits :=
  match q with
  | entry data => inferInstanceAs (Decidable (data.length ≤ Frame.maxLength - Frame.headerLength))
  | nodes ids => inferInstanceAs (Decidable (ids.length ≤ maxNodes))
  | ack | state _ | refusal _ => inferInstanceAs (Decidable True)

/-- What comes back of a reply to a request with a message id. Of one that makes no frame nothing
comes back. -/
def overStream (q : Reply) (id : UInt8) (sequence : UInt16) :
    Except LinkError (Option (UInt16 × Reply)) :=
  match q.toFrame id sequence with
  | .error _ => .ok none
  | .ok f =>
    match Frame.read f.encode with
    | .error e => .error e
    | .ok (g, _) => (Reply.ofFrame g).map fun q => some (g.sequence, q)

theorem length_payload_refusal_le (why : Refusal) : why.payload.length ≤ 4 := by
  cases why <;> simp [Refusal.payload, Bytes.ofWord32]

/-- A reply that fits makes a frame that is not too long. -/
theorem exists_toFrame_of_fits {q : Reply} (h : q.Fits) (id : UInt8) (sequence : UInt16) :
    ∃ f, q.toFrame id sequence = .ok f ∧ f.bodyLength ≤ Frame.maxLength := by
  have hroom : 256 ≤ Frame.maxLength - Frame.headerLength := by decide
  cases q with
  | entry data => exact ⟨_, rfl, Frame.bodyLength_le_iff.mpr h⟩
  | nodes ids =>
    have hlen : ids.length ≤ 255 := h
    exact ⟨_, if_neg (Nat.not_lt.mpr h),
      Frame.bodyLength_le_iff.mpr (Nat.le_trans (Nat.succ_le_succ hlen) hroom)⟩
  | ack => exact ⟨_, rfl, Frame.bodyLength_le_iff.mpr (Nat.zero_le _)⟩
  | state code => exact ⟨_, rfl, Frame.bodyLength_le_iff.mpr (Nat.le_trans (by simp) hroom)⟩
  | refusal why =>
    have hlen := length_payload_refusal_le why
    exact ⟨_, rfl, Frame.bodyLength_le_iff.mpr (Nat.le_trans hlen (Nat.le_trans (by decide) hroom))⟩

/-- An entry is read from a frame that has its bytes and no others. -/
theorem payload_of_ofFrame_entry {f : Frame} {data : List UInt8}
    (h : ofFrame f = .ok (.entry data)) : f.payload = data := by
  unfold ofFrame at h
  dsimp only at h
  split at h
  case h_1 => simpa using h
  case h_6 | h_11 => split at h <;> nomatch h
  case h_7 =>
    split at h
    · split at h <;> nomatch h
    · nomatch h
  all_goals nomatch h

/-- A reply to a request that it answers comes back as it is exactly where it fits. -/
theorem overStream_eq_iff {q : Reply} {id : UInt8} (ha : q.answers id) (sequence : UInt16) :
    q.overStream id sequence = .ok (some (sequence, q)) ↔ q.Fits := by
  constructor
  · intro h
    cases q with
    | entry data =>
      simp only [overStream, toFrame] at h
      split at h
      · contradiction
      · rename_i g rest hg
        cases hq : ofFrame g with
        | error e => simp [hq, Except.map] at h
        | ok q =>
          obtain ⟨-, rfl⟩ : g.sequence = sequence ∧ q = entry data := by
            simpa [hq, Except.map] using h
          rw [Fits, ← payload_of_ofFrame_entry hq, ← Frame.bodyLength_le_iff]
          exact Frame.bodyLength_le_of_read hg
    | nodes ids =>
      refine Nat.le_of_not_lt fun hlong => ?_
      simp [overStream, toFrame, hlong] at h
    | ack | state | refusal => trivial
  · intro h
    obtain ⟨f, hf, hlen⟩ := exists_toFrame_of_fits h id sequence
    have hread := Frame.read_encode_append hlen []
    rw [List.append_nil] at hread
    simp only [overStream, hf, hread, ofFrame_of_toFrame ha hf, sequence_of_toFrame hf]
    rfl

end Reply

namespace Daemon

variable {d : Daemon} {r : Request} {q : Reply}

/-- What a failure makes the daemon answer is of the kind of the request. -/
theorem answers_of_failure? (h : d.failure? r = some (some q)) : q.answers r.messageId := by
  unfold failure? at h
  split at h
  case h_1 => contradiction
  case h_2 => simp at h
  case h_3 =>
    cases h
    rfl
  case h_4 =>
    split at h
    · cases h
      rfl
    · contradiction

/-- What the daemon answers for a node it knows is of the kind of the request. -/
theorem answers_of_serveNode {node : UInt8} {n : NodeStore} {after : Daemon × List Event}
    (h : d.serveNode node n r = .ok (q, after)) : q.answers r.messageId := by
  cases r with
  | readEntry _ a | writeEntry _ a data | command _ code | sendPdo _ number =>
    simp only [serveNode] at h
    split at h
    · cases h
      rfl
    · contradiction
  | queryState | sendEmergency | listNodes =>
    cases h
    rfl

/-- What the daemon answers to a request is of its kind. -/
theorem answers_of_handle (h : (d.handle r).1 = some q) : q.answers r.messageId := by
  unfold handle at h
  split at h
  case h_1 hfail =>
    obtain rfl : _ = some q := h
    exact answers_of_failure? hfail
  case h_2 =>
    split at h
    case h_1 hnode =>
      cases h
      cases r <;> first | rfl | contradiction
    case h_2 =>
      split at h
      case h_1 =>
        cases h
        rfl
      case h_2 =>
        split at h
        case h_1 hserve =>
          cases h
          exact answers_of_serveNode hserve
        case h_2 =>
          cases h
          rfl

/-- The frame of a request is answered with the frame of the reply to the request. -/
theorem serveFrame_toFrame (d : Daemon) (r : Request) (sequence : UInt16) :
    d.serveFrame (r.toFrame sequence) =
      ((d.handle r).1.bind fun q => (q.toFrame r.messageId sequence).toOption, (d.handle r).2) := by
  simp only [serveFrame, Request.ofFrame_toFrame]
  rfl

/-- What comes over streams on a request that fits is what comes over them of the reply, or nothing
where the daemon stays silent; and the daemon becomes what it becomes when it handles the request. -/
theorem answerOverStream_eq {sequence : UInt16}
    (hfit : (r.toFrame sequence).bodyLength ≤ Frame.maxLength) :
    d.answerOverStream sequence r =
      (match (d.handle r).1 with
        | none => .ok none
        | some q => q.overStream r.messageId sequence, (d.handle r).2) := by
  have hread := Frame.read_encode_append hfit []
  rw [List.append_nil] at hread
  rw [answerOverStream, Request.sendFault?_eq_none_iff.mpr hfit]
  simp only [hread, serveFrame_toFrame]
  cases hreply : (d.handle r).1 with
  | none => simp
  | some q =>
    simp only [Reply.overStream]
    cases hf : q.toFrame r.messageId sequence with
    | error e => simp [hf, Except.toOption]
    | ok f =>
      simp only [hf, Except.toOption, Option.bind_some]
      cases Frame.read f.encode <;> rfl

/-- A request that is too long is refused, and the daemon does not notice it. -/
theorem answerOverStream_of_long {sequence : UInt16}
    (hlong : Frame.maxLength < (r.toFrame sequence).bodyLength) :
    d.answerOverStream sequence r = (.error (.notSent (.tooLong r.payload.length)), d, []) := by
  have hfault : r.sendFault? = some (.tooLong r.payload.length) := if_pos hlong
  rw [answerOverStream, hfault]

/-- The daemon behind streams is the daemon: a request that fits a frame makes of it what it makes
when it is handled at once, with the same events; the reply comes back as it is, with the number of
the request, exactly where it fits a frame, and nothing comes back where there is none. A request
that does not fit is refused and changes nothing. -/
theorem stream_transparent (d : Daemon) (sequence : UInt16) (r : Request) :
    ((r.toFrame sequence).bodyLength ≤ Frame.maxLength →
      (d.answerOverStream sequence r).2 = (d.handle r).2 ∧
      ((d.handle r).1 = none → (d.answerOverStream sequence r).1 = .ok none) ∧
      ∀ q, (d.handle r).1 = some q →
        ((d.answerOverStream sequence r).1 = .ok (some (sequence, q)) ↔ q.Fits)) ∧
    (Frame.maxLength < (r.toFrame sequence).bodyLength →
      d.answerOverStream sequence r = (.error (.notSent (.tooLong r.payload.length)), d, [])) := by
  refine ⟨fun hfit => ?_, answerOverStream_of_long⟩
  rw [answerOverStream_eq hfit]
  refine ⟨rfl, fun hnone => ?_, fun q hq => ?_⟩
  · rw [hnone]
  · rw [hq]
    exact Reply.overStream_eq_iff (answers_of_handle hq) sequence

/-- A daemon with a node that has one entry, and a node that stays silent. -/
def halfSilent : Daemon where
  nodes := (SortedMap.empty.insert 5 { entries := [(⟨0x2000, 1⟩, ⟨[0xAA, 0xBB], some 2⟩)] }).insert 9 {}
  failing := SortedMap.empty.insert 9 .silent

theorem stream_transparent_halfSilent :
    (halfSilent.answerOverStream 7 (.readEntry 5 ⟨0x2000, 1⟩)).1 =
        .ok (some (7, .entry [0xAA, 0xBB])) ∧
      (halfSilent.answerOverStream 8 (.command 9 1)).1 = .ok none ∧
      (halfSilent.answerOverStream 8 (.command 9 1)).2 = (halfSilent, []) := by
  obtain ⟨-, -, hreply⟩ := (stream_transparent halfSilent 7 (.readEntry 5 ⟨0x2000, 1⟩)).1 (by decide)
  obtain ⟨hafter, hsilent, -⟩ := (stream_transparent halfSilent 8 (.command 9 1)).1 (by decide)
  exact ⟨(hreply (.entry [0xAA, 0xBB]) rfl).mpr (by decide), hsilent rfl, hafter⟩

end Daemon

end Canopen
