import Canopen.Proofs.Bytes.Scan
import Canopen.Reply
/-!
# Replies and events in frames

A reply is read back from the frame that it makes for a request of its kind, and an event from its
frame. Whether a frame is read as a reply or as an event depends on its message id and on whether its
payload has the bytes that such a message needs (`Reply.exists_ofFrame_iff`,
`Event.exists_ofFrame_iff`); no frame is read as both, and no payload is read past its end.
-/
namespace Canopen

open Bytes (Scan)

namespace Reply

/-- Holds of the message ids of the requests that a reply of this kind answers. A refusal answers
any request. -/
def answers : Reply → UInt8 → Bool
  | entry _, id => id == 0x02
  | ack, id => id == 0x00 || id == 0x01 || id == 0x03 || id == 0x07
  | state _, id => id == 0x06
  | nodes _, id => id == 0x08
  | refusal _, _ => true

/-- The number of bytes that the payload of a reply needs. A list of nodes needs as many as its first
byte says, and that byte. There is none where the message id is that of no reply. -/
def needed? (f : Frame) : Option Nat :=
  match f.messageId.toNat with
  | 0x00 | 0x01 | 0x02 | 0x03 | 0x07 => some 0
  | 0x06 => some 1
  | 0x08 => some (1 + (f.payload.headD 0).toNat)
  | 0x80 | 0x81 | 0x82 | 0x85 => some 0
  | 0x83 => some 4
  | _ => none

/-- Reads the payload of a reply with a message id, part after part. -/
def scan (id : UInt8) : Scan LinkError Reply :=
  let short (part : ReplyPart) : LinkError := .malformed (.shortReply part)
  match id.toNat with
  | 0x02 => return entry (← Scan.rest)
  | 0x00 | 0x01 | 0x03 | 0x07 => return ack
  | 0x06 => do
    Scan.need 1 (short .state)
    return state (← Scan.byte)
  | 0x08 => do
    Scan.need 1 (short .nodeList)
    let count ← Scan.byte
    Scan.need count.toNat (short .nodeList)
    return nodes (← Scan.bytes count.toNat)
  | 0x80 => return refusal (.unknownMessage (← Scan.first))
  | 0x81 => return refusal .badLength
  | 0x82 => return refusal (.noSuchPdo (← Scan.first))
  | 0x83 => do
    Scan.need 4 (short .abort)
    return refusal (.abort (← Scan.word32))
  | 0x85 => return refusal (.unknownNode (← Scan.first))
  | _ => throw (.malformed (.unknownReply id))

/-- A list of nodes that is not too long is read back from its count and its ids. -/
theorem ofFrame_nodes {ids : List UInt8} (h : ids.length ≤ maxNodes) (sequence : UInt16) :
    ofFrame ⟨0x08, sequence, UInt8.ofNat ids.length :: ids⟩ = .ok (.nodes ids) := by
  have hlt : ids.length < 2 ^ 8 := Nat.lt_succ_of_le h
  have hcount : (UInt8.ofNat ids.length).toNat = ids.length := by
    rw [UInt8.toNat_ofNat', Nat.mod_eq_of_lt hlt]
  simp [ofFrame, hcount]

/-- A reply is read back from the frame that it makes for a request that it answers. -/
theorem ofFrame_of_toFrame {r : Reply} {id : UInt8} {sequence : UInt16} {f : Frame}
    (ha : r.answers id) (h : r.toFrame id sequence = .ok f) : ofFrame f = .ok r := by
  cases r with
  | entry data =>
    obtain rfl := Except.ok.inj h
    obtain rfl : id = 0x02 := by simpa [answers] using ha
    rfl
  | ack =>
    obtain rfl := Except.ok.inj h
    have hid : ((id = 0x00 ∨ id = 0x01) ∨ id = 0x03) ∨ id = 0x07 := by simpa [answers] using ha
    rcases hid with ((rfl | rfl) | rfl) | rfl <;> rfl
  | state code =>
    obtain rfl := Except.ok.inj h
    obtain rfl : id = 0x06 := by simpa [answers] using ha
    rfl
  | nodes ids =>
    obtain rfl : id = 0x08 := by simpa [answers] using ha
    simp only [toFrame] at h
    split at h
    · contradiction
    · rename_i hle
      obtain rfl := Except.ok.inj h
      exact ofFrame_nodes (Nat.le_of_not_lt hle) sequence
  | refusal why =>
    obtain rfl := Except.ok.inj h
    exact ofFrame_refusal why sequence

/-- A frame is read as a reply exactly where its message id is that of a reply and its payload has
the bytes that such a reply needs. -/
theorem exists_ofFrame_iff (f : Frame) :
    (∃ r, ofFrame f = .ok r) ↔ ∃ n, needed? f = some n ∧ n ≤ f.payload.length := by
  obtain ⟨id, sequence, payload⟩ := f
  unfold ofFrame needed?
  split
  all_goals
    rename_i hid
    simp only [hid]
  case h_6 => cases payload <;> simp
  case h_7 =>
    cases payload with
    | nil => simp
    | cons count ids => by_cases h : ids.length < count.toNat <;> simp [h] <;> omega
  case h_11 => rcases payload with _ | ⟨a, _ | ⟨b, _ | ⟨c, _ | ⟨d, rest⟩⟩⟩⟩ <;> simp
  all_goals simp_all

/-- A count and the ids after it are taken as a list of nodes where all ids are there. -/
theorem run?_scan_nodes (count : UInt8) (ids : List UInt8) :
    (scan 0x08).run? (count :: ids) =
      if ids.length < count.toNat then some (.error (.malformed (.shortReply .nodeList)))
      else some (.ok (.nodes (ids.take count.toNat))) := by
  change (do
    Scan.need count.toNat (.malformed (.shortReply .nodeList))
    return nodes (← Scan.bytes count.toNat) : Scan LinkError Reply).run? ids = _
  rw [Scan.run?_need]
  by_cases h : ids.length < count.toNat
  · rw [if_pos h, if_pos h]
  · rw [if_neg h, if_neg h, Scan.run?_bytes (Nat.le_of_not_lt h)]
    rfl

/-- Taking the parts off the payload gives what reading the frame gives, and never goes past the end
of the payload. -/
theorem run?_scan (f : Frame) : (scan f.messageId).run? f.payload = some (ofFrame f) := by
  obtain ⟨id, sequence, payload⟩ := f
  by_cases hnodes : id = 0x08
  · subst hnodes
    cases payload with
    | nil => rfl
    | cons count ids =>
      change (scan 0x08).run? (count :: ids) = _
      rw [run?_scan_nodes]
      by_cases h : ids.length < count.toNat <;> simp [ofFrame, h]
  · -- both readers go by the id alone: in each case they take the same bytes
    have hn : id.toNat ≠ 8 := fun h => hnodes (UInt8.toNat_inj.mp h)
    unfold scan ofFrame
    dsimp only
    generalize id.toNat = n at hn ⊢
    split
    case h_6 => cases payload <;> rfl
    case h_7 => exact absurd rfl hn
    case h_11 => rcases payload with _ | ⟨a, _ | ⟨b, _ | ⟨c, _ | ⟨d, rest⟩⟩⟩⟩ <;> rfl
    case h_13 => simp_all [Scan.run?_throw]
    all_goals rfl

end Reply

namespace Event

/-- The number of bytes that the payload of an event with a message id needs. There is none for an id
that is that of no event. -/
def needed? (id : UInt8) : Option Nat :=
  match id.toNat with
  | 0x90 => some 2
  | 0x91 => some 7
  | 0x92 => some 1
  | _ => none

/-- Reads the payload of an event, part after part. -/
def scan (f : Frame) : Scan LinkError Event :=
  let bad : LinkError := .malformed (.badEvent f.messageId f.payload.length)
  match f.messageId.toNat with
  | 0x90 => do
    Scan.need 2 bad
    return heartbeat (← Scan.byte) (← Scan.byte)
  | 0x91 => do
    Scan.need 7 bad
    return emergency (← Scan.byte) (← Scan.word16) (← Scan.word32)
  | 0x92 => do
    Scan.need 1 bad
    return busStatus (← Scan.byte)
  | _ => throw bad

theorem payload_emergency (node a b p q r s : UInt8) :
    (emergency node (Bytes.word16 a b) (Bytes.word32 p q r s)).toFrame.payload =
      [node, a, b, p, q, r, s] := by
  simp [toFrame]

/-- A payload with the bytes that an event of its id needs is that of one of them, and bytes after
it. -/
theorem exists_payload_eq {id : UInt8} {n : Nat} {payload : List UInt8} (h : needed? id = some n)
    (hn : n ≤ payload.length) :
    ∃ (e : Event) (rest : List UInt8), id = e.toFrame.messageId ∧
      payload = e.toFrame.payload ++ rest := by
  obtain ⟨front, rest, hfront, rfl⟩ := Bytes.exists_append_of_le hn
  unfold needed? at h
  split at h
  case h_1 hid =>
    cases h
    match front, hfront with
    | [node, state], _ => exact ⟨.heartbeat node state, rest, UInt8.toNat_inj.mp hid, rfl⟩
  case h_2 hid =>
    cases h
    match front, hfront with
    | [node, a, b, p, q, r, s], _ =>
      refine ⟨.emergency node (Bytes.word16 a b) (Bytes.word32 p q r s), rest,
        UInt8.toNat_inj.mp hid, ?_⟩
      rw [payload_emergency]
  case h_3 hid =>
    cases h
    match front, hfront with
    | [flags], _ => exact ⟨.busStatus flags, rest, UInt8.toNat_inj.mp hid, rfl⟩
  case h_4 => contradiction

/-- An event is read from before any bytes, by `ofFrame` and part after part. -/
theorem ofFrame_append (e : Event) (sequence : UInt16) (rest : List UInt8) :
    let f : Frame := ⟨e.toFrame.messageId, sequence, e.toFrame.payload ++ rest⟩
    ofFrame f = .ok e ∧ (scan f).run? f.payload = some (.ok e) := by
  cases e with
  | emergency node code info =>
    obtain ⟨a, b, hw, rfl⟩ := Bytes.exists_ofWord16 code
    obtain ⟨p, q, r, s, hw', rfl⟩ := Bytes.exists_ofWord32 info
    simp only [toFrame, hw, hw']
    exact ⟨rfl, rfl⟩
  | heartbeat node state | busStatus flags => exact ⟨rfl, rfl⟩

/-- A frame without the bytes that an event of its id needs, or whose id is that of no event, is read
as no event. -/
theorem ofFrame_of_short {f : Frame} (h : ∀ n, needed? f.messageId = some n → f.payload.length < n) :
    ofFrame f = .error (.malformed (.badEvent f.messageId f.payload.length)) := by
  unfold ofFrame
  split
  case h_4 => rfl
  all_goals
    simp_all only [needed?, Option.some.injEq, List.length_cons, forall_eq']
    omega

theorem run?_scan_of_short {f : Frame}
    (h : ∀ n, needed? f.messageId = some n → f.payload.length < n) :
    (scan f).run? f.payload =
      some (.error (.malformed (.badEvent f.messageId f.payload.length))) := by
  unfold scan
  split
  case h_4 => rfl
  all_goals
    rename_i hid
    simp only [needed?, hid, Option.some.injEq, forall_eq'] at h
    rw [Scan.run?_need, if_pos h]

/-- The payload of a frame is too short, or that of an event and bytes after it. -/
theorem short_or_exists (f : Frame) :
    (∀ n, needed? f.messageId = some n → f.payload.length < n) ∨
      (∃ n, needed? f.messageId = some n ∧ n ≤ f.payload.length) ∧
        ∃ (e : Event) (rest : List UInt8),
          f = ⟨e.toFrame.messageId, f.sequence, e.toFrame.payload ++ rest⟩ := by
  obtain ⟨id, sequence, payload⟩ := f
  cases hn : needed? id with
  | none => exact .inl nofun
  | some n =>
    by_cases hle : n ≤ payload.length
    · obtain ⟨e, rest, rfl, rfl⟩ := exists_payload_eq hn hle
      exact .inr ⟨⟨n, rfl, hle⟩, e, rest, rfl⟩
    · refine .inl fun m hm => ?_
      obtain rfl := Option.some.inj hm
      exact Nat.lt_of_not_le hle

/-- A frame is read as an event exactly where its message id is that of an event and its payload has
the bytes that such an event needs. -/
theorem exists_ofFrame_iff (f : Frame) :
    (∃ e, ofFrame f = .ok e) ↔ ∃ n, needed? f.messageId = some n ∧ n ≤ f.payload.length := by
  rcases short_or_exists f with hshort | ⟨hlong, e, rest, hf⟩
  · constructor
    · rintro ⟨e, he⟩
      rw [ofFrame_of_short hshort] at he
      contradiction
    · rintro ⟨n, hn, hle⟩
      exact absurd (hshort n hn) (Nat.not_lt.mpr hle)
  · refine iff_of_true ⟨e, ?_⟩ hlong
    rw [hf]
    exact (ofFrame_append e f.sequence rest).1

/-- Taking the parts off the payload gives what reading the frame gives, and never goes past the end
of the payload. -/
theorem run?_scan (f : Frame) : (scan f).run? f.payload = some (ofFrame f) := by
  rcases short_or_exists f with hshort | ⟨-, e, rest, hf⟩
  · rw [run?_scan_of_short hshort, ofFrame_of_short hshort]
  · obtain ⟨hread, hscan⟩ := ofFrame_append e f.sequence rest
    rw [hf, hread, hscan]

end Event

/-- The message ids of events are not those of replies. -/
theorem Reply.needed?_eq_none {f : Frame} {n : Nat} (h : Event.needed? f.messageId = some n) :
    needed? f = none := by
  unfold Event.needed? at h
  split at h
  case h_4 => contradiction
  all_goals
    rename_i hid
    simp [needed?, hid]

/-- No frame is read as a reply and as an event. -/
theorem Reply.not_both (f : Frame) :
    ¬((∃ r, Reply.ofFrame f = .ok r) ∧ ∃ e, Event.ofFrame f = .ok e) := by
  rintro ⟨hreply, hevent⟩
  obtain ⟨n, hn, -⟩ := (Event.exists_ofFrame_iff f).mp hevent
  obtain ⟨m, hm, -⟩ := (Reply.exists_ofFrame_iff f).mp hreply
  rw [needed?_eq_none hn] at hm
  contradiction

/-- The codecs of replies and events are exact: a reply makes a frame for each request that it
answers, if it is no list of too many nodes, and is read back from it; an event is read back from its
frame; a frame is read as either exactly where its message id and the length of its payload are those
of one, where the one byte of a refusal may be missing; no frame is read as both, and no byte is
taken past the end of a payload. -/
theorem Reply.replies_and_events_exact :
    (∀ (r : Reply) (id : UInt8) (sequence : UInt16), r.answers id →
      ((∃ e, r.toFrame id sequence = .error e) ↔ ∃ ids, r = .nodes ids ∧ maxNodes < ids.length) ∧
      ((¬∃ ids, r = .nodes ids ∧ maxNodes < ids.length) →
        ∃ f, r.toFrame id sequence = .ok f ∧ f.sequence = sequence ∧ ofFrame f = .ok r)) ∧
    (∀ e : Event, Event.ofFrame e.toFrame = .ok e ∧ e.toFrame.isEvent) ∧
    ∀ f : Frame,
      ((∃ r, Reply.ofFrame f = .ok r) ↔ ∃ n, needed? f = some n ∧ n ≤ f.payload.length) ∧
      (∀ why : Refusal, f.messageId = why.messageId → f.payload = [] → why.payload = [0] →
        Reply.ofFrame f = .ok (.refusal why)) ∧
      ((∃ e, Event.ofFrame f = .ok e) ↔
        ∃ n, Event.needed? f.messageId = some n ∧ n ≤ f.payload.length) ∧
      ¬((∃ r, Reply.ofFrame f = .ok r) ∧ ∃ e, Event.ofFrame f = .ok e) ∧
      (Reply.scan f.messageId).run? f.payload = some (Reply.ofFrame f) ∧
      (Event.scan f).run? f.payload = some (Event.ofFrame f) := by
  refine ⟨fun r id sequence ha => ⟨exists_toFrame_error_iff r id sequence, fun hfit => ?_⟩,
    fun e => ⟨Event.ofFrame_toFrame e, Event.isEvent_toFrame e⟩, fun f => ?_⟩
  · rw [← exists_toFrame_error_iff r id sequence] at hfit
    cases hf : r.toFrame id sequence with
    | ok f => exact ⟨f, rfl, sequence_of_toFrame hf, ofFrame_of_toFrame ha hf⟩
    | error e => exact absurd ⟨e, hf⟩ hfit
  · refine ⟨exists_ofFrame_iff f, fun why hid hp h => ?_, Event.exists_ofFrame_iff f, not_both f,
      run?_scan f, Event.run?_scan f⟩
    obtain ⟨id, sequence, payload⟩ := f
    cases hid
    cases hp
    exact ofFrame_refusal_of_missing h sequence

/-- Three nodes as a reply to the request for the nodes, and a refusal without its byte. -/
theorem Reply.replies_and_events_exact_nodes :
    (∃ f, (nodes [1, 2, 5]).toFrame 0x08 3 = .ok f ∧ f.sequence = 3 ∧
      ofFrame f = .ok (.nodes [1, 2, 5])) ∧
      ofFrame ⟨0x85, 3, []⟩ = .ok (.refusal (.unknownNode 0)) := by
  constructor
  · exact (replies_and_events_exact.1 (.nodes [1, 2, 5]) 0x08 3 rfl).2 (by simp [maxNodes])
  · exact (replies_and_events_exact.2.2 ⟨0x85, 3, []⟩).2.1 (.unknownNode 0) rfl rfl rfl

end Canopen
