import Canopen.Proofs.Bytes.Scan
import Canopen.Request
/-!
# Requests in frames

A request is read back from its frame, with whatever bytes come after it. What a frame is when it is
read as a request (`Reading`) depends on its message id and on whether its payload has the fixed part
of such a request; the payload is never read past its end (`run?_scan`).
-/
namespace Canopen.Request

open Bytes (Scan)

/-- The number of bytes that come first in the payload of each request with a message id. There is
none for an id that no request has. -/
def fixedLength? (id : UInt8) : Option Nat :=
  match id.toNat with
  | 0x00 => some 7
  | 0x01 => some 2
  | 0x02 => some 4
  | 0x03 => some 4
  | 0x06 => some 1
  | 0x07 => some 2
  | 0x08 => some 0
  | _ => none

/-- Holds of the requests whose fixed part is followed by data of any length. -/
def hasData : Request → Bool
  | writeEntry .. => true
  | _ => false

/-- Reads the payload of a request with a message id: looks at its length once, then takes the parts
one after another. -/
def scan (id : UInt8) : Scan Refusal Request :=
  match id.toNat with
  | 0x00 => do
    Scan.need 7 .badLength
    return sendEmergency (← Scan.byte) (← Scan.word16) (← Scan.word32)
  | 0x01 => do
    Scan.need 2 .badLength
    return sendPdo (← Scan.byte) (← Scan.byte)
  | 0x02 => do
    Scan.need 4 .badLength
    return readEntry (← Scan.byte) ⟨← Scan.word16, ← Scan.byte⟩
  | 0x03 => do
    Scan.need 4 .badLength
    return writeEntry (← Scan.byte) ⟨← Scan.word16, ← Scan.byte⟩ (← Scan.rest)
  | 0x06 => do
    Scan.need 1 .badLength
    return queryState (← Scan.byte)
  | 0x07 => do
    Scan.need 2 .badLength
    return command (← Scan.byte) (← Scan.byte)
  | 0x08 => return listNodes
  | _ => throw (.unknownMessage id)

/-- What a frame is when it is read as a request. -/
inductive Reading (f : Frame) : Except Refusal Request → Prop where
  | unknown (h : fixedLength? f.messageId = none) : Reading f (.error (.unknownMessage f.messageId))
  | short {n : Nat} (h : fixedLength? f.messageId = some n) (hn : f.payload.length < n) :
      Reading f (.error .badLength)
  | whole {n : Nat} {r : Request} {rest : List UInt8} (h : fixedLength? f.messageId = some n)
      (hn : n ≤ f.payload.length) (hid : f.messageId = r.messageId)
      (hp : f.payload = r.payload ++ rest) (hrest : r.hasData → rest = []) : Reading f (.ok r)

/-- A request is read from before any bytes, which belong to it if it has data. -/
theorem ofFrame_append (r : Request) (sequence : UInt16) {rest : List UInt8}
    (h : r.hasData → rest = []) : ofFrame ⟨r.messageId, sequence, r.payload ++ rest⟩ = .ok r := by
  cases r with
  | readEntry node address =>
    obtain ⟨a, b, hw, hv⟩ := Bytes.exists_ofWord16 address.index
    simp [payload, addressBytes, hw, ofFrame, messageId, hv]
  | writeEntry node address data =>
    obtain ⟨a, b, hw, hv⟩ := Bytes.exists_ofWord16 address.index
    simp [payload, addressBytes, hw, ofFrame, messageId, hv, h rfl]
  | sendEmergency node code info =>
    obtain ⟨a, b, hw, hv⟩ := Bytes.exists_ofWord16 code
    obtain ⟨p, q, r, s, hw', hv'⟩ := Bytes.exists_ofWord32 info
    simp [payload, hw, hw', ofFrame, messageId, hv, hv']
  | queryState node | command node code | listNodes | sendPdo node number => rfl

/-- A request is read back from its frame, whatever its number. -/
@[simp] theorem ofFrame_toFrame (r : Request) (sequence : UInt16) :
    ofFrame (r.toFrame sequence) = .ok r := by
  have hnone : r.hasData → ([] : List UInt8) = [] := fun _ => rfl
  have h := ofFrame_append r sequence hnone
  rwa [List.append_nil] at h

/-- A payload with the fixed part of the requests of its id is that of one of them, and bytes after it
that do not belong to the request. -/
theorem exists_payload_eq {id : UInt8} {n : Nat} {payload : List UInt8}
    (h : fixedLength? id = some n) (hn : n ≤ payload.length) :
    ∃ (r : Request) (rest : List UInt8), id = r.messageId ∧ payload = r.payload ++ rest ∧
      (r.hasData → rest = []) := by
  -- only a write takes what comes after the fixed part as its own
  obtain ⟨front, rest, hfront, rfl⟩ := Bytes.exists_append_of_le hn
  unfold fixedLength? at h
  split at h
  case h_1 hid =>
    cases h
    match front, hfront with
    | [node, a, b, p, q, r, s], _ =>
      exact ⟨.sendEmergency node (Bytes.word16 a b) (Bytes.word32 p q r s), rest,
        UInt8.toNat_inj.mp hid, by simp [Request.payload], by simp [hasData]⟩
  case h_2 hid =>
    cases h
    match front, hfront with
    | [node, number], _ => exact ⟨.sendPdo node number, rest, UInt8.toNat_inj.mp hid, rfl, nofun⟩
  case h_3 hid =>
    cases h
    match front, hfront with
    | [node, a, b, subIndex], _ =>
      exact ⟨.readEntry node ⟨Bytes.word16 a b, subIndex⟩, rest, UInt8.toNat_inj.mp hid,
        by simp [Request.payload, addressBytes], nofun⟩
  case h_4 hid =>
    cases h
    match front, hfront with
    | [node, a, b, subIndex], _ =>
      exact ⟨.writeEntry node ⟨Bytes.word16 a b, subIndex⟩ rest, [], UInt8.toNat_inj.mp hid,
        by simp [Request.payload, addressBytes], fun _ => rfl⟩
  case h_5 hid =>
    cases h
    match front, hfront with
    | [node], _ => exact ⟨.queryState node, rest, UInt8.toNat_inj.mp hid, rfl, nofun⟩
  case h_6 hid =>
    cases h
    match front, hfront with
    | [node, code], _ => exact ⟨.command node code, rest, UInt8.toNat_inj.mp hid, rfl, nofun⟩
  case h_7 hid =>
    cases h
    match front, hfront with
    | [], _ => exact ⟨.listNodes, rest, UInt8.toNat_inj.mp hid, rfl, nofun⟩
  case h_8 => contradiction

/-- The payload of a request is the fixed part for its id, and the data that it has. -/
theorem exists_fixedLength (r : Request) :
    ∃ n, fixedLength? r.messageId = some n ∧ n ≤ r.payload.length ∧
      (r.hasData ∨ r.payload.length = n) := by
  cases r with
  | writeEntry node address data =>
    have hlen : 4 ≤ (writeEntry node address data).payload.length := by
      simp [payload, addressBytes, Bytes.ofWord16]
      omega
    exact ⟨4, rfl, hlen, .inl rfl⟩
  | readEntry | queryState | command | listNodes | sendEmergency | sendPdo =>
    exact ⟨_, rfl, Nat.le_refl _, .inr rfl⟩

/-- The ids without a fixed part are those that no request has. -/
theorem fixedLength?_eq_none_iff {id : UInt8} :
    fixedLength? id = none ↔ ∀ r : Request, r.messageId ≠ id := by
  constructor
  · rintro h r rfl
    obtain ⟨n, hn, -⟩ := exists_fixedLength r
    rw [h] at hn
    contradiction
  · intro h
    cases hn : fixedLength? id with
    | none => rfl
    | some n =>
      have hlen : n ≤ (List.replicate n (0 : UInt8)).length := by simp
      obtain ⟨r, -, hid, -⟩ := exists_payload_eq hn hlen
      exact absurd hid.symm (h r)

theorem exists_reading (f : Frame) : ∃ result, Reading f result := by
  cases h : fixedLength? f.messageId with
  | none => exact ⟨_, .unknown h⟩
  | some n =>
    by_cases hn : f.payload.length < n
    · exact ⟨_, .short h hn⟩
    · obtain ⟨r, rest, hid, hp, hrest⟩ := exists_payload_eq h (Nat.le_of_not_lt hn)
      exact ⟨_, .whole h (Nat.le_of_not_lt hn) hid hp hrest⟩

theorem ofFrame_of_unknown {f : Frame} (h : fixedLength? f.messageId = none) :
    ofFrame f = .error (.unknownMessage f.messageId) := by
  unfold ofFrame
  split
  case h_14 => rfl
  all_goals simp [fixedLength?, *] at h

theorem ofFrame_of_short {f : Frame} {n : Nat} (h : fixedLength? f.messageId = some n)
    (hn : f.payload.length < n) : ofFrame f = .error .badLength := by
  unfold ofFrame
  split
  case h_8 | h_9 | h_10 | h_11 | h_12 | h_13 => rfl
  case h_14 => simp_all [fixedLength?]
  -- a payload of the shape of a request has its fixed part
  all_goals
    simp_all only [fixedLength?, Option.some.injEq, List.length_cons]
    omega

theorem ofFrame_of_reading {f : Frame} {result : Except Refusal Request} (h : Reading f result) :
    ofFrame f = result := by
  obtain ⟨id, sequence, payload⟩ := f
  cases h with
  | unknown h => exact ofFrame_of_unknown h
  | short h hn => exact ofFrame_of_short h hn
  | whole _ _ hid hp hrest =>
    cases hid
    cases hp
    exact ofFrame_append _ sequence hrest

/-- Reading a frame tells what it is. -/
theorem reading_ofFrame (f : Frame) : Reading f (ofFrame f) := by
  obtain ⟨result, h⟩ := exists_reading f
  rwa [ofFrame_of_reading h]

theorem run?_scan_of_unknown {id : UInt8} (h : fixedLength? id = none) (payload : List UInt8) :
    (scan id).run? payload = some (.error (.unknownMessage id)) := by
  unfold fixedLength? at h
  unfold scan
  split at h
  case h_8 => simp_all [Scan.run?_throw]
  all_goals contradiction

theorem run?_scan_of_short {id : UInt8} {n : Nat} {payload : List UInt8}
    (h : fixedLength? id = some n) (hn : payload.length < n) :
    (scan id).run? payload = some (.error .badLength) := by
  unfold fixedLength? at h
  unfold scan
  split at h
  case h_7 =>
    cases h
    exact absurd hn (Nat.not_lt_zero _)
  case h_8 => contradiction
  all_goals simp_all only [Option.some.injEq, Scan.run?_need, if_true]

/-- The parts of a request are taken off its payload, from before any bytes. -/
theorem run?_scan_append (r : Request) {rest : List UInt8} (h : r.hasData → rest = []) :
    (scan r.messageId).run? (r.payload ++ rest) = some (.ok r) := by
  cases r with
  | readEntry node address =>
    obtain ⟨index, subIndex⟩ := address
    obtain ⟨a, b, hw, rfl⟩ := Bytes.exists_ofWord16 index
    simp only [payload, addressBytes, hw]
    rfl
  | writeEntry node address data =>
    obtain ⟨index, subIndex⟩ := address
    obtain ⟨a, b, hw, rfl⟩ := Bytes.exists_ofWord16 index
    simp only [payload, addressBytes, hw, h rfl, List.append_nil]
    rfl
  | sendEmergency node code info =>
    obtain ⟨a, b, hw, rfl⟩ := Bytes.exists_ofWord16 code
    obtain ⟨p, q, r, s, hw', rfl⟩ := Bytes.exists_ofWord32 info
    simp only [payload, hw, hw']
    rfl
  | queryState node | command node code | listNodes | sendPdo node number => rfl

/-- Taking the parts off the payload gives what reading the frame gives, and never goes past the end
of the payload. -/
theorem run?_scan (f : Frame) : (scan f.messageId).run? f.payload = some (ofFrame f) := by
  obtain ⟨result, h⟩ := exists_reading f
  rw [ofFrame_of_reading h]
  cases h with
  | unknown h => exact run?_scan_of_unknown h _
  | short h hn => exact run?_scan_of_short h hn
  | whole _ _ hid hp hrest =>
    rw [hid, hp]
    exact run?_scan_append _ hrest

/-- The codec of requests is exact: a request is read back from its frame, which has its message id
and its number; a frame is refused as unknown only where no request has its message id, and for its
length only where the fixed part of such a request is not all there; any other frame begins with the
payload of the request that is read from it; and no byte is taken past the end of a payload. -/
theorem codec_exact :
    (∀ (r : Request) (sequence : UInt16),
      ofFrame (r.toFrame sequence) = .ok r ∧ (r.toFrame sequence).sequence = sequence ∧
        (r.toFrame sequence).messageId = r.messageId ∧
        ∃ n, fixedLength? r.messageId = some n ∧ n ≤ r.payload.length ∧
          (r.hasData ∨ r.payload.length = n)) ∧
    ∀ f : Frame,
      (∀ id, ofFrame f = .error (.unknownMessage id) ↔
        (∀ r : Request, r.messageId ≠ f.messageId) ∧ id = f.messageId) ∧
      (ofFrame f = .error .badLength ↔
        ∃ n, fixedLength? f.messageId = some n ∧ f.payload.length < n) ∧
      (∀ n, fixedLength? f.messageId = some n → n ≤ f.payload.length →
        ∃ r, ofFrame f = .ok r ∧ (r.toFrame f.sequence).messageId = f.messageId ∧
          (r.toFrame f.sequence).sequence = f.sequence ∧
          (r.toFrame f.sequence).payload <+: f.payload ∧
          (r.hasData → (r.toFrame f.sequence).payload = f.payload)) ∧
      (scan f.messageId).run? f.payload = some (ofFrame f) := by
  refine ⟨fun r sequence => ⟨ofFrame_toFrame r sequence, rfl, rfl, exists_fixedLength r⟩,
    fun f => ⟨fun id => ?_, ?_, fun n hsome hn => ?_, run?_scan f⟩⟩
  all_goals
    have h := reading_ofFrame f
    generalize ofFrame f = result at h ⊢
  · rw [← fixedLength?_eq_none_iff]
    cases h with
    | unknown h => simp [h, eq_comm]
    | short h => simp [h]
    | whole h => simp [h]
  · cases h with
    | unknown h => simp [h]
    | short h hn => simpa [h] using hn
    | whole h hn => simpa [h] using hn
  · cases h with
    | unknown h => simp [h] at hsome
    | short h hn' =>
      rw [h, Option.some.injEq] at hsome
      omega
    | whole h hn hid hp hrest =>
      refine ⟨_, rfl, hid.symm, rfl, ⟨_, hp.symm⟩, fun hdata => ?_⟩
      rw [hp, hrest hdata, List.append_nil]
      rfl

/-- A frame with two bytes of data after its fixed part, and one that ends within it. -/
theorem codec_exact_writeEntry :
    (∃ r, ofFrame ⟨0x03, 42, [3, 0x00, 0x20, 2, 0xAA, 0xBB]⟩ = .ok r ∧
      (r.toFrame 42).payload = [3, 0x00, 0x20, 2, 0xAA, 0xBB]) ∧
      ofFrame ⟨0x03, 42, [3, 0x00, 0x20]⟩ = .error .badLength := by
  constructor
  · obtain ⟨r, hread, -, -, -, hdata⟩ :=
      (codec_exact.2 ⟨0x03, 42, [3, 0x00, 0x20, 2, 0xAA, 0xBB]⟩).2.2.1 4 rfl (by decide)
    obtain rfl := Except.ok.inj hread
    exact ⟨_, hread, hdata rfl⟩
  · exact (codec_exact.2 ⟨0x03, 42, [3, 0x00, 0x20]⟩).2.1.mpr ⟨4, rfl, by decide⟩

end Canopen.Request
