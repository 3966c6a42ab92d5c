import Canopen.Proofs.Frame.Stream
/-!
# How a stream ends

A stream ends behind a complete frame, inside a length, inside a body, or at a length that no body has, and
exactly one of these is the case. The error that reading it ends in tells them apart but for the first two:
a stream that is cut inside a length looks like one that was closed (`Frame.toldApart_iff`).
-/
namespace Canopen.Frame

inductive Ending where
  /-- Behind a complete frame, or before the first one. -/
  | whole
  /-- Between the four bytes of a length. -/
  | insideLength
  /-- Before the last of the bytes that a length announces. -/
  | insideBody
  /-- With a length that no body has; nothing is read behind it. -/
  | badLength (length : Nat)
  deriving DecidableEq, Repr

/-- The error that reading a stream of this ending stops with. -/
def Ending.error : Ending → LinkError
  | whole | insideLength => .closed
  | insideBody => .notReceived .cutShort
  | badLength length => .malformed (.badLength length)

/-- Holds of the bytes behind the last complete frame and the ending that they make. -/
inductive Remainder : List UInt8 → Ending → Prop where
  | nothing : Remainder [] .whole
  | partOfLength {bytes : List UInt8} (hne : bytes ≠ []) (h : bytes.length < 4) :
      Remainder bytes .insideLength
  | partOfFrame {f : Frame} {count : Nat} (hf : f.bodyLength ≤ maxLength) (hlength : 4 ≤ count)
      (hcut : count < f.encode.length) : Remainder (f.encode.take count) .insideBody
  | badLength {a b c d : UInt8} {rest : List UInt8}
      (h : ¬(headerLength ≤ Bytes.toNat [a, b, c, d] ∧ Bytes.toNat [a, b, c, d] ≤ maxLength)) :
      Remainder (a :: b :: c :: d :: rest) (.badLength (Bytes.toNat [a, b, c, d]))

/-- Holds of complete frames one after another with the given ending. -/
def Ends (stream : List UInt8) (ending : Ending) : Prop :=
  ∃ (frames : List Frame) (rest : List UInt8), (∀ f ∈ frames, f.bodyLength ≤ maxLength) ∧
    stream = frames.flatMap encode ++ rest ∧ Remainder rest ending

variable {stream rest : List UInt8} {f : Frame} {ending other : Ending} {e : LinkError} {count : Nat}

/-- A frame that is cut behind its length announces more than there is. -/
theorem stops_take (hf : f.bodyLength ≤ maxLength) (hlength : 4 ≤ count)
    (hcut : count < f.encode.length) : Stops (f.encode.take count) (.notReceived .cutShort) := by
  obtain ⟨a, b, c, d, hn, he⟩ := exists_encode_eq hf
  obtain ⟨n, rfl⟩ := Nat.exists_eq_add_of_le' hlength
  have hheader := headerLength_le_bodyLength f
  rw [he] at hcut ⊢
  simp only [List.length_cons, length_body] at hcut
  refine .cutShort (hn ▸ ⟨hheader, hf⟩) ?_
  rw [List.length_take, length_body, hn]
  omega

/-- Bytes behind a length, fewer than it announces, are those of a frame that is cut. -/
theorem exists_take_eq {a b c d : UInt8}
    (h : headerLength ≤ Bytes.toNat [a, b, c, d] ∧ Bytes.toNat [a, b, c, d] ≤ maxLength)
    (hr : rest.length < Bytes.toNat [a, b, c, d]) :
    ∃ (f : Frame) (count : Nat), f.bodyLength ≤ maxLength ∧ 4 ≤ count ∧ count < f.encode.length ∧
      a :: b :: c :: d :: rest = f.encode.take count := by
  let missing := List.replicate (Bytes.toNat [a, b, c, d] - rest.length) (0 : UInt8)
  have hlength : (rest ++ missing).length = Bytes.toNat [a, b, c, d] := by
    rw [List.length_append, List.length_replicate]
    omega
  obtain ⟨f, hbody, -⟩ := read_of_length h (Nat.le_of_eq hlength.symm)
  rw [List.take_of_length_le (Nat.le_of_eq hlength)] at hbody
  have hn : f.bodyLength = Bytes.toNat [a, b, c, d] := by
    rw [← length_body, hbody, hlength]
  have he : f.encode = (a :: b :: c :: d :: rest) ++ missing := by
    rw [encode_of_bodyLength hn, hbody]
    rfl
  refine ⟨f, rest.length + 4, hn ▸ h.2, by omega, ?_, ?_⟩
  · rw [length_encode]
    omega
  · rw [he]
    exact (List.take_left' rfl).symm

theorem Remainder.stops (h : Remainder rest ending) : Stops rest ending.error := by
  cases h with
  | nothing => exact .short (by simp)
  | partOfLength hne h => exact .short h
  | partOfFrame hf hlength hcut => exact stops_take hf hlength hcut
  | badLength h => exact .badLength h

/-- Bytes that begin with no frame make an ending. -/
theorem Stops.exists_remainder (h : Stops rest e) : ∃ ending, Remainder rest ending := by
  cases h with
  | short h =>
    by_cases hne : rest = []
    · rw [hne]
      exact ⟨_, .nothing⟩
    · exact ⟨_, .partOfLength hne h⟩
  | badLength h => exact ⟨_, .badLength h⟩
  | cutShort h hr =>
    obtain ⟨f, count, hf, hlength, hcut, heq⟩ := exists_take_eq h hr
    rw [heq]
    exact ⟨_, .partOfFrame hf hlength hcut⟩

theorem Remainder.eq_nil_iff (h : Remainder rest ending) : rest = [] ↔ ending = .whole := by
  cases h with
  | nothing => simp
  | partOfLength hne h => simp [hne]
  | @partOfFrame f count hf hlength hcut =>
    refine ⟨fun hnil => ?_, nofun⟩
    have hzero := congrArg List.length hnil
    rw [List.length_take, List.length_nil] at hzero
    omega
  | badLength h => simp

theorem Ending.eq_of_error_eq (herror : ending.error = other.error)
    (hwhole : ending = .whole ↔ other = .whole) : ending = other := by
  cases ending <;> cases other <;> simp_all [Ending.error]

/-- Bytes make one ending at most: the error that they stop in tells it, once it is known whether there are
any bytes. -/
theorem Remainder.unique (h : Remainder rest ending) (hother : Remainder rest other) :
    other = ending := by
  have hread := read_of_stops h.stops
  rw [read_of_stops hother.stops] at hread
  exact Ending.eq_of_error_eq (Except.error.inj hread) (hother.eq_nil_iff.symm.trans h.eq_nil_iff)

theorem Ends.readAll_eq (h : Ends stream ending) : (readAll stream).2 = ending.error := by
  obtain ⟨frames, rest, hall, rfl, hrest⟩ := h
  rw [readAll_encoded_append hall, readAll_of_stops hrest.stops]

theorem exists_ends (stream : List UInt8) : ∃ ending, Ends stream ending := by
  obtain ⟨rest, hstream, hall, hstops⟩ := exists_stops_of_readAll stream
  obtain ⟨ending, hrest⟩ := hstops.exists_remainder
  exact ⟨ending, _, rest, hall, hstream, hrest⟩

/-- The frames before the ending are those that are read, so what is left is the same. -/
theorem Ends.unique (h : Ends stream ending) (hother : Ends stream other) : other = ending := by
  obtain ⟨frames, rest, hall, hstream, hrest⟩ := h
  obtain ⟨frames', rest', hall', hstream', hrest'⟩ := hother
  have hread := readAll_encoded_append hall rest
  have hread' := readAll_encoded_append hall' rest'
  rw [← hstream, readAll_of_stops hrest.stops, List.append_nil] at hread
  rw [← hstream', readAll_of_stops hrest'.stops, List.append_nil] at hread'
  have hframes : frames' = frames := congrArg Prod.fst (hread'.symm.trans hread)
  rw [hstream', hframes] at hstream
  rw [List.append_cancel_left hstream] at hrest'
  exact hrest.unique hrest'

/-- Holds of a stream whose end is told as what it is: as closed if and only if nothing is missing, and as
not received where the stream is cut inside a frame. -/
def ToldApart (stream : List UInt8) : Prop :=
  ((readAll stream).2 = .closed ↔ Ends stream .whole) ∧
    (Ends stream .insideLength ∨ Ends stream .insideBody →
      ∃ fault, (readAll stream).2 = .notReceived fault)

/-- Every stream ends in one way, which settles the error that reading it ends in; and the error tells a
broken stream from a closed one if and only if the stream is not cut inside a length. -/
theorem toldApart_iff (stream : List UInt8) :
    (∃ ending, (∀ other, Ends stream other ↔ other = ending) ∧
      (readAll stream).2 = ending.error) ∧
    (ToldApart stream ↔ ¬Ends stream .insideLength) := by
  obtain ⟨ending, h⟩ := exists_ends stream
  have hone (other : Ending) : Ends stream other ↔ other = ending := by
    constructor
    · exact h.unique
    · rintro rfl
      exact h
  refine ⟨⟨ending, hone, h.readAll_eq⟩, ?_⟩
  rw [ToldApart, h.readAll_eq]
  simp only [hone]
  cases ending <;> simp [Ending.error]

/-- After two bytes of a length the stream counts as closed, though no frame is complete. -/
theorem not_always_toldApart : ¬∀ stream, ToldApart stream := by
  intro h
  have hends : Ends [4, 0] .insideLength :=
    ⟨[], [4, 0], by simp, rfl, .partOfLength (by simp) (by simp)⟩
  obtain ⟨fault, hfault⟩ := (h [4, 0]).2 (.inl hends)
  rw [hends.readAll_eq] at hfault
  contradiction

end Canopen.Frame
