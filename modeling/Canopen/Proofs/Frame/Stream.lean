import Canopen.Frame
/-!
# Frames on a stream

`Frame.readAll` against `Frame.encode`. Reading takes exactly the encoded frames off the beginning
of a stream (`read_spec`, `read_encode_append`), so a stream is the frames read from it, encoded one
after another, up to bytes that begin with no frame (`Stops`), and any such stream is read back
(`framing_exact`). A stream that is cut anywhere gives the first of its frames (`readAll_of_cut`).
-/
namespace Canopen.Frame

/-- Bytes that begin with no frame, and the error that reading them ends in. -/
inductive Stops : List UInt8 → LinkError → Prop where
  | short {bytes : List UInt8} (h : bytes.length < 4) : Stops bytes .closed
  | badLength {a b c d : UInt8} {rest : List UInt8}
      (h : ¬(headerLength ≤ Bytes.toNat [a, b, c, d] ∧ Bytes.toNat [a, b, c, d] ≤ maxLength)) :
      Stops (a :: b :: c :: d :: rest) (.malformed (.badLength (Bytes.toNat [a, b, c, d])))
  | cutShort {a b c d : UInt8} {rest : List UInt8}
      (h : headerLength ≤ Bytes.toNat [a, b, c, d] ∧ Bytes.toNat [a, b, c, d] ≤ maxLength)
      (hr : rest.length < Bytes.toNat [a, b, c, d]) :
      Stops (a :: b :: c :: d :: rest) (.notReceived .cutShort)

theorem body_of_ofBody {bytes : List UInt8} {f : Frame} (h : ofBody bytes = .ok f) :
    f.body = bytes := by
  unfold ofBody at h
  split at h
  · cases h
    simp [body]
  · contradiction

theorem length_lt_of_ofBody {bytes : List UInt8} {e : LinkError} (h : ofBody bytes = .error e) :
    bytes.length < headerLength := by
  unfold ofBody at h
  split at h
  · contradiction
  · rename_i hshort
    match bytes, hshort with
    | [], _ | [_], _ | [_, _], _ => simp [headerLength]
    | id :: a :: b :: payload, hshort => exact absurd rfl (hshort id a b payload)

theorem exists_encode_eq {f : Frame} (hf : f.bodyLength ≤ maxLength) :
    ∃ a b c d, f.bodyLength = Bytes.toNat [a, b, c, d] ∧ f.encode = a :: b :: c :: d :: f.body := by
  obtain ⟨a, b, c, d, he⟩ : ∃ a b c d, Bytes.littleEndian 4 f.bodyLength = [a, b, c, d] :=
    ⟨_, _, _, _, rfl⟩
  have hn : f.bodyLength = Bytes.toNat [a, b, c, d] := by
    simp only [maxLength] at hf
    rw [← he, Bytes.toNat_littleEndian, Nat.mod_eq_of_lt (by omega)]
  exact ⟨a, b, c, d, hn, encode_of_bodyLength hn⟩

theorem read_of_stops {bytes : List UInt8} {e : LinkError} (h : Stops bytes e) :
    read bytes = .error e := by
  cases h with
  | short h =>
    match bytes, h with
    | [], _ | [_], _ | [_, _], _ | [_, _, _], _ => rfl
  | badLength h => simp only [read, checkLength, if_neg h]
  | @cutShort a b c d rest h hr =>
    have hl : (rest.take (Bytes.toNat [a, b, c, d])).length < Bytes.toNat [a, b, c, d] := by
      rw [List.length_take]; omega
    simp only [read, checkLength, if_pos h, if_pos hl]

/-- After a length that a body can have, the body is that many bytes. -/
theorem read_of_length {a b c d : UInt8} {rest : List UInt8}
    (h : headerLength ≤ Bytes.toNat [a, b, c, d] ∧ Bytes.toNat [a, b, c, d] ≤ maxLength)
    (hr : Bytes.toNat [a, b, c, d] ≤ rest.length) :
    ∃ f, f.body = rest.take (Bytes.toNat [a, b, c, d]) ∧
      read (a :: b :: c :: d :: rest) = .ok (f, rest.drop (Bytes.toNat [a, b, c, d])) := by
  have hl : ¬(rest.take (Bytes.toNat [a, b, c, d])).length < Bytes.toNat [a, b, c, d] := by
    rw [List.length_take]; omega
  cases hf : ofBody (rest.take (Bytes.toNat [a, b, c, d])) with
  | ok f => exact ⟨f, body_of_ofBody hf, by simp only [read, checkLength, if_pos h, if_neg hl, hf]⟩
  | error e =>
    have := length_lt_of_ofBody hf
    omega

/-- Reading takes a frame off the beginning of a stream, where there is one. -/
theorem read_spec (stream : List UInt8) :
    (∃ f rest, read stream = .ok (f, rest) ∧ stream = f.encode ++ rest ∧
      f.bodyLength ≤ maxLength) ∨ ∃ e, Stops stream e := by
  match stream with
  | [] | [_] | [_, _] | [_, _, _] => exact .inr ⟨_, .short (by simp)⟩
  | a :: b :: c :: d :: rest =>
    by_cases h : headerLength ≤ Bytes.toNat [a, b, c, d] ∧ Bytes.toNat [a, b, c, d] ≤ maxLength
    · by_cases hr : rest.length < Bytes.toNat [a, b, c, d]
      · exact .inr ⟨_, .cutShort h hr⟩
      · obtain ⟨f, hb, hf⟩ := read_of_length h (Nat.le_of_not_lt hr)
        have hn : f.bodyLength = Bytes.toNat [a, b, c, d] := by
          rw [← length_body, hb, List.length_take]; omega
        exact .inl ⟨f, _, hf, by simp [encode_of_bodyLength hn, hb], hn ▸ h.2⟩
    · exact .inr ⟨_, .badLength h⟩

/-- A frame that is not too long is read back from before any bytes. -/
theorem read_encode_append {f : Frame} (h : f.bodyLength ≤ maxLength) (rest : List UInt8) :
    read (f.encode ++ rest) = .ok (f, rest) := by
  obtain ⟨a, b, c, d, hn, he⟩ := exists_encode_eq h
  have ht : (f.body ++ rest).take f.bodyLength = f.body := List.take_left' (length_body f)
  have hd : (f.body ++ rest).drop f.bodyLength = rest := List.drop_left' (length_body f)
  have hl : headerLength ≤ Bytes.toNat [a, b, c, d] ∧ Bytes.toNat [a, b, c, d] ≤ maxLength := by
    rw [← hn]; exact ⟨headerLength_le_bodyLength f, h⟩
  have hlen : Bytes.toNat [a, b, c, d] ≤ (f.body ++ rest).length := by simp [← hn]
  obtain ⟨g, hb, hg⟩ := read_of_length hl hlen
  rw [← hn, ht] at hb
  rw [← hn, hd, body_inj hb] at hg
  rw [he]
  exact hg

theorem bodyLength_le_of_read {stream rest : List UInt8} {f : Frame}
    (h : read stream = .ok (f, rest)) : f.bodyLength ≤ maxLength := by
  rcases read_spec stream with ⟨g, after, hread, -, hg⟩ | ⟨e, he⟩
  · rw [hread, Except.ok.injEq, Prod.mk.injEq] at h
    exact h.1 ▸ hg
  · rw [read_of_stops he] at h
    contradiction

theorem readAll_of_ok {stream rest : List UInt8} {f : Frame} (h : read stream = .ok (f, rest)) :
    readAll stream = (f :: (readAll rest).1, (readAll rest).2) := by
  rw [readAll]
  split <;> simp_all

theorem readAll_of_stops {stream : List UInt8} {e : LinkError} (h : Stops stream e) :
    readAll stream = ([], e) := by
  have hread := read_of_stops h
  rw [readAll]
  split <;> simp_all

/-- Encoded frames before any bytes are read off and leave these bytes. -/
theorem readAll_encoded_append {frames : List Frame} (h : ∀ f ∈ frames, f.bodyLength ≤ maxLength)
    (rest : List UInt8) :
    readAll (frames.flatMap encode ++ rest) = (frames ++ (readAll rest).1, (readAll rest).2) := by
  induction frames with
  | nil => rfl
  | cons f frames ih =>
    have hread := read_encode_append (h f (by simp)) (frames.flatMap encode ++ rest)
    rw [List.flatMap_cons, List.append_assoc, readAll_of_ok hread,
      ih fun g hg => h g (by simp [hg])]
    rfl

/-- The frames read from a stream are the stream up to bytes that begin with no frame. -/
theorem exists_stops_of_readAll (stream : List UInt8) :
    ∃ rest, stream = (readAll stream).1.flatMap encode ++ rest ∧
      (∀ f ∈ (readAll stream).1, f.bodyLength ≤ maxLength) ∧ Stops rest (readAll stream).2 := by
  rcases read_spec stream with ⟨f, after, hread, hs, hf⟩ | ⟨e, he⟩
  · have := length_rest_lt hread
    obtain ⟨rest, hrest, hall, hstop⟩ := exists_stops_of_readAll after
    rw [readAll_of_ok hread]
    refine ⟨rest, ?_, ?_, hstop⟩
    · rw [hs, List.flatMap_cons, List.append_assoc, ← hrest]
    · simpa using ⟨hf, hall⟩
  · rw [readAll_of_stops he]
    exact ⟨stream, rfl, by simp, he⟩
termination_by stream.length

/-- A stream of encoded frames that is cut anywhere gives the first of them. -/
theorem readAll_of_cut {frames : List Frame} {part : List UInt8}
    (h : ∀ f ∈ frames, f.bodyLength ≤ maxLength) (hp : part <+: frames.flatMap encode) :
    (readAll part).1 <+: frames := by
  obtain ⟨rest, hrest, hall, -⟩ := exists_stops_of_readAll part
  obtain ⟨missing, hm⟩ := hp
  have hpart := readAll_encoded_append hall (rest ++ missing)
  have hwhole := readAll_encoded_append h []
  rw [← List.append_assoc, ← hrest, hm] at hpart
  rw [List.append_nil, hpart] at hwhole
  have hempty : Stops [] .closed := .short (by simp)
  have hframes : (readAll part).1 ++ (readAll (rest ++ missing)).1 = frames := by
    simpa [readAll_of_stops hempty] using congrArg Prod.fst hwhole
  exact ⟨_, hframes⟩

theorem length_le_length_encoded (frames : List Frame) :
    7 * frames.length ≤ (frames.flatMap encode).length := by
  induction frames with
  | nil => simp
  | cons f frames ih =>
    have := headerLength_le_bodyLength f
    simp only [List.flatMap_cons, List.length_append, List.length_cons, length_encode,
      headerLength] at *
    omega

theorem length_readAll_le (stream : List UInt8) :
    7 * (readAll stream).1.length ≤ stream.length := by
  obtain ⟨rest, hrest, -, -⟩ := exists_stops_of_readAll stream
  have hl := length_le_length_encoded (readAll stream).1
  have hs := congrArg List.length hrest
  rw [List.length_append] at hs
  omega

/-- Reading a stream to its end gives certain frames and a certain error exactly where the stream is
these frames, encoded, before bytes that begin with no frame and end in this error. It stops after
at most one frame for each seven bytes. -/
theorem framing_exact (stream : List UInt8) :
    7 * (readAll stream).1.length ≤ stream.length ∧
    ∀ frames e, readAll stream = (frames, e) ↔
      ∃ rest, stream = frames.flatMap encode ++ rest ∧
        (∀ f ∈ frames, f.payload.length ≤ maxLength - headerLength) ∧ Stops rest e := by
  refine ⟨length_readAll_le stream, fun frames e => ?_⟩
  have hlen (f : Frame) :
      f.payload.length ≤ maxLength - headerLength ↔ f.bodyLength ≤ maxLength := by
    simp only [bodyLength, headerLength, maxLength]; omega
  simp only [hlen]
  constructor
  · intro h
    simpa [h] using exists_stops_of_readAll stream
  · rintro ⟨rest, rfl, hall, hstop⟩
    rw [readAll_encoded_append hall, readAll_of_stops hstop, List.append_nil]

end Canopen.Frame
