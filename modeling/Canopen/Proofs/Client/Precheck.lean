import Canopen.Proofs.Client.FieldWrite
/-!
# Checking an input for a bit field before the bytes are read

A field write checks its input before the entry is read, when there are no bytes yet to pack it into.
Whether the input can be packed does not depend on these, as long as there are as many as a value of
the entry has (`Entry.packField_eq_error_iff`). So a field write that has passed its checks sends what it
has packed, unless the number of the bytes that it has read is wrong (`Client.fieldWrite_as_checked`).
-/
namespace Canopen

namespace Entry

variable {e : Entry} {f : BitField} {name : String} {input : FieldInput} {data : List UInt8}
  {err : DictionaryError}

/-- Holds of as many bytes as a value of the entry has, where that is fixed. -/
def Sized (e : Entry) (data : List UInt8) : Prop :=
  ∀ size, e.type.byteSize? = some size → data.length = size

theorem sized_iff {size : Nat} (h : e.type.byteSize? = some size) :
    e.Sized data ↔ data.length = size := by
  simp [Sized, h]

/-- The check finds the errors of packing into bytes of the right number, and no others. -/
theorem packField_eq_error_iff (h : e.Sized data) :
    e.packField name data input = .error err ↔ e.checkFieldInput name input = .error err := by
  cases hf : e.field name with
  | error why => simp only [packField, checkFieldInput, hf, bind, Except.bind, Except.error.injEq]
  | ok f =>
    -- only an integer has fields, and the size of its values is fixed
    obtain ⟨w, hw, -⟩ := exists_fits_of_field hf
    have hlength := h w.bytes (DataType.byteSize?_of_intWidth? hw)
    rw [packField_of_length hf hw hlength, checkFieldInput_of_field hf, map_eq_error_iff,
      map_eq_error_iff]
    exact BitField.packInput_eq_error_iff _ _

theorem exists_packField_of_checked (h : e.Sized data)
    (hcheck : e.checkFieldInput name input = .ok ()) :
    ∃ packed, e.packField name data input = .ok packed := by
  cases hpack : e.packField name data input with
  | ok packed => exact ⟨packed, rfl⟩
  | error err =>
    rw [packField_eq_error_iff h, hcheck] at hpack
    contradiction

/-- After the check bytes are refused for their number only. -/
theorem packField_of_not_sized (h : ¬e.Sized data) (hcheck : e.checkFieldInput name input = .ok ()) :
    ∃ size, e.type.byteSize? = some size ∧ data.length ≠ size ∧
      e.packField name data input = .error (.malformed e.type (.wrongLength size data.length)) := by
  obtain ⟨f, -, hf, -⟩ := exists_of_checkFieldInput hcheck
  obtain ⟨w, hw, -⟩ := exists_fits_of_field hf
  have hsize := DataType.byteSize?_of_intWidth? hw
  rw [sized_iff hsize] at h
  refine ⟨w.bytes, hsize, h, ?_⟩
  simp only [packField, hf, DataType.rawBits_of_length_ne hw h, bind, Except.bind]

end Entry

namespace Client

variable {σ : Type} {link : Link σ} {limit : Duration} {observed : NodeState} {s : σ} {node : UInt8}
  {e : Entry} {name : String} {input : FieldInput} {current : List UInt8}

/-- Holds of a field write that passes all checks there are before the entry is read. -/
structure Checked (e : Entry) (name : String) (input : FieldInput) : Prop where
  writable : e.access.isWritable
  readable : e.access.isReadable
  input : e.checkFieldInput name input = .ok ()

/-- After the checks a field write reads the entry and writes what it has packed into the bytes. -/
theorem run_writeField_of_checked (h : Checked e name input)
    (hread : (link limit (.readEntry node e.address) s).1 = .ok (.entry current)) :
    (writeField node e name input).run link limit observed s =
      (check (e.packField name current input) fun packed =>
        acknowledge (.writeEntry node e.address packed)).run link limit observed
          (link limit (.readEntry node e.address) s).2 := by
  obtain ⟨r, hrun, hr⟩ := @run_readRaw σ node e h.readable link limit observed s
  rw [(hr current).mpr hread] at hrun
  have hwriteRaw : writeRaw node e = fun packed => acknowledge (.writeEntry node e.address packed) :=
    funext fun packed => if_pos h.writable
  rw [writeField, h.writable, h.readable, h.input, hwriteRaw]
  exact (run_andThen _ _ link limit observed s).trans (by rw [hrun])

/-- An input is packed into the bytes that are read if it has passed the check, and refused with the error
of the check otherwise. Where a field write has passed all checks, it sends what it has packed, or the
number of the bytes it has read was wrong. -/
theorem fieldWrite_as_checked (e : Entry) (name : String) (input : FieldInput) :
    (∀ current, e.Sized current →
      (e.checkFieldInput name input = .ok () →
        ∃ packed, e.packField name current input = .ok packed) ∧
      ∀ err, e.checkFieldInput name input = .error err →
        e.packField name current input = .error err) ∧
    ∀ (σ : Type) (link : Link σ) (limit : Duration) (observed : NodeState) (s : σ) (node : UInt8)
      (current : List UInt8), Checked e name input →
      (link limit (.readEntry node e.address) s).1 = .ok (.entry current) →
      let afterRead := (link limit (.readEntry node e.address) s).2
      (e.Sized current → ∃ packed, e.packField name current input = .ok packed ∧
        (writeField node e name input).run link limit observed s =
          (acknowledge (.writeEntry node e.address packed)).run link limit observed afterRead) ∧
      (¬e.Sized current → ∃ size, e.type.byteSize? = some size ∧ current.length ≠ size ∧
        (writeField node e name input).run link limit observed s =
          (.error (.dictionary (.malformed e.type (.wrongLength size current.length))), observed,
            afterRead)) := by
  refine ⟨fun current hsized => ⟨Entry.exists_packField_of_checked hsized,
    fun err => (Entry.packField_eq_error_iff hsized).mpr⟩, ?_⟩
  intro σ link limit observed s node current hchecked hread afterRead
  have hrun : (writeField node e name input).run link limit observed s = _ :=
    run_writeField_of_checked hchecked hread
  constructor
  · intro hsized
    obtain ⟨packed, hpack⟩ := Entry.exists_packField_of_checked hsized hchecked.input
    refine ⟨packed, hpack, ?_⟩
    rw [hrun, hpack]
    rfl
  · intro hnot
    obtain ⟨size, hsize, hlength, hpack⟩ := Entry.packField_of_not_sized hnot hchecked.input
    refine ⟨size, hsize, hlength, ?_⟩
    rw [hrun, hpack]
    rfl

/-- A label is packed into what a node replies, which is a word at one node and a single byte at
another. -/
theorem fieldWrite_as_checked_byReply :
    let mode : BitField := ⟨"mode", 1, 3, some [(2, "run"), (5, "test")], by decide, by decide⟩
    let e : Entry :=
      { address := ⟨0x2000, 1⟩, name := "status", type := .signed .w16, fields := [mode] }
    let link : Link (List Request) := fun _ request asked =>
      (if request = .readEntry 1 e.address then .ok (.entry [0x05, 0x80])
        else if request = .readEntry 2 e.address then .ok (.entry [0x05])
        else .ok .ack, asked ++ [request])
    let write (node : UInt8) := (writeField node e "mode" (.label "test")).run link ⟨50⟩ .stopped []
    e.checkFieldInput "mode" (.label "test") = .ok () ∧
      write 1 = (.ok (), .stopped,
        [.readEntry 1 e.address, .writeEntry 1 e.address [0x0B, 0x80]]) ∧
      write 2 = (.error (.dictionary (.malformed (.signed .w16) (.wrongLength 2 1))), .stopped,
        [.readEntry 2 e.address]) := by
  intro mode e link write
  have hchecked : Checked e "mode" (.label "test") := ⟨rfl, rfl, rfl⟩
  obtain ⟨-, hwrite⟩ := fieldWrite_as_checked e "mode" (.label "test")
  have hsize (data : List UInt8) : e.Sized data ↔ data.length = 2 := Entry.sized_iff rfl
  have hbytes : e.packField "mode" [0x05, 0x80] (.label "test") = .ok [0x0B, 0x80] := by
    dsimp only [e, mode]
    rfl
  refine ⟨hchecked.input, ?_, ?_⟩
  · obtain ⟨packed, hpack, hrun⟩ :=
      (hwrite _ link ⟨50⟩ .stopped [] 1 [0x05, 0x80] hchecked rfl).1 ((hsize _).mpr rfl)
    cases hbytes.symm.trans hpack
    exact hrun
  · obtain ⟨size, hsize', -, hrun⟩ :=
      (hwrite _ link ⟨50⟩ .stopped [] 2 [0x05] hchecked rfl).2 (by simp [hsize])
    cases hsize'
    exact hrun

end Client

end Canopen
