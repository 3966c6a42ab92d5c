import Canopen.Cli.Command
import Canopen.Proofs.Client.FieldWrite
/-!
# Bit fields read by a command and by the client

The command that reads entries of one node reads the bytes of an entry and then looks for the field. The
client looks for the field first, which is how a command on all nodes reads it. The two hand the same
requests to a link and come to the same if and only if the entry has the field
(`Cli.fieldReadings_agree_iff`).
-/
namespace Canopen

namespace Entry

variable {e : Entry} {name : String} {why : DictionaryError}

theorem extractField_of_field_eq_error (h : e.field name = .error why) (data : List UInt8) :
    e.extractField name data = .error why := by
  rw [extractField, h]
  rfl

end Entry

namespace Cli

open Client

variable {σ : Type} {node : UInt8} {e : Entry} {name : String}

/-- The command reads the bytes, and shows the field that it finds in them. -/
theorem run_readOne_field (link : Link σ) (limit : Duration) (observed : NodeState) (s : σ) :
    (readOne e (some name) node).run link limit observed s =
      match (readRaw node e).run link limit observed s with
      | (.ok data, observed, s) =>
        (((e.extractField name data).mapError .dictionary).map fun v =>
          (v.text, Text.Hex.encode data), observed, s)
      | (.error why, observed, s) => (.error why, observed, s) := by
  rw [readOne, run_andThen]
  rcases (readRaw node e).run link limit observed s with ⟨_ | data, observed, s⟩
  · rfl
  · exact run_check_succeed (e.extractField name data) _ link limit observed s

/-- The client reads the bytes of an entry that has the field. -/
theorem run_readField_of_field {f : BitField} (hf : e.field name = .ok f) (link : Link σ)
    (limit : Duration) (observed : NodeState) (s : σ) :
    (readField node e name).run link limit observed s =
      match (readRaw node e).run link limit observed s with
      | (.ok data, observed, s) => ((e.extractField name data).mapError .dictionary, observed, s)
      | (.error why, observed, s) => (.error why, observed, s) := by
  rw [readField, hf, check, run_andThen]
  rcases (readRaw node e).run link limit observed s with ⟨_ | data, observed, s⟩
  · rfl
  · dsimp only
    cases e.extractField name data <;> rfl

theorem run_readField_of_unknown {why : DictionaryError} (hf : e.field name = .error why)
    (link : Link σ) (limit : Duration) (observed : NodeState) (s : σ) :
    (readField node e name).run link limit observed s = (.error (.dictionary why), observed, s) := by
  rw [readField, hf]
  rfl

/-- What is said of reading a field that an entry does not have, by what the command and the client have
come to and have asked. -/
structure ReadUnknown (link : Link σ) (limit : Duration) (s : σ) (node : UInt8) (e : Entry) (name : String)
    (shown : Except ClientError (String × String)) (asked : List Request)
    (read : Except ClientError FieldValue) (asked' : List Request) : Prop where
  /-- The client refuses the name before it asks anything. -/
  client : read = .error (.dictionary (.unknownBitField e.name name)) ∧ asked' = []
  /-- The command has asked for the bytes by then. -/
  command : e.access.isReadable → asked = [.readEntry node e.address] ∧ (∃ why, shown = .error why) ∧
    ∀ data, (link limit (.readEntry node e.address) s).1 = .ok (.entry data) →
      shown = .error (.dictionary (.unknownBitField e.name name))
  /-- Where the bytes cannot be read the command does not come to look for the field. -/
  unreadable : ¬e.access.isReadable → asked = [] ∧ shown = .error (.noAccess e.text e.access .read)

theorem readUnknown {why : DictionaryError} (hf : e.field name = .error why) (node : UInt8)
    (link : Link σ) (limit : Duration) (observed : NodeState) (s : σ) :
    let (shown, _, _, asked) :=
      (readOne e (some name) node).run link.recorded limit observed (s, [])
    let (read, _, _, asked') := (readField node e name).run link.recorded limit observed (s, [])
    ReadUnknown link limit s node e name shown asked read asked' := by
  obtain rfl := Entry.eq_unknownBitField_of_field hf
  have hextract := Entry.extractField_of_field_eq_error hf
  rw [run_readField_of_unknown hf, run_readOne_field]
  by_cases hreadable : e.access.isReadable
  · obtain ⟨r, hrun, hr⟩ := @run_readRaw _ node e hreadable link.recorded limit observed (s, [])
    rw [hrun]
    cases r with
    | error why =>
      refine ⟨⟨rfl, rfl⟩, fun _ => ⟨rfl, ⟨why, rfl⟩, fun data hdata => ?_⟩, absurd hreadable⟩
      cases (hr data).mpr hdata
    | ok data =>
      dsimp only
      rw [hextract]
      exact ⟨⟨rfl, rfl⟩, fun _ => ⟨rfl, ⟨_, rfl⟩, fun _ _ => rfl⟩, absurd hreadable⟩
  · rw [readRaw, if_neg hreadable]
    exact ⟨⟨rfl, rfl⟩, fun h => absurd h hreadable, fun _ => ⟨rfl, rfl⟩⟩

/-- Either a request has been handed over in vain, or the errors are different ones. -/
theorem ReadUnknown.not_agree {link : Link σ} {limit : Duration} {s : σ}
    {shown : Except ClientError (String × String)} {read : Except ClientError FieldValue}
    {asked asked' : List Request} (h : ReadUnknown link limit s node e name shown asked read asked') :
    ¬(shown.map Prod.fst = read.map FieldValue.text ∧ asked = asked') := by
  rintro ⟨hsame, hasked⟩
  obtain ⟨hread, hnone⟩ := h.client
  by_cases hreadable : e.access.isReadable
  · obtain ⟨hone, -⟩ := h.command hreadable
    rw [hone, hnone] at hasked
    contradiction
  · obtain ⟨-, hshown⟩ := h.unreadable hreadable
    rw [hshown, hread] at hsame
    cases hsame

/-- The command and the client come to the same field or the same error, and hand over the same requests, if
and only if the entry has the field. -/
theorem fieldReadings_agree_iff (node : UInt8) (e : Entry) (name : String) (link : Link σ)
    (limit : Duration) (observed : NodeState) (s : σ) :
    let (shown, _, w, asked) :=
      (readOne e (some name) node).run link.recorded limit observed (s, [])
    let (read, _, w', asked') := (readField node e name).run link.recorded limit observed (s, [])
    ((shown.map Prod.fst = read.map FieldValue.text ∧ asked = asked' ∧ w = w') ↔
        ∃ f, e.field name = .ok f) ∧
      ((∀ f, e.field name ≠ .ok f) → ReadUnknown link limit s node e name shown asked read asked') := by
  cases hf : e.field name with
  | ok f =>
    rw [run_readOne_field, run_readField_of_field hf]
    refine ⟨iff_of_true ?_ ⟨f, rfl⟩, fun hnot => absurd rfl (hnot f)⟩
    rcases (readRaw node e).run link.recorded limit observed (s, []) with ⟨why | data, rest⟩
    · exact ⟨rfl, rfl, rfl⟩
    · refine ⟨?_, rfl, rfl⟩
      dsimp only
      cases e.extractField name data <;> rfl
  | error why =>
    have hunknown := readUnknown hf node link limit observed s
    refine ⟨iff_of_false ?_ (by simp), fun _ => hunknown⟩
    exact fun ⟨hsame, hasked, _⟩ => hunknown.not_agree ⟨hsame, hasked⟩

/-- An entry with a field, which both read, and without another one, which only the command asks for. -/
theorem fieldReadings_agree_iff_status :
    let mode : BitField := ⟨"mode", 1, 3, none, by decide, by decide⟩
    let e : Entry :=
      { address := ⟨0x2000, 1⟩, name := "status", type := .unsigned .w16, fields := [mode] }
    let link : Link Unit := fun _ _ w => (.ok (.entry [0x05, 0x00]), w)
    let command (name : String) :=
      (readOne e (some name) 1).run link.recorded ⟨50⟩ .operational ((), [])
    let client (name : String) := (readField 1 e name).run link.recorded ⟨50⟩ .operational ((), [])
    (command "mode").1 = .ok ("2", "0500") ∧ (client "mode").1.map FieldValue.text = .ok "2" ∧
      (command "mode").2.2.2 = (client "mode").2.2.2 ∧ (∀ f, e.field "speed" ≠ .ok f) ∧
      ReadUnknown link ⟨50⟩ () 1 e "speed" (command "speed").1 (command "speed").2.2.2
        (client "speed").1 (client "speed").2.2.2 := by
  intro mode e link command client
  have hmode : e.field "mode" = .ok mode := rfl
  have hspeed : ∀ f, e.field "speed" ≠ .ok f := fun f => by
    have herror : e.field "speed" = .error (.unknownBitField "status" "speed") := rfl
    rw [herror]
    simp
  have hagree := (fieldReadings_agree_iff 1 e "mode" link ⟨50⟩ .operational ()).1
  obtain ⟨hshown, hasked, -⟩ := hagree.mpr ⟨mode, hmode⟩
  have hcommand : (command "mode").1 = .ok ("2", "0500") := by
    dsimp only [command, link, e, mode]
    rfl
  refine ⟨hcommand, ?_, hasked, hspeed, ?_⟩
  · exact hshown.symm.trans (congrArg (Except.map Prod.fst) hcommand)
  · exact (fieldReadings_agree_iff 1 e "speed" link ⟨50⟩ .operational ()).2 hspeed

/-- A field that the entry does not have: the command asks for the bytes all the same. -/
theorem not_always_agreed :
    ¬∀ (node : UInt8) (e : Entry) (name : String) (link : Link Unit) (limit : Duration)
      (observed : NodeState),
      let (shown, _, _, asked) :=
        (readOne e (some name) node).run link.recorded limit observed ((), [])
      let (read, _, _, asked') := (readField node e name).run link.recorded limit observed ((), [])
      shown.map Prod.fst = read.map FieldValue.text ∧ asked = asked' := by
  intro h
  let e : Entry := { address := ⟨0x2000, 1⟩, name := "status", type := .unsigned .w16 }
  have hspeed := h 1 e "speed" (fun _ _ w => (.ok (.entry [0x05, 0x00]), w)) ⟨50⟩ .operational
  have hasked : [Request.readEntry 1 ⟨0x2000, 1⟩] = [] := hspeed.2
  contradiction

end Cli

end Canopen
