import Canopen.Proofs.Client.FieldWrite
import Canopen.Proofs.Operation.Replay
/-!
# Moving files

A file is moved by two requests: its name selects it in a cache of the node, and then its data is read or
written. The second request is made if and only if the first one has been acknowledged, and the reply to
it tells what comes of the transfer (`Client.transfer_in_two_steps`).
-/
namespace Canopen

namespace Client

variable {α σ : Type} {node : UInt8} {index : UInt16} {name : String} {e : Entry}
  {request : Request} {expected : α → Reply} {x : Attempt α}

/-- Holds of an attempt that consists of one request, and that succeeds exactly on the replies that are
expected. -/
def AsksOnce (request : Request) (expected : α → Reply) (x : Attempt α) : Prop :=
  ∀ (σ : Type) (link : Link σ) (limit : Duration) (observed : NodeState) (s : σ),
    ∃ r, x.run link limit observed s = (r, observed, (link limit request s).2) ∧
      ∀ a, r = .ok a ↔ (link limit request s).1 = .ok (expected a)

theorem asksOnce_readRaw (h : e.access.isReadable) :
    AsksOnce (.readEntry node e.address) .entry (readRaw node e) :=
  fun _ link limit observed s => run_readRaw h link limit observed s

theorem asksOnce_writeRaw (h : e.access.isWritable) (data : List UInt8) :
    AsksOnce (.writeEntry node e.address data) (fun _ => .ack) (writeRaw node e data) := by
  intro σ link limit observed s
  obtain ⟨r, hrun, hr⟩ := @run_writeRaw σ node e h data link limit observed s
  exact ⟨r, hrun, fun _ => hr⟩

/-- What is said of a transfer by what it has exchanged and what it has come to. -/
structure Transferred (node : UInt8) (index : UInt16) (name : String) (request : Request)
    (expected : α → Reply) (t : List Exchange) (r : Except ClientError α) : Prop where
  /-- What cannot be the name of a file is refused before anything is asked. -/
  refused : name = "" ∨ '/' ∈ name.toList → t = [] ∧ ∃ e, r = .error e ∧ e.kind = .invalidArgument
  /-- Otherwise the name is written first. Only if that is acknowledged the data is asked for, and
  nothing else is asked. -/
  selected : name ≠ "" ∧ '/' ∉ name.toList → ∃ answer rest,
    t = (.writeEntry node ⟨index, 3⟩ (Text.Utf8.encode name), answer) :: rest ∧
      (answer ≠ .ok .ack → rest = [] ∧ ∃ e, r = .error e) ∧
      (answer = .ok .ack → ∃ reply, rest = [(request, reply)] ∧
        ∀ a, r = .ok a ↔ reply = .ok (expected a))

/-- Whoever selects a file and then makes one request transfers it, over any link. -/
theorem AsksOnce.transferred (hx : AsksOnce request expected x) (hwritable : e.access.isWritable)
    (haddress : e.address = ⟨index, 3⟩) (link : Link σ) (limit : Duration) (observed : NodeState)
    (s : σ) :
    let (r, _, _, t) :=
      (andThen (selectFile node e name) fun _ => x).run link.logged limit observed (s, [])
    Transferred node index name request expected t r := by
  by_cases hname : isFileName name
  swap
  · rw [selectFile, if_neg hname]
    refine ⟨fun _ => ⟨rfl, _, rfl, rfl⟩, fun hok => ?_⟩
    exact absurd (isFileName_iff.mpr hok) hname
  · have hok := isFileName_iff.mp hname
    obtain ⟨r, hselect, hr⟩ := @run_writeRaw _ node e hwritable (Text.Utf8.encode name)
      link.logged limit observed (s, [])
    obtain ⟨r', hrequest, hr'⟩ := hx _ link.logged limit observed
      (link.logged limit (.writeEntry node e.address (Text.Utf8.encode name)) (s, [])).2
    rw [selectFile, if_pos hname, run_andThen, hselect]
    rw [haddress] at hr hrequest hr' ⊢
    cases r with
    | error why =>
      have hanswer : (link limit (.writeEntry node ⟨index, 3⟩ (Text.Utf8.encode name)) s).1 ≠
          .ok .ack := fun hack => by cases hr.mpr hack
      refine ⟨fun hbad => absurd hbad (not_or.mpr hok), fun _ => ⟨_, [], rfl, ?_, ?_⟩⟩
      · exact fun _ => ⟨rfl, why, rfl⟩
      · exact fun hack => absurd hack hanswer
    | ok _ =>
      have hanswer : (link limit (.writeEntry node ⟨index, 3⟩ (Text.Utf8.encode name)) s).1 =
          .ok .ack := hr.mp rfl
      dsimp only
      rw [hrequest]
      refine ⟨fun hbad => absurd hbad (not_or.mpr hok), fun _ => ⟨_, [(request, _)], rfl, ?_, ?_⟩⟩
      · exact fun hnot => absurd hanswer hnot
      · exact fun _ => ⟨_, rfl, hr'⟩

/-- Whatever a link answers, a file is received and sent in at most two steps. What is no name of a file is
refused before anything is asked. Otherwise the bytes of the name are written to the object that selects a
file, and the object with its data is read or written if and only if this has been acknowledged. The
transfer succeeds exactly on the reply that belongs to the second request. -/
theorem transfer_in_two_steps (link : Link σ) (limit : Duration) (observed : NodeState) (s : σ)
    (node : UInt8) (name : String) (data : List UInt8) :
    (let (r, _, _, t) := (receiveFile node name).run link.logged limit observed (s, [])
     Transferred node 0x3004 name (.readEntry node ⟨0x3004, 4⟩) .entry t r) ∧
    let (r, _, _, t) := (sendFile node name data).run link.logged limit observed (s, [])
    Transferred node 0x3005 name (.writeEntry node ⟨0x3005, 4⟩ data) (fun _ => .ack) t r := by
  have hreceive : AsksOnce (.readEntry node ⟨0x3004, 4⟩) .entry
      (readRaw node Standard.freadFileData) := asksOnce_readRaw rfl
  have hsend : AsksOnce (.writeEntry node ⟨0x3005, 4⟩ data) (fun _ => .ack)
      (writeRaw node Standard.fwriteFileData data) := asksOnce_writeRaw rfl data
  rw [receiveFile_eq, sendFile_eq]
  constructor
  · exact hreceive.transferred (e := Standard.freadFileName) rfl rfl link limit observed s
  · exact hsend.transferred (e := Standard.fwriteFileName) rfl rfl link limit observed s

end Client

end Canopen
