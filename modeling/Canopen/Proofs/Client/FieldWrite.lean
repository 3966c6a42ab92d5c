import Canopen.Client
import Canopen.Proofs.Daemon.Link
import Canopen.Proofs.Entry.Fields
/-!
# Writing a bit field

A bit field is written by reading the entry, setting the bits of the field and writing the entry back.
Each of these steps can fail, and so can the checks before them, but only the last one changes
anything, and it changes nothing where it fails. So a field write of which nobody else comes in between
sets the field and nothing else, or nothing at all (`writeField_sets_or_keeps`).
-/
namespace Canopen.Client

variable {α β σ : Type} {link : Link σ} {limit : Duration} {observed : NodeState} {s : σ}
  {node : UInt8} {e : Entry} {name : String} {input : FieldInput}

theorem run_andThen (x : Attempt α) (f : α → Attempt β) (link : Link σ) (limit : Duration)
    (observed : NodeState) (s : σ) :
    (andThen x f).run link limit observed s =
      match x.run link limit observed s with
      | (.ok a, observed, s) => (f a).run link limit observed s
      | (.error e, observed, s) => (.error e, observed, s) := by
  rw [andThen, Operation.run_bind]
  rcases x.run link limit observed s with ⟨_ | a, observed, s⟩ <;> rfl

/-- A check at the end asks nothing. -/
theorem run_check_succeed (r : Except DictionaryError α) (f : α → β) (link : Link σ)
    (limit : Duration) (observed : NodeState) (s : σ) :
    (check r fun a => succeed (f a)).run link limit observed s =
      ((r.mapError .dictionary).map f, observed, s) := by
  cases r <;> rfl

/-- How the reading of the bytes of an entry goes over a link. -/
theorem run_readRaw (h : e.access.isReadable) (link : Link σ) (limit : Duration)
    (observed : NodeState) (s : σ) :
    ∃ r, (readRaw node e).run link limit observed s =
        (r, observed, (link limit (.readEntry node e.address) s).2) ∧
      ∀ data, r = .ok data ↔ (link limit (.readEntry node e.address) s).1 = .ok (.entry data) := by
  rw [readRaw, if_pos h, exchange, Operation.run]
  rcases link limit (.readEntry node e.address) s with ⟨why | reply, s'⟩
  · exact ⟨_, rfl, fun data => by simp⟩
  · cases reply with
    | entry bytes => exact ⟨_, rfl, fun data => by simp⟩
    | _ => exact ⟨_, rfl, fun data => by simp⟩

/-- What comes of a request that is to be acknowledged. -/
def acknowledged : Answer → Except ClientError Unit
  | .error e => .error (.link e)
  | .ok .ack => .ok ()
  | .ok (.refusal why) => .error (.refused why)
  | .ok other => .error (.unexpected other)

theorem acknowledged_eq_ok_iff {answer : Answer} :
    acknowledged answer = .ok () ↔ answer = .ok .ack := by
  rcases answer with e | q
  · simp [acknowledged]
  · cases q <;> simp [acknowledged]

theorem writeRaw_eq (h : e.access.isWritable) (node : UInt8) (data : List UInt8) :
    writeRaw node e data =
      .ask (.writeEntry node e.address data) fun answer => .done (acknowledged answer) := by
  rw [writeRaw, if_pos h, acknowledge, exchange]
  refine congrArg _ (funext fun answer => ?_)
  cases answer with
  | error e => rfl
  | ok q => cases q <;> rfl

/-- How the writing of the bytes of an entry goes over a link. -/
theorem run_writeRaw_eq (h : e.access.isWritable) (data : List UInt8) (link : Link σ)
    (limit : Duration) (observed : NodeState) (s : σ) :
    (writeRaw node e data).run link limit observed s =
      (acknowledged (link limit (.writeEntry node e.address data) s).1, observed,
        (link limit (.writeEntry node e.address data) s).2) := by
  rw [writeRaw_eq h]
  rfl

theorem run_writeRaw (h : e.access.isWritable) (data : List UInt8) (link : Link σ) (limit : Duration)
    (observed : NodeState) (s : σ) :
    ∃ r, (writeRaw node e data).run link limit observed s =
        (r, observed, (link limit (.writeEntry node e.address data) s).2) ∧
      (r = .ok () ↔ (link limit (.writeEntry node e.address data) s).1 = .ok .ack) :=
  ⟨_, run_writeRaw_eq h data link limit observed s, acknowledged_eq_ok_iff⟩

/-- A field is read off the bytes that the link replies. -/
theorem run_readField {data : List UInt8} {v : FieldValue} (h : e.access.isReadable)
    (hanswer : (link limit (.readEntry node e.address) s).1 = .ok (.entry data))
    (hv : e.extractField name data = .ok v) :
    ((readField node e name).run link limit observed s).1 = .ok v := by
  obtain ⟨f, hf, -⟩ := bind_eq_ok_iff.mp hv
  obtain ⟨r, hrun, hr⟩ := @run_readRaw σ node e h link limit observed s
  rw [(hr data).mpr hanswer] at hrun
  rw [readField, hf, check, run_andThen, hrun]
  simp only [hv, check]
  rfl

/-- What a field write can come to over a link, and what becomes of the link. -/
inductive Course (link : Link σ) (limit : Duration) (node : UInt8) (e : Entry) (name : String)
    (input : FieldInput) (s : σ) : Except ClientError Unit → σ → Prop
  /-- A check has failed. -/
  | refused (why : ClientError) : Course link limit node e name input s (.error why) s
  /-- The entry could not be read, or not be understood. -/
  | unread (why : ClientError) : Course link limit node e name input s (.error why)
      (link limit (.readEntry node e.address) s).2
  | unwritten {packed : List UInt8} (why : ClientError)
      (hwrite : (link limit (.writeEntry node e.address packed)
        (link limit (.readEntry node e.address) s).2).1 ≠ .ok .ack) :
      Course link limit node e name input s (.error why)
        (link limit (.writeEntry node e.address packed)
          (link limit (.readEntry node e.address) s).2).2
  | written {current packed : List UInt8} (hreadable : e.access.isReadable)
      (hread : (link limit (.readEntry node e.address) s).1 = .ok (.entry current))
      (hpack : e.packField name current input = .ok packed)
      (hwrite : (link limit (.writeEntry node e.address packed)
        (link limit (.readEntry node e.address) s).2).1 = .ok .ack) :
      Course link limit node e name input s (.ok ())
        (link limit (.writeEntry node e.address packed)
          (link limit (.readEntry node e.address) s).2).2

/-- Every field write takes one of these courses. -/
theorem course_writeField (node : UInt8) (e : Entry) (name : String) (input : FieldInput)
    (link : Link σ) (limit : Duration) (observed : NodeState) (s : σ) :
    Course link limit node e name input s
      ((writeField node e name input).run link limit observed s).1
      ((writeField node e name input).run link limit observed s).2.2 := by
  unfold writeField
  by_cases hwritable : e.access.isWritable
  swap
  · simp only [hwritable, Bool.not_false, if_true]
    exact .refused _
  by_cases hreadable : e.access.isReadable
  swap
  · simp only [hwritable, hreadable, Bool.not_true, Bool.not_false, Bool.false_eq_true, if_true,
      if_false]
    exact .refused _
  simp only [hwritable, hreadable, Bool.not_true, Bool.false_eq_true, if_false]
  cases e.checkFieldInput name input with
  | error why => exact .refused _
  | ok _ =>
    obtain ⟨r, hrun, hr⟩ := @run_readRaw σ node e hreadable link limit observed s
    rw [check, run_andThen, hrun]
    cases r with
    | error why => exact .unread why
    | ok current =>
      have hread := (hr current).mp rfl
      dsimp only
      cases hpack : e.packField name current input with
      | error why => exact .unread _
      | ok packed =>
        obtain ⟨r', hrun', hr'⟩ := @run_writeRaw σ node e hwritable packed link limit observed
          (link limit (.readEntry node e.address) s).2
        rw [check, hrun']
        cases r' with
        | error why =>
          refine .unwritten why fun hack => ?_
          have hok := hr'.mpr hack
          contradiction
        | ok _ => exact .written hreadable hread hpack (hr'.mp rfl)

/-- What a field write needs of the daemon to succeed: a line to it, a node that shows no failure, and
the entry, of which the bytes are read. -/
theorem access_of_packField {connected : Bool} {d : Daemon} {current packed : List UInt8}
    (hsize : ∀ data size, d.bytes? node e.address = some data → e.type.byteSize? = some size →
      data.length = size)
    (hread : (Daemon.link connected limit (.readEntry node e.address) d).1 = .ok (.entry current))
    (hpack : e.packField name current input = .ok packed)
    (hwrite : (Daemon.link connected limit (.writeEntry node e.address packed) d).1 = .ok .ack) :
    connected = true ∧ d.failing.get? node = none ∧
      ∃ stored, d.access node e.address = .ok stored ∧ stored.data = current := by
  obtain ⟨hconnected, ⟨stored, hstored⟩, -⟩ := Daemon.access_of_link_writeEntry hwrite
  rcases Daemon.access_of_link_readEntry hread with ⟨hfail, hcurrent⟩ | ⟨-, hspoiled⟩
  · exact ⟨hconnected, hfail, hcurrent⟩
  · -- spoiled bytes are one too many to be packed into
    obtain ⟨f, raw, value, bits, hf, hraw, -⟩ := Entry.exists_of_packField hpack
    obtain ⟨w, hw, -⟩ := Entry.exists_fits_of_field hf
    have hbytes : d.bytes? node e.address = some stored.data := by
      rw [Daemon.bytes?_eq, Daemon.stored?_of_access hstored, Option.map_some]
    have hlength := hsize _ _ hbytes (DataType.byteSize?_of_intWidth? hw)
    have hneeded := ((DataType.rawBits_eq_ok_iff hw).mp hraw).1
    rw [← hspoiled, hbytes, Option.getD_some, List.length_append, List.length_singleton] at hneeded
    omega

/-- Holds of a bench before and after a field of an entry of a node has been set to a value by a field
write, and nothing else. -/
structure SetsOnly (node : UInt8) (e : Entry) (name : String) (f : BitField) (value : BitVec 64)
    (b b' : Bench) : Prop where
  /-- The entry has been read and written, and the field set in its bytes. -/
  entry : ∃ before after,
    b.daemon.bytes? node e.address = some before ∧
      b'.daemon.bytes? node e.address = some after ∧ Entry.SetsField f value before after ∧
        b'.sent = b.sent ++ [.readEntry node e.address, .writeEntry node e.address after]
  /-- The field has the value when it is read. -/
  readBack : ∀ limit observed,
    ((readField node e name).run Bench.exchange limit observed b').1 =
      .ok ⟨value, f.labelOf? value⟩
  otherEntries : ∀ n a, ¬(n = node ∧ a = e.address) →
    b'.daemon.stored? n a = b.daemon.stored? n a
  otherNodes : ∀ n, n ≠ node → b'.daemon.nodes.get? n = b.daemon.nodes.get? n
  states : ∀ n, b'.daemon.state? n = b.daemon.state? n
  failing : b'.daemon.failing = b.daemon.failing

theorem sets_of_shows {b b' : Bench} {asked : List Request} {current packed : List UInt8}
    {stored : Stored} (hreadable : e.access.isReadable) (hfail : b.daemon.failing.get? node = none)
    (hstored : b.daemon.access node e.address = .ok stored) (hcurrent : stored.data = current)
    (hpack : e.packField name current input = .ok packed)
    (hasked : asked = [.readEntry node e.address, .writeEntry node e.address packed])
    (hshows : b'.Shows true b.sent (b.daemon.put node e.address packed, asked)) :
    ∃ f value, e.field name = .ok f ∧ f.resolve input = .ok value ∧
      SetsOnly node e name f value b b' := by
  obtain ⟨f, value, hf, hvalue, hsets, hextract⟩ := Entry.packField_spec hpack
  have hdaemon : b'.daemon = b.daemon.put node e.address packed := hshows.daemon
  have hbefore := Daemon.stored?_of_access hstored
  have hafter : b'.daemon.stored? node e.address = some { stored with data := packed } := by
    rw [hdaemon, Daemon.stored?_put, if_pos ⟨rfl, rfl⟩, hbefore, Option.map_some]
  refine ⟨f, value, hf, hvalue, ?_⟩
  constructor
  case entry =>
    refine ⟨current, packed, ?_, ?_, hsets, hasked ▸ hshows.sent⟩
    · rw [Daemon.bytes?_eq, hbefore, Option.map_some, hcurrent]
    · rw [Daemon.bytes?_eq, hafter, Option.map_some]
  case readBack =>
    intro limit observed
    have haccess := Daemon.access_put_self b.daemon node e.address packed
    rw [hstored] at haccess
    have hread := @Daemon.link_readEntry true limit (b.daemon.put node e.address packed) node
      e.address _ rfl hfail haccess
    rw [(hshows.run (readField node e name) limit observed).1]
    exact run_readField hreadable hread hextract
  case otherEntries =>
    intro n a h
    rw [hdaemon, Daemon.stored?_put, if_neg h]
  case otherNodes =>
    intro n hn
    rw [hdaemon, Daemon.get?_nodes_put_ne hn]
  case states =>
    intro n
    rw [hdaemon, Daemon.state?_put]
  case failing => rw [hdaemon, Daemon.failing_put]

/-- A field write sets the field and nothing else where it succeeds, and changes nothing at the daemon
where it fails, whatever nodes there are and whatever failures they show. -/
theorem writeField_sets_or_keeps (b : Bench) (hprepared : b.prepared = []) (node : UInt8) (e : Entry)
    (hsize : ∀ data size, b.daemon.bytes? node e.address = some data → e.type.byteSize? = some size →
      data.length = size)
    (name : String) (input : FieldInput) (limit : Duration) (observed : NodeState) :
    let (r, _, b') := (writeField node e name input).run Bench.exchange limit observed b
    (r = .ok () → ∃ f value, e.field name = .ok f ∧ f.resolve input = .ok value ∧
        SetsOnly node e name f value b b') ∧
      ∀ why, r = .error why → b'.daemon = b.daemon := by
  have hrun := (Bench.shows_self hprepared).run (writeField node e name input) limit observed
  have hcourse := course_writeField node e name input (Link.recorded (Daemon.link b.connected)) limit
    observed (b.daemon, [])
  generalize (writeField node e name input).run Bench.exchange limit observed b = out at hrun ⊢
  generalize (writeField node e name input).run (Link.recorded (Daemon.link b.connected)) limit
    observed (b.daemon, []) = out' at hrun hcourse
  obtain ⟨r, o, b'⟩ := out
  obtain ⟨r', o', s'⟩ := out'
  obtain ⟨hr, hshows⟩ := hrun
  dsimp only at hr hshows hcourse ⊢
  subst hr
  have hunread : (Link.recorded (Daemon.link b.connected) limit (.readEntry node e.address)
      (b.daemon, [])).2 = (b.daemon, [.readEntry node e.address]) :=
    congrArg (·, _) (Daemon.link_readEntry_snd ..)
  cases hcourse with
  | refused why => exact ⟨fun h => by contradiction, fun _ _ => hshows.daemon⟩
  | unread why => exact ⟨fun h => by contradiction, fun _ _ => by rw [hshows.daemon, hunread]⟩
  | unwritten why hwrite =>
    refine ⟨fun h => by contradiction, fun _ _ => ?_⟩
    rw [hunread] at hwrite hshows
    exact hshows.daemon.trans (Daemon.link_writeEntry_snd_of_ne hwrite)
  | @written current packed hreadable hread hpack hwrite =>
    refine ⟨fun _ => ?_, fun _ h => by contradiction⟩
    rw [hunread] at hwrite hshows
    obtain ⟨hconnected, hfail, stored, hstored, hcurrent⟩ :=
      access_of_packField hsize hread hpack hwrite
    obtain ⟨-, -, hput⟩ := Daemon.access_of_link_writeEntry hwrite
    refine sets_of_shows hreadable hfail hstored hcurrent hpack rfl ?_
    rw [← hconnected, ← hput]
    exact hshows

/-- Writing a label sets three bits in the middle of a byte. -/
theorem writeField_sets_label :
    let mode : BitField := ⟨"mode", 2, 3, some [(5, "run")], by decide, by decide⟩
    let e : Entry :=
      { address := ⟨0x2000, 0⟩, name := "control", type := .unsigned .w8, fields := [mode] }
    let n : NodeStore := { entries := [(e.address, ⟨[0xA5], some 1⟩)] }
    let b : Bench := { daemon := { nodes := SortedMap.empty.insert 1 n } }
    let out := (writeField 1 e "mode" (.label "run")).run Bench.exchange ⟨50⟩ .initializing b
    out.1 = .ok () ∧ SetsOnly 1 e "mode" mode 5 b out.2.2 := by
  intro mode e n b out
  have hok : out.1 = .ok () := rfl
  have hsize : ∀ data size, b.daemon.bytes? 1 e.address = some data →
      e.type.byteSize? = some size → data.length = size := by
    rintro data size hdata hbytes
    have hdata : some [0xA5] = some data := hdata
    have hbytes : some 1 = some size := hbytes
    cases hdata
    cases hbytes
    rfl
  obtain ⟨f, value, hf, hvalue, hsets⟩ :=
    (writeField_sets_or_keeps b rfl 1 e hsize "mode" (.label "run") ⟨50⟩ .initializing).1 hok
  have hf : Except.ok mode = Except.ok f := hf
  cases hf
  have hvalue : Except.ok 5 = Except.ok value := hvalue
  cases hvalue
  exact ⟨hok, hsets⟩

end Canopen.Client
