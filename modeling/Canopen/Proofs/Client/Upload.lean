import Canopen.Proofs.Client.FileTransfer
import Canopen.Proofs.Operation.Errand
/-!
# Uploads that do not fit a frame

The size of a request is looked at when it begins, one request at a time: one that does not fit ends at
once, and nothing of it is queued. A file is sent by two requests, so if its data does not fit, its name
has been sent before this is noticed. What the daemon makes of the name does not depend on what the
client gets to know: the acknowledgement may come in late or not at all. So such an upload never
succeeds and never sends its data, but the name of the file may have been selected
(`Client.oversized_upload`).
-/
namespace Canopen

variable {limit : Duration} {r : Request}

/-- Holds of the requests whose frames are not too long. -/
def Request.Fits (r : Request) : Prop :=
  ∀ sequence : UInt16, (r.toFrame sequence).bodyLength ≤ Frame.maxLength

theorem Request.fits_iff : r.Fits ↔ r.sendFault? = none :=
  ⟨fun h => sendFault?_eq_none_iff.mpr (h 0), fun h _ => sendFault?_eq_none_iff.mp h⟩

theorem Request.fits_iff_length : r.Fits ↔ r.payload.length ≤ Frame.maxLength - Frame.headerLength :=
  ⟨fun h => Frame.bodyLength_le_iff.mp (h 0), fun h _ => Frame.bodyLength_le_iff.mpr h⟩

theorem Request.sendFault?_of_not_fits (h : ¬r.Fits) :
    r.sendFault? = some (.tooLong r.payload.length) := by
  rw [fits_iff, sendFault?] at h
  exact if_pos (by_contra fun hfits => h (if_neg hfits))

namespace Connection

variable {c c' : Connection} {id : Nat}

/-- Holds of a request that is about something, and that has ended when it began if it does not
fit. -/
structure Carries (c : Connection) (id : Nat) (r : Request) : Prop where
  request : ∃ call, c.calls[id]? = some call ∧ call.request = r
  unsent : ¬r.Fits → c.answer? id = some (.error (.notSent (.tooLong r.payload.length)))

theorem carries_start (c : Connection) (r : Request) (limit : Duration) :
    (c.start r limit).Carries c.calls.length r where
  request := ⟨_, by rw [calls_start, List.getElem?_concat_length], rfl⟩
  unsent h := answer?_start (Request.sendFault?_of_not_fits h) c limit

theorem Carries.step {a : Action} (h : c.Carries id r) (hstep : c.Step a c') : c'.Carries id r where
  request := by
    obtain ⟨call, hcall, hr⟩ := h.request
    obtain ⟨call', hcall', hmove⟩ := hstep.move hcall
    exact ⟨call', hcall', hmove.request_eq.trans hr⟩
  unsent hlong := hstep.answer?_eq (h.unsent hlong)

/-- Nothing is queued for a request that does not fit. -/
theorem Carries.not_mem {ids : List Nat} (h : c.Carries id r) (hlong : ¬r.Fits)
    (ho : Outgoing ids c) : id ∉ ids := by
  obtain ⟨call, hcall, rfl⟩ := h.request
  refine ho.not_mem_of_long hcall (Nat.lt_of_not_le fun hle => hlong ?_)
  exact Request.fits_iff.mpr (Request.sendFault?_eq_none_iff.mpr hle)

theorem Carries.requestsOf_eq (h : c.Carries id r) : c.requestsOf [id] = [r] := by
  obtain ⟨call, hcall, rfl⟩ := h.request
  exact requestsOf_singleton hcall

end Connection

namespace Client

variable {node : UInt8} {name : String} {data : List UInt8}

/-- The request that selects a file to write. -/
def selection (node : UInt8) (name : String) : Request :=
  .writeEntry node ⟨0x3005, 3⟩ (Text.Utf8.encode name)

def delivery (node : UInt8) (data : List UInt8) : Request := .writeEntry node ⟨0x3005, 4⟩ data

theorem length_payload_delivery (node : UInt8) (data : List UInt8) :
    (delivery node data).payload.length = data.length + 4 := by
  simp [delivery, Request.payload, Request.addressBytes, Bytes.ofWord16]
  omega

theorem fits_delivery_iff : (delivery node data).Fits ↔ data.length ≤ 65529 := by
  have hroom : Frame.maxLength - Frame.headerLength = 65533 := rfl
  rw [Request.fits_iff_length, length_payload_delivery, hroom]
  omega

def deliver (node : UInt8) (data : List UInt8) : Attempt Unit :=
  .ask (delivery node data) fun answer => .done (acknowledged answer)

/-- The first half of an upload, and the second one if the name has been acknowledged. -/
theorem sendFile_eq_ask (h : isFileName name) (node : UInt8) (data : List UInt8) :
    sendFile node name data = .ask (selection node name) fun answer =>
      andThen (.done (acknowledged answer)) fun _ => deliver node data := by
  rw [sendFile_eq, selectFile, if_pos h, writeRaw_eq rfl, writeRaw_eq rfl]
  rfl

/-- An upload before its first turn, on a new connection with a daemon behind it. -/
def upload (node : UInt8) (name : String) (data : List UInt8) (limit : Duration)
    (observed : NodeState) (first : Daemon) : Errand (Except ClientError Unit) where
  line := { daemon := first }
  rest := sendFile node name data
  observed := observed
  limit := limit

/-- The error of a request whose frame is too long. -/
def tooLong (r : Request) : ClientError := .link (.notSent (.tooLong r.payload.length))

/-- The requests of others that the daemon has handled. -/
def othersOf {α : Type} (c : Errand α) : List Request :=
  c.line.connection.requestsOf (c.line.served.filter (· ∉ c.made))

/-- The requests of the operation whose frames have been queued. -/
def askedOf {α : Type} (c : Errand α) : List Request :=
  c.line.connection.requestsOf (c.line.dialogue.asked.filter (· ∈ c.made))

/-- What is said of an upload whose data does not fit, wherever it has come to. -/
structure Stranded (node : UInt8) (name : String) (data : List UInt8) (first : Daemon)
    (c : Errand (Except ClientError Unit)) : Prop where
  failed : ∀ r, c.rest = .done r → ∃ e, r = .error e
  /-- Where the client gets the acknowledgement of the name, the upload fails because of its data. -/
  acknowledged : (∃ id ∈ c.made, c.line.connection.answer? id = some (.ok .ack)) →
    ∀ r, c.rest = .done r → r = .error (tooLong (delivery node data))
  /-- Where the name does not fit either, it fails because of its name. -/
  refused : ¬(selection node name).Fits →
    ∀ r, c.rest = .done r → r = .error (tooLong (selection node name))
  /-- It can be ended by turns of its own, unless its request has been given up. -/
  ends : (∀ id call, c.awaited = some id → c.line.connection.calls[id]? = some call →
      call.stage ≠ .finished .abandoned) →
    ∃ turns c' e, c.run? turns = some c' ∧ c'.rest = .done (.error e) ∧
      ∀ t ∈ turns, t.isOwn c'.made
  /-- All that it sends is the name, once, and only if that fits. -/
  sent : askedOf c = [] ∨ askedOf c = [selection node name] ∧ (selection node name).Fits
  /-- The daemon is what others make of it, or this with the file selected, if it has acknowledged
  that. -/
  daemon : c.line.daemon = first.handleAll (othersOf c) ∨
    (∃ id ∈ c.made, c.line.Acknowledged id) ∧
      c.line.daemon =
        (first.handleAll (othersOf c)).put node ⟨0x3005, 3⟩ (Text.Utf8.encode name)
  /-- If it has, and nobody else selects a file, the file is selected. -/
  selected : (∃ id ∈ c.made, c.line.Acknowledged id) →
    (∀ written, .writeEntry node ⟨0x3005, 3⟩ written ∉ othersOf c) →
    c.line.daemon = (first.handleAll (othersOf c)).put node ⟨0x3005, 3⟩ (Text.Utf8.encode name)

/-- How far an upload whose data does not fit has come. -/
inductive Phase (node : UInt8) (name : String) (data : List UInt8)
    (c : Errand (Except ClientError Unit)) : Prop where
  | fresh (hmade : c.made = []) (hawaited : c.awaited = none)
      (hrest : c.rest = sendFile node name data)
  | selecting {id : Nat} (hid : c.line.connection.Carries id (selection node name))
      (hmade : c.made = [id]) (hawaited : c.awaited = some id)
      (hrest : c.rest = sendFile node name data)
  | unselected {id : Nat} {answer : Answer}
      (hid : c.line.connection.Carries id (selection node name))
      (hanswer : c.line.connection.answer? id = some answer) (hne : answer ≠ .ok .ack)
      (hmade : c.made = [id]) (hawaited : c.awaited = none)
      (hrest : c.rest = .done (acknowledged answer))
  | selected {id : Nat} (hid : c.line.connection.Carries id (selection node name))
      (hack : c.line.connection.answer? id = some (.ok .ack))
      (hmade : c.made = [id]) (hawaited : c.awaited = none) (hrest : c.rest = deliver node data)
  | delivering {id id' : Nat} (hid : c.line.connection.Carries id (selection node name))
      (hack : c.line.connection.answer? id = some (.ok .ack))
      (hid' : c.line.connection.Carries id' (delivery node data))
      (hmade : c.made = [id, id']) (hawaited : c.awaited = some id')
      (hrest : c.rest = deliver node data)
  | undelivered {id id' : Nat} (hid : c.line.connection.Carries id (selection node name))
      (hack : c.line.connection.answer? id = some (.ok .ack))
      (hid' : c.line.connection.Carries id' (delivery node data))
      (hmade : c.made = [id, id']) (hawaited : c.awaited = none)
      (hrest : c.rest = .done (.error (tooLong (delivery node data))))

variable {c c' : Errand (Except ClientError Unit)} {t : Errand.Turn} {first : Daemon}

/-- What is known of the requests of an upload stays, whatever happens on the connection. -/
theorem Phase.line {line : Served} (h : Phase node name data c)
    (hcarries : ∀ id r, c.line.connection.Carries id r → line.connection.Carries id r)
    (hanswers : ∀ id answer, c.line.connection.answer? id = some answer →
      line.connection.answer? id = some answer) :
    Phase node name data { c with line } := by
  cases h with
  | fresh hmade hawaited hrest => exact .fresh hmade hawaited hrest
  | selecting hid hmade hawaited hrest =>
    exact .selecting (hcarries _ _ hid) hmade hawaited hrest
  | unselected hid hanswer hne hmade hawaited hrest =>
    exact .unselected (hcarries _ _ hid) (hanswers _ _ hanswer) hne hmade hawaited hrest
  | selected hid hack hmade hawaited hrest =>
    exact .selected (hcarries _ _ hid) (hanswers _ _ hack) hmade hawaited hrest
  | delivering hid hack hid' hmade hawaited hrest =>
    exact .delivering (hcarries _ _ hid) (hanswers _ _ hack) (hcarries _ _ hid') hmade hawaited hrest
  | undelivered hid hack hid' hmade hawaited hrest =>
    exact .undelivered (hcarries _ _ hid) (hanswers _ _ hack) (hcarries _ _ hid') hmade hawaited
      hrest

/-- A turn of a line keeps what is known of requests. -/
theorem carries_turn {s s' : Served} {t : Served.Turn} (h : s.dialogue.Coherent)
    (ht : s.turn? t = some s') :
    (∀ id r, s.connection.Carries id r → s'.connection.Carries id r) ∧
      ∀ id answer, s.connection.answer? id = some answer →
        s'.connection.answer? id = some answer := by
  rcases (Served.exists_step h ht).1 with hsame | ⟨a, hstep⟩
  · rw [hsame]
    exact ⟨fun _ _ h => h, fun _ _ h => h⟩
  · exact ⟨fun _ _ h => h.step hstep, fun _ _ h => hstep.answer?_eq h⟩

theorem Phase.progress (hname : isFileName name) (hdata : ¬(delivery node data).Fits)
    (hs : c.Sound first) (h : Phase node name data c) (hp : c.Progress t c') :
    Phase node name data c' := by
  have hsend := sendFile_eq_ask hname node data
  cases hp with
  | line ht =>
    obtain ⟨hcarries, hanswers⟩ := carries_turn hs.line.coherent ht
    exact h.line hcarries hanswers
  | @ask request next line hrest hnone ht =>
    obtain ⟨hcarries, hanswers⟩ := carries_turn hs.line.coherent ht
    have hstart := (Served.connection_start ht).1
    have hnew := c.line.connection.carries_start request c.limit
    rw [← hstart] at hnew
    cases h with
    | fresh hmade _ hrest' =>
      obtain ⟨rfl, rfl⟩ : request = selection node name ∧ next = _ := by
        simpa [hrest, hsend] using hrest'
      exact .selecting hnew (by rw [hmade, List.nil_append]) rfl hrest'
    | selected hid hack hmade _ hrest' =>
      obtain ⟨rfl, rfl⟩ : request = delivery node data ∧ next = _ := by
        simpa [hrest, deliver] using hrest'
      exact .delivering (hcarries _ _ hid) (hanswers _ _ hack) hnew (by rw [hmade]; rfl) rfl hrest'
    | selecting _ _ hawaited | delivering _ _ _ _ hawaited => simp [hnone] at hawaited
    | unselected _ _ _ _ _ hrest' | undelivered _ _ _ _ _ hrest' => simp [hrest] at hrest'
  | @resume request next id answer hrest hid hanswer =>
    cases h with
    | selecting hcarries hmade hawaited hrest' =>
      obtain ⟨rfl, rfl⟩ : request = selection node name ∧ next = _ := by
        simpa [hrest, hsend] using hrest'
      obtain rfl := Option.some.inj (hid.symm.trans hawaited)
      by_cases hack : answer = .ok .ack
      · subst hack
        exact .selected hcarries hanswer hmade rfl rfl
      · refine .unselected hcarries hanswer hack hmade rfl ?_
        cases hr : acknowledged answer with
        | ok _ => exact absurd (acknowledged_eq_ok_iff.mp hr) hack
        | error e =>
          dsimp only
          rw [hr]
          rfl
    | delivering hcarries hack hcarries' hmade hawaited hrest' =>
      obtain ⟨rfl, rfl⟩ : request = delivery node data ∧ next = _ := by
        simpa [hrest, deliver] using hrest'
      obtain rfl := Option.some.inj (hid.symm.trans hawaited)
      obtain rfl := Option.some.inj (hanswer.symm.trans (hcarries'.unsent hdata))
      exact .undelivered hcarries hack hcarries' hmade rfl rfl
    | fresh _ hawaited | selected _ _ _ hawaited | unselected _ _ _ _ hawaited
    | undelivered _ _ _ _ hawaited => simp [hid] at hawaited
  | look hrest | note hrest =>
    cases h with
    | fresh _ _ hrest' | selecting _ _ _ hrest' => simp [hrest, hsend] at hrest'
    | selected _ _ _ _ hrest' | delivering _ _ _ _ _ hrest' => simp [hrest, deliver] at hrest'
    | unselected _ _ _ _ _ hrest' | undelivered _ _ _ _ _ hrest' => simp [hrest] at hrest'

/-- What an upload whose data does not fit has come to, if it has. -/
theorem Phase.result (hname : isFileName name) (h : Phase node name data c)
    {r : Except ClientError Unit} (hr : c.rest = .done r) :
    (∃ id answer, c.line.connection.Carries id (selection node name) ∧
      c.line.connection.answer? id = some answer ∧ answer ≠ .ok .ack ∧ c.made = [id] ∧
        r = acknowledged answer) ∨
    ∃ id id', c.line.connection.Carries id (selection node name) ∧
      c.line.connection.answer? id = some (.ok .ack) ∧ c.made = [id, id'] ∧
        r = .error (tooLong (delivery node data)) := by
  cases h with
  | fresh _ _ hrest | selecting _ _ _ hrest =>
    simp [hr, sendFile_eq_ask hname] at hrest
  | selected _ _ _ _ hrest | delivering _ _ _ _ _ hrest => simp [hr, deliver] at hrest
  | unselected hid hanswer hne hmade _ hrest =>
    exact .inl ⟨_, _, hid, hanswer, hne, hmade, Operation.done.inj (hr.symm.trans hrest)⟩
  | undelivered hid hack _ hmade _ hrest =>
    exact .inr ⟨_, _, hid, hack, hmade, Operation.done.inj (hr.symm.trans hrest)⟩

/-- Holds where nothing of an operation is queued but one request at most. -/
def Shows {α : Type} (r : Request) (c : Errand α) : Prop :=
  (∀ other ∈ c.line.dialogue.asked, other ∉ c.made) ∨
    ∃ id, id ∈ c.made ∧ id ∈ c.line.dialogue.asked ∧ c.line.connection.Carries id r ∧
      ∀ other ∈ c.line.dialogue.asked, other ∈ c.made ↔ other = id

/-- Of the requests of an upload whose data does not fit, only the first one can be sent. -/
theorem Phase.shows (hdata : ¬(delivery node data).Fits) (h : Phase node name data c)
    (hs : c.Sound first) : Shows (selection node name) c := by
  have hfirst {id : Nat} (hid : c.line.connection.Carries id (selection node name))
      (hmem : id ∈ c.made)
      (hmade : ∀ other ∈ c.line.dialogue.asked, other ∈ c.made ↔ other = id) :
      Shows (selection node name) c := by
    by_cases hasked : id ∈ c.line.dialogue.asked
    · exact .inr ⟨id, hmem, hasked, hid, hmade⟩
    · exact .inl fun other hother hown => hasked ((hmade other hother).mp hown ▸ hother)
  have hsecond {id id' : Nat} (hid' : c.line.connection.Carries id' (delivery node data))
      (hmade : c.made = [id, id']) :
      ∀ other ∈ c.line.dialogue.asked, other ∈ c.made ↔ other = id := by
    intro other hother
    have hne : other ≠ id' := fun heq =>
      hid'.not_mem hdata hs.line.coherent.outgoing (heq ▸ hother)
    simp [hmade, hne]
  cases h with
  | fresh hmade => exact .inl (by simp [hmade])
  | selecting hid hmade | unselected hid _ _ hmade | selected hid _ hmade =>
    exact hfirst hid (by simp [hmade]) (by simp [hmade])
  | delivering hid _ hid' hmade | undelivered hid _ hid' hmade =>
    exact hfirst hid (by simp [hmade]) (hsecond hid' hmade)

/-- An operation of which nothing has been queued leaves the daemon to the others. -/
theorem requests_of_unseen {α : Type} {c : Errand α}
    (h : ∀ other ∈ c.line.dialogue.asked, other ∉ c.made) :
    othersOf c = c.line.connection.requestsOf c.line.served ∧ askedOf c = [] := by
  have hothers : c.line.served.filter (· ∉ c.made) = c.line.served :=
    List.filter_eq_self.mpr fun other hother => decide_eq_true (h other (List.mem_of_mem_take hother))
  have hasked : c.line.dialogue.asked.filter (· ∈ c.made) = [] :=
    List.filter_eq_nil_iff.mpr fun other hother => by simpa using h other hother
  rw [othersOf, askedOf, hothers, hasked]
  exact ⟨rfl, rfl⟩

/-- Of an operation one of whose requests has been queued, this one has been asked, and all others that
the daemon has handled are the requests of others. -/
theorem requests_of_seen {α : Type} {c : Errand α} (hs : c.Sound first) {id : Nat} {r : Request}
    (hid : id ∈ c.line.dialogue.asked) (hcarries : c.line.connection.Carries id r)
    (h : ∀ other ∈ c.line.dialogue.asked, other ∈ c.made ↔ other = id) :
    othersOf c = c.line.connection.requestsOf (c.line.served.filter (· ≠ id)) ∧ askedOf c = [r] := by
  have hothers : c.line.served.filter (· ∉ c.made) = c.line.served.filter (· ≠ id) :=
    List.filter_congr fun other hother => by simp [h other (List.mem_of_mem_take hother)]
  have hown : c.line.dialogue.asked.filter (· ∈ c.made) =
      c.line.dialogue.asked.filter (· = id) :=
    List.filter_congr fun other hother => by simp [h other hother]
  have hone : c.line.dialogue.asked.filter (· = id) = [id] := by
    have hcount := List.count_eq_one_of_mem hs.line.coherent.outgoing.nodup hid
    exact (List.filter_beq id).trans (by rw [hcount]; rfl)
  rw [othersOf, askedOf, hothers, hown, hone, hcarries.requestsOf_eq]
  exact ⟨rfl, rfl⟩

/-- What an upload whose data does not fit has sent, and what the daemon has become. -/
theorem Phase.effect (hdata : ¬(delivery node data).Fits) (h : Phase node name data c)
    (hs : c.Sound first) :
    (askedOf c = [] ∨ askedOf c = [selection node name] ∧ (selection node name).Fits) ∧
    (c.line.daemon = first.handleAll (othersOf c) ∨
      (∃ id ∈ c.made, c.line.Acknowledged id) ∧ c.line.daemon =
        (first.handleAll (othersOf c)).put node ⟨0x3005, 3⟩ (Text.Utf8.encode name)) ∧
    ((∃ id ∈ c.made, c.line.Acknowledged id) →
      (∀ written, .writeEntry node ⟨0x3005, 3⟩ written ∉ othersOf c) → c.line.daemon =
        (first.handleAll (othersOf c)).put node ⟨0x3005, 3⟩ (Text.Utf8.encode name)) := by
  have hacknowledged {id : Nat} (hid : c.line.Acknowledged id) : id ∈ c.line.dialogue.asked :=
    List.mem_of_mem_take hid.mem_served
  rcases h.shows hdata hs with hunseen | ⟨id, hmem, hid, hcarries, hone⟩
  · obtain ⟨hothers, hasked⟩ := requests_of_unseen hunseen
    rw [hothers, hasked]
    refine ⟨.inl rfl, .inl hs.line.daemon, fun ⟨id, hown, hack⟩ _ => ?_⟩
    exact absurd hown (hunseen id (hacknowledged hack))
  · obtain ⟨hothers, hasked⟩ := requests_of_seen hs hid hcarries hone
    obtain ⟨call, hcall, hwrite⟩ := hcarries.request
    obtain ⟨heither, halone⟩ := hs.line.daemon_of_write hcall hwrite
    rw [hothers, hasked]
    refine ⟨.inr ⟨rfl, by_contra fun hlong => ?_⟩, ?_, fun ⟨other, hown, hack⟩ hnone => ?_⟩
    · exact hcarries.not_mem hlong hs.line.coherent.outgoing hid
    · rcases heither with hsame | ⟨hack, hput⟩
      · exact .inl hsame
      · exact .inr ⟨⟨id, hmem, hack⟩, hput⟩
    · obtain rfl := (hone other (hacknowledged hack)).mp hown
      exact halone hack hnone

theorem Phase.error_of_done (hname : isFileName name) (h : Phase node name data c)
    {r : Except ClientError Unit} (hr : c.rest = .done r) : ∃ e, r = .error e := by
  rcases h.result hname hr with ⟨_, answer, -, -, hne, -, rfl⟩ | ⟨_, _, -, -, -, rfl⟩
  · cases hanswer : acknowledged answer with
    | ok _ => exact absurd (acknowledged_eq_ok_iff.mp hanswer) hne
    | error e => exact ⟨e, rfl⟩
  · exact ⟨_, rfl⟩

theorem Phase.stranded (hname : isFileName name) (hdata : ¬(delivery node data).Fits)
    (h : Phase node name data c) (hs : c.Sound first)
    (hlater : ∀ turns c', c.run? turns = some c' → Phase node name data c') :
    Stranded node name data first c := by
  obtain ⟨hsent, hdaemon, hselected⟩ := h.effect hdata hs
  refine ⟨fun r => h.error_of_done hname, fun ⟨id, hid, hack⟩ r hr => ?_, fun hlong r hr => ?_,
    fun hgiven => ?_, hsent, hdaemon, hselected⟩
  · rcases h.result hname hr with ⟨_, answer, -, hanswer, hne, hmade, -⟩ | ⟨_, _, -, -, -, rfl⟩
    · obtain rfl : id = _ := List.mem_singleton.mp (hmade ▸ hid)
      exact absurd (Option.some.inj (hanswer.symm.trans hack)) hne
    · rfl
  · rcases h.result hname hr with ⟨_, answer, hid, hanswer, -, -, rfl⟩ | ⟨_, _, hid, hack, -, -⟩
    · obtain rfl := Option.some.inj (hanswer.symm.trans (hid.unsent hlong))
      rfl
    · exact absurd (hack.symm.trans (hid.unsent hlong)) (by simp)
  · obtain ⟨turns, c', r, hrun, hdone, -, hown⟩ := hs.exists_done hgiven
    obtain ⟨e, rfl⟩ := (hlater turns c' hrun).error_of_done hname hdone
    exact ⟨turns, c', e, hrun, hdone, hown⟩

theorem Phase.of_run {turns : List Errand.Turn} (hname : isFileName name)
    (hdata : ¬(delivery node data).Fits) (hs : c.Sound first) (h : Phase node name data c)
    (hrun : c.run? turns = some c') : c'.Sound first ∧ Phase node name data c' :=
  hs.invariant (P := Phase node name data)
    (fun _ _ _ hs h hp => h.progress hname hdata hs hp) h hrun

/-- An upload whose data does not fit a frame never succeeds and never sends the data, whatever others
do on the connection, whenever answers come in and the connection is closed. All that it can send is
the name of the file, and all that it can change is which file is selected; this it changes exactly if
the daemon has acknowledged the name, whether or not the client gets to know. -/
theorem oversized_upload (hname : isFileName name) (hdata : ¬(delivery node data).Fits)
    (limit : Duration) (observed : NodeState) (first : Daemon) (turns : List Errand.Turn)
    (c : Errand (Except ClientError Unit))
    (hrun : (upload node name data limit observed first).run? turns = some c) :
    Stranded node name data first c := by
  have hsound : (upload node name data limit observed first).Sound first := .init ..
  obtain ⟨hs, h⟩ := Phase.of_run hname hdata hsound (.fresh rfl rfl rfl) hrun
  exact h.stranded hname hdata hs fun turns c' hrun' => (h.of_run hname hdata hs hrun').2

/-- A daemon whose node 5 takes files, of which none is selected. -/
def receptive : Daemon where
  nodes := SortedMap.empty.insert 5
    { entries := [(⟨0x3005, 3⟩, ⟨[], none⟩), (⟨0x3005, 4⟩, ⟨[], none⟩)] }

/-- Seven bytes more than fit a frame. -/
@[irreducible] def firmware : List UInt8 := List.replicate 65536 0

theorem not_fits_firmware : ¬(delivery 5 firmware).Fits := by
  rw [fits_delivery_iff, firmware, List.length_replicate]
  decide

/-- What happens until the daemon has acknowledged the name of a file. -/
def naming : List Served.Turn :=
  [.act (.start (selection 5 "fw.bin") ⟨1000⟩), .act (.list 0), .act (.check 0), .act (.queue 0),
    .act .takeFrame, .act (.write 17), .serve]

/-- The acknowledgement comes in after the upload has given up waiting, and then the connection is
closed: the upload has run out of time, and its file is selected all the same. -/
theorem oversized_upload_firmware :
    ∃ turns c, (upload 5 "fw.bin" firmware ⟨1000⟩ .operational receptive).run? turns = some c ∧
      c.rest = .done (.error (.link (.silent (.reply 1 ⟨1000⟩)))) ∧
      c.line.connection.connected = false ∧ c.line.Acknowledged 0 ∧
      c.line.daemon = receptive.put 5 ⟨0x3005, 3⟩ (Text.Utf8.encode "fw.bin") ∧
      Stranded 5 "fw.bin" firmware receptive c := by
  have hline : (({ daemon := receptive } : Served).run? (naming ++ [.act (.expire 0)])).any
      fun late => late.connection.answer? 0 = some (.error (.silent (.reply 1 ⟨1000⟩))) &&
        (late.run? [.deliver 0, .act (.cut .receiver), .act (.clear .receiver)]).any
          fun closed => !closed.connection.connected && closed.dialogue.asked = [0] &&
            closed.sent = [some ⟨3, 1, []⟩] &&
            closed.daemon = receptive.put 5 ⟨0x3005, 3⟩ (Text.Utf8.encode "fw.bin") := by
    decide +kernel
  simp only [Option.any_eq_true, Bool.and_eq_true, decide_eq_true_eq, Bool.not_eq_true'] at hline
  obtain ⟨late, hlate, hanswer, closed, hclosed, ⟨⟨hdown, hasked⟩, hsent⟩, hdaemon⟩ := hline
  have hend := Errand.run?_exchange
    (c := upload 5 "fw.bin" firmware ⟨1000⟩ .operational receptive)
    (sendFile_eq_ask (by decide) 5 firmware) rfl hlate hanswer
  have hrun := Errand.run?_trans hend (Errand.run?_lines hclosed)
  exact ⟨_, _, hrun, rfl, hdown, ⟨0, ⟨3, 1, []⟩, by simp [hasked], by simp [hsent], rfl⟩, hdaemon,
    oversized_upload (by decide) not_fits_firmware _ _ _ _ _ hrun⟩

/-- The name of a file is sent although its data does not fit, and it is selected: neither is nothing
sent nor is the name in the node the one that was there. -/
theorem not_always_undisturbed : ¬∀ (node : UInt8) (name : String) (data : List UInt8)
    (limit : Duration) (observed : NodeState) (first : Daemon) (turns : List Errand.Turn)
    (c : Errand (Except ClientError Unit)), isFileName name → ¬(delivery node data).Fits →
    (upload node name data limit observed first).run? turns = some c →
    c.line.dialogue.asked ⊆ c.made → (∃ e, c.rest = .done (.error e)) →
    (∀ id ∈ c.made, id ∉ c.line.dialogue.asked) ∨
      c.line.daemon.bytes? node ⟨0x3005, 3⟩ = first.bytes? node ⟨0x3005, 3⟩ := by
  intro h
  have hline : (({ daemon := receptive } : Served).run?
      (naming ++ [.deliver 0, .act (.collect 0)])).any
      fun s => s.connection.answer? 0 = some (.ok .ack) && s.dialogue.asked = [0] &&
        s.daemon.bytes? 5 ⟨0x3005, 3⟩ = some (Text.Utf8.encode "fw.bin") := by
    decide +kernel
  simp only [Option.any_eq_true, Bool.and_eq_true, decide_eq_true_eq] at hline
  obtain ⟨named, hnamed, ⟨hack, hasked⟩, hbytes⟩ := hline
  have hselected := Errand.run?_exchange
    (c := upload 5 "fw.bin" firmware ⟨1000⟩ .operational receptive)
    (sendFile_eq_ask (by decide) 5 firmware) rfl hnamed hack
  obtain ⟨refused, hrefused⟩ : ∃ refused,
      named.turn? (.act (.start (delivery 5 firmware) ⟨1000⟩)) = some refused := ⟨_, rfl⟩
  obtain ⟨hconnection, hasked', hdaemon, -⟩ := Served.connection_start hrefused
  have hfault := Connection.answer?_start (Request.sendFault?_of_not_fits not_fits_firmware)
    named.connection ⟨1000⟩
  rw [← hconnection] at hfault
  have hrefusing : named.run? [.act (.start (delivery 5 firmware) ⟨1000⟩)] = some refused := by
    rw [Served.run?, hrefused]
    rfl
  have hrun := Errand.run?_trans hselected (Errand.run?_exchange rfl rfl hrefusing hfault)
  have hasked : refused.dialogue.asked = [0] := hasked'.trans hasked
  rcases h 5 "fw.bin" firmware ⟨1000⟩ .operational receptive _ _ (by decide) not_fits_firmware hrun
    (by simp [hasked, upload, Served.connection]) ⟨_, rfl⟩ with hnone | hsame
  · exact hnone 0 (by simp [upload, Served.connection]) (by simp [hasked])
  · have hgiven : refused.daemon.bytes? 5 ⟨0x3005, 3⟩ = receptive.bytes? 5 ⟨0x3005, 3⟩ := hsame
    rw [hdaemon, hbytes] at hgiven
    exact absurd hgiven (by decide)

end Client

end Canopen
