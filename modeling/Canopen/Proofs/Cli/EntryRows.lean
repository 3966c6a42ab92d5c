import Canopen.Cli.Command
import Canopen.Proofs.Client.FieldWrite
/-!
# Rows of entries

The command that reads entries of a node puts each of them in a row. An entry that cannot be read tells its
error there, and the others are read all the same (`Cli.readRows_of_named`). But an identifier that names
no entry ends the command: what has been read before it is not printed, and what comes after it is not read
(`Cli.readRows_of_unnamed`). So every identifier is told in its row if and only if all of them name entries
(`Cli.every_identifier_told_iff`).
-/
namespace Canopen

namespace Session

/-- To note what is observed already changes nothing. -/
theorem observe_observed (s : Session) (h : Handle) : s.observe h (s.observed h) = s := by
  have hset : s.observations.states.set h.cell (s.observed h) = s.observations.states := by
    refine List.ext_getElem? fun i => ?_
    rw [List.getElem?_set]
    split
    · rename_i hi
      subst hi
      split
      · rename_i hlt
        simp [observed, Observations.get, hlt]
      · rename_i hle
        exact (List.getElem?_eq_none (Nat.le_of_not_lt hle)).symm
    · rfl
  rw [observe, Observations.set, hset]

end Session

namespace Cli

open Client (run_check_succeed)

variable {σ : Type} {catalog : Catalog} {type : Option String}

/-- Holds of an identifier and the entry that it names, in the catalog or as an address with a type. -/
def Names (catalog : Catalog) (type : Option String) (identifier : String) (e : Entry) : Prop :=
  resolveEntry catalog identifier type = .ok e

theorem exists_names_iff {identifiers : List String} :
    (∃ es, List.Forall₂ (Names catalog type) identifiers es) ↔
      ∀ identifier ∈ identifiers, ∃ e, Names catalog type identifier e := by
  induction identifiers with
  | nil => simp
  | cons identifier rest ih =>
    rw [List.forall_mem_cons, ← ih]
    constructor
    · rintro ⟨_, _ | ⟨he, hes⟩⟩
      exact ⟨⟨_, he⟩, _, hes⟩
    · rintro ⟨⟨e, he⟩, es, hes⟩
      exact ⟨e :: es, .cons he hes⟩

/-- Where not all identifiers name entries there is a first one that does not. -/
theorem exists_unnamed {identifiers : List String}
    (h : ¬∀ identifier ∈ identifiers, ∃ e, Names catalog type identifier e) :
    ∃ before identifier after f, identifiers = before ++ identifier :: after ∧
      (∀ earlier ∈ before, ∃ e, Names catalog type earlier e) ∧
        resolveEntry catalog identifier type = .error f := by
  induction identifiers with
  | nil => simp at h
  | cons identifier rest ih =>
    cases hname : resolveEntry catalog identifier type with
    | error f => exact ⟨[], identifier, rest, f, rfl, by simp, hname⟩
    | ok e =>
      have hrest : ¬∀ other ∈ rest, ∃ e, Names catalog type other e := fun hall =>
        h (List.forall_mem_cons.mpr ⟨⟨e, hname⟩, hall⟩)
      obtain ⟨before, other, after, f, rfl, hbefore, hother⟩ := ih hrest
      exact ⟨identifier :: before, other, after, f, rfl,
        List.forall_mem_cons.mpr ⟨⟨e, hname⟩, hbefore⟩, hother⟩

/-- Reads entries one after another, each into its row. -/
def readEntries (ch : Channel σ) (h : Handle) (field : Option String) :
    List Entry → Console σ → List ValueRow × Console σ
  | [], c => ([], c)
  | e :: rest, c =>
    let (r, session, world) := c.session.perform ch h (readOne e field) c.world
    let (rows, c) := readEntries ch h field rest { c with session, world }
    (.ofOutcome e r :: rows, c)

/-- What names entries is read, whatever comes of it. -/
theorem readRows_of_named {identifiers : List String} {es : List Entry}
    (hes : List.Forall₂ (Names catalog type) identifiers es) (ch : Channel σ) (h : Handle)
    (field : Option String) (c : Console σ) :
    readRows ch catalog h field type identifiers c =
      (.ok (readEntries ch h field es c).1, (readEntries ch h field es c).2) := by
  induction hes generalizing c with
  | nil => rfl
  | cons hname _ ih =>
    have hcheck := Step.check_of_ok hname c
    rw [readRows, Step.bind_of_ok hcheck, Step.bind_of_ok (Step.attempt_eq ..), Step.bind_of_ok (ih _)]
    rfl

/-- What names no entry ends the command behind what has been read before. -/
theorem readRows_of_unnamed {before : List String} {identifier : String} {es : List Entry}
    {f : Failure} (hes : List.Forall₂ (Names catalog type) before es)
    (hname : resolveEntry catalog identifier type = .error f) (after : List String) (ch : Channel σ)
    (h : Handle) (field : Option String) (c : Console σ) :
    readRows ch catalog h field type (before ++ identifier :: after) c =
      (.error f, (readEntries ch h field es c).2) := by
  induction hes generalizing c with
  | nil => exact Step.bind_of_error (Step.check_of_error hname c) _
  | cons hfirst _ ih =>
    have hcheck := Step.check_of_ok hfirst c
    rw [List.cons_append, readRows, Step.bind_of_ok hcheck, Step.bind_of_ok (Step.attempt_eq ..),
      Step.bind_of_error (ih _)]
    rfl

/-- To read an entry is to ask for its bytes once, if it is readable. -/
theorem run_readOne (e : Entry) (field : Option String) (node : UInt8) (link : Link σ)
    (limit : Duration) (s : σ) :
    ∃ r, ∀ observed, (readOne e field node).run link limit observed s =
      (r, observed, if e.access.isReadable then (link limit (.readEntry node e.address) s).2 else s) := by
  rw [readOne, Client.readRaw]
  by_cases hreadable : e.access.isReadable
  swap
  · simp only [hreadable]
    exact ⟨_, fun _ => rfl⟩
  simp only [hreadable, if_true, Client.exchange]
  simp only [Client.andThen, Operation.bind, Operation.run]
  rcases link limit (.readEntry node e.address) s with ⟨why | reply, s'⟩
  · exact ⟨_, fun _ => rfl⟩
  cases reply with
  | entry data =>
    cases field with
    | none => exact ⟨_, fun _ => run_check_succeed (e.decode data) _ link limit _ s'⟩
    | some name => exact ⟨_, fun _ => run_check_succeed (e.extractField name data) _ link limit _ s'⟩
  | _ => exact ⟨_, fun _ => rfl⟩

/-- What is asked to read an entry. -/
def requestsFor (node : UInt8) (e : Entry) : List Request :=
  if e.access.isReadable then [.readEntry node e.address] else []

/-- The row of an entry that is read at a daemon. What has been observed of the node does not count. -/
def rowAt (connected : Bool) (d : Daemon) (h : Handle) (field : Option String) (e : Entry) : ValueRow :=
  .ofOutcome e ((readOne e field h.node).run (Daemon.link connected) h.limit .initializing d).1

/-- Reading changes neither the session nor the daemon. -/
theorem perform_readOne (connected : Bool) (d : Daemon) (asked : List Request) (h : Handle)
    (field : Option String) (e : Entry) (s : Session) :
    s.perform (.inTurn (Daemon.link connected).recorded) h (readOne e field) (d, asked) =
      (((readOne e field h.node).run (Daemon.link connected) h.limit .initializing d).1, s, d,
        asked ++ requestsFor h.node e) := by
  have hsame := (readOne e field h.node).run_recorded_fst (Daemon.link connected) h.limit .initializing d
    asked
  obtain ⟨r, hr⟩ := run_readOne e field h.node (Daemon.link connected).recorded h.limit (d, asked)
  rw [hr] at hsame
  have hworld : (if e.access.isReadable then
      ((Daemon.link connected).recorded h.limit (.readEntry h.node e.address) (d, asked)).2
        else (d, asked)) = (d, asked ++ requestsFor h.node e) := by
    rw [requestsFor]
    split
    · exact congrArg (·, _) (Daemon.link_readEntry_snd ..)
    · rw [List.append_nil]
  simp only [Session.perform, Channel.inTurn, hr, hworld, s.observe_observed, hsame]

/-- Entries that are read one after another come to what each of them comes to. -/
theorem readEntries_eq (connected : Bool) (d : Daemon) (asked : List Request) (h : Handle)
    (field : Option String) (es : List Entry) (s : Session) (t : Transcript) :
    readEntries (.inTurn (Daemon.link connected).recorded) h field es ⟨s, (d, asked), t⟩ =
      (es.map (rowAt connected d h field), ⟨s, (d, asked ++ es.flatMap (requestsFor h.node)), t⟩) := by
  induction es generalizing asked with
  | nil => rw [readEntries, List.map_nil, List.flatMap_nil, List.append_nil]
  | cons e rest ih =>
    rw [readEntries, perform_readOne]
    dsimp only
    rw [ih, List.flatMap_cons, List.append_assoc]
    rfl

/-- Holds of what came of a command that printed rows, and nothing else. -/
def Prints (style : Style) (t : Transcript) (rows : List ValueRow)
    (out : Except Failure Unit × Console σ) : Prop :=
  out.1 = .ok () ∧ out.2.transcript = t.rows style rows

/-- Holds of a way of reading and of identifiers each of which is told in a row of its own, the one that is
printed when it is read alone. -/
structure TellsEach (style : Style) (t : Transcript)
    (read : List String → Except Failure Unit × Console (Daemon × List Request))
    (identifiers : List String) : Prop where
  rows : ∃ rows, List.Forall₂ (fun identifier row => Prints style t [row] (read [identifier]))
    identifiers rows ∧ Prints style t rows (read identifiers)
  /-- None of them keeps another one from being asked for. -/
  asked : (read identifiers).2.world.2 =
    identifiers.flatMap fun identifier => (read [identifier]).2.world.2

section AtDaemon

variable (connected : Bool) (d : Daemon) (catalog : Catalog) (style : Style) (node : UInt8)
  (field type : Option String) (s : Session) (t : Transcript)

/-- The command at a daemon, with what it asks. -/
def readAt (identifiers : List String) : Except Failure Unit × Console (Daemon × List Request) :=
  read (.inTurn (Daemon.link connected).recorded) catalog style node identifiers field type
    ⟨s, (d, []), t⟩

variable {catalog type}

theorem readAt_of_named {identifiers : List String} {es : List Entry}
    (hes : List.Forall₂ (Names catalog type) identifiers es) :
    readAt connected d catalog style node field type s t identifiers =
      (.ok (), ⟨(s.register node).2, (d, es.flatMap (requestsFor (s.register node).1.node)),
        t.rows style (es.map (rowAt connected d (s.register node).1 field))⟩) := by
  have hrows := readRows_of_named hes (.inTurn (Daemon.link connected).recorded) (s.register node).1
    field ⟨(s.register node).2, (d, []), t⟩
  rw [readEntries_eq] at hrows
  rw [readAt, read, Step.bind_of_ok (Step.register_eq ..), Step.bind_of_ok hrows]
  rfl

theorem readAt_of_unnamed {before : List String} {identifier : String} {es : List Entry} {f : Failure}
    (hes : List.Forall₂ (Names catalog type) before es)
    (hname : resolveEntry catalog identifier type = .error f) (after : List String) :
    readAt connected d catalog style node field type s t (before ++ identifier :: after) =
      (.error f, ⟨(s.register node).2, (d, es.flatMap (requestsFor (s.register node).1.node)), t⟩) := by
  have hrows := readRows_of_unnamed hes hname after (.inTurn (Daemon.link connected).recorded)
    (s.register node).1 field ⟨(s.register node).2, (d, []), t⟩
  rw [readEntries_eq] at hrows
  rw [readAt, read, Step.bind_of_ok (Step.register_eq ..), Step.bind_of_error hrows]
  rfl

theorem readAt_alone {identifier : String} {e : Entry} (h : Names catalog type identifier e) :
    readAt connected d catalog style node field type s t [identifier] =
      (.ok (), ⟨(s.register node).2, (d, requestsFor (s.register node).1.node e),
        t.rows style [rowAt connected d (s.register node).1 field e]⟩) := by
  have hread := readAt_of_named connected d style node field s t (.cons h .nil)
  rwa [List.flatMap_singleton, List.map_singleton] at hread

/-- What entries are asked for is what each of them is asked for when it is read alone. -/
theorem flatMap_requestsFor {identifiers : List String} {es : List Entry}
    (hes : List.Forall₂ (Names catalog type) identifiers es) :
    es.flatMap (requestsFor (s.register node).1.node) = identifiers.flatMap fun identifier =>
      (readAt connected d catalog style node field type s t [identifier]).2.world.2 := by
  induction hes with
  | nil => rfl
  | cons he _ ih =>
    rw [List.flatMap_cons, List.flatMap_cons, ih, readAt_alone connected d style node field s t he]

theorem tellsEach_of_names {identifiers : List String} {es : List Entry}
    (hes : List.Forall₂ (Names catalog type) identifiers es) :
    TellsEach style t (readAt connected d catalog style node field type s t) identifiers := by
  have hread := readAt_of_named connected d style node field s t hes
  refine ⟨⟨es.map (rowAt connected d (s.register node).1 field), ?_, ?_⟩, ?_⟩
  · rw [List.forall₂_map_right_iff]
    refine hes.imp fun identifier e he => ?_
    rw [readAt_alone connected d style node field s t he]
    exact ⟨rfl, rfl⟩
  · rw [hread]
    exact ⟨rfl, rfl⟩
  · rw [hread]
    exact flatMap_requestsFor connected d style node field s t hes

/-- An identifier that names no entry ends the command: what has been asked for before it is not told. -/
theorem ends_at_unnamed {before : List String} {identifier : String} {f : Failure}
    (hbefore : ∀ earlier ∈ before, ∃ e, Names catalog type earlier e)
    (hname : resolveEntry catalog identifier type = .error f) (after : List String) :
    let read := readAt connected d catalog style node field type s t
    (read (before ++ identifier :: after)).1 = .error f ∧
      (read (before ++ identifier :: after)).2.transcript = t ∧
        (read (before ++ identifier :: after)).2.world.2 =
          before.flatMap fun earlier => (read [earlier]).2.world.2 := by
  obtain ⟨es, hes⟩ := exists_names_iff.mpr hbefore
  have hread := readAt_of_unnamed connected d style node field s t hes hname after
  dsimp only
  rw [hread]
  exact ⟨rfl, rfl, flatMap_requestsFor connected d style node field s t hes⟩

end AtDaemon

/-- Every identifier is told in its row, with an error where its entry cannot be read, if and only if all of
them name entries. The first one that names none ends the command, and what has been asked for before it is
not told. -/
theorem every_identifier_told_iff (connected : Bool) (d : Daemon) (catalog : Catalog) (style : Style)
    (node : UInt8) (identifiers : List String) (field type : Option String) (s : Session)
    (t : Transcript) :
    let read := readAt connected d catalog style node field type s t
    (TellsEach style t read identifiers ↔
        ∀ identifier ∈ identifiers, ∃ e, Names catalog type identifier e) ∧
      (∀ identifier e, Names catalog type identifier e →
        Prints style t [rowAt connected d (s.register node).1 field e] (read [identifier])) ∧
      ∀ before identifier after f, identifiers = before ++ identifier :: after →
        (∀ earlier ∈ before, ∃ e, Names catalog type earlier e) →
          resolveEntry catalog identifier type = .error f →
            (read identifiers).1 = .error f ∧ (read identifiers).2.transcript = t ∧
              (read identifiers).2.world.2 =
                before.flatMap fun earlier => (read [earlier]).2.world.2 := by
  intro read
  refine ⟨⟨fun htold => ?_, fun hall => ?_⟩, fun identifier e he => ?_, ?_⟩
  · by_contra hnot
    obtain ⟨before, identifier, after, f, rfl, hbefore, hname⟩ := exists_unnamed hnot
    obtain ⟨rows, -, hok, -⟩ := htold.rows
    have hfailed := (ends_at_unnamed connected d style node field s t hbefore hname after).1
    cases hok.symm.trans hfailed
  · obtain ⟨es, hes⟩ := exists_names_iff.mpr hall
    exact tellsEach_of_names connected d style node field s t hes
  · have halone := readAt_alone connected d style node field s t he
    exact ⟨congrArg Prod.fst halone, congrArg (·.2.transcript) halone⟩
  · rintro before identifier after f rfl hbefore hname
    exact ends_at_unnamed connected d style node field s t hbefore hname after

/-- An entry that is not readable is told in its row beside one that is read. In front of a name that is not
in the catalog neither is. -/
theorem every_identifier_told_iff_unknown :
    let first : Entry := { address := ⟨0x2000, 0⟩, name := "first", type := .unsigned .w8 }
    let second : Entry :=
      { address := ⟨0x2000, 1⟩, name := "second", type := .unsigned .w8, access := .writeOnly }
    let catalog : Catalog := .ofValid {} [first, second] (by decide +kernel)
    let d : Daemon := Daemon.addNode {} 1 catalog
    let read := readAt true d catalog {} 1 none none { network := { limit := ⟨50⟩ } } {}
    TellsEach {} {} read ["first", "second"] ∧
      Prints {} {} [⟨"first", "0x2000:00", "0", "00"⟩] (read ["first"]) ∧
      (read ["first", "unknown", "second"]).1 = .error (.unknownEntry "unknown") ∧
      (read ["first", "unknown", "second"]).2.transcript = {} ∧
      (read ["first", "unknown", "second"]).2.world.2 = [.readEntry 1 first.address] := by
  intro first second catalog d read
  have hfirst : resolveEntry catalog "first" none = .ok first := by decide +kernel
  have hsecond : resolveEntry catalog "second" none = .ok second := by decide +kernel
  have hunknown : resolveEntry catalog "unknown" none = .error (.unknownEntry "unknown") := by
    decide +kernel
  have halone := readAt_alone true d {} 1 none { network := { limit := ⟨50⟩ } } {} hfirst
  obtain ⟨htold, -, -⟩ := every_identifier_told_iff true d catalog {} 1 ["first", "second"] none none
    { network := { limit := ⟨50⟩ } } {}
  obtain ⟨-, hrow, hends⟩ := every_identifier_told_iff true d catalog {} 1
    ["first", "unknown", "second"] none none { network := { limit := ⟨50⟩ } } {}
  obtain ⟨hfailed, hprinted, hasked⟩ := hends ["first"] "unknown" ["second"] _ rfl
    (List.forall_mem_singleton.mpr ⟨first, hfirst⟩) hunknown
  refine ⟨htold.mpr ?_, ?_, hfailed, hprinted, ?_⟩
  · exact List.forall_mem_cons.mpr ⟨⟨first, hfirst⟩, List.forall_mem_singleton.mpr ⟨second, hsecond⟩⟩
  · have hcells : rowAt true d ⟨1, ⟨50⟩, 0⟩ none first = ⟨"first", "0x2000:00", "0", "00"⟩ := by
      decide +kernel
    exact hcells ▸ hrow "first" first hfirst
  · rw [List.flatMap_singleton, halone] at hasked
    exact hasked

/-- A name that is not in the catalog keeps an entry that can be read from being told. -/
theorem not_always_told :
    ¬∀ (d : Daemon) (catalog : Catalog) (style : Style) (node : UInt8) (identifiers : List String)
      (field type : Option String), identifiers ≠ [] →
        TellsEach style {} (readAt true d catalog style node field type { network := { limit := ⟨50⟩ } } {})
          identifiers := by
  intro h
  let first : Entry := { address := ⟨0x2000, 0⟩, name := "first", type := .unsigned .w8 }
  let catalog : Catalog := .ofValid {} [first] (by decide +kernel)
  have htold := h (Daemon.addNode {} 1 catalog) catalog {} 1 ["first", "unknown"] none none
    (List.cons_ne_nil _ _)
  obtain ⟨rows, -, hok, -⟩ := htold.rows
  have hfirst : ∀ earlier ∈ ["first"], ∃ e, Names catalog none earlier e :=
    List.forall_mem_singleton.mpr ⟨first, by unfold Names; decide +kernel⟩
  have hunknown : resolveEntry catalog "unknown" none = .error (.unknownEntry "unknown") := by
    decide +kernel
  have hfailed := (ends_at_unnamed true (Daemon.addNode {} 1 catalog) {} 1 none
    { network := { limit := ⟨50⟩ } } {} hfirst hunknown []).1
  cases hok.symm.trans hfailed

end Cli

end Canopen
