import Canopen.Definition
import Canopen.Proofs.BitField.Labels
import Canopen.Proofs.DataType.Name
import Canopen.Proofs.Entry.Fields
import Mathlib.Data.List.Forall2
import Mathlib.Data.List.Nodup
/-!
# Definition files part by part

A format carries trees if what is asked of a written tree is answered by its parts: a text by the text,
a number by the number, a sequence by its items in order, a record and parts by number by their members.
In any such format a definition file is read back from its tree (`Definition.read_toData`).
-/
namespace Canopen

open Document

section

variable {τ : Type} {m : Type → Type} [Monad m] [MonadExceptOf Unit m] [Document τ m]

/-- Holds of members that have the same names or numbers as those of a tree and show them. -/
def ShowsParts {κ : Type} (Shows : τ → Data → Prop) : List (κ × τ) → List (κ × Data) → Prop :=
  List.Forall₂ fun p q => p.1 = q.1 ∧ Shows p.2 q.2

/-- Holds if a format carries texts, numbers, sequences and maps unchanged. `Shows d t` says that `t` is
the tree that is written at `d`. -/
structure Carries (m : Type → Type) [Monad m] [Document τ m] (Shows : τ → Data → Prop) : Prop where
  text : ∀ d s, Shows d (.text s) → Document.text d = (pure s : m String)
  choice : ∀ d s, Shows d (.text s) → Document.choice d = (pure s : m String)
  word : ∀ d s, Shows d (.text s) → naturalOrText d = (pure (.inr s) : m (Nat ⊕ String))
  natural : ∀ d n, n < 2 ^ 64 → Shows d (.natural n) → Document.natural d = (pure n : m Nat)
  number : ∀ d n, n < 2 ^ 64 → Shows d (.natural n) →
    naturalOrText d = (pure (.inl n) : m (Nat ⊕ String))
  /-- What is written is there. -/
  present : ∀ d t, Shows d t → ∃ d', Document.optional d = (pure (some d') : m (Option τ)) ∧ Shows d' t
  items : ∀ d ts, Shows d (.items ts) →
    ∃ ds, Document.items d = (pure ds : m (List τ)) ∧ List.Forall₂ Shows ds ts
  /-- A record is asked for its members by names that are among those asked for. -/
  parts : ∀ d ts names, Shows d (.record ts) → (ts.map Prod.fst).Nodup →
    (∀ t ∈ ts, t.1 ∈ names.map Prod.fst) →
    ∃ ds, Document.parts names d = (pure ds : m (List (String × τ))) ∧ ShowsParts Shows ds ts
  numbered : ∀ d ts, Shows d (.numbered ts) → (ts.map Prod.fst).Nodup → (∀ t ∈ ts, t.1 < 2 ^ 64) →
    ∃ ds, Document.numbered d = (pure ds : m (List (Nat × τ))) ∧ ShowsParts Shows ds ts

end

/-- The members of a record are those asked for if they are known and no name comes twice. -/
theorem Document.select_eq_some {τ : Type} {names : List (String × Bool)} {members : List (String × τ)}
    (hnodup : (members.map Prod.fst).Nodup) (hknown : ∀ t ∈ members, t.1 ∈ names.map Prod.fst) :
    select names members = some members := by
  have hfilter : (members.filter fun t => names.any fun n => n.1 = t.1) = members := by
    refine List.filter_eq_self.mpr fun t ht => ?_
    obtain ⟨n, hn, hname⟩ := List.mem_map.mp (hknown t ht)
    exact List.any_eq_true.mpr ⟨n, hn, by simpa using hname⟩
  have honce (t : String × τ) : (members.filter fun k => k.1 = t.1).length ≤ 1 := by
    have hcount := List.nodup_iff_count_le_one.mp hnodup t.1
    rw [List.count, List.countP_map, List.countP_eq_length_filter] at hcount
    exact hcount
  unfold select
  simp only [hfilter]
  rw [if_neg]
  simp only [List.any_eq_true, decide_eq_true_eq, not_exists, not_and, Nat.not_lt]
  exact fun t _ => honce t

section Parts

variable {τ : Type} {Shows : τ → Data → Prop} {ds : List (String × τ)} {ts : List (String × Data)}
  {name : String} {t : Data}

theorem ShowsParts.map_fst {κ : Type} {ds : List (κ × τ)} {ts : List (κ × Data)}
    (h : ShowsParts Shows ds ts) : ds.map Prod.fst = ts.map Prod.fst := by
  induction h with
  | nil => rfl
  | cons hpq _ ih => rw [List.map_cons, List.map_cons, hpq.1, ih]

/-- A record of the parts of a tree is read as a whole if all of them are asked for. -/
theorem ShowsParts.select_eq {names : List (String × Bool)} (h : ShowsParts Shows ds ts)
    (hnodup : (ts.map Prod.fst).Nodup) (hknown : ∀ t ∈ ts, t.1 ∈ names.map Prod.fst) :
    select names ds = some ds := by
  rw [← h.map_fst] at hnodup
  refine select_eq_some hnodup fun d hd => ?_
  have hname := List.mem_map_of_mem (f := Prod.fst) hd
  rw [h.map_fst] at hname
  obtain ⟨t, ht, hsame⟩ := List.mem_map.mp hname
  exact hsame ▸ hknown t ht

theorem ShowsParts.exists_lookup (h : ShowsParts Shows ds ts) (ht : ts.lookup name = some t) :
    ∃ d, ds.lookup name = some d ∧ Shows d t := by
  induction h with
  | nil => contradiction
  | @cons p q ds ts hpq _ ih =>
    rw [List.lookup_cons] at ht ⊢
    rw [hpq.1]
    split at ht
    · cases ht
      exact ⟨p.2, rfl, hpq.2⟩
    · exact ih ht

theorem ShowsParts.lookup_eq_none (h : ShowsParts Shows ds ts) (ht : ts.lookup name = none) :
    ds.lookup name = none := by
  induction h with
  | nil => rfl
  | @cons p q ds ts hpq _ ih =>
    rw [List.lookup_cons] at ht ⊢
    rw [hpq.1]
    split at ht
    · contradiction
    · exact ih ht

variable {m : Type → Type} [Monad m] [MonadExceptOf Unit m] {α : Type} {read : τ → m α} {a : α}

/-- A part that is written is read. -/
theorem readPart_of_written (h : ShowsParts Shows ds ts) (ht : ts.lookup name = some t)
    (hread : ∀ d, Shows d t → read d = pure a) (absent : Option α) :
    readPart ds name absent read = pure a := by
  obtain ⟨d, hlookup, hd⟩ := h.exists_lookup ht
  rw [readPart, hlookup]
  exact hread d hd

/-- A part that is not written has its default. -/
theorem readPart_of_absent (h : ShowsParts Shows ds ts) (ht : ts.lookup name = none) :
    readPart ds name (some a) read = pure a := by
  rw [readPart, h.lookup_eq_none ht]
  rfl

/-- A part that may be absent is read as what has been written of it. -/
theorem readPart_optional [LawfulMonad m] [Document τ m] (hcarries : Carries m Shows) {x : Option α}
    {write : α → Data} (h : ShowsParts Shows ds ts) (ht : ts.lookup name = x.map write)
    (hread : ∀ a, x = some a → ∀ d, Shows d (write a) → read d = pure a) :
    readPart ds name (some none) (readOptional read) = pure x := by
  cases x with
  | none => exact readPart_of_absent h ht
  | some a =>
    refine readPart_of_written h ht (fun d hd => ?_) _
    obtain ⟨d', hd', hshows⟩ := hcarries.present d _ hd
    rw [readOptional, hd', pure_bind]
    dsimp only
    rw [hread a rfl d' hshows, pure_bind]

end Parts

/-- Items are read one by one. -/
theorem mapM_eq_pure {m : Type → Type} [Monad m] [LawfulMonad m] {α β γ : Type} {R : γ → β → Prop}
    {f : γ → m α} {g : β → α} {ds : List γ} {ts : List β} (h : List.Forall₂ R ds ts)
    (hread : ∀ d, ∀ t ∈ ts, R d t → f d = pure (g t)) : ds.mapM f = pure (ts.map g) := by
  induction h with
  | nil => rfl
  | @cons d t ds ts hd _ ih =>
    have hrest := ih fun d t ht => hread d t (.tail _ ht)
    rw [List.mapM_cons, hread d t (.head ts) hd, pure_bind, hrest, pure_bind, List.map_cons]

/-- Holds of an entry whose size is a number of 64 bits and whose bit fields have been made. -/
structure Entry.Regular (e : Entry) : Prop where
  sized : ∀ size, e.type.byteSize? = some size → size < 2 ^ 64
  fields : ∀ f ∈ e.fields, f.Made

section Reading

variable {τ : Type} {m : Type → Type} [Monad m] [LawfulMonad m] [Document τ m] {Shows : τ → Data → Prop}
  (hcarries : Carries m Shows) {d : τ}
include hcarries

theorem Spelled.read_toData {s : Spelled} (hsmall : ∀ n, s = .number n → n < 2 ^ 64)
    (hd : Shows d s.toData) : Spelled.read d = (pure s : m Spelled) := by
  cases s with
  | number n => rw [Spelled.read, hcarries.number d n (hsmall n rfl) hd, pure_bind]
  | text s => rw [Spelled.read, hcarries.word d s hd, pure_bind]

/-- A sequence is read item by item. -/
theorem readItems_of_written {α : Type} {read : τ → m α} {write : α → Data} {as : List α}
    (hread : ∀ a ∈ as, ∀ d, Shows d (write a) → read d = pure a) (hd : Shows d (.items (as.map write))) :
    (do (← items d).mapM read) = pure as := by
  obtain ⟨ds, hds, hitems⟩ := hcarries.items d _ hd
  have hmap : ds.mapM read = pure (as.map id) :=
    mapM_eq_pure (List.forall₂_map_right_iff.mp hitems) fun d a ha hshows => hread a ha d hshows
  rw [hds, pure_bind, hmap, List.map_id]

theorem Labels.read_written {labels : Labels} (hrising : labels.Rising)
    (hd : Shows d (.numbered (labels.map fun (value, label) => (value.toNat, .text label)))) :
    Labels.read d = (pure labels : m Labels) := by
  have hnodup : ((labels.map fun (value, label) => (value.toNat, Data.text label)).map
      Prod.fst).Nodup := by
    rw [List.map_map]
    exact List.pairwise_map.mpr (hrising.imp Nat.ne_of_lt)
  have hsmall : ∀ t ∈ labels.map fun (value, label) => (value.toNat, Data.text label),
      t.1 < 2 ^ 64 := by
    intro t ht
    obtain ⟨p, -, rfl⟩ := List.mem_map.mp ht
    exact p.1.isLt
  obtain ⟨ds, hds, hparts⟩ := hcarries.numbered d _ hd hnodup hsmall
  have hlabels : (ds.mapM fun (p : Nat × τ) => do
      return (BitVec.ofNat 64 p.1, ← text p.2)) = (pure (labels.map id) : m Labels) := by
    refine mapM_eq_pure (List.forall₂_map_right_iff.mp hparts) fun p q _ ⟨hnumber, hshows⟩ => ?_
    rw [hcarries.text p.2 q.2 hshows, pure_bind, hnumber]
    simp
  rw [Labels.read, hds, pure_bind, hlabels, pure_bind, List.map_id, Labels.ofPairs_of_rising hrising]

variable [MonadExceptOf Unit m]

theorem Metadata.read_toData {metadata : Metadata} (hd : Shows d metadata.toData) :
    Metadata.read d = (pure metadata : m Metadata) := by
  obtain ⟨name, version, description⟩ := metadata
  obtain ⟨ds, hds, hparts⟩ := hcarries.parts d _ Metadata.partNames hd
    (by cases name <;> cases version <;> cases description <;> simp [optionalText])
    (by cases name <;> cases version <;> cases description <;> simp [optionalText, partNames])
  have htext (x : Option String) (s : String) (_ : x = some s) (d : τ) (hd : Shows d (.text s)) :
      text d = (pure s : m String) :=
    hcarries.text d s hd
  have hname : readPart ds "name" (some none) (readOptional text) = (pure name : m (Option String)) :=
    readPart_optional hcarries hparts
      (by cases name <;> cases version <;> cases description <;> rfl) (htext name)
  have hversion :
      readPart ds "version" (some none) (readOptional text) = (pure version : m (Option String)) :=
    readPart_optional hcarries hparts
      (by cases name <;> cases version <;> cases description <;> rfl) (htext version)
  have hdescription : readPart ds "description" (some none) (readOptional text) =
      (pure description : m (Option String)) :=
    readPart_optional hcarries hparts
      (by cases name <;> cases version <;> cases description <;> rfl) (htext description)
  simp only [Metadata.read, hds, hname, hversion, hdescription, pure_bind]

theorem readByte_natural {n : Nat} (h : n < 256) (hd : Shows d (.natural n)) :
    readByte d = (pure n : m Nat) := by
  rw [readByte, hcarries.natural d n (Nat.lt_trans h (by decide)) hd, pure_bind, if_pos h]
  rfl

theorem BitField.read_toData {f : BitField} (hmade : f.Made)
    (hlabels : ∀ p ∈ f.labels.getD [], p.1.toNat < 2 ^ f.width) (hd : Shows d f.toData) :
    BitField.read d = (pure f : m BitField) := by
  have hmake := make_eq_ok hlabels
  have hrising := hmade.rising
  have hwidth := f.width_le
  have hfits := f.fits
  obtain ⟨name, offset, width, labels, _, _⟩ := f
  obtain ⟨ds, hds, hparts⟩ := hcarries.parts d _ BitField.partNames hd
    (by cases labels <;> simp) (by cases labels <;> simp [partNames])
  have hname : readPart ds "name" none text = (pure name : m String) :=
    readPart_of_written hparts rfl (fun d hd => hcarries.text d name hd) none
  have hoffset : readPart ds "bit" none readByte = (pure offset : m Nat) :=
    readPart_of_written hparts rfl
      (fun d hd => readByte_natural hcarries (by dsimp only at hfits; omega) hd) none
  have hread : readPart ds "width" (some 1) readByte = (pure width : m Nat) :=
    readPart_of_written hparts rfl
      (fun d hd => readByte_natural hcarries (by dsimp only at hwidth; omega) hd) _
  have hreadLabels : readPart ds "labels" (some none) (readOptional Labels.read) =
      (pure labels : m (Option Labels)) :=
    readPart_optional hcarries hparts (by cases labels <;> rfl)
      (fun labels h d hd => Labels.read_written hcarries (hrising labels h) hd)
  simp only [BitField.read, hds, hname, hoffset, hread, hreadLabels, pure_bind]
  dsimp only at hmake
  rw [hmake]
  rfl

theorem EntryRecord.read_ofEntry {e : Entry} (hregular : e.Regular)
    (hd : Shows d (ofEntry e).toData) : EntryRecord.read d = (pure (ofEntry e) : m EntryRecord) := by
  have hbits : ∀ f ∈ e.fields, ∀ d, Shows d f.toData → BitField.read d = (pure f : m BitField) := by
    intro f hf d hd
    obtain ⟨w, -, hfaults, -⟩ := Entry.exists_fields hf
    exact BitField.read_toData hcarries (hregular.fields f hf)
      (BitField.fault?_eq_none_iff.mp (hfaults f hf)).2 hd
  have hsized := hregular.sized
  -- where a part stands depends on whether there is a description and whether there are fields
  obtain ⟨⟨address, name, description, type, access, fields⟩, valid⟩ := e
  obtain ⟨ds, hds, hparts⟩ := hcarries.parts d _ EntryRecord.partNames hd
    (by cases description <;> cases fields <;> simp [ofEntry, optionalText])
    (by cases description <;> cases fields <;> simp [ofEntry, optionalText, partNames])
  have hindex : readPart ds "index" none Spelled.read =
      (pure (.text (Address.indexText address.index)) : m Spelled) :=
    readPart_of_written hparts rfl
      (fun d hd => Spelled.read_toData hcarries (by rintro n ⟨⟩) hd) none
  have hsubIndex : readPart ds "sub_index" (some (.number 0)) Spelled.read =
      (pure (.number address.subIndex.toNat) : m Spelled) := by
    refine readPart_of_written hparts rfl (fun d hd => Spelled.read_toData hcarries ?_ hd) _
    rintro n ⟨⟩
    exact Nat.lt_trans address.subIndex.toNat_lt (by decide)
  have hname : readPart ds "name" none text = (pure name : m String) :=
    readPart_of_written hparts rfl (fun d hd => hcarries.text d name hd) none
  have hdescription : readPart ds "description" (some none) (readOptional text) =
      (pure description : m (Option String)) :=
    readPart_optional hcarries hparts (by cases description <;> cases fields <;> rfl)
      fun s _ d hd => hcarries.text d s hd
  have htype : (readPart ds "type" none fun d => do accept (DataType.ofText? (← text d))) =
      (pure type : m DataType) := by
    refine readPart_of_written (t := .text type.text) hparts (by cases description <;> rfl)
      (fun d hd => ?_) none
    rw [hcarries.text d _ hd, pure_bind, DataType.ofText?_text type hsized]
    rfl
  have haccess : (readPart ds "access" (some .readWrite) fun d => do
      accept (Access.ofName? (← choice d))) = (pure access : m Access) := by
    refine readPart_of_written (t := .text access.name) hparts (by cases description <;> rfl)
      (fun d hd => ?_) _
    rw [hcarries.choice d _ hd, pure_bind, Access.ofName?_name]
    rfl
  have hfields : (readPart ds "bits" (some []) fun d => do (← items d).mapM BitField.read) =
      (pure fields : m (List BitField)) := by
    cases fields with
    | nil => exact readPart_of_absent hparts (by cases description <;> rfl)
    | cons f rest =>
      exact readPart_of_written (t := .items ((f :: rest).map BitField.toData)) hparts
        (by cases description <;> rfl) (fun d hd => readItems_of_written hcarries hbits hd) _
  simp only [EntryRecord.read, hds, hindex, hsubIndex, hname, hdescription, htype, haccess, hfields,
    pure_bind]
  rfl

/-- What is written of a catalog is read as its definition file. -/
theorem Definition.read_toData {c : Catalog} (hregular : ∀ e ∈ c.entries, e.Regular)
    (hd : Shows d c.toDefinition.toData) : Definition.read d = (pure c.toDefinition : m Definition) := by
  obtain ⟨ds, hds, hparts⟩ := hcarries.parts d _ Definition.partNames hd
    (by simp [Catalog.toDefinition]) (by simp [Catalog.toDefinition, partNames])
  have hmetadata : readPart ds "meta" (some none) (readOptional Metadata.read) =
      (pure (some c.metadata) : m (Option Metadata)) := by
    refine readPart_optional hcarries hparts rfl ?_
    rintro metadata ⟨⟩ d hd
    exact Metadata.read_toData hcarries hd
  have hentries : (readPart ds "entries" (some []) fun d => do (← items d).mapM EntryRecord.read) =
      (pure (c.entries.map EntryRecord.ofEntry) : m (List EntryRecord)) := by
    refine readPart_of_written hparts rfl (fun d hd => readItems_of_written hcarries ?_ hd) _
    intro r hr d hd
    obtain ⟨e, he, rfl⟩ := List.mem_map.mp hr
    exact EntryRecord.read_ofEntry hcarries (hregular e he) hd
  simp only [Definition.read, hds, hmetadata, hentries, pure_bind]
  rfl

end Reading

end Canopen
