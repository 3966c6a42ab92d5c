import Canopen.Definition
import Canopen.Proofs.SortedMap.Lookup
/-!
# What a catalog lists and finds

Entries make up a catalog exactly if no two of them share an address or a name, and in whatever order
they come the catalog is the same. Its two maps agree after every entry that is added
(`Agree.insert`), so looking up a name, an address or either of them finds an entry exactly if the
catalog lists it, and it lists every entry once, by rising addresses (`Catalog.indexes_agree`).
-/
namespace Canopen

/-- Holds of entries that share neither their address nor their name. -/
def Entry.Differs (x y : Entry) : Prop := x.address ≠ y.address ∧ x.name ≠ y.name

theorem Entry.Differs.symm {x y : Entry} (h : x.Differs y) : y.Differs x := ⟨h.1.symm, h.2.symm⟩

theorem pairwise_differs_iff {entries : List Entry} : entries.Pairwise Entry.Differs ↔
    entries.Pairwise (fun x y => x.address ≠ y.address) ∧
      entries.Pairwise (fun x y => x.name ≠ y.name) :=
  List.pairwise_and_iff

namespace Catalog

variable {a b c c' : Catalog} {e : Entry} {entries entries' : List Entry} {m : Metadata}

section Building

theorem rising (c : Catalog) : c.entries.Pairwise fun x y => x.address < y.address := by
  refine List.pairwise_map.mpr (c.byAddress.rising.imp_of_mem fun {p q} hp hq h => ?_)
  rw [c.agree.own p.1 p.2 (SortedMap.mem_toList.mp hp),
    c.agree.own q.1 q.2 (SortedMap.mem_toList.mp hq)]
  exact h

theorem nodup_entries (c : Catalog) : c.entries.Nodup :=
  c.rising.imp fun h => ne_of_apply_ne (fun e : Entry => e.address) (Std.ne_of_lt h)

/-- No two entries of a catalog share an address or a name: each is found by both. -/
theorem pairwise_differs (c : Catalog) : c.entries.Pairwise Entry.Differs := by
  refine c.rising.imp_of_mem fun {x y} hx hy h => ⟨Std.ne_of_lt h, fun hname => ?_⟩
  have hfound : c.find? y.name = some x := find?_eq_some_iff.mpr ⟨hx, hname⟩
  have hfound' : c.find? y.name = some y := find?_eq_some_iff.mpr ⟨hy, rfl⟩
  obtain rfl := Option.some.inj (hfound.symm.trans hfound')
  exact Std.lt_irrefl h

theorem get?_byName_eq_some_iff {name : String} {a : Address} :
    c.byName.get? name = some a ↔ ∃ e ∈ c.entries, e.name = name ∧ e.address = a := by
  rw [c.agree.named]
  constructor
  · rintro ⟨e, he, hname⟩
    obtain ⟨hmem, haddress⟩ := get?_eq_some_iff.mp he
    exact ⟨e, hmem, hname, haddress⟩
  · rintro ⟨e, hmem, hname, haddress⟩
    exact ⟨e, get?_eq_some_iff.mpr ⟨hmem, haddress⟩, hname⟩

theorem byAddress_eq_of_perm (h : c.entries.Perm c'.entries) : c.byAddress = c'.byAddress := by
  refine SortedMap.ext_get? fun a => Option.ext fun e => ?_
  change c.get? a = some e ↔ c'.get? a = some e
  rw [get?_eq_some_iff, get?_eq_some_iff, h.mem_iff]

/-- The order in which a catalog lists its entries is settled by what they are. -/
theorem entries_eq_of_perm (h : c.entries.Perm c'.entries) : c.entries = c'.entries :=
  congrArg SortedMap.values (byAddress_eq_of_perm h)

/-- Catalogs with the same metadata and the same entries are the same. -/
theorem ext_of_perm (hmetadata : c.metadata = c'.metadata) (h : c.entries.Perm c'.entries) :
    c = c' := by
  have haddress := byAddress_eq_of_perm h
  have hname : c.byName = c'.byName := by
    refine SortedMap.ext_get? fun name => Option.ext fun a => ?_
    simp only [get?_byName_eq_some_iff, h.mem_iff]
  cases c
  cases c'
  cases hmetadata
  cases haddress
  cases hname
  rfl

theorem contains_iff {address : Address} :
    c.contains address ↔ ∃ x ∈ c.entries, x.address = address := by
  simp only [contains, SortedMap.contains, Option.isSome_iff_exists, ← get?_eq_some_iff]
  rfl

theorem contains_byName_iff {name : String} :
    c.byName.contains name ↔ ∃ x ∈ c.entries, x.name = name := by
  simp [SortedMap.contains, Option.isSome_iff_exists, get?_byName_eq_some_iff]

/-- What becomes of a list of entries that is to be a catalog: it does if its entries differ, and
otherwise something that two of them share is reported. -/
inductive Building (m : Metadata) (entries : List Entry) : Except DictionaryError Catalog → Prop where
  | built (c : Catalog) (metadata : c.metadata = m) (listed : c.entries.Perm entries)
      (differ : entries.Pairwise Entry.Differs) : Building m entries (.ok c)
  | duplicate (common : Duplicate) (same : ¬entries.Pairwise Entry.Differs) :
      Building m entries (.error (.duplicateEntry common))

theorem building_add (c : Catalog) (e : Entry) :
    Building c.metadata (e :: c.entries) (c.add e) := by
  unfold add
  split
  · rename_i haddress
    obtain ⟨x, hx, hsame⟩ := contains_iff.mp haddress
    exact .duplicate _ fun h => (List.rel_of_pairwise_cons h hx).1 hsame.symm
  · rename_i haddress
    split
    · rename_i hname
      obtain ⟨x, hx, hsame⟩ := contains_byName_iff.mp hname
      exact .duplicate _ fun h => (List.rel_of_pairwise_cons h hx).2 hsame.symm
    · rename_i hname
      have hnew : ∀ x ∈ c.entries, e.Differs x := fun x hx =>
        ⟨fun hsame => haddress (contains_iff.mpr ⟨x, hx, hsame.symm⟩),
          fun hsame => hname (contains_byName_iff.mpr ⟨x, hx, hsame.symm⟩)⟩
      have hnodup : (e :: c.entries).Nodup :=
        c.nodup_entries.cons fun hmem => (hnew e hmem).1 rfl
      refine .built _ rfl ?_ (c.pairwise_differs.cons hnew)
      refine (List.perm_ext_iff_of_nodup (nodup_entries _) hnodup).mpr fun x => ?_
      have hself (c : Catalog) : x ∈ c.entries ↔ c.byAddress.get? x.address = some x :=
        (and_iff_left rfl).symm.trans get?_eq_some_iff.symm
      rw [hself, SortedMap.get?_insert, List.mem_cons, hself c]
      by_cases hx : x.address = e.address
      · have hnone := SortedMap.get?_eq_none haddress
        rw [if_pos hx, hx, hnone]
        simp [eq_comm]
      · have hne : x ≠ e := fun hsame => hx (hsame ▸ rfl)
        rw [if_neg hx]
        simp [hne]

theorem Building.of_perm {result : Except DictionaryError Catalog} (h : Building m entries result)
    (hperm : entries.Perm entries') : Building m entries' result := by
  cases h with
  | built c metadata listed differ =>
    exact .built c metadata (listed.trans hperm) ((hperm.pairwise_iff Entry.Differs.symm).mp differ)
  | duplicate common same =>
    exact .duplicate common fun differ => same ((hperm.pairwise_iff Entry.Differs.symm).mpr differ)

theorem building_addAll (c : Catalog) (entries : List Entry) :
    Building c.metadata (c.entries ++ entries) (c.addAll entries) := by
  induction entries generalizing c with
  | nil =>
    rw [List.append_nil]
    exact .built c rfl (.refl _) c.pairwise_differs
  | cons e rest ih =>
    have hmiddle : (e :: c.entries ++ rest).Perm (c.entries ++ e :: rest) := List.perm_middle.symm
    have hadd := building_add c e
    rw [addAll]
    generalize c.add e = added at hadd ⊢
    cases hadd with
    | built c₁ metadata listed _ =>
      -- the rest is added to a catalog that lists the same entries in another order
      rw [← metadata]
      exact (ih c₁).of_perm ((listed.append_right rest).trans hmiddle)
    | duplicate common same =>
      refine .duplicate common fun differ => same ?_
      exact ((hmiddle.pairwise_iff Entry.Differs.symm).mpr differ).sublist
        (List.sublist_append_left _ rest)

theorem building (m : Metadata) (entries : List Entry) :
    Building m entries (ofEntries m entries) :=
  building_addAll { metadata := m } entries

/-- A catalog is made up of its own entries. -/
theorem ofEntries_entries (c : Catalog) : ofEntries c.metadata c.entries = .ok c := by
  have hbuilding := building c.metadata c.entries
  generalize ofEntries c.metadata c.entries = result at hbuilding ⊢
  cases hbuilding with
  | built c' metadata listed _ => rw [ext_of_perm metadata listed]
  | duplicate common same => exact absurd c.pairwise_differs same

/-- The catalog of entries is the same in whatever order they come, and so is whether they make up
one. -/
theorem toOption_ofEntries_of_perm (m : Metadata) (h : entries.Perm entries') :
    (ofEntries m entries).toOption = (ofEntries m entries').toOption := by
  have hleft := (building m entries).of_perm h
  have hright := building m entries'
  generalize ofEntries m entries = left at hleft
  generalize ofEntries m entries' = right at hright
  cases hleft with
  | built c metadata listed differ =>
    cases hright with
    | built c' metadata' listed' _ =>
      have hsame := ext_of_perm (metadata.trans metadata'.symm) (listed.trans listed'.symm)
      rw [hsame]
    | duplicate common same => exact absurd differ same
  | duplicate common same =>
    cases hright with
    | built c metadata listed differ => exact absurd differ same
    | duplicate common' _ => rfl

end Building

section Finding

theorem pairwise_subEntries (c : Catalog) (index : UInt16) :
    (c.subEntries index).Pairwise fun x y => x.address.subIndex < y.address.subIndex := by
  have hsublist : (c.subEntries index).Sublist c.entries := by
    rw [subEntries, SortedMap.range_eq_filter]
    exact List.filter_sublist.map Prod.snd
  refine (c.rising.sublist hsublist).imp_of_mem fun hx hy h => ?_
  have hindex := (mem_subEntries.mp hx).2.trans (mem_subEntries.mp hy).2.symm
  rcases Address.lt_iff.mp h with h | h
  · rw [hindex] at h
    exact absurd h (UInt16.lt_irrefl _)
  · exact h.2

theorem resolve?_eq_some_iff {text : String} : c.resolve? text = some e ↔
    (e ∈ c.entries ∧ e.name = text) ∨ (∀ x ∈ c.entries, x.name ≠ text) ∧
      ∃ address, Address.parse text = .ok address ∧ e ∈ c.entries ∧ e.address = address := by
  simp only [← find?_eq_some_iff, ← get?_eq_some_iff, ← find?_eq_none_iff, resolve?]
  cases c.find? text with
  | some x => simp
  | none => cases Address.parse text <;> simp

end Finding

/-- Holds of a catalog that lists the given entries and finds each of them. -/
structure Lists (c : Catalog) (entries : List Entry) : Prop where
  /-- Every entry is listed once. -/
  listed : c.entries.Perm entries
  ordered : c.entries.Pairwise fun x y => x.address.index < y.address.index ∨
    x.address.index = y.address.index ∧ x.address.subIndex < y.address.subIndex
  byName : ∀ name e, c.find? name = some e ↔ e ∈ entries ∧ e.name = name
  byAddress : ∀ address e, c.get? address = some e ↔ e ∈ entries ∧ e.address = address
  /-- The map of names holds the address of every entry under its name, and nothing else. -/
  named : ∀ name address, c.byName.get? name = some address ↔
    ∃ e ∈ entries, e.name = name ∧ e.address = address
  byIndex : ∀ index e, e ∈ c.subEntries index ↔ e ∈ entries ∧ e.address.index = index
  /-- The entries of an index come by rising sub-indices, so that each comes once. -/
  orderedByIndex : ∀ index,
    (c.subEntries index).Pairwise fun x y => x.address.subIndex < y.address.subIndex
  /-- A text stands for the entry of this name, and only where there is none for an address. -/
  resolved : ∀ text e, c.resolve? text = some e ↔
    (e ∈ entries ∧ e.name = text) ∨ (∀ x ∈ entries, x.name ≠ text) ∧
      ∃ address, Address.parse text = .ok address ∧ e ∈ entries ∧ e.address = address

theorem lists_of_perm (h : c.entries.Perm entries) : c.Lists entries where
  listed := h
  ordered := c.rising
  named name address := by simp only [get?_byName_eq_some_iff, h.mem_iff]
  byName name e := by rw [find?_eq_some_iff, h.mem_iff]
  byAddress address e := by rw [get?_eq_some_iff, h.mem_iff]
  byIndex index e := by rw [mem_subEntries, h.mem_iff]
  orderedByIndex := c.pairwise_subEntries
  resolved text e := by simp only [resolve?_eq_some_iff, h.mem_iff]

theorem lists_of_ofEntries (h : ofEntries m entries = .ok c) : c.metadata = m ∧ c.Lists entries := by
  have hbuilding := building m entries
  rw [h] at hbuilding
  cases hbuilding with
  | built _ metadata listed _ => exact ⟨metadata, lists_of_perm listed⟩

theorem mem_ofValid {valid : (ofEntries m entries).toOption.isSome} :
    e ∈ (ofValid m entries valid).entries ↔ e ∈ entries :=
  (lists_of_ofEntries (ofEntries_eq_ok valid)).2.listed.mem_iff

/-- Entries make up a catalog if and only if no two of them share an address or a name, and the order
in which they come does not matter; whatever a catalog is made from, it lists the entries of it and
finds them by all that they are known by. -/
theorem indexes_agree :
    (∀ m entries, (∃ c, ofEntries m entries = .ok c) ↔
      entries.Pairwise (fun x y => x.address ≠ y.address) ∧
        entries.Pairwise (fun x y => x.name ≠ y.name)) ∧
    (∀ m entries entries', entries.Perm entries' →
      (ofEntries m entries).toOption = (ofEntries m entries').toOption) ∧
    (∀ m entries c, ofEntries m entries = .ok c → c.metadata = m ∧ c.Lists entries) ∧
    (∀ a b c, merge a b = .ok c → c.metadata = a.metadata ∧ c.Lists (a.entries ++ b.entries)) ∧
    ∀ text c, ofYaml text = .ok c → ∃ node d entries,
      Yaml.Node.parse text = .ok node ∧ Yaml.Place.read? Definition.read node = some d ∧
        entriesOfRecords d.entries = .ok entries ∧ c.metadata = d.metadata.getD {} ∧
          c.Lists entries := by
  refine ⟨fun m entries => ?_, fun m entries entries' h => toOption_ofEntries_of_perm m h,
    fun m entries c h => lists_of_ofEntries h, fun a b c h => lists_of_ofEntries h,
    fun text c h => ?_⟩
  · have hbuilding := building m entries
    rw [← pairwise_differs_iff]
    generalize ofEntries m entries = result at hbuilding
    cases hbuilding with
    | built c metadata listed differ => exact ⟨fun _ => differ, fun _ => ⟨c, rfl⟩⟩
    | duplicate common same =>
      exact ⟨fun ⟨c, h⟩ => by contradiction, fun differ => absurd differ same⟩
  · unfold ofYaml at h
    split at h
    · contradiction
    · rename_i node hnode
      split at h
      · rename_i d hd
        unfold ofDefinition at h
        split at h
        · rename_i entries hentries
          obtain ⟨hmetadata, hlists⟩ := lists_of_ofEntries h
          exact ⟨node, d, entries, hnode, hd, hentries, hmetadata, hlists⟩
        · contradiction
      · contradiction

/-- The last address of all, with the first one of its index and a name that looks like an address. -/
theorem indexes_agree_lastAddress :
    let last : Entry := { address := ⟨0xFFFF, 0xFF⟩, name := "0x0000:00", type := .boolean }
    let first : Entry := { address := ⟨0xFFFF, 0⟩, name := "first", type := .domain }
    let zero : Entry := { address := ⟨0, 0⟩, name := "zero", type := .real32 }
    ∃ c, ofEntries {} [last, zero, first] = .ok c ∧ c.Lists [last, zero, first] ∧
      c.resolve? "0x0000:00" = some last ∧ first ∈ c.subEntries 0xFFFF := by
  intro last first zero
  obtain ⟨hbuilds, -, hlists, -⟩ := indexes_agree
  obtain ⟨c, hc⟩ := (hbuilds {} [last, zero, first]).mpr ⟨by decide, by decide⟩
  have h := (hlists _ _ _ hc).2
  exact ⟨c, hc, h, (h.resolved _ _).mpr (.inl ⟨.head _, rfl⟩),
    (h.byIndex _ _).mpr ⟨by simp, rfl⟩⟩

end Catalog

end Canopen
