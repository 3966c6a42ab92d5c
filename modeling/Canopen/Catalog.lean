import Canopen.Entry
import Canopen.SortedMap
/-!
# Catalogs

The entry definitions a client works with. A catalog has its entries by their addresses, and their
addresses by their names. Both maps are filled entry by entry, and an entry is refused if one of them
has it; so they agree in every catalog.
-/
namespace Canopen

structure Metadata where
  name : Option String := none
  version : Option String := none
  description : Option String := none
  deriving DecidableEq, Repr

/-- Holds of two maps of the same entries: each entry is under its own address, and its address is
under its name. -/
structure Agree (byAddress : SortedMap Address Entry) (byName : SortedMap String Address) : Prop where
  own : ∀ a e, byAddress.get? a = some e → e.address = a
  named : ∀ name a, byName.get? name = some a ↔ ∃ e, byAddress.get? a = some e ∧ e.name = name

namespace Agree

theorem empty : Agree .empty .empty := ⟨by simp, by simp⟩

variable {byAddress : SortedMap Address Entry} {byName : SortedMap String Address}

/-- Maps agree after an entry of a new address and a new name has been put into both. -/
theorem insert (h : Agree byAddress byName) {e : Entry} (address : byAddress.get? e.address = none)
    (name : byName.get? e.name = none) :
    Agree (byAddress.insert e.address e) (byName.insert e.name e.address) where
  own a x hx := by
    rw [SortedMap.get?_insert] at hx
    split at hx
    · next same => rw [← Option.some.inj hx, same]
    · exact h.own a x hx
  named text a := by
    rw [SortedMap.get?_insert, SortedMap.get?_insert]
    by_cases ha : a = e.address
    · subst ha
      by_cases ht : text = e.name
      · simp [ht]
      · have hnot : byName.get? text ≠ some e.address := fun hold => by
          obtain ⟨x, hx, -⟩ := (h.named text e.address).1 hold
          simp [address] at hx
        simp [ht, hnot, eq_comm]
    · by_cases ht : text = e.name
      · subst ht
        have hnot : ¬∃ x, byAddress.get? a = some x ∧ x.name = e.name := fun hold => by
          simp [(h.named e.name a).2 hold] at name
        simpa [ha, Ne.symm ha] using hnot
      · simpa [ha, ht] using h.named text a

end Agree

/-- A set of entries. No two of them share an address or a name. -/
structure Catalog where
  metadata : Metadata := {}
  byAddress : SortedMap Address Entry := .empty
  byName : SortedMap String Address := .empty
  agree : Agree byAddress byName := by exact .empty
  deriving DecidableEq, Repr

namespace Catalog

/-- The entries, in the order of their addresses. -/
def entries (c : Catalog) : List Entry := c.byAddress.values

def get? (c : Catalog) (a : Address) : Option Entry := c.byAddress.get? a

/-- The entry of a name, which is looked up at the address of the name. -/
def find? (c : Catalog) (name : String) : Option Entry := (c.byName.get? name).bind c.byAddress.get?

def contains (c : Catalog) (a : Address) : Bool := c.byAddress.contains a

def size (c : Catalog) : Nat := c.byAddress.toList.length

/-- The entries of an index, in the order of their sub-indices. -/
def subEntries (c : Catalog) (index : UInt16) : List Entry :=
  c.byAddress.range ⟨index, 0⟩ ⟨index, 255⟩

variable {c : Catalog} {e : Entry}

theorem get?_eq_some_iff {a : Address} :
    c.get? a = some e ↔ e ∈ c.entries ∧ e.address = a := by
  simp only [entries, SortedMap.values, List.mem_map, Prod.exists, exists_eq_right]
  constructor
  · intro h
    exact ⟨⟨a, SortedMap.mem_toList.2 h⟩, c.agree.own a e h⟩
  · rintro ⟨⟨a', h⟩, rfl⟩
    have hget := SortedMap.mem_toList.1 h
    rw [← c.agree.own a' e hget] at hget
    exact hget

theorem find?_eq_some_iff {name : String} :
    c.find? name = some e ↔ e ∈ c.entries ∧ e.name = name := by
  rw [find?, Option.bind_eq_some_iff]
  constructor
  · rintro ⟨a, ha, he⟩
    obtain ⟨x, hx, rfl⟩ := (c.agree.named name a).1 ha
    obtain rfl := Option.some.inj (hx.symm.trans he)
    exact ⟨(get?_eq_some_iff.1 he).1, rfl⟩
  · rintro ⟨he, rfl⟩
    have hget : c.byAddress.get? e.address = some e := get?_eq_some_iff.2 ⟨he, rfl⟩
    exact ⟨e.address, (c.agree.named e.name e.address).2 ⟨e, hget, rfl⟩, hget⟩

theorem find?_eq_none_iff {name : String} :
    c.find? name = none ↔ ∀ x ∈ c.entries, x.name ≠ name := by
  rw [Option.eq_none_iff_forall_ne_some]
  simp only [ne_eq, find?_eq_some_iff, not_and]

theorem mem_subEntries {index : UInt16} :
    e ∈ c.subEntries index ↔ e ∈ c.entries ∧ e.address.index = index := by
  have hindex (a : Address) : a.index = index ↔
      (!decide (a < ⟨index, 0⟩) && !decide ((⟨index, 255⟩ : Address) < a)) = true := by
    simp [Address.index_eq_iff]
  simp only [subEntries, SortedMap.range_eq_filter, entries, SortedMap.values, List.mem_map,
    List.mem_filter, ← hindex, Prod.exists, exists_eq_right]
  constructor
  · rintro ⟨a, h, rfl⟩
    exact ⟨⟨a, h⟩, by rw [c.agree.own a e (SortedMap.mem_toList.1 h)]⟩
  · rintro ⟨⟨a, h⟩, rfl⟩
    exact ⟨a, h, by rw [c.agree.own a e (SortedMap.mem_toList.1 h)]⟩

/-- Adds an entry with a new address and a new name. -/
def add (c : Catalog) (e : Entry) : Except DictionaryError Catalog :=
  if address : c.contains e.address then .error (.duplicateEntry (.address e.address))
  else if name : c.byName.contains e.name then .error (.duplicateEntry (.name e.name))
  else
    .ok
      { metadata := c.metadata
        byAddress := c.byAddress.insert e.address e
        byName := c.byName.insert e.name e.address
        agree := c.agree.insert (SortedMap.get?_eq_none address) (SortedMap.get?_eq_none name) }

def addAll (c : Catalog) : List Entry → Except DictionaryError Catalog
  | [] => .ok c
  | e :: rest =>
    match c.add e with
    | .ok c => c.addAll rest
    | .error err => .error err

theorem addAll_append (c : Catalog) (l l' : List Entry) :
    c.addAll (l ++ l') = c.addAll l >>= fun c' => c'.addAll l' := by
  induction l generalizing c with
  | nil => rfl
  | cons e rest ih =>
    rw [List.cons_append, addAll, addAll]
    cases c.add e with
    | ok c' => exact ih c'
    | error err => rfl

def ofEntries (metadata : Metadata) (entries : List Entry) : Except DictionaryError Catalog :=
  addAll { metadata } entries

/-- The entries of two catalogs, with the metadata of the first. -/
def merge (a b : Catalog) : Except DictionaryError Catalog :=
  ofEntries a.metadata (a.entries ++ b.entries)

/-- The catalog of entries that make up one. -/
def ofValid (metadata : Metadata) (entries : List Entry)
    (valid : (ofEntries metadata entries).toOption.isSome) : Catalog :=
  (ofEntries metadata entries).toOption.get valid

theorem ofEntries_eq_ok {metadata : Metadata} {entries : List Entry}
    (valid : (ofEntries metadata entries).toOption.isSome) :
    ofEntries metadata entries = .ok (ofValid metadata entries valid) := by
  have h : (ofEntries metadata entries).toOption = some (ofValid metadata entries valid) :=
    (Option.some_get valid).symm
  generalize ofValid metadata entries valid = c at h
  cases hresult : ofEntries metadata entries with
  | error err => simp [hresult, Except.toOption] at h
  | ok built =>
    rw [hresult] at h
    rw [Option.some.inj h]

/-- The entry that a text names: the one of that name, or else the one at that address. -/
def resolve? (c : Catalog) (text : String) : Option Entry :=
  match c.find? text with
  | some e => some e
  | none =>
    match Address.parse text with
    | .ok a => c.get? a
    | .error _ => none

/-- Makes a catalog the one of the process, which can be done once. -/
def install (installed : Option Catalog) (c : Catalog) : Except DictionaryError Catalog :=
  match installed with
  | some _ => .error .alreadyInstalled
  | none => .ok c

end Catalog

end Canopen
