import Canopen.Proofs.Catalog.Indexes
import Canopen.Proofs.Entry.Errors
/-!
# Merging catalogs

Catalogs can be merged if and only if they share no address and no name (`Catalog.Disjoint`), and what
they make up has exactly the entries of both (`Catalog.merge_eq_ok_iff`). So merging is a union where it
succeeds: which catalog comes first does not matter to the entries, and brackets do not matter at all
(`Catalog.merge_union`). Where it fails, the first entry of the second catalog that has something in common
with the first catalog is reported (`Catalog.merge_eq_error_iff`).
-/
namespace Canopen

namespace Catalog

variable {a b c m : Catalog} {e : Entry} {l : List Entry} {err : DictionaryError}

/-- Holds of catalogs that share neither an address nor a name. -/
def Disjoint (a b : Catalog) : Prop := ∀ x ∈ a.entries, ∀ y ∈ b.entries, x.Differs y

theorem Disjoint.symm (h : a.Disjoint b) : b.Disjoint a := by
  intro y hy x hx
  exact (h x hx y hy).symm

theorem pairwise_append_iff : (a.entries ++ b.entries).Pairwise Entry.Differs ↔ a.Disjoint b := by
  rw [List.pairwise_append]
  constructor
  · rintro ⟨-, -, h⟩
    exact h
  · intro h
    exact ⟨a.pairwise_differs, b.pairwise_differs, h⟩

/-- A catalog of the entries of two others shares something with a third one if one of them does. -/
theorem disjoint_iff_of_perm (h : m.entries.Perm (a.entries ++ b.entries)) :
    m.Disjoint c ↔ a.Disjoint c ∧ b.Disjoint c := by
  simp only [Disjoint, h.mem_iff, List.mem_append]
  constructor
  · intro hm
    exact ⟨fun x hx => hm x (.inl hx), fun x hx => hm x (.inr hx)⟩
  · rintro ⟨ha, hb⟩ x (hx | hx)
    · exact ha x hx
    · exact hb x hx

section Success

theorem building_merge (a b : Catalog) :
    Building a.metadata (a.entries ++ b.entries) (a.merge b) :=
  building a.metadata (a.entries ++ b.entries)

theorem exists_merge (h : a.Disjoint b) : ∃ m, a.merge b = .ok m := by
  have hbuilding := building_merge a b
  generalize a.merge b = result at hbuilding
  cases hbuilding with
  | built m metadata listed differ => exact ⟨m, rfl⟩
  | duplicate common same => exact absurd (pairwise_append_iff.mpr h) same

/-- The catalog that two others make up is the one with their entries and the metadata of the first. -/
theorem merge_eq_ok_iff : a.merge b = .ok m ↔
    a.Disjoint b ∧ m.metadata = a.metadata ∧ m.entries.Perm (a.entries ++ b.entries) := by
  constructor
  · intro h
    have hbuilding := building_merge a b
    rw [h] at hbuilding
    cases hbuilding with
    | built m metadata listed differ => exact ⟨pairwise_append_iff.mp differ, metadata, listed⟩
  · rintro ⟨hdisjoint, hmetadata, hlisted⟩
    obtain ⟨m', hm'⟩ := exists_merge hdisjoint
    have hbuilding := building_merge a b
    rw [hm'] at hbuilding ⊢
    cases hbuilding with
    | built m' metadata listed _ =>
      rw [ext_of_perm (metadata.trans hmetadata.symm) (listed.trans hlisted.symm)]

theorem exists_merge_iff : (∃ m, a.merge b = .ok m) ↔ a.Disjoint b := by
  constructor
  · rintro ⟨m, hm⟩
    exact (merge_eq_ok_iff.mp hm).1
  · exact exists_merge

end Success

section Laws

/-- Merging from the left: three catalogs make up one if no two of them share anything. -/
theorem merge_bind_eq_ok_iff : (a.merge b >>= fun ab => ab.merge c) = .ok m ↔
    (a.Disjoint b ∧ a.Disjoint c ∧ b.Disjoint c) ∧
      m.metadata = a.metadata ∧ m.entries.Perm (a.entries ++ (b.entries ++ c.entries)) := by
  rw [← List.append_assoc, bind_eq_ok_iff]
  constructor
  · rintro ⟨ab, hab, h⟩
    obtain ⟨hdisjoint, hmetadata, hlisted⟩ := merge_eq_ok_iff.mp hab
    obtain ⟨hrest, hmetadata', hlisted'⟩ := merge_eq_ok_iff.mp h
    exact ⟨⟨hdisjoint, (disjoint_iff_of_perm hlisted).mp hrest⟩, hmetadata'.trans hmetadata,
      hlisted'.trans (hlisted.append_right c.entries)⟩
  · rintro ⟨⟨hdisjoint, hrest⟩, hmetadata, hlisted⟩
    obtain ⟨ab, hab⟩ := exists_merge hdisjoint
    obtain ⟨-, hmetadata', hlisted'⟩ := merge_eq_ok_iff.mp hab
    refine ⟨ab, hab, merge_eq_ok_iff.mpr ⟨?_, ?_, ?_⟩⟩
    · exact (disjoint_iff_of_perm hlisted').mpr hrest
    · exact hmetadata.trans hmetadata'.symm
    · exact hlisted.trans (hlisted'.symm.append_right c.entries)

/-- Merging from the right: the same three catalogs make up the same one. -/
theorem bind_merge_eq_ok_iff : (b.merge c >>= fun bc => a.merge bc) = .ok m ↔
    (a.Disjoint b ∧ a.Disjoint c ∧ b.Disjoint c) ∧
      m.metadata = a.metadata ∧ m.entries.Perm (a.entries ++ (b.entries ++ c.entries)) := by
  rw [bind_eq_ok_iff]
  constructor
  · rintro ⟨bc, hbc, h⟩
    obtain ⟨hdisjoint, -, hlisted⟩ := merge_eq_ok_iff.mp hbc
    obtain ⟨hrest, hmetadata, hlisted'⟩ := merge_eq_ok_iff.mp h
    obtain ⟨hb, hc⟩ := (disjoint_iff_of_perm hlisted).mp hrest.symm
    exact ⟨⟨hb.symm, hc.symm, hdisjoint⟩, hmetadata,
      hlisted'.trans (hlisted.append_left a.entries)⟩
  · rintro ⟨⟨hb, hc, hdisjoint⟩, hmetadata, hlisted⟩
    obtain ⟨bc, hbc⟩ := exists_merge hdisjoint
    obtain ⟨-, -, hlisted'⟩ := merge_eq_ok_iff.mp hbc
    refine ⟨bc, hbc, merge_eq_ok_iff.mpr ⟨?_, hmetadata, ?_⟩⟩
    · exact ((disjoint_iff_of_perm hlisted').mpr ⟨hb.symm, hc.symm⟩).symm
    · exact hlisted.trans (hlisted'.symm.append_left a.entries)

theorem toOption_merge_assoc (a b c : Catalog) :
    (a.merge b >>= fun ab => ab.merge c).toOption = (b.merge c >>= fun bc => a.merge bc).toOption := by
  apply Option.ext
  intro m
  rw [toOption_eq_some_iff, toOption_eq_some_iff, merge_bind_eq_ok_iff, bind_merge_eq_ok_iff]

theorem map_entries_merge_comm (a b : Catalog) :
    (a.merge b).toOption.map entries = (b.merge a).toOption.map entries := by
  have hab := building_merge a b
  have hba := (building_merge b a).of_perm List.perm_append_comm
  generalize a.merge b = left at hab
  generalize b.merge a = right at hba
  cases hab with
  | built m _ listed differ =>
    cases hba with
    | built m' _ listed' _ => exact congrArg some (entries_eq_of_perm (listed.trans listed'.symm))
    | duplicate _ same => exact absurd differ same
  | duplicate _ same =>
    cases hba with
    | built _ _ _ differ => exact absurd differ same
    | duplicate _ _ => rfl

end Laws

section Failure

/-- What an entry has in common with one of a catalog, the address before the name. -/
def shared? (c : Catalog) (e : Entry) : Option Duplicate :=
  if ∃ x ∈ c.entries, x.address = e.address then some (.address e.address)
  else if ∃ x ∈ c.entries, x.name = e.name then some (.name e.name)
  else none

theorem add_eq_error_iff :
    c.add e = .error err ↔ ∃ d, c.shared? e = some d ∧ .duplicateEntry d = err := by
  unfold add shared?
  simp only [← contains_iff, ← contains_byName_iff]
  split
  · simp
  · split <;> simp

/-- Adding an entry leaves what those have in common with the catalog that differ from it. -/
theorem shared?_of_add {y : Entry} (h : c.add e = .ok m) (hy : e.Differs y) :
    m.shared? y = c.shared? y := by
  have hbuilding := building_add c e
  rw [h] at hbuilding
  cases hbuilding with
  | built m _ listed _ =>
    have haddress : (∃ x ∈ m.entries, x.address = y.address) ↔
        ∃ x ∈ c.entries, x.address = y.address := by
      simp [listed.mem_iff, hy.1]
    have hname : (∃ x ∈ m.entries, x.name = y.name) ↔ ∃ x ∈ c.entries, x.name = y.name := by
      simp [listed.mem_iff, hy.2]
    simp only [shared?, haddress, hname]

/-- Merging adds the entries of the second catalog to the first one. -/
theorem merge_eq_addAll (a b : Catalog) : a.merge b = a.addAll b.entries := by
  have h := ofEntries_entries a
  rw [ofEntries] at h
  rw [merge, ofEntries, addAll_append, h]
  rfl

theorem addAll_eq_error_iff (h : l.Pairwise Entry.Differs) : c.addAll l = .error err ↔
    ∃ d, l.findSome? c.shared? = some d ∧ .duplicateEntry d = err := by
  induction l generalizing c with
  | nil => simp [addAll]
  | cons e rest ih =>
    obtain ⟨hfirst, hrest⟩ := List.pairwise_cons.mp h
    rw [addAll, List.findSome?_cons]
    cases hadd : c.add e with
    | error err' =>
      obtain ⟨d, hd, rfl⟩ := add_eq_error_iff.mp hadd
      simp [hd]
    | ok m =>
      have hnone : c.shared? e = none := by
        refine Option.eq_none_iff_forall_ne_some.mpr fun d hd => ?_
        rw [add_eq_error_iff.mpr ⟨d, hd, rfl⟩] at hadd
        contradiction
      have hsame : rest.filterMap m.shared? = rest.filterMap c.shared? :=
        List.filterMap_congr fun y hy => shared?_of_add hadd (hfirst y hy)
      rw [hnone, ← List.head?_filterMap, ← hsame, List.head?_filterMap]
      exact ih hrest

theorem merge_eq_error_iff : a.merge b = .error err ↔
    ∃ d, b.entries.findSome? a.shared? = some d ∧ .duplicateEntry d = err := by
  rw [merge_eq_addAll]
  exact addAll_eq_error_iff b.pairwise_differs

end Failure

/-- Catalogs make up one catalog if and only if they share no address and no name, and otherwise the first
entry of the second that shares one with the first is reported. The catalog they make up lists and finds
the entries of both and has the metadata of the first; which of them comes first does not matter to
the entries, and of three it does not matter which two are merged before; and a catalog without entries
adds none. -/
theorem merge_union (a b c : Catalog) :
    (∀ m, a.merge b = .ok m ↔
      a.Disjoint b ∧ m.metadata = a.metadata ∧ m.Lists (a.entries ++ b.entries)) ∧
    ((∃ m, a.merge b = .ok m) ↔ a.Disjoint b) ∧
    (∀ err, a.merge b = .error err ↔
      ∃ d, b.entries.findSome? a.shared? = some d ∧ .duplicateEntry d = err) ∧
    (a.merge b).toOption.map entries = (b.merge a).toOption.map entries ∧
    (a.merge b >>= fun ab => ab.merge c).toOption =
      (b.merge c >>= fun bc => a.merge bc).toOption ∧
    ∀ metadata, a.merge { metadata } = .ok a ∧
      merge { metadata } a = .ok { a with metadata } := by
  refine ⟨fun m => ?_, exists_merge_iff, fun err => merge_eq_error_iff, map_entries_merge_comm a b,
    toOption_merge_assoc a b c, fun metadata => ⟨?_, ?_⟩⟩
  · rw [merge_eq_ok_iff]
    constructor
    · rintro ⟨hdisjoint, hmetadata, hlisted⟩
      exact ⟨hdisjoint, hmetadata, lists_of_perm hlisted⟩
    · rintro ⟨hdisjoint, hmetadata, hlists⟩
      exact ⟨hdisjoint, hmetadata, hlists.listed⟩
  · have hempty : ({ metadata } : Catalog).entries = [] := rfl
    refine merge_eq_ok_iff.mpr ⟨fun x _ y hy => absurd hy List.not_mem_nil, rfl, ?_⟩
    rw [hempty, List.append_nil]
  · exact merge_eq_ok_iff.mpr ⟨fun x hx => absurd hx List.not_mem_nil, rfl, .refl _⟩

end Catalog

end Canopen
