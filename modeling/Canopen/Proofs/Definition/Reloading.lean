import Canopen.Proofs.Catalog.Indexes
import Canopen.Proofs.Yaml.Nodes
/-!
# Catalogs from their definition files

A record of an entry becomes this entry again, since everything it was checked for is checked in the same
way, and the entries of a catalog make up this catalog. So a catalog is restored from the text of its
definition file (`Catalog.restored_from_toYaml`). Of YAML this takes only that a written tree is parsed
to nodes that show it.
-/
namespace Canopen

namespace EntryRecord

theorem toEntry_ofEntry (e : Entry) : (ofEntry e).toEntry = .ok e := by
  obtain ⟨draft, valid⟩ := e
  have hindex : ¬0xFFFF < draft.address.index.toNat := by
    have h := draft.address.index.toNat_lt
    omega
  have hsubIndex : ¬0xFF < draft.address.subIndex.toNat := by
    have h := draft.address.subIndex.toNat_lt
    omega
  simp only [ofEntry, toEntry, Spelled.value, parseNumber_indexText, if_neg hindex, if_neg hsubIndex,
    UInt16.ofNat_toNat, UInt8.ofNat_toNat]
  exact Entry.build_eq_ok valid

end EntryRecord

namespace Catalog

theorem entriesOfRecords_map (entries : List Entry) :
    entriesOfRecords (entries.map EntryRecord.ofEntry) = .ok entries := by
  induction entries with
  | nil => rfl
  | cons e rest ih => rw [List.map_cons, entriesOfRecords, EntryRecord.toEntry_ofEntry, ih]

/-- The entries of a catalog make up this catalog. -/
theorem ofDefinition_toDefinition (c : Catalog) : ofDefinition c.toDefinition = .ok c := by
  rw [ofDefinition, toDefinition, entriesOfRecords_map]
  exact ofEntries_entries c

theorem read_root {node : Yaml.Node} (c : Catalog) (hregular : ∀ e ∈ c.entries, e.Regular)
    (hshows : node.Shows c.toDefinition.toData) :
    Yaml.Place.read? Definition.read node = some c.toDefinition := by
  have h := Definition.read_toData (d := .root node) Yaml.carries_place hregular hshows
  rw [Yaml.Place.read?, h]
  rfl

/-- A catalog is restored from the text of its definition file, with its metadata and every one of its
entries, so that its definition file is the same again. The trees that are taken to be carried by YAML
are those whose texts are parsed to nodes that show them; the tree of the catalog must be one. -/
theorem restored_from_toYaml {carried : Data → Prop}
    (hyaml : ∀ t, carried t → ∃ node, Yaml.Node.parse (Yaml.write t) = .ok node ∧ node.Shows t)
    (c : Catalog) (hregular : ∀ e ∈ c.entries, e.Regular) (hcarried : carried c.toDefinition.toData) :
    ∃ c', ofYaml c.toYaml = .ok c' ∧ c'.metadata = c.metadata ∧ c'.entries = c.entries ∧
      c'.toYaml = c.toYaml := by
  obtain ⟨node, hnode, hshows⟩ := hyaml c.toDefinition.toData hcarried
  have hread := read_root c hregular hshows
  have hrestored : ofYaml c.toYaml = .ok c := by
    unfold ofYaml toYaml
    simp only [hnode, hread, ofDefinition_toDefinition]
  exact ⟨c, hrestored, rfl, rfl, rfl⟩

/-- An entry with a labelled bit field. -/
def labelledEntry : Entry where
  address := ⟨0x1000, 1⟩
  name := "s"
  type := .unsigned .w8
  fields := [⟨"m", 1, 2, some [(2, "on")], by decide, by decide⟩]

def labelled : Catalog := .ofValid { version := some "1" } [labelledEntry] (by decide +kernel)

/-- The node of its definition file. -/
def labelledNode : Yaml.Node :=
  let word (s : String) : Yaml.Node := .scalar none none .plain s
  let quoted (s : String) : Yaml.Node := .scalar none none .singleQuoted s
  .mapping none none
    [(word "meta", .mapping none none [(word "version", quoted "1")]),
     (word "entries", .sequence none none
       [.mapping none none
         [(word "index", quoted "0x1000"), (word "sub_index", word "1"), (word "name", word "s"),
          (word "type", word "uint8"), (word "access", word "read_write"),
          (word "bits", .sequence none none
            [.mapping none none
              [(word "name", word "m"), (word "bit", word "1"), (word "width", word "2"),
               (word "labels", .mapping none none [(word "2", word "on")])]])]])]

/-- The tokens of its text. -/
def labelledTokens : List Yaml.Token :=
  let word (s : String) : Yaml.Token := .scalar .plain s
  let quoted (s : String) : Yaml.Token := .scalar .singleQuoted s
  let part (key : String) (value : List Yaml.Token) : List Yaml.Token :=
    .key :: word key :: .value :: value
  let block (parts : List (List Yaml.Token)) : List Yaml.Token :=
    .blockMappingStart :: parts.flatten ++ [.blockEnd]
  block
    [part "meta" (block [part "version" [quoted "1"]]),
     part "entries" (.blockEntry :: block
       [part "index" [quoted "0x1000"], part "sub_index" [word "1"], part "name" [word "s"],
        part "type" [word "uint8"], part "access" [word "read_write"],
        part "bits" (.blockEntry :: block
          [part "name" [word "m"], part "bit" [word "1"], part "width" [word "2"],
           part "labels" (block [part "2" [word "on"]])])])]

set_option maxRecDepth 10000 in
/-- The text of this definition file is parsed to the node, which shows what has been written. -/
theorem restored_from_toYaml_labelled :
    (∀ e ∈ labelled.entries, e.Regular) ∧
      Yaml.Node.parse (Yaml.write labelled.toDefinition.toData) = .ok labelledNode ∧
      labelledNode.Shows labelled.toDefinition.toData ∧
        ∃ c', ofYaml labelled.toYaml = .ok c' ∧ c'.metadata = labelled.metadata ∧
          c'.entries = labelled.entries ∧ c'.toYaml = labelled.toYaml := by
  have hregular : ∀ e ∈ labelled.entries, e.Regular := by
    intro e he
    obtain rfl := List.mem_singleton.mp (mem_ofValid.mp he)
    refine ⟨?_, ?_⟩
    · rintro size ⟨⟩
      decide
    · exact List.forall_mem_singleton.mpr (@BitField.Made.made "m" 1 2 (some [(2, "on")]) _ rfl)
  have htext : Yaml.write labelled.toDefinition.toData =
      "meta:\n  version: '1'\nentries:\n- index: '0x1000'\n  sub_index: 1\n  name: s\n" ++
      "  type: uint8\n  access: read_write\n  bits:\n  - name: m\n    bit: 1\n    width: 2\n" ++
      "    labels:\n      2: on\n" := by
    decide +kernel
  -- the text is cut as a literal, since it would be written anew for each of its characters
  have htokens : Yaml.Token.ofText (Yaml.write labelled.toDefinition.toData) = .ok labelledTokens := by
    rw [htext]
    decide +kernel
  have hnode : Yaml.Node.parse (Yaml.write labelled.toDefinition.toData) = .ok labelledNode := by
    rw [Yaml.Node.parse, htokens]
    rfl
  have hshows : labelledNode.Shows labelled.toDefinition.toData :=
    Yaml.shows_ofData labelled.toDefinition.toData
  refine ⟨hregular, hnode, hshows, ?_⟩
  exact @restored_from_toYaml (· = labelled.toDefinition.toData)
    (fun t ht => ⟨labelledNode, ht ▸ hnode, ht ▸ hshows⟩) labelled hregular rfl

end Catalog

end Canopen
