import Canopen.Cli.Output
import Canopen.Proofs.Text.Utf8
import Mathlib.Data.List.Basic
import Mathlib.Data.List.Perm.Basic
/-!
# Comma-separated values read back

A reader of comma-separated values goes through a text once and minds only whether it is between
quotes. Line feeds outside quotes end records, commas outside quotes part fields, and of a field in
quotes two quotes stand for one. What is printed of rows gives this reader the keys and the texts of
every row again (`Tabular.ofText_csv`), so no two lists of rows of a kind are printed alike.
-/
namespace Canopen.Cli

namespace Csv

/-- The parts of a text between the separators that are not in quotes. Each quote changes whether
what follows is in quotes. -/
def splitOutside (sep : Char) : Bool → List Char → List (List Char)
  | _, [] => [[]]
  | quoted, c :: cs =>
    if c = sep ∧ quoted = false then [] :: splitOutside sep false cs
    else (splitOutside sep (quoted ^^ (c == '"')) cs).modifyHead (c :: ·)

/-- Makes one quote of two. -/
def undouble : List Char → List Char
  | '"' :: '"' :: cs => '"' :: undouble cs
  | c :: cs => c :: undouble cs
  | [] => []

/-- What a field says: in quotes it stands without them. -/
def readField : List Char → List Char
  | '"' :: cs => undouble cs.dropLast
  | cs => cs

def readRecord (cs : List Char) : List (List Char) := (splitOutside ',' false cs).map readField

/-- The records of a text, each with a line feed after it. -/
def read (cs : List Char) : List (List (List Char)) :=
  (splitOutside '\n' false cs).dropLast.map readRecord

def ofText (s : String) : List (List String) := (read s.toList).map fun r => r.map String.ofList

variable {sep : Char}

theorem splitOutside_ne_nil (sep : Char) (quoted : Bool) (cs : List Char) :
    splitOutside sep quoted cs ≠ [] := by
  fun_induction splitOutside sep quoted cs with
  | case1 => simp
  | case2 => simp
  | case3 quoted c cs _ ih => simpa [List.modifyHead_eq_nil_iff] using ih

theorem splitOutside_sep (cs : List Char) :
    splitOutside sep false (sep :: cs) = [] :: splitOutside sep false cs := by
  simp [splitOutside]

theorem splitOutside_quote (hquote : sep ≠ '"') (quoted : Bool) (cs : List Char) :
    splitOutside sep quoted ('"' :: cs) = (splitOutside sep (!quoted) cs).modifyHead ('"' :: ·) := by
  simp [splitOutside, hquote.symm]

theorem splitOutside_plain {c : Char} (hsep : c ≠ sep) (hquote : c ≠ '"') (quoted : Bool)
    (cs : List Char) :
    splitOutside sep quoted (c :: cs) = (splitOutside sep quoted cs).modifyHead (c :: ·) := by
  have hfalse : (c == '"') = false := beq_false_of_ne hquote
  simp [splitOutside, hsep, hfalse]

/-- In quotes a separator is like any other character. -/
theorem splitOutside_quoted {c : Char} (hquote : c ≠ '"') (cs : List Char) :
    splitOutside sep true (c :: cs) = (splitOutside sep true cs).modifyHead (c :: ·) := by
  have hfalse : (c == '"') = false := beq_false_of_ne hquote
  simp [splitOutside, hfalse]

/-- A piece of text with no separator outside quotes, and with every quote closed again. -/
def Whole (sep : Char) (cs : List Char) : Prop :=
  ∀ rest, splitOutside sep false (cs ++ rest) = (splitOutside sep false rest).modifyHead (cs ++ ·)

theorem Whole.nil : Whole sep [] := fun _ => (congrFun List.modifyHead_id _).symm

theorem Whole.append {a b : List Char} (ha : Whole sep a) (hb : Whole sep b) :
    Whole sep (a ++ b) := by
  intro rest
  rw [List.append_assoc, ha, hb, List.modifyHead_modifyHead]
  simp [Function.comp_def]

theorem Whole.singleton {c : Char} (hsep : c ≠ sep) (hquote : c ≠ '"') : Whole sep [c] :=
  fun rest => splitOutside_plain hsep hquote false rest

/-- A whole piece with a separator after it is a part. -/
theorem Whole.splitOutside_append {cs : List Char} (h : Whole sep cs) (rest : List Char) :
    splitOutside sep false (cs ++ sep :: rest) = cs :: splitOutside sep false rest := by
  rw [h, splitOutside_sep]
  simp

/-- A whole piece with nothing after it is the last part. -/
theorem Whole.splitOutside_eq {cs : List Char} (h : Whole sep cs) :
    splitOutside sep false cs = [cs] := by
  have hnil := h []
  simpa [splitOutside] using hnil

/-- Characters that need no quotes are neither separators nor quotes. -/
theorem Whole.of_plain (hspecial : isSpecial sep) {cs : List Char} (h : cs.any isSpecial = false) :
    Whole sep cs := by
  induction cs with
  | nil => exact .nil
  | cons c cs ih =>
    obtain ⟨hc, hcs⟩ : isSpecial c = false ∧ cs.any isSpecial = false := by simpa using h
    have hsep : c ≠ sep := by
      rintro rfl
      simp [hc] at hspecial
    have hquote : c ≠ '"' := by
      rintro rfl
      simp [isSpecial] at hc
    exact .append (.singleton hsep hquote) (ih hcs)

/-- In quotes everything up to the closing quote belongs to the part: a quote of the text comes
twice, and after the second the reader is between quotes again. -/
theorem splitOutside_doubleQuotes (hquote : sep ≠ '"') (cs rest : List Char) :
    splitOutside sep true (doubleQuotes cs ++ '"' :: rest) =
      (splitOutside sep false rest).modifyHead (doubleQuotes cs ++ '"' :: ·) := by
  induction cs with
  | nil => exact splitOutside_quote hquote true rest
  | cons c cs ih =>
    by_cases hc : c = '"'
    · subst hc
      rw [doubleQuotes_quote, List.cons_append, List.cons_append, splitOutside_quote hquote,
        splitOutside_quote hquote, Bool.not_not, ih, List.modifyHead_modifyHead,
        List.modifyHead_modifyHead]
      simp [Function.comp_def]
    · rw [doubleQuotes_cons hc, List.cons_append, splitOutside_quoted hc, ih,
        List.modifyHead_modifyHead]
      simp [Function.comp_def]

/-- A field is whole, in quotes or not. -/
theorem Whole.field (hspecial : isSpecial sep) (hquote : sep ≠ '"') (cs : List Char) :
    Whole sep (field cs) := by
  unfold Csv.field
  split
  · intro rest
    have hclosed : '"' :: (doubleQuotes cs ++ ['"']) ++ rest =
        '"' :: (doubleQuotes cs ++ '"' :: rest) := by simp
    rw [hclosed, splitOutside_quote hquote, Bool.not_false, splitOutside_doubleQuotes hquote,
      List.modifyHead_modifyHead]
    simp [Function.comp_def]
  · rename_i hplain
    exact .of_plain hspecial (eq_false_of_ne_true hplain)

theorem undouble_doubleQuotes (cs : List Char) : undouble (doubleQuotes cs) = cs := by
  induction cs with
  | nil => rfl
  | cons c cs ih =>
    by_cases hc : c = '"'
    · subst hc
      rw [doubleQuotes_quote, undouble, ih]
    · rw [doubleQuotes_cons hc, undouble, ih]
      simp [hc]

/-- A field says what was written: one without quotes around it does not start with a quote. -/
theorem readField_field (cs : List Char) : readField (field cs) = cs := by
  unfold field
  split
  · rw [readField, List.dropLast_concat, undouble_doubleQuotes]
  · rename_i hplain
    unfold readField
    split
    · simp [isSpecial] at hplain
    · rfl

/-- A record with a field has these fields and no others. -/
theorem readRecord_record {fs : List (List Char)} (h : fs ≠ []) : readRecord (record fs) = fs := by
  have hfield : ∀ f, Whole ',' (field f) := Whole.field (by decide) (by decide)
  fun_induction record fs with
  | case1 => contradiction
  | case2 f => rw [readRecord, (hfield f).splitOutside_eq, List.map_singleton, readField_field]
  | case3 f rest hrest ih =>
    have hne : rest ≠ [] := by simpa using hrest
    rw [readRecord, (hfield f).splitOutside_append, List.map_cons, readField_field]
    exact congrArg _ (ih hne)

/-- No line feed of a record is outside quotes. -/
theorem Whole.record (fs : List (List Char)) : Whole '\n' (record fs) := by
  have hfield : ∀ f, Whole '\n' (Csv.field f) := Whole.field (by decide) (by decide)
  fun_induction Csv.record fs with
  | case1 => exact .nil
  | case2 f => exact hfield f
  | case3 f rest _ ih => exact (hfield f).append (.append (.singleton (by decide) (by decide)) ih)

/-- Records are read as they were written. One without fields would be read as one with an empty
field. -/
theorem read_records {rs : List (List (List Char))} (h : ∀ r ∈ rs, r ≠ []) :
    read (records rs) = rs := by
  induction rs with
  | nil => rfl
  | cons r rs ih =>
    have hcons : records (r :: rs) = record r ++ '\n' :: records rs := by simp [records]
    rw [hcons, read, (Whole.record r).splitOutside_append,
      List.dropLast_cons_of_ne_nil (splitOutside_ne_nil _ _ _), List.map_cons,
      readRecord_record (h r (.head rs))]
    exact congrArg _ (ih fun r' hr' => h r' (.tail r hr'))

example : read "1,\"a,\"\"b\"\n\"\n\",\n".toList =
    [["1".toList, "a,\"b".toList], ["\n".toList, []]] := by decide

theorem ofText_text {rs : List (List String)} (h : ∀ r ∈ rs, r ≠ []) : ofText (text rs) = rs := by
  have hne : ∀ r ∈ rs.map (fun r => r.map String.toList), r ≠ [] := by simpa using h
  rw [ofText, text, String.toList_ofList, read_records hne, List.map_map]
  simp [Function.comp_def]

/-- Without a character that needs quotes fields are only put together. -/
theorem record_eq_intercalate {fs : List (List Char)} (h : ∀ f ∈ fs, f.any isSpecial = false) :
    record fs = [','].intercalate fs := by
  fun_induction record fs with
  | case1 => rfl
  | case2 f => simp [field, h f (.head _)]
  | case3 f rest hrest ih =>
    obtain ⟨g, rest, rfl⟩ := List.exists_cons_of_ne_nil (l := rest) (by simpa using hrest)
    rw [ih fun f' hf' => h f' (.tail f hf'), List.intercalate_cons_cons, field, h f (.head _)]
    simp

end Csv

open Tabular

/-- A kind of rows with columns of distinct keys that need no quotes, in which a row is made up by
its texts. -/
class LawfulTabular (α : Type) [Tabular α] : Prop where
  keys_ne_nil : keys α ≠ [] := by simp [keys]
  keys_nodup : (keys α).Nodup := by decide
  keys_plain : ∀ k ∈ keys α, k.toList.any Csv.isSpecial = false := by decide
  length_cells : ∀ row : α, (cells row).length = (keys α).length := by exact fun _ => rfl
  cells_injective : ∀ row row' : α, cells row = cells row' → row = row'

instance : LawfulTabular NodeRow where
  cells_injective row row' h := by
    cases row
    cases row'
    simpa [cells] using h

instance : LawfulTabular EntryRow where
  cells_injective row row' h := by
    cases row
    cases row'
    simpa [cells] using h

instance : LawfulTabular ValueRow where
  cells_injective row row' h := by
    cases row
    cases row'
    simpa [cells] using h

instance : LawfulTabular NodeValueRow where
  cells_injective row row' h := by
    cases row
    cases row'
    simpa [cells] using h

instance : LawfulTabular NodeResultRow where
  cells_injective row row' h := by
    cases row
    cases row'
    simpa [cells] using h

instance : LawfulTabular EventRow where
  cells_injective row row' h := by
    cases row
    cases row'
    simpa [cells] using h

namespace Tabular

variable {α : Type} [Tabular α]

theorem out_rows_csv (t : Transcript) {style : Style} (h : style.format = .csv) (rows : List α) :
    (t.rows style rows).out = t.out ++ Text.Utf8.encode (csv rows) := by
  simp [Transcript.rows, h, Transcript.print, Transcript.write]

variable [LawfulTabular α]

theorem map_fst_members (row : α) : (members row).map Prod.fst = keys α :=
  List.map_fst_zip (Nat.le_of_eq (LawfulTabular.length_cells row).symm)

theorem map_fst_sorted (row : α) : (sorted row).map Prod.fst = sortedKeys α := by
  rw [sortedKeys, ← map_fst_members row]
  exact List.map_mergeSort fun _ _ _ _ => rfl

/-- The texts of a row in CSV stand below their keys. -/
theorem zip_record (row : α) : (sortedKeys α).zip (record row) = sorted row :=
  (List.zip_of_prod (map_fst_sorted row) rfl).symm

theorem zip_record_perm (row : α) : ((sortedKeys α).zip (record row)).Perm (members row) := by
  rw [zip_record]
  exact List.mergeSort_perm _ _

theorem sortedKeys_ne_nil : sortedKeys α ≠ [] := by
  intro hnil
  have hperm : (sortedKeys α).Perm (keys α) := List.mergeSort_perm _ _
  exact LawfulTabular.keys_ne_nil (hnil ▸ hperm).nil_eq.symm

theorem record_ne_nil (row : α) : record row ≠ [] := by
  intro hnil
  have hkeys := map_fst_sorted row
  rw [List.map_eq_nil_iff.mp hnil] at hkeys
  exact sortedKeys_ne_nil hkeys.symm

/-- Distinct keys say which text is whose, in whatever order the pairs come. -/
theorem zip_injective_of_perm {ks vs vs' : List String} (hks : ks.Nodup)
    (hlen : vs.length = ks.length) (hlen' : vs'.length = ks.length)
    (h : (ks.zip vs).Perm (ks.zip vs')) : vs = vs' := by
  induction ks generalizing vs vs' with
  | nil => rw [List.length_eq_zero_iff.mp hlen, List.length_eq_zero_iff.mp hlen']
  | cons k ks ih =>
    obtain ⟨hk, hks⟩ := List.nodup_cons.mp hks
    obtain ⟨v, vs, rfl⟩ := List.exists_cons_of_length_eq_add_one hlen
    obtain ⟨v', vs', rfl⟩ := List.exists_cons_of_length_eq_add_one hlen'
    rw [List.zip_cons_cons, List.zip_cons_cons] at h
    have hv : v = v' := by
      have hmem : (k, v) ∈ (k, v') :: ks.zip vs' := h.subset (.head _)
      rcases List.mem_cons.mp hmem with heq | hzip
      · exact congrArg Prod.snd heq
      · exact absurd (List.of_mem_zip hzip).1 hk
    subst hv
    rw [ih hks (by simpa using hlen) (by simpa using hlen') ((List.perm_cons _).mp h)]

theorem record_injective {row row' : α} (h : record row = record row') : row = row' := by
  have hperm : (members row).Perm (members row') :=
    (zip_record_perm row).symm.trans (h ▸ zip_record_perm row')
  exact LawfulTabular.cells_injective row row' (zip_injective_of_perm LawfulTabular.keys_nodup
    (LawfulTabular.length_cells row) (LawfulTabular.length_cells row') hperm)

/-- The keys in front are put together without quotes. -/
theorem record_sortedKeys :
    Csv.record ((sortedKeys α).map String.toList) =
      [','].intercalate ((sortedKeys α).map String.toList) := by
  apply Csv.record_eq_intercalate
  intro f hf
  obtain ⟨k, hk, rfl⟩ := List.mem_map.mp hf
  exact LawfulTabular.keys_plain k ((List.mergeSort_perm _ _).mem_iff.mp hk)

theorem ofText_csv (rows : List α) :
    Csv.ofText (csv rows) = if rows.isEmpty then [] else sortedKeys α :: rows.map record := by
  unfold csv
  split
  · rfl
  · apply Csv.ofText_text
    intro r hr
    rcases List.mem_cons.mp hr with rfl | hr
    · exact sortedKeys_ne_nil
    · obtain ⟨row, -, rfl⟩ := List.mem_map.mp hr
      exact record_ne_nil row

theorem csv_injective {rows rows' : List α} (h : csv rows = csv rows') : rows = rows' := by
  have hread := congrArg Csv.ofText h
  rw [ofText_csv, ofText_csv] at hread
  cases rows with
  | nil =>
    -- Of rows at least the keys are read, of no rows nothing.
    cases rows' with
    | nil => rfl
    | cons => simp at hread
  | cons row rows =>
    cases rows' with
    | nil => simp at hread
    | cons row' rows' =>
      simp only [List.isEmpty_cons, Bool.false_eq_true, if_false] at hread
      have hrecord : Function.Injective (record : α → List String) := fun _ _ => record_injective
      exact List.map_injective_iff.mpr hrecord (List.cons.inj hread).2

end Tabular

/-- Rows of a kind are told by what is printed of them as CSV. -/
structure ToldByCsv (α : Type) [Tabular α] : Prop where
  /-- The reader gets the keys and the texts of every row, or nothing of no rows. -/
  read : ∀ rows : List α,
    Csv.ofText (csv rows) = if rows.isEmpty then [] else sortedKeys α :: rows.map record
  /-- The keys stand in front as they are, without quotes. -/
  header : Csv.record ((sortedKeys α).map String.toList) =
    [','].intercalate ((sortedKeys α).map String.toList)
  /-- A record has each text of the row, below its key. -/
  columns : ∀ row : α, ((sortedKeys α).zip (record row)).Perm (members row)
  /-- Rows with the same text are the same. -/
  text : ∀ rows rows' : List α, csv rows = csv rows' → rows = rows'
  /-- Rows are the same if the same is printed of them. -/
  printed : ∀ (t : Transcript) (style : Style) (rows rows' : List α), style.format = .csv →
    (t.rows style rows).out = (t.rows style rows').out → rows = rows'

theorem ToldByCsv.of_lawful (α : Type) [Tabular α] [LawfulTabular α] : ToldByCsv α where
  read := ofText_csv
  header := record_sortedKeys
  columns := zip_record_perm
  text _ _ := csv_injective
  printed t style rows rows' hstyle h := by
    rw [out_rows_csv t hstyle, out_rows_csv t hstyle] at h
    have hbytes := congrArg Text.Utf8.decode (List.append_cancel_left h)
    rw [Text.Utf8.decode_encode, Text.Utf8.decode_encode] at hbytes
    exact csv_injective (Except.ok.inj hbytes)

/-- All that is printed in rows can be read back from CSV, whatever commas, quotes and line feeds
the texts have. -/
theorem toldByCsv :
    ToldByCsv NodeRow ∧ ToldByCsv EntryRow ∧ ToldByCsv ValueRow ∧ ToldByCsv NodeValueRow ∧
      ToldByCsv NodeResultRow ∧ ToldByCsv EventRow :=
  ⟨.of_lawful _, .of_lawful _, .of_lawful _, .of_lawful _, .of_lawful _, .of_lawful _⟩

end Canopen.Cli
