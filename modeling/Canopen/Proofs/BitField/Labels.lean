import Canopen.BitField
/-!
# Labels in order

The labels of a bit field are kept by rising values, each value once (`Labels.rising_ofPairs`), and are
not changed by being put in order again (`Labels.ofPairs_of_rising`). The labels of every field that can
be made are so (`BitField.Made.rising`).
-/
namespace Canopen

namespace Labels

variable {labels : Labels} {value : BitVec 64} {label : String}

/-- Holds of labels whose values rise. -/
def Rising (labels : Labels) : Prop := labels.Pairwise fun p q => p.1.toNat < q.1.toNat

theorem mem_insert {p : BitVec 64 × String} (h : p ∈ insert value label labels) :
    p = (value, label) ∨ p ∈ labels := by
  induction labels with
  | nil => exact .inl (List.mem_singleton.mp h)
  | cons q rest ih =>
    rw [insert] at h
    split at h
    · exact List.mem_cons.mp h
    · split at h
      · exact (List.mem_cons.mp h).imp_right (List.mem_cons_of_mem q)
      · rcases List.mem_cons.mp h with rfl | h
        · exact .inr (.head rest)
        · exact (ih h).imp_right (List.mem_cons_of_mem q)

theorem rising_insert (h : Rising labels) (value : BitVec 64) (label : String) :
    Rising (insert value label labels) := by
  induction labels with
  | nil => exact List.pairwise_singleton ..
  | cons q rest ih =>
    obtain ⟨first, others⟩ := List.pairwise_cons.mp h
    rw [insert]
    split
    · rename_i hless
      refine List.pairwise_cons.mpr ⟨fun p hp => ?_, h⟩
      rcases List.mem_cons.mp hp with rfl | hp
      · exact hless
      · exact Nat.lt_trans hless (first p hp)
    · rename_i hnotLess
      split
      · rename_i hsame
        subst hsame
        exact List.pairwise_cons.mpr ⟨first, others⟩
      · rename_i hother
        refine List.pairwise_cons.mpr ⟨fun p hp => ?_, ih others⟩
        rcases mem_insert hp with rfl | hp
        · have hne : value.toNat ≠ q.1.toNat := fun hsame => hother (BitVec.eq_of_toNat_eq hsame)
          dsimp only
          omega
        · exact first p hp

theorem rising_ofPairs (pairs : List (BitVec 64 × String)) : Rising (ofPairs pairs) := by
  have hfold (labels : Labels) (h : Rising labels) :
      Rising (pairs.foldl (fun labels (p : BitVec 64 × String) => insert p.1 p.2 labels) labels) := by
    induction pairs generalizing labels with
    | nil => exact h
    | cons p rest ih => exact ih _ (rising_insert h p.1 p.2)
  exact hfold [] .nil

/-- The label of a value above all others comes last. -/
theorem insert_of_forall_lt (h : ∀ p ∈ labels, p.1.toNat < value.toNat) :
    insert value label labels = labels ++ [(value, label)] := by
  induction labels with
  | nil => rfl
  | cons q rest ih =>
    obtain ⟨hq, hrest⟩ := List.forall_mem_cons.mp h
    have hne : value ≠ q.1 := by
      rintro rfl
      omega
    rw [insert, if_neg (by omega), if_neg hne, ih hrest, List.cons_append]

/-- Labels that are in order are kept as they are. -/
theorem ofPairs_of_rising (h : Rising labels) : ofPairs labels = labels := by
  have hfold (before after : Labels) (h : Rising (before ++ after)) :
      after.foldl (fun labels (p : BitVec 64 × String) => insert p.1 p.2 labels) before =
        before ++ after := by
    induction after generalizing before with
    | nil => simp
    | cons p rest ih =>
      obtain ⟨-, -, hless⟩ := List.pairwise_append.mp h
      rw [List.foldl_cons, insert_of_forall_lt fun q hq => hless q hq p (.head rest), ih]
      · simp
      · simpa using h
  exact hfold [] labels h

end Labels

namespace BitField

/-- Holds of the bit fields that can be made: those without labels or with the labels of a record, and
those whose labels have been set since. -/
inductive Made : BitField → Prop where
  | made {name : String} {offset width : Nat} {pairs : Option (List (BitVec 64 × String))}
      {f : BitField} (h : make name offset width (pairs.map Labels.ofPairs) = .ok f) : Made f
  | relabelled {f : BitField} (pairs : List (BitVec 64 × String)) (h : Made f) :
      Made (f.withLabels pairs)

theorem eq_of_make {name : String} {offset width : Nat} {labels : Option Labels} {f : BitField}
    (h : make name offset width labels = .ok f) :
    f.name = name ∧ f.offset = offset ∧ f.width = width ∧ f.labels = labels := by
  unfold make at h
  split at h
  · contradiction
  · split at h <;> cases h
    exact ⟨rfl, rfl, rfl, rfl⟩

/-- The labels of a field are kept in order. -/
theorem Made.rising {f : BitField} (h : f.Made) : ∀ labels, f.labels = some labels → labels.Rising := by
  rintro labels hlabels
  cases h with
  | @made _ _ _ pairs _ h =>
    rw [(eq_of_make h).2.2.2] at hlabels
    obtain ⟨list, -, rfl⟩ := Option.map_eq_some_iff.mp hlabels
    exact Labels.rising_ofPairs list
  | relabelled pairs _ =>
    cases hlabels
    exact Labels.rising_ofPairs pairs

end BitField

end Canopen
