/-!
# Sorted maps

Finite maps as lists of pairs in rising order of their keys.
-/
namespace Canopen

variable {κ α β : Type}

/-- Holds of pairs whose keys rise. -/
def Rising [LT κ] (pairs : List (κ × α)) : Prop := pairs.Pairwise fun p q => p.1 < q.1

/-- A pair of another key is passed over. -/
theorem lookup_cons_ne [BEq κ] [LawfulBEq κ] {k other : κ} (h : k ≠ other) (a : α)
    (l : List (κ × α)) : ((other, a) :: l).lookup k = l.lookup k := by
  have hbeq : (k == other) = false := beq_eq_false_iff_ne.mpr h
  rw [List.lookup_cons, hbeq]

/-- A map from keys that have an order. -/
structure SortedMap (κ α : Type) [LT κ] where
  toList : List (κ × α)
  rising : Rising toList
  deriving DecidableEq, Repr

abbrev NodeMap (α : Type) := SortedMap UInt8 α

namespace SortedMap

section Order

variable [LT κ]

def empty : SortedMap κ α := ⟨[], .nil⟩

instance : Inhabited (SortedMap κ α) := ⟨empty⟩

/-- The keys, in rising order. -/
def keys (m : SortedMap κ α) : List κ := m.toList.map Prod.fst

/-- What is under the keys, in rising order of these. -/
def values (m : SortedMap κ α) : List α := m.toList.map Prod.snd

def filterKeys (m : SortedMap κ α) (keep : κ → Bool) : SortedMap κ α :=
  ⟨m.toList.filter fun p => keep p.1, m.rising.filter _⟩

theorem rising_map (f : κ → α → β) {l : List (κ × α)} (h : Rising l) :
    Rising (l.map fun p => (p.1, f p.1 p.2)) := List.pairwise_map.2 h

/-- Changes what is under each key, which is at hand too. -/
def mapWithKey (f : κ → α → β) (m : SortedMap κ α) : SortedMap κ β :=
  ⟨m.toList.map fun p => (p.1, f p.1 p.2), rising_map f m.rising⟩

variable [DecidableEq κ]

def get? (m : SortedMap κ α) (k : κ) : Option α := m.toList.lookup k

def contains (m : SortedMap κ α) (k : κ) : Bool := (m.get? k).isSome

theorem get?_eq_none {m : SortedMap κ α} {k : κ} (h : ¬m.contains k) : m.get? k = none := by
  simpa [contains] using h

def erase (m : SortedMap κ α) (k : κ) : SortedMap κ α := m.filterKeys fun n => n != k

/-- Changes what is under a key, if the map has it. -/
def modify (m : SortedMap κ α) (k : κ) (f : α → α) : SortedMap κ α :=
  m.mapWithKey fun n a => if n = k then f a else a

theorem get?_mapWithKey (f : κ → α → β) (m : SortedMap κ α) (k : κ) :
    (m.mapWithKey f).get? k = (m.get? k).map (f k) := by
  obtain ⟨l, hl⟩ := m
  simp only [get?, mapWithKey]
  clear hl
  induction l with
  | nil => rfl
  | cons p rest ih =>
    obtain ⟨n, a⟩ := p
    by_cases hn : k = n
    · subst hn
      simp
    · rw [List.map_cons, lookup_cons_ne hn, lookup_cons_ne hn, ih]

theorem get?_modify (m : SortedMap κ α) (k other : κ) (f : α → α) :
    (m.modify k f).get? other = if other = k then (m.get? other).map f else m.get? other := by
  rw [modify, get?_mapWithKey]
  split <;> cases m.get? other <;> rfl

@[simp] theorem get?_modify_self (m : SortedMap κ α) (k : κ) (f : α → α) :
    (m.modify k f).get? k = (m.get? k).map f := by
  rw [get?_modify, if_pos rfl]

theorem get?_modify_ne {k other : κ} (h : other ≠ k) (m : SortedMap κ α) (f : α → α) :
    (m.modify k f).get? other = m.get? other := by
  rw [get?_modify, if_neg h]

variable [DecidableLT κ]

/-- What is under the keys from a first to a last one. -/
def range (m : SortedMap κ α) (first last : κ) : List α :=
  ((m.toList.dropWhile fun p => p.1 < first).takeWhile fun p => !decide (last < p.1)).map Prod.snd

/-- Puts a pair in its place. A pair that is there under its key is dropped. -/
def insertInto (k : κ) (a : α) : List (κ × α) → List (κ × α)
  | [] => [(k, a)]
  | (n, b) :: rest =>
    if k < n then (k, a) :: (n, b) :: rest
    else if k = n then (k, a) :: rest
    else (n, b) :: insertInto k a rest

theorem mem_insertInto {k : κ} {a : α} {p : κ × α} {l : List (κ × α)}
    (h : p ∈ insertInto k a l) : p = (k, a) ∨ p ∈ l := by
  induction l with
  | nil => exact .inl (List.mem_singleton.1 h)
  | cons q rest ih =>
    unfold insertInto at h
    split at h
    · exact List.mem_cons.1 h
    · split at h
      · exact (List.mem_cons.1 h).imp_right (List.mem_cons_of_mem q)
      · rcases List.mem_cons.1 h with rfl | h
        · exact .inr (List.mem_cons_self ..)
        · exact (ih h).imp_right (List.mem_cons_of_mem q)

theorem lookup_insertInto_self (k : κ) (a : α) (l : List (κ × α)) :
    (insertInto k a l).lookup k = some a := by
  induction l with
  | nil => simp [insertInto]
  | cons p rest ih =>
    obtain ⟨n, b⟩ := p
    unfold insertInto
    split
    · simp
    · split
      · simp
      · next h => rw [lookup_cons_ne h, ih]

theorem lookup_insertInto_ne {k other : κ} (h : other ≠ k) (a : α) (l : List (κ × α)) :
    (insertInto k a l).lookup other = l.lookup other := by
  induction l with
  | nil => exact lookup_cons_ne h a []
  | cons p rest ih =>
    obtain ⟨n, b⟩ := p
    unfold insertInto
    split
    · exact lookup_cons_ne h a _
    · split
      · next same => rw [lookup_cons_ne h, ← same, lookup_cons_ne h]
      · rw [List.lookup_cons, List.lookup_cons, ih]

end Order

section Lookup

variable [LE κ] [LT κ] [Std.LawfulOrderLT κ] [DecidableEq κ]

theorem lookup_eq_some_iff_mem {l : List (κ × α)} (hl : Rising l) {k : κ} {a : α} :
    l.lookup k = some a ↔ (k, a) ∈ l := by
  induction l with
  | nil => simp
  | cons p rest ih =>
    obtain ⟨n, b⟩ := p
    have ⟨first, others⟩ := List.pairwise_cons.mp hl
    by_cases hn : k = n
    · subst hn
      -- the key at the front does not come again
      have hnot : (k, a) ∉ rest := fun h =>
        have hless : k < k := first (k, a) h
        Std.lt_irrefl hless
      simp [hnot, eq_comm]
    · rw [lookup_cons_ne hn, ih others]
      simp [hn]

theorem mem_toList {m : SortedMap κ α} {k : κ} {a : α} :
    (k, a) ∈ m.toList ↔ m.get? k = some a := (lookup_eq_some_iff_mem m.rising).symm

end Lookup

section Linear

variable [LE κ] [LT κ] [Std.IsLinearOrder κ] [Std.LawfulOrderLT κ] [DecidableLT κ]

/-- Between two keys lies what is under the keys that are neither below the first nor above the last. -/
theorem range_eq_filter (m : SortedMap κ α) (first last : κ) :
    m.range first last =
      (m.toList.filter fun p => !decide (p.1 < first) && !decide (last < p.1)).map Prod.snd := by
  have hdrop {l : List (κ × α)} (hl : Rising l) :
      (l.dropWhile fun p => p.1 < first) = l.filter fun p => !decide (p.1 < first) := by
    induction l with
    | nil => rfl
    | cons p rest ih =>
      have ⟨above, others⟩ := List.pairwise_cons.mp hl
      by_cases hp : p.1 < first
      · simp [hp, ih others]
      · have hall : ∀ q ∈ rest, ¬q.1 < first := fun q hq less => hp (Std.lt_trans (above q hq) less)
        simpa [hp] using (List.filter_eq_self.mpr fun q hq => by simp [hall q hq]).symm
  have htake {l : List (κ × α)} (hl : Rising l) :
      (l.takeWhile fun p => !decide (last < p.1)) = l.filter fun p => !decide (last < p.1) := by
    induction l with
    | nil => rfl
    | cons p rest ih =>
      have ⟨above, others⟩ := List.pairwise_cons.mp hl
      by_cases hp : last < p.1
      · have hall : ∀ q ∈ rest, last < q.1 := fun q hq => Std.lt_trans hp (above q hq)
        simpa [hp] using hall
      · simp [hp, ih others]
  rw [range, hdrop m.rising, htake (m.rising.filter _), List.filter_filter]
  simp only [Bool.and_comm]

variable [DecidableEq κ]

theorem rising_insertInto (k : κ) (a : α) {l : List (κ × α)} (h : Rising l) :
    Rising (insertInto k a l) := by
  induction l with
  | nil => exact List.pairwise_singleton ..
  | cons q rest ih =>
    have ⟨first, others⟩ := List.pairwise_cons.1 h
    unfold insertInto
    split
    · next less =>
      refine List.pairwise_cons.2 ⟨fun p hp => ?_, h⟩
      rcases List.mem_cons.1 hp with rfl | hp
      · exact less
      · exact Std.lt_trans less (first p hp)
    · next notLess =>
      split
      · next same => exact List.pairwise_cons.2 ⟨same ▸ first, others⟩
      · next other =>
        refine List.pairwise_cons.2 ⟨fun p hp => ?_, ih others⟩
        rcases mem_insertInto hp with rfl | hp
        · exact Std.lt_of_le_of_ne (Std.not_lt.1 notLess) (Ne.symm other)
        · exact first p hp

def insert (m : SortedMap κ α) (k : κ) (a : α) : SortedMap κ α :=
  ⟨insertInto k a m.toList, rising_insertInto k a m.rising⟩

@[simp] theorem get?_insert_self (m : SortedMap κ α) (k : κ) (a : α) :
    (m.insert k a).get? k = some a := lookup_insertInto_self k a m.toList

theorem get?_insert_ne {k other : κ} (h : other ≠ k) (m : SortedMap κ α) (a : α) :
    (m.insert k a).get? other = m.get? other := lookup_insertInto_ne h a m.toList

theorem get?_insert (m : SortedMap κ α) (k other : κ) (a : α) :
    (m.insert k a).get? other = if other = k then some a else m.get? other := by
  split
  · rename_i h
    subst h
    exact get?_insert_self m other a
  · rename_i h
    exact get?_insert_ne h m a

end Linear

@[simp] theorem get?_empty [LT κ] [DecidableLT κ] [DecidableEq κ] (k : κ) :
    (empty : SortedMap κ α).get? k = none := rfl

end SortedMap

end Canopen
