import Mathlib.Data.List.Sort
import Canopen.SortedMap
/-!
# Sorted maps are what they give

A sorted map holds each key once and in rising order, so it is known by what it gives for each key
(`SortedMap.ext_get?`). What the operations on maps do is said by what is given afterwards.
-/
namespace Canopen.SortedMap

variable {κ α : Type} [LE κ] [LT κ] [Std.LawfulOrderLT κ] [DecidableEq κ]

theorem mem_keys {m : SortedMap κ α} {k : κ} : k ∈ m.keys ↔ m.contains k := by
  simp only [keys, contains, List.mem_map, Option.isSome_iff_exists]
  constructor
  · rintro ⟨⟨n, a⟩, hmem, rfl⟩
    exact ⟨a, mem_toList.mp hmem⟩
  · rintro ⟨a, ha⟩
    exact ⟨(k, a), mem_toList.mpr ha, rfl⟩

omit [DecidableEq κ] in
theorem nodup_keys (m : SortedMap κ α) : m.keys.Nodup :=
  List.pairwise_map.mpr (m.rising.imp fun h => Std.ne_of_lt h)

theorem get?_filterKeys (m : SortedMap κ α) (keep : κ → Bool) (k : κ) :
    (m.filterKeys keep).get? k = if keep k then m.get? k else none := by
  refine Option.ext fun a => ?_
  rw [← mem_toList, filterKeys, List.mem_filter, mem_toList]
  cases keep k <;> simp

variable [Std.IsLinearOrder κ]

theorem ext_get? {m m' : SortedMap κ α} (h : ∀ k, m.get? k = m'.get? k) : m = m' := by
  have : Std.Antisymm fun p q : κ × α => p.1 < q.1 :=
    ⟨fun _ _ hpq hqp => absurd hqp (Std.not_lt.mpr (Std.le_of_lt hpq))⟩
  have : Std.Irrefl fun p q : κ × α => p.1 < q.1 := ⟨fun _ => Std.lt_irrefl⟩
  have hlist : m.toList = m'.toList := by
    refine m.rising.eq_of_mem_iff m'.rising fun p => ?_
    rw [mem_toList, mem_toList, h]
  cases m
  cases m'
  simpa using hlist

/-- Changes can be made in either order where they are under different keys or commute. -/
theorem modify_comm {a b : κ} {f g : α → α} (h : a = b → ∀ x, f (g x) = g (f x))
    (m : SortedMap κ α) : (m.modify a f).modify b g = (m.modify b g).modify a f := by
  refine ext_get? fun k => ?_
  simp only [get?_modify]
  by_cases ha : k = a
  · by_cases hb : k = b
    · have hfg := h (ha.symm.trans hb)
      simp only [if_pos ha, if_pos hb, Option.map_map]
      exact congrArg (Option.map · (m.get? k)) (funext fun x => (hfg x).symm)
    · simp only [if_pos ha, if_neg hb]
  · simp only [if_neg ha]

variable [DecidableLT κ]

/-- To put something in the place of what is under a key is to change what is there. -/
theorem insert_eq_modify {m : SortedMap κ α} {k : κ} {a : α} (h : m.get? k = some a) (f : α → α) :
    m.insert k (f a) = m.modify k f := by
  refine ext_get? fun other => ?_
  rw [get?_insert, get?_modify]
  by_cases ho : other = k
  · rw [if_pos ho, if_pos ho, ho, h, Option.map_some]
  · rw [if_neg ho, if_neg ho]

end Canopen.SortedMap
