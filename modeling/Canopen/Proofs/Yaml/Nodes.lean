import Canopen.Proofs.Definition.Carrying
import Canopen.Yaml.Writer
/-!
# What the nodes of a document show

A node shows a tree if its scalars are the texts and numbers of the tree, without tags and anchors, and
its sequences and mappings are those of the tree. Reading a document whose nodes show a tree gives the
parts of the tree (`Yaml.carries_place`).
-/
namespace Canopen.Yaml

open Document Number Text

section Numbers

variable {n : Nat}

/-- A number is read from its digits. -/
theorem natural?_toString {limit : Nat} (h : n < limit) : natural? limit (toString n) = some n := by
  obtain ⟨c, rest, hdigits, ⟨d, hd⟩, hzero⟩ := exists_toDigits_eq_cons n
  have hsign : c ≠ '+' ∧ c ≠ '-' := by
    constructor <;> rintro rfl <;> contradiction
  have hplus : dropPlus (c :: rest) = c :: rest := by simp [dropPlus, hsign.1]
  have hbased : readBased? limit (c :: rest) = none := by
    by_cases hc : c = '0'
    · rw [hc, hzero hc]
      rfl
    · unfold readBased?
      split <;> simp_all
  have hpadded : isPaddedDigits (c :: rest) = false := by
    have hdrop : dropSign (c :: rest) = c :: rest := by simp [dropSign, hsign.1, hsign.2]
    unfold isPaddedDigits
    rw [hdrop]
    split
    · rename_i heq
      cases heq
      cases hzero rfl
    · rfl
  have hread : readDigits? 10 (c :: rest) = some n := by
    rw [readDigits?, ← hdigits, digitsValue?_toDigits_ten]
    simp
  rw [natural?, toList_toString, hdigits]
  simp only [hplus, hbased, hpadded, hread]
  simpa using h

theorem toString_ne {s : String} (h : (s.toList.head?.bind (digitValue? 10)).isNone) :
    toString n ≠ s := by
  rintro rfl
  obtain ⟨c, rest, hdigits, ⟨d, hd⟩, -⟩ := exists_toDigits_eq_cons n
  rw [toList_toString, hdigits] at h
  simp [hd] at h

theorem isNull_toString (n : Nat) : (toString n = "" || isNull (toString n)) = false := by
  have h : ∀ s ∈ ["", "null", "Null", "NULL", "~"], toString n ≠ s := by
    intro s hs
    exact toString_ne (by revert s; decide)
  simp only [List.forall_mem_cons] at h
  simp only [isNull, h, decide_false, Bool.or_self]

theorem truth?_toString (n : Nat) : truth? (toString n) = none := by
  have h : ∀ s ∈ ["true", "True", "TRUE", "false", "False", "FALSE"], toString n ≠ s := by
    intro s hs
    exact toString_ne (by revert s; decide)
  simp only [List.forall_mem_cons] at h
  simp only [truth?, h, decide_false, Bool.or_self, Bool.false_eq_true, if_false]

/-- Digits stand for a number. -/
theorem ofText_toString (h : n < 2 ^ 64) : Plain.ofText (toString n) = .integer := by
  have hinteger : isInteger (toString n) = true := by
    rw [isInteger, natural?_toString (Nat.lt_trans h (by decide))]
    rfl
  simp only [Plain.ofText, isNull_toString, truth?_toString, hinteger, Bool.false_eq_true,
    Option.isSome_none, if_false, if_true]

end Numbers

/-- Holds of a node that shows a tree. A plain scalar is not a text that stands for something else. -/
inductive Node.Shows : Node → Data → Prop where
  | natural (n : Nat) : Shows (.scalar none none .plain (toString n)) (.natural n)
  | text (style : ScalarStyle) (s : String) (h : style = .plain → Plain.ofText s = .text) :
    Shows (.scalar none none style s) (.text s)
  | items {nodes : List Node} {ts : List Data} (h : List.Forall₂ Shows nodes ts) :
    Shows (.sequence none none nodes) (.items ts)
  | record {pairs : List (Node × Node)} {ts : List (String × Data)}
    (hkeys : pairs.map Prod.fst = ts.map fun t => .scalar none none .plain t.1)
    (h : List.Forall₂ (fun p t => Shows p.2 t.2) pairs ts) :
    Shows (.mapping none none pairs) (.record ts)
  | numbered {pairs : List (Node × Node)} {ts : List (Nat × Data)}
    (hkeys : pairs.map Prod.fst = ts.map fun t => .scalar none none .plain (toString t.1))
    (h : List.Forall₂ (fun p t => Shows p.2 t.2) pairs ts) :
    Shows (.mapping none none pairs) (.numbered ts)

mutual

/-- The node of a tree, with its texts in the styles that they are written in. -/
def Node.ofData : Data → Node
  | .natural n => .scalar none none .plain (toString n)
  | .text s => .scalar none none (chosenStyle s) s
  | .items items => .sequence none none (nodesOfItems items)
  | .record parts => .mapping none none (pairsOfParts parts)
  | .numbered parts => .mapping none none (pairsOfNumbered parts)

def nodesOfItems : List Data → List Node
  | [] => []
  | t :: rest => .ofData t :: nodesOfItems rest

def pairsOfParts : List (String × Data) → List (Node × Node)
  | [] => []
  | (name, t) :: rest => (.scalar none none .plain name, .ofData t) :: pairsOfParts rest

def pairsOfNumbered : List (Nat × Data) → List (Node × Node)
  | [] => []
  | (n, t) :: rest => (.scalar none none .plain (toString n), .ofData t) :: pairsOfNumbered rest

end

/-- A text is written plain only if it is not read as something else. -/
theorem ofText_of_chosenStyle {s : String} (h : chosenStyle s = .plain) : Plain.ofText s = .text := by
  unfold chosenStyle wantedStyle at h
  grind

theorem keys_pairsOfParts (parts : List (String × Data)) :
    (pairsOfParts parts).map Prod.fst = parts.map fun t => .scalar none none .plain t.1 := by
  induction parts with
  | nil => rfl
  | cons t rest ih => rw [pairsOfParts, List.map_cons, List.map_cons, ih]

theorem keys_pairsOfNumbered (parts : List (Nat × Data)) : (pairsOfNumbered parts).map Prod.fst =
    parts.map fun t => .scalar none none .plain (toString t.1) := by
  induction parts with
  | nil => rfl
  | cons t rest ih => rw [pairsOfNumbered, List.map_cons, List.map_cons, ih]

mutual

theorem shows_ofData : ∀ t : Data, (Node.ofData t).Shows t
  | .natural n => .natural n
  | .text s => .text _ s ofText_of_chosenStyle
  | .items items => .items (shows_nodesOfItems items)
  | .record parts => .record (keys_pairsOfParts parts) (shows_pairsOfParts parts)
  | .numbered parts => .numbered (keys_pairsOfNumbered parts) (shows_pairsOfNumbered parts)

theorem shows_nodesOfItems : ∀ items : List Data,
    List.Forall₂ Node.Shows (nodesOfItems items) items
  | [] => .nil
  | t :: rest => .cons (shows_ofData t) (shows_nodesOfItems rest)

theorem shows_pairsOfParts : ∀ parts : List (String × Data),
    List.Forall₂ (fun p t => p.2.Shows t.2) (pairsOfParts parts) parts
  | [] => .nil
  | (_, t) :: rest => .cons (shows_ofData t) (shows_pairsOfParts rest)

theorem shows_pairsOfNumbered : ∀ parts : List (Nat × Data),
    List.Forall₂ (fun p t => p.2.Shows t.2) (pairsOfNumbered parts) parts
  | [] => .nil
  | (_, t) :: rest => .cons (shows_ofData t) (shows_pairsOfNumbered rest)

end

theorem ofText_eq_null {s : String} (h : (s = "" || isNull s) = true) : Plain.ofText s = .null :=
  if_pos h

theorem Node.Shows.isAbsent?_eq {n : Node} {t : Data} (h : n.Shows t) : n.isAbsent? = some false := by
  cases h with
  | natural n => simp only [Node.isAbsent?, isNull_toString, ne_eq, not_true_eq_false, if_false]
  | text style s h =>
    by_cases hstyle : style = .plain
    · have hnull : (s = "" || isNull s) = false := by
        rw [← Bool.not_eq_true]
        intro hnull
        have hplain := h hstyle
        rw [ofText_eq_null hnull] at hplain
        contradiction
      simp only [Node.isAbsent?, hstyle, hnull, ne_eq, not_true_eq_false, if_false]
    · simp only [Node.isAbsent?, ne_eq, hstyle, not_false_eq_true, if_true]
  | items | record | numbered => rfl

theorem Node.Shows.ne_alias {n : Node} {t : Data} (h : n.Shows t) (number : Nat) :
    n ≠ .alias number := by
  cases h <;> exact fun h => nomatch h

namespace Place

variable {p : Place} {t : Data}

def Shows (p : Place) (t : Data) : Prop := p.node.Shows t

theorem follow_of_ne_alias (h : ∀ number, p.node ≠ .alias number) : p.follow = pure p.node := by
  unfold follow
  split
  · rename_i number hnumber
    exact absurd hnumber (h number)
  · rfl

/-- What is not an alias is read where it stands. -/
theorem get_of_ne_alias {α : Type} {read? : Node → Option α} {a : α}
    (h : ∀ number, p.node ≠ .alias number) (hread : read? p.node = some a) :
    p.get read? = pure a := by
  rw [get, follow_of_ne_alias h, pure_bind, hread]
  rfl

section Pairs

variable {κ : Type} {readKey? : Node → Option κ} {pairs : List (Node × Node)} {ts : List (κ × Data)}

/-- Pairs are read one by one, each with its key. -/
theorem exists_mapM_pairs (p : Place) (key : κ → String)
    (hkeys : pairs.map Prod.fst = ts.map fun t => .scalar none none .plain (key t.1))
    (hread : ∀ t ∈ ts, readKey? (.scalar none none .plain (key t.1)) = some t.1)
    (h : List.Forall₂ (fun p t => p.2.Shows t.2) pairs ts) :
    ∃ ds, (pairs.mapM fun (pair : Node × Node) => do
      return (← (p.goTo pair.1).get readKey?, p.goTo pair.2)) = (pure ds : Following _) ∧
        ShowsParts Shows ds ts := by
  induction h with
  | nil => exact ⟨[], rfl, .nil⟩
  | @cons pair t pairs ts hpair _ ih =>
    obtain ⟨hkey, hkeys⟩ := List.cons.inj hkeys
    obtain ⟨hfirst, hrest⟩ := List.forall_mem_cons.mp hread
    obtain ⟨ds, hds, hparts⟩ := ih hkeys hrest
    have hget : (p.goTo pair.1).get readKey? = (pure t.1 : Following κ) := by
      rw [hkey]
      exact get_of_ne_alias (fun _ h => nomatch h) hfirst
    refine ⟨(t.1, p.goTo pair.2) :: ds, ?_, .cons ⟨rfl, hpair⟩ hparts⟩
    rw [List.mapM_cons, hget, pure_bind, pure_bind, hds, pure_bind]

/-- The members of a mapping are read with their keys. -/
theorem exists_pairs (targets : Array Node) (key : κ → String)
    (hkeys : pairs.map Prod.fst = ts.map fun t => .scalar none none .plain (key t.1))
    (hread : ∀ t ∈ ts, readKey? (.scalar none none .plain (key t.1)) = some t.1)
    (h : List.Forall₂ (fun p t => p.2.Shows t.2) pairs ts) :
    ∃ ds, Place.pairs ⟨targets, .mapping none none pairs⟩ readKey? = pure ds ∧
      ShowsParts Shows ds ts := by
  have hget : Place.get ⟨targets, .mapping none none pairs⟩ Node.pairs? =
      (pure pairs : Following _) :=
    get_of_ne_alias (fun _ h => nomatch h) rfl
  rw [Place.pairs, hget, pure_bind]
  exact exists_mapM_pairs _ key hkeys hread h

end Pairs

end Place

/-- YAML carries what its nodes show. -/
theorem carries_place : Carries Following Place.Shows where
  text := by
    rintro ⟨targets, _⟩ s (h : Node.Shows _ _)
    refine Place.get_of_ne_alias h.ne_alias ?_
    cases h
    rfl
  choice := by
    rintro ⟨targets, _⟩ s (h : Node.Shows _ _)
    refine Place.get_of_ne_alias h.ne_alias ?_
    cases h
    rfl
  word := by
    rintro ⟨targets, _⟩ s (h : Node.Shows _ _)
    refine Place.get_of_ne_alias h.ne_alias ?_
    cases h with
    | text style s h =>
      by_cases hstyle : style = .plain
      · simp [Node.naturalOrText?, hstyle, h hstyle]
      · simp [Node.naturalOrText?, hstyle]
  natural := by
    rintro ⟨targets, _⟩ n hn (h : Node.Shows _ _)
    refine Place.get_of_ne_alias h.ne_alias ?_
    cases h
    exact natural?_toString hn
  number := by
    rintro ⟨targets, _⟩ n hn (h : Node.Shows _ _)
    refine Place.get_of_ne_alias h.ne_alias ?_
    cases h
    dsimp only [Node.naturalOrText?]
    rw [ofText_toString hn, natural?_toString hn]
    simp
  present := by
    rintro ⟨targets, node⟩ t (h : Node.Shows _ _)
    refine ⟨⟨targets, node⟩, ?_, h⟩
    change Place.optional _ = _
    rw [Place.optional, Place.follow_of_ne_alias h.ne_alias, pure_bind, h.isAbsent?_eq]
    rfl
  items := by
    rintro ⟨targets, node⟩ ts (h : Node.Shows _ _)
    cases h with
    | @items nodes _ h =>
      refine ⟨nodes.map (Place.goTo _), rfl, ?_⟩
      exact List.forall₂_map_left_iff.mpr h
  parts := by
    rintro ⟨targets, _⟩ ts names (h : Node.Shows _ _) hnodup hknown
    cases h with
    | record hkeys h =>
      obtain ⟨ds, hds, hparts⟩ :=
        Place.exists_pairs targets id hkeys (fun t _ => show Node.text? _ = some t.1 from rfl) h
      refine ⟨ds, ?_, hparts⟩
      change (do accept (select names (← Place.pairs _ Node.text?))) = _
      rw [hds, pure_bind, hparts.select_eq hnodup hknown]
      rfl
  numbered := by
    rintro ⟨targets, _⟩ ts (h : Node.Shows _ _) hnodup hsmall
    cases h with
    | numbered hkeys h =>
      exact Place.exists_pairs targets toString hkeys (fun t ht => natural?_toString (hsmall t ht)) h

end Canopen.Yaml
