import BuildScript.Document
import Mathlib.Data.List.Nodup

/-!
# Attributes

Attributes are kept in the order of their names.  What is set can be looked up again, and pairs with
different names are only put into order.
-/

namespace BuildScript

theorem names_set (name text : String) (rule : Attributes) {pair : String × String}
    (h : pair ∈ Attributes.set name text rule) : pair.1 = name ∨ ∃ old ∈ rule, pair.1 = old.1 := by
  induction rule with
  | nil => exact .inl (by simp [List.mem_singleton.1 h])
  | cons first rule ih =>
    obtain ⟨n, t⟩ := first
    rw [Attributes.set] at h
    split at h
    · rcases List.mem_cons.1 h with rfl | old
      · exact .inl rfl
      · exact .inr ⟨pair, old, rfl⟩
    · split at h
      · next same =>
        rcases List.mem_cons.1 h with rfl | old
        · exact .inl same.symm
        · exact .inr ⟨pair, List.mem_cons_of_mem _ old, rfl⟩
      · rcases List.mem_cons.1 h with rfl | later
        · exact .inr ⟨_, List.mem_cons_self, rfl⟩
        · rcases ih later with new | ⟨old, member, same⟩
          · exact .inl new
          · exact .inr ⟨old, List.mem_cons_of_mem _ member, same⟩

/-- Attributes have the names of the pairs that they are made of. -/
theorem names_ofPairs (pairs : List (String × String)) {pair : String × String}
    (h : pair ∈ Attributes.ofPairs pairs) : ∃ given ∈ pairs, pair.1 = given.1 := by
  have names : ∀ (pairs : List (String × String)) (rule : Attributes),
      pair ∈ pairs.foldl (fun rule given => Attributes.set given.1 given.2 rule) rule →
      (∃ old ∈ rule, pair.1 = old.1) ∨ ∃ given ∈ pairs, pair.1 = given.1 := by
    intro pairs
    induction pairs with
    | nil => exact fun rule member => .inl ⟨pair, member, rfl⟩
    | cons given pairs ih =>
      intro rule member
      rcases ih _ member with ⟨old, inRule, same⟩ | ⟨later, inPairs, same⟩
      · rcases names_set _ _ _ inRule with new | ⟨older, inRule, alike⟩
        · exact .inr ⟨given, List.mem_cons_self, same.trans new⟩
        · exact .inl ⟨older, inRule, same.trans alike⟩
      · exact .inr ⟨later, List.mem_cons_of_mem _ inPairs, same⟩
  rcases names pairs [] h with ⟨old, none, -⟩ | given
  · cases none
  · exact given

namespace Attributes

theorem lookup_cons (name text key : String) (rule : Attributes) :
    List.lookup key ((name, text) :: rule) = if key = name then some text else rule.lookup key := by
  by_cases same : key = name
  · simp [same]
  · rw [List.lookup_cons, beq_eq_false_iff_ne.2 same, if_neg same]

theorem lookup_set (name text key : String) (rule : Attributes) :
    (Attributes.set name text rule).lookup key =
      if key = name then some text else rule.lookup key := by
  induction rule with
  | nil => rw [Attributes.set, lookup_cons]
  | cons first rule ih =>
    obtain ⟨n, t⟩ := first
    rw [Attributes.set]
    split
    · rw [lookup_cons]
    · split
      · next here =>
        subst here
        by_cases same : key = name <;> simp [lookup_cons, same]
      · next other =>
        rw [lookup_cons, lookup_cons, ih]
        by_cases found : key = n
        · subst found
          simp [Ne.symm other]
        · simp [found]

/-- Setting a new name adds a pair. -/
theorem set_perm {name : String} (text : String) {rule : Attributes}
    (new : name ∉ rule.map Prod.fst) :
    (Attributes.set name text rule).Perm ((name, text) :: rule) := by
  induction rule with
  | nil => exact List.Perm.refl _
  | cons first rule ih =>
    obtain ⟨n, t⟩ := first
    obtain ⟨notFirst, notLater⟩ : name ≠ n ∧ name ∉ rule.map Prod.fst := by simpa using new
    rw [Attributes.set, if_neg notFirst]
    split
    · exact List.Perm.refl _
    · exact ((ih notLater).cons (n, t)).trans (List.Perm.swap _ _ rule)

/-- The names stand in their order. -/
def IsSorted (rule : Attributes) : Prop := rule.Pairwise fun a b => a.1 ≤ b.1

theorem IsSorted.set {rule : Attributes} (sorted : IsSorted rule) (name text : String) :
    IsSorted (Attributes.set name text rule) := by
  induction rule with
  | nil => exact List.pairwise_singleton _ _
  | cons first rule ih =>
    obtain ⟨n, t⟩ := first
    obtain ⟨least, rest⟩ := List.pairwise_cons.1 sorted
    rw [Attributes.set]
    split
    · next before =>
      have lower : name ≤ n := String.not_lt.1 (String.lt_asymm before)
      refine List.pairwise_cons.2 ⟨?_, sorted⟩
      intro pair member
      rcases List.mem_cons.1 member with rfl | later
      · exact lower
      · exact String.le_trans lower (least pair later)
    · next notBefore =>
      split
      · exact List.pairwise_cons.2 ⟨least, rest⟩
      · refine List.pairwise_cons.2 ⟨?_, ih rest⟩
        intro pair member
        rcases names_set name text rule member with same | ⟨old, later, same⟩
        · exact same ▸ String.not_lt.1 notBefore
        · exact same ▸ least old later

theorem foldl_set_perm {pairs : List (String × String)} {rule : Attributes}
    (distinct : (pairs.map Prod.fst ++ rule.map Prod.fst).Nodup) :
    (pairs.foldl (fun rule pair => Attributes.set pair.1 pair.2 rule) rule).Perm
      (pairs ++ rule) := by
  induction pairs generalizing rule with
  | nil => exact List.Perm.refl _
  | cons pair pairs ih =>
    obtain ⟨new, others⟩ := List.nodup_cons.1 distinct
    have added := set_perm pair.2 (fun old => new (List.mem_append_right _ old))
    have names : (pairs.map Prod.fst ++ (Attributes.set pair.1 pair.2 rule).map Prod.fst).Nodup := by
      have moved : (pairs.map Prod.fst ++ (Attributes.set pair.1 pair.2 rule).map Prod.fst).Perm
          (pair.1 :: (pairs.map Prod.fst ++ rule.map Prod.fst)) :=
        ((added.map Prod.fst).append_left _).trans List.perm_middle
      exact moved.nodup_iff.2 distinct
    exact (ih names).trans ((added.append_left pairs).trans List.perm_middle)

theorem isSorted_ofPairs (pairs : List (String × String)) : IsSorted (ofPairs pairs) := by
  have kept : ∀ (pairs : List (String × String)) (rule : Attributes), IsSorted rule →
      IsSorted (pairs.foldl (fun rule pair => Attributes.set pair.1 pair.2 rule) rule) := by
    intro pairs
    induction pairs with
    | nil => exact fun rule sorted => sorted
    | cons pair pairs ih => exact fun rule sorted => ih _ (sorted.set pair.1 pair.2)
  exact kept pairs [] List.Pairwise.nil

theorem ofPairs_perm {pairs : List (String × String)} (distinct : (pairs.map Prod.fst).Nodup) :
    (ofPairs pairs).Perm pairs := by
  have names : (pairs.map Prod.fst ++ ([] : Attributes).map Prod.fst).Nodup := by
    simpa using distinct
  have all := foldl_set_perm names
  rwa [List.append_nil] at all

/-- Pairs with different names are put into the order of their names. -/
theorem ofPairs_eq_mergeSort {pairs : List (String × String)}
    (distinct : (pairs.map Prod.fst).Nodup) :
    ofPairs pairs = pairs.mergeSort fun a b => a.1 ≤ b.1 := by
  have sorted : (pairs.mergeSort fun a b => a.1 ≤ b.1).Pairwise fun a b => a.1 ≤ b.1 := by
    have ordered := @List.pairwise_mergeSort _ (fun a b : String × String => decide (a.1 ≤ b.1))
      (fun a b c hab hbc => by
        simp only [decide_eq_true_eq] at hab hbc ⊢
        exact String.le_trans hab hbc)
      (fun a b => by simpa using String.le_total a.1 b.1) pairs
    simpa using ordered
  have perm := ofPairs_perm distinct
  refine List.Perm.eq_of_pairwise ?_ (show (ofPairs pairs).Pairwise fun a b => a.1 ≤ b.1 from
    isSorted_ofPairs pairs) sorted (perm.trans (List.mergeSort_perm pairs _).symm)
  intro a b inRule inSorted hab hba
  have here : a ∈ pairs := perm.mem_iff.1 inRule
  have there : b ∈ pairs := (List.mergeSort_perm pairs _).mem_iff.1 inSorted
  exact List.inj_on_of_nodup_map distinct here there (String.le_antisymm hab hba)

end Attributes

end BuildScript
