import Mathlib.Data.List.Sort
import Mathlib.Data.List.DropRight

/-!
# Sorting by another key

Sorting a list and then mapping it is sorting the mapped list exactly if the map is
monotone on the list.  Cutting a tail off is monotone unless one of the results is a proper
prefix of the other.
-/

namespace SeqDetect.Pattern

section Keys

variable {α β : Type*} {r : α → α → Prop} {s : β → β → Prop} [DecidableRel r] [DecidableRel s]
  [Std.Total r] [IsTrans α r] [Std.Antisymm r] [Std.Total s] [IsTrans β s] [Std.Antisymm s]
  {key : α → β} {items : List α}

omit [DecidableRel s] [IsTrans β s] [Std.Antisymm s] in
/-- The keys of a sorted list are sorted exactly if `key` is monotone on it. -/
theorem sorted_keys_iff :
    ((items.insertionSort r).map key).Pairwise s ↔
      ∀ first ∈ items, ∀ second ∈ items, r first second → s (key first) (key second) := by
  have sorted := List.pairwise_insertionSort r items
  have listed : ∀ item, item ∈ items.insertionSort r ↔ item ∈ items :=
    fun item => (List.perm_insertionSort r items).mem_iff
  rw [List.pairwise_map]
  constructor
  · intro keys first inFirst second inSecond ordered
    obtain ⟨i, bound, rfl⟩ := List.getElem_of_mem ((listed first).mpr inFirst)
    obtain ⟨j, otherBound, rfl⟩ := List.getElem_of_mem ((listed second).mpr inSecond)
    rcases lt_trichotomy i j with earlier | rfl | later
    · exact List.pairwise_iff_getElem.mp keys i j bound otherBound earlier
    · exact (or_self_iff.mp (Std.Total.total _ _))
    · have reversed := List.pairwise_iff_getElem.mp sorted j i otherBound bound later
      rw [Std.Antisymm.antisymm _ _ ordered reversed]
      exact (or_self_iff.mp (Std.Total.total _ _))
  · intro monotone
    refine sorted.imp_of_mem fun inFirst inSecond ordered => ?_
    exact monotone _ ((listed _).mp inFirst) _ ((listed _).mp inSecond) ordered

theorem map_insertionSort_iff :
    (items.insertionSort r).map key = (items.map key).insertionSort s ↔
      ∀ first ∈ items, ∀ second ∈ items, r first second → s (key first) (key second) := by
  rw [← sorted_keys_iff]
  constructor
  · intro same
    rw [same]
    exact List.pairwise_insertionSort s _
  · intro sorted
    refine List.Perm.eq_of_pairwise (fun _ _ _ _ => Std.Antisymm.antisymm _ _) sorted
      (List.pairwise_insertionSort s _) ?_
    exact ((List.perm_insertionSort r items).map key).trans
      (List.perm_insertionSort s _).symm

end Keys

section Tails

variable {α : Type*} [LT α] [LE α] [Std.IsLinearOrder α] [Std.LawfulOrderLT α]

/-- Tails decide between two lists only if one of them is a prefix of the other. -/
theorem prefix_of_lt_of_append_le {short long tail rest : List α} (less : short < long)
    (atMost : long ++ rest ≤ short ++ tail) : short <+: long := by
  induction short generalizing long with
  | nil => exact List.nil_prefix
  | cons a short inductionHypothesis =>
      cases long with
      | nil => exact absurd less (List.not_lt_nil _)
      | cons b long =>
          rw [List.cons_append, List.cons_append, List.cons_le_cons_iff] at atMost
          rw [List.cons_lt_cons_iff] at less
          rcases less with above | ⟨rfl, less⟩
          · rcases atMost with below | ⟨rfl, -⟩
            · exact absurd below (Std.Asymm.asymm _ _ above)
            · exact absurd above (Std.Irrefl.irrefl _)
          · rcases atMost with below | ⟨-, atMost⟩
            · exact absurd below (Std.Irrefl.irrefl _)
            · exact List.cons_prefix_cons.mpr ⟨rfl, inductionHypothesis less atMost⟩

end Tails

/-- What is left of a list without its tail stays at the front of every extension. -/
theorem rdropWhile_prefix_append {α : Type*} (p : α → Bool) (front rest : List α) :
    front.rdropWhile p <+: (front.rdropWhile p ++ rest).rdropWhile p := by
  induction rest using List.reverseRecOn with
  | nil =>
      refine ⟨[], ?_⟩
      rw [List.append_nil, List.rdropWhile_idempotent]
  | append_singleton rest last inductionHypothesis =>
      rw [← List.append_assoc, List.rdropWhile_concat]
      split
      · exact inductionHypothesis
      · exact (List.prefix_append _ _).trans (List.prefix_append _ _)

end SeqDetect.Pattern
