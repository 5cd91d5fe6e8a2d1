import Mathlib.Data.List.GetD
import Mathlib.Tactic

/-!
# Padded chunks

A list is cut into chunks of one width and the last chunk is padded.  A segment whose
length is a multiple of the width needs no padding, so only the other segments leave a
trace in the chunks of a list that is cut segment by segment.  Two lists have the same
chunks only if one of them writes out padding of the other.
-/

namespace SeqDetect.Pattern

variable {α : Type*} {width : ℕ} {pad : α} {first second : List α}

/-- Symbol `k` of the list, with the pad behind its end. -/
def chunk (width : ℕ) (pad : α) (symbols : List α) (k : ℕ) : Fin width → α :=
  fun r => symbols.getD (width * k + r) pad

/-- The chunks of a list, as many as its symbols need. -/
def chunks (width : ℕ) (pad : α) (symbols : List α) : List (Fin width → α) :=
  (List.range ((symbols.length + (width - 1)) / width)).map (chunk width pad symbols)

theorem chunk_append_left {k : ℕ} (bound : width * (k + 1) ≤ first.length) :
    chunk width pad (first ++ second) k = chunk width pad first k := by
  funext r
  have inside : width * k + r < first.length := by
    have := r.isLt
    rw [Nat.mul_succ] at bound
    omega
  exact List.getD_append _ _ _ _ inside

theorem chunk_append_right {n : ℕ} (aligned : first.length = width * n) (k : ℕ) :
    chunk width pad (first ++ second) (n + k) = chunk width pad second k := by
  funext r
  rw [chunk, List.getD_append_right _ _ _ _ (by rw [aligned, Nat.mul_add]; omega), chunk]
  congr 1
  rw [aligned, Nat.mul_add]
  omega

/-- A segment without padding is cut on its own. -/
theorem chunks_append (positive : 0 < width) (aligned : width ∣ first.length) :
    chunks width pad (first ++ second) =
      chunks width pad first ++ chunks width pad second := by
  obtain ⟨n, length⟩ := aligned
  have whole : (first.length + (width - 1)) / width = n := by
    rw [length, Nat.mul_add_div positive, Nat.div_eq_of_lt (by omega), Nat.add_zero]
  have all : ((first ++ second).length + (width - 1)) / width =
      n + (second.length + (width - 1)) / width := by
    rw [List.length_append, length, Nat.add_assoc, Nat.mul_add_div positive]
  rw [chunks, all, List.range_add, List.map_append, chunks, whole, chunks, List.map_map]
  congr 1
  · apply List.map_congr_left
    intro k membership
    apply chunk_append_left
    rw [length]
    exact Nat.mul_le_mul_left _ (List.mem_range.mp membership)
  · apply List.map_congr_left
    intro k _
    exact chunk_append_right length k

/-- Where in the stream a segment ends that needs padding. -/
def raggedEnds (width : ℕ) : ℕ → List (List α) → List ℕ
  | _, [] => []
  | start, segment :: segments =>
      if width ∣ segment.length then raggedEnds width (start + segment.length) segments
      else (start + segment.length) :: raggedEnds width (start + segment.length) segments

/-- Cut the stream at the given places. -/
def cutAt : ℕ → List ℕ → List α → List (List α)
  | _, [], symbols => [symbols]
  | start, place :: places, symbols =>
      symbols.take (place - start) :: cutAt place places (symbols.drop (place - start))

theorem le_of_mem_raggedEnds {start place : ℕ} {segments : List (List α)}
    (membership : place ∈ raggedEnds width start segments) : start ≤ place := by
  induction segments generalizing start with
  | nil => simp [raggedEnds] at membership
  | cons segment segments inductionHypothesis =>
      rw [raggedEnds] at membership
      split at membership
      · exact le_trans (Nat.le_add_right _ _) (inductionHypothesis membership)
      · rcases List.mem_cons.mp membership with rfl | later
        · exact Nat.le_add_right _ _
        · exact le_trans (Nat.le_add_right _ _) (inductionHypothesis later)

theorem flatMap_chunks_cutAt (positive : 0 < width) (aligned : width ∣ first.length)
    {start : ℕ} {places : List ℕ} (later : ∀ place ∈ places, start + first.length ≤ place) :
    (cutAt start places (first ++ second)).flatMap (chunks width pad) =
      chunks width pad first ++
        (cutAt (start + first.length) places second).flatMap (chunks width pad) := by
  cases places with
  | nil => simp [cutAt, chunks_append positive aligned]
  | cons place places =>
      have bound := later place List.mem_cons_self
      have split : place - start = first.length + (place - (start + first.length)) := by
        omega
      rw [cutAt, split, List.take_length_add_append, List.drop_length_add_append,
        List.flatMap_cons, chunks_append positive aligned, cutAt, List.flatMap_cons,
        List.append_assoc]

/-- Segment by segment, the chunks are those of the stream cut at its ragged ends. -/
theorem flatMap_chunks (positive : 0 < width) (start : ℕ) (segments : List (List α)) :
    segments.flatMap (chunks width pad) =
      (cutAt start (raggedEnds width start segments) segments.flatten).flatMap
        (chunks width pad) := by
  induction segments generalizing start with
  | nil => simp [cutAt, raggedEnds, chunks, Nat.div_eq_of_lt (Nat.sub_lt positive Nat.one_pos)]
  | cons segment segments inductionHypothesis =>
      rw [List.flatMap_cons, inductionHypothesis (start + segment.length), List.flatten_cons,
        raggedEnds]
      split
      · rename_i aligned
        rw [flatMap_chunks_cutAt positive aligned fun _ => le_of_mem_raggedEnds]
      · rw [cutAt, Nat.add_sub_cancel_left, List.take_left, List.drop_left, List.flatMap_cons]

/-- There are only as many chunks as the symbols need. -/
theorem length_chunks_le_iff (positive : 0 < width) {symbols : List α} {count : ℕ} :
    (chunks width pad symbols).length ≤ count ↔ symbols.length ≤ width * count := by
  rw [chunks, List.length_map, List.length_range, Nat.div_le_iff_le_mul_add_pred positive,
    Nat.add_le_add_iff_right]

theorem getD_of_chunks_eq (positive : 0 < width)
    (same : chunks width pad first = chunks width pad second) (i : ℕ) :
    first.getD i pad = second.getD i pad := by
  have count := congrArg List.length same
  by_cases inside : i / width < (chunks width pad first).length
  · have position : width * (i / width) + i % width = i := Nat.div_add_mod i width
    have chunk_eq : chunk width pad first (i / width) = chunk width pad second (i / width) := by
      have shown := congrArg (fun list => list[i / width]?) same
      simp only [chunks, List.length_map, List.length_range] at inside count shown
      simpa [inside, ← count] using shown
    have symbol := congrFun chunk_eq ⟨i % width, Nat.mod_lt i positive⟩
    simpa only [chunk, position] using symbol
  · have behind : width * (chunks width pad first).length ≤ i := by
      rw [Nat.mul_comm]
      exact (Nat.le_div_iff_mul_le positive).mp (Nat.le_of_not_lt inside)
    have firstEnds := (length_chunks_le_iff positive).mp (le_refl (chunks width pad first).length)
    have secondEnds := (length_chunks_le_iff positive).mp (Nat.le_of_eq count.symm)
    rw [List.getD_eq_default _ _ (le_trans firstEnds behind),
      List.getD_eq_default _ _ (le_trans secondEnds behind)]

/-- `second` is `first` with some of the padding of its last chunk written out. -/
def WritesOut (width : ℕ) (pad : α) (first second : List α) : Prop :=
  ∃ k > 0, first.length + k ≤ width * (chunks width pad first).length ∧
    second = first ++ List.replicate k pad

/-- A shorter list with the same chunks is continued by the pad. -/
theorem writesOut_of_chunks_eq (positive : 0 < width)
    (same : chunks width pad first = chunks width pad second)
    (shorter : first.length < second.length) : WritesOut width pad first second := by
  refine ⟨second.length - first.length, Nat.sub_pos_of_lt shorter, ?_, ?_⟩
  · rw [Nat.add_sub_of_le shorter.le, same]
    exact (length_chunks_le_iff positive).mp le_rfl
  · apply List.ext_getElem
    · simp [Nat.add_sub_of_le shorter.le]
    · intro i bound _
      have symbol := getD_of_chunks_eq positive same i
      rw [List.getD_eq_getElem _ _ bound] at symbol
      rw [← symbol]
      by_cases inside : i < first.length
      · rw [List.getD_eq_getElem _ _ inside, List.getElem_append_left inside]
      · rw [List.getD_eq_default _ _ (Nat.le_of_not_lt inside),
          List.getElem_append_right (Nat.le_of_not_lt inside), List.getElem_replicate]

theorem chunks_eq_of_writesOut (positive : 0 < width) (written : WritesOut width pad first second) :
    chunks width pad first = chunks width pad second := by
  obtain ⟨k, -, fits, rfl⟩ := written
  have count : (chunks width pad (first ++ List.replicate k pad)).length =
      (chunks width pad first).length := by
    apply le_antisymm
    · rw [length_chunks_le_iff positive, List.length_append, List.length_replicate]
      exact fits
    · rw [length_chunks_le_iff positive]
      have all := (length_chunks_le_iff positive).mp
        (le_refl (chunks width pad (first ++ List.replicate k pad)).length)
      exact le_trans (by simp) all
  have symbols : ∀ i, (first ++ List.replicate k pad).getD i pad = first.getD i pad := by
    intro i
    by_cases inside : i < first.length
    · exact List.getD_append _ _ _ _ inside
    · rw [List.getD_append_right _ _ _ _ (Nat.le_of_not_lt inside),
        List.getD_eq_default _ _ (Nat.le_of_not_lt inside), List.getD_eq_getElem?_getD,
        List.getElem?_getD_replicate_default_eq]
  simp only [chunks, List.length_map, List.length_range] at count ⊢
  rw [count]
  apply List.map_congr_left
  intro j _
  funext r
  exact (symbols _).symm

/-- Chunks keep a list apart from every other one, save for padding that is written out. -/
theorem chunks_inj_iff (positive : 0 < width) :
    chunks width pad first = chunks width pad second ↔
      first = second ∨ WritesOut width pad first second ∨ WritesOut width pad second first := by
  constructor
  · intro same
    rcases Nat.lt_trichotomy first.length second.length with shorter | equal | longer
    · exact .inr (.inl (writesOut_of_chunks_eq positive same shorter))
    · left
      apply List.ext_getElem equal
      intro i bound otherBound
      have symbol := getD_of_chunks_eq positive same i
      rwa [List.getD_eq_getElem _ _ bound, List.getD_eq_getElem _ _ otherBound] at symbol
    · exact .inr (.inr (writesOut_of_chunks_eq positive same.symm longer))
  · rintro (rfl | written | written)
    · rfl
    · exact chunks_eq_of_writesOut positive written
    · exact (chunks_eq_of_writesOut positive written).symm

end SeqDetect.Pattern
