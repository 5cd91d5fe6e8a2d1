import SeqDetect.Pattern.Occurrence

/-!
# Words followed with gaps

A chain of stages that keep a verdict until the stage before is active again does not
look for a contiguous word.  `Followed` says what it does look for, in terms of the stream
alone, and an occurrence of the word is one way of following it.
-/

namespace SeqDetect.Pattern

variable {α : Type*} {word past : List α} {x : α}

/-- The first `j + 1` symbols of the word are followed in the stream: at the latest moment
at which the first `j` of them were followed already, the next symbol of the word came
next.  The first symbol is followed while it is the latest one. -/
def Followed (word : List α) : ℕ → List α → Prop
  | 0, stream => ∃ past x, stream = past ++ [x] ∧ word[0]? = some x
  | j + 1, stream => ∃ past x gap, stream = past ++ x :: gap ∧ word[j + 1]? = some x ∧
      Followed word j past ∧
      ∀ shorter, shorter <+: gap → shorter ≠ gap → ¬ Followed word j (past ++ x :: shorter)

theorem not_followed_nil (j : ℕ) : ¬ Followed word j [] := by
  cases j with
  | zero =>
      rintro ⟨past, x, equality, -⟩
      simp at equality
  | succ j =>
      rintro ⟨past, x, gap, equality, -⟩
      simp at equality

theorem followed_zero_concat : Followed word 0 (past ++ [x]) ↔ word[0]? = some x := by
  constructor
  · rintro ⟨other, y, equality, found⟩
    obtain ⟨rfl, same⟩ := List.append_inj' equality rfl
    rwa [List.singleton_inj.mp same]
  · exact fun found => ⟨past, x, rfl, found⟩

/-- One more symbol decides a stage whose predecessor is active, and leaves every other
one as it is. -/
theorem followed_succ_concat {j : ℕ} :
    Followed word (j + 1) (past ++ [x]) ↔
      Followed word j past ∧ word[j + 1]? = some x ∨
        ¬ Followed word j past ∧ Followed word (j + 1) past := by
  constructor
  · rintro ⟨front, y, gap, equality, found, active, latest⟩
    rcases List.eq_nil_or_concat' gap with rfl | ⟨shorter, last, rfl⟩
    · obtain ⟨rfl, same⟩ := List.append_inj' equality rfl
      left
      exact ⟨active, by rwa [List.singleton_inj.mp same]⟩
    · right
      have pieces : past ++ [x] = (front ++ y :: shorter) ++ [last] := by
        simpa using equality
      obtain ⟨rfl, -⟩ := List.append_inj' pieces rfl
      refine ⟨latest shorter (List.prefix_append _ _) (by simp), front, y, shorter, rfl, found,
        active, ?_⟩
      intro earlier isPrefix different
      refine latest earlier (isPrefix.trans (List.prefix_append _ _)) ?_
      rintro rfl
      have long := isPrefix.length_le
      simp at long
  · rintro (⟨active, found⟩ | ⟨inactive, front, y, gap, rfl, found, active, latest⟩)
    · refine ⟨past, x, [], rfl, found, active, ?_⟩
      intro shorter isPrefix different
      exact absurd (List.prefix_nil.mp isPrefix) different
    · refine ⟨front, y, gap ++ [x], by simp, found, active, ?_⟩
      intro shorter isPrefix different
      rcases List.prefix_concat_iff.mp isPrefix with whole | inside
      · exact absurd whole different
      · by_cases same : shorter = gap
        · rwa [same]
        · exact latest shorter inside same

/-- A word that ends the stream is followed in it. -/
theorem followed_of_suffix {j : ℕ} (bound : j < word.length) {stream : List α}
    (suffix : word.take (j + 1) <:+ stream) : Followed word j stream := by
  induction j generalizing stream with
  | zero =>
      obtain ⟨past, rfl⟩ := suffix
      have first : word.take 1 = [word[0]] := by
        simp [List.take_one, List.head?_eq_getElem?, List.getElem?_eq_getElem bound]
      rw [first, followed_zero_concat, List.getElem?_eq_getElem bound]
  | succ j inductionHypothesis =>
      rcases List.eq_nil_or_concat' stream with rfl | ⟨past, x, rfl⟩
      · have empty := List.suffix_nil.mp suffix
        simp only [List.take_eq_nil_iff, Nat.succ_ne_zero, false_or] at empty
        simp [empty] at bound
      · obtain ⟨earlier, last⟩ := (take_succ_suffix_concat bound).mp suffix
        rw [followed_succ_concat]
        left
        refine ⟨inductionHypothesis (by omega) earlier, ?_⟩
        rw [List.getElem?_eq_getElem bound, last]

/-- The whole word was followed at some moment of the stream. -/
def FollowedIn (word stream : List α) : Prop :=
  ∃ front, front <+: stream ∧ Followed word (word.length - 1) front

theorem not_followedIn_nil : ¬ FollowedIn word [] := by
  rintro ⟨front, isPrefix, followed⟩
  obtain rfl := List.prefix_nil.mp isPrefix
  exact not_followed_nil _ followed

theorem followedIn_concat :
    FollowedIn word (past ++ [x]) ↔
      FollowedIn word past ∨ Followed word (word.length - 1) (past ++ [x]) := by
  constructor
  · rintro ⟨front, isPrefix, followed⟩
    rcases List.prefix_concat_iff.mp isPrefix with rfl | earlier
    · exact .inr followed
    · exact .inl ⟨front, earlier, followed⟩
  · rintro (⟨front, isPrefix, followed⟩ | followed)
    · exact ⟨front, isPrefix.trans (List.prefix_append _ _), followed⟩
    · exact ⟨past ++ [x], List.prefix_rfl, followed⟩

/-- A word that occurs in the stream is followed in it. -/
theorem followedIn_of_infix (nonempty : word ≠ []) {stream : List α}
    (occurs : word <:+: stream) : FollowedIn word stream := by
  have positive : 0 < word.length := List.length_pos_iff.mpr nonempty
  obtain ⟨front, suffix, isPrefix⟩ := List.infix_iff_suffix_prefix.mp occurs
  refine ⟨front, isPrefix, followed_of_suffix (by omega) ?_⟩
  rwa [Nat.sub_add_cancel positive, List.take_length]

end SeqDetect.Pattern
