import SeqDetect.Pattern.Occurrence

/-!
# Scanning with a restart

A scan that compares a stream with a word, symbol by symbol.  At a mismatch it forgets
everything but the symbol it has just read, and it resumes behind the second symbol of the word
when that symbol and the next one begin the word.  What it reports is always an occurrence;
whether it reports every occurrence depends on the borders of the word.
-/

namespace SeqDetect.Pattern

/-- The scan is behind the first `matched` symbols of the word, or has lost them at `latest`. -/
inductive Scan (α : Type*) where
  | run (matched : ℕ)
  | lost (latest : α)
  deriving DecidableEq, Repr

namespace Scan

variable {α : Type*} [DecidableEq α]

/-- A word of one symbol restarts at that symbol, a longer one at its first two. -/
def step (word : List α) : Scan α → α → Scan α
  | run matched, x =>
      match word[matched]? with
      | none => run matched
      | some symbol => if symbol = x then run (matched + 1) else lost x
  | lost latest, x =>
      if word.length ≤ 1 then
        if word[0]? = some x then run 1 else lost x
      else
        if word[0]? = some latest ∧ word[1]? = some x then run 2 else lost x

end Scan

variable {α : Type*} [DecidableEq α] {word past : List α} {x : α}

def scan (word stream : List α) : Scan α := stream.foldl (Scan.step word) (.run 0)

@[simp] theorem scan_nil (word : List α) : scan word [] = .run 0 := rfl

theorem scan_append (word first second : List α) :
    scan word (first ++ second) = second.foldl (Scan.step word) (scan word first) :=
  List.foldl_append

theorem scan_concat (word past : List α) (x : α) :
    scan word (past ++ [x]) = (scan word past).step word x := scan_append word past [x]

theorem Scan.step_run {matched : ℕ} (bound : matched < word.length) :
    (Scan.run matched).step word x =
      if word[matched] = x then .run (matched + 1) else .lost x := by
  simp [step, List.getElem?_eq_getElem bound]

@[simp] theorem Scan.step_whole : (Scan.run word.length).step word x = .run word.length := by
  simp [step]

/-- The whole word has been found. -/
def Completes (word stream : List α) : Prop := scan word stream = .run word.length

instance (word stream : List α) : Decidable (Completes word stream) :=
  inferInstanceAs (Decidable (_ = _))

/-- A scan that has found the word stays so. -/
theorem Completes.append (completes : Completes word past) (more : List α) :
    Completes word (past ++ more) := by
  rw [Completes, scan_append, completes]
  induction more with
  | nil => rfl
  | cons x more inductionHypothesis => rwa [List.foldl_cons, Scan.step_whole]

section Soundness

/-- What a scan knows about the stream it has read. -/
def Scan.Knows (word past : List α) : Scan α → Prop
  | run matched => matched ≤ word.length ∧
      (matched < word.length → word.take matched <:+ past) ∧
      (matched = word.length → word <:+: past)
  | lost latest => word ≠ [] ∧ [latest] <:+ past

theorem Scan.Knows.step {state : Scan α} (knows : state.Knows word past) (x : α) :
    (state.step word x).Knows word (past ++ [x]) := by
  have advance : ∀ {matched : ℕ} (bound : matched < word.length), word[matched] = x →
      word.take matched <:+ past → (Scan.run (matched + 1)).Knows word (past ++ [x]) := by
    intro matched bound same suffix
    have longer := (take_succ_suffix_concat bound).mpr ⟨suffix, same⟩
    refine ⟨bound, fun _ => longer, fun whole => ?_⟩
    rw [whole, List.take_length] at longer
    exact longer.isInfix
  have latest : [x] <:+ past ++ [x] := List.suffix_append past [x]
  cases state with
  | run matched =>
      obtain ⟨bound, suffix, whole⟩ := knows
      rcases Nat.lt_or_eq_of_le bound with inside | rfl
      · rw [step_run inside]
        split
        · exact advance inside ‹_› (suffix inside)
        · exact ⟨List.ne_nil_of_length_pos (by omega), latest⟩
      · rw [step_whole]
        exact ⟨le_rfl, fun impossible => absurd impossible (lt_irrefl _),
          fun _ => (whole rfl).trans (List.prefix_append past [x]).isInfix⟩
  | lost previous =>
      obtain ⟨nonempty, ended⟩ := knows
      have positive : 0 < word.length := List.length_pos_iff.mpr nonempty
      simp only [Scan.step]
      split_ifs with short first both
      · rw [List.getElem?_eq_getElem positive, Option.some.injEq] at first
        exact advance positive first (by simp)
      · exact ⟨nonempty, latest⟩
      · have second : 1 < word.length := by omega
        rw [List.getElem?_eq_getElem positive, List.getElem?_eq_getElem second,
          Option.some.injEq, Option.some.injEq] at both
        apply advance second both.2
        rw [List.take_succ_eq_append_getElem positive, both.1]
        simpa using ended
      · exact ⟨nonempty, latest⟩

theorem scan_knows (word past : List α) : (scan word past).Knows word past := by
  induction past using List.reverseRecOn with
  | nil =>
      refine ⟨Nat.zero_le _, fun _ => by simp, fun empty => ?_⟩
      rw [List.eq_nil_of_length_eq_zero empty.symm]
  | append_singleton past x inductionHypothesis =>
      rw [scan_concat]
      exact inductionHypothesis.step x

/-- What the scan reports is an occurrence. -/
theorem Completes.sound (completes : Completes word past) : word <:+: past := by
  have knows := scan_knows word past
  rw [completes] at knows
  exact knows.2.2 rfl

end Soundness

section Completeness

/-- Where the word is about to be broken behind a proper border, the border expects the same
symbol, and so breaks with it. -/
def Restartable (word : List α) : Prop :=
  ∀ j < word.length, ∀ l < j, 1 ≤ l → word.take l <:+ word.take j → word[l]? = word[j]?

instance (word : List α) : Decidable (Restartable word) :=
  inferInstanceAs (Decidable (∀ j < word.length, ∀ l < j, 1 ≤ l → _ → _))

/-- No prefix of the word that ends the stream is longer than what the scan remembers. -/
def Scan.Covers (word past : List α) : Scan α → Prop
  | run matched => matched < word.length →
      ∀ l ≤ word.length, word.take l <:+ past → l ≤ matched
  | lost _ => ∀ l ≤ word.length, word.take l <:+ past → l ≤ 1 ∧ (word.length ≤ 1 → l = 0)

omit [DecidableEq α] in
/-- A prefix that ends the stream behind `x` is one that ended it before, with `x` added. -/
theorem take_suffix_of_succ {l : ℕ} (bound : l + 1 ≤ word.length) {x : α}
    (suffix : word.take (l + 1) <:+ past ++ [x]) : word.take l <:+ past ∧ word[l]? = some x := by
  obtain ⟨before, same⟩ := (take_succ_suffix_concat bound).mp suffix
  exact ⟨before, by rw [List.getElem?_eq_getElem bound, same]⟩

omit [DecidableEq α] in
/-- A mismatch breaks all borders that are not empty along with the matched prefix. -/
theorem Restartable.nothing_left (restartable : Restartable word) {matched l : ℕ}
    (inside : matched < word.length) (ended : word.take matched <:+ past) {x : α}
    (broken : word[matched]? ≠ some x) (small : l ≤ matched) (before : word.take l <:+ past)
    (same : word[l]? = some x) : l = 0 ∧ 0 < matched := by
  have proper : l < matched := by
    refine lt_of_le_of_ne small ?_
    rintro rfl
    exact broken same
  have border : word.take l <:+ word.take matched := by
    apply List.suffix_of_suffix_length_le before ended
    simp only [List.length_take]
    omega
  refine ⟨?_, Nat.zero_lt_of_lt proper⟩
  by_contra positive
  rw [restartable matched inside l proper (by omega) border] at same
  exact broken same

theorem Scan.Covers.step_run (restartable : Restartable word) {matched : ℕ}
    (covers : (run matched).Covers word past) (knows : (run matched).Knows word past) (x : α) :
    ((run matched).step word x).Covers word (past ++ [x]) := by
  obtain ⟨bound, suffix, -⟩ := knows
  rcases Nat.lt_or_eq_of_le bound with inside | rfl
  swap
  · rw [step_whole]
    exact fun impossible => absurd impossible (lt_irrefl _)
  rw [Scan.step_run inside]
  split
  · rintro - (_ | l) fits found
    · omega
    · exact Nat.succ_le_succ (covers inside l (by omega) (take_suffix_of_succ fits found).1)
  · rename_i broken
    rintro (_ | l) fits found
    · omega
    obtain ⟨before, same⟩ := take_suffix_of_succ fits found
    have nothing := restartable.nothing_left inside (suffix inside)
      (by rwa [List.getElem?_eq_getElem inside, ne_eq, Option.some.injEq])
      (covers inside l (by omega) before) before same
    omega

theorem Scan.Covers.step_lost {previous : α} (covers : (lost previous).Covers word past)
    (knows : (lost previous).Knows word past) (x : α) :
    ((lost previous).step word x).Covers word (past ++ [x]) := by
  obtain ⟨nonempty, ended⟩ := knows
  have positive : 0 < word.length := List.length_pos_iff.mpr nonempty
  simp only [Scan.step]
  split_ifs with short first both
  · intro impossible
    omega
  · rintro (_ | l) fits found
    · omega
    obtain rfl : l = 0 := by omega
    exact absurd (take_suffix_of_succ fits found).2 first
  · rintro - (_ | l) fits found
    · omega
    · have := (covers l (by omega) (take_suffix_of_succ fits found).1).1
      omega
  · rintro (_ | l) fits found
    · omega
    obtain ⟨before, same⟩ := take_suffix_of_succ fits found
    have small := (covers l (by omega) before).1
    refine ⟨?_, fun short' => absurd short' short⟩
    rcases Nat.le_one_iff_eq_zero_or_eq_one.mp small with rfl | rfl
    · omega
    · exfalso
      apply both
      refine ⟨?_, same⟩
      rw [List.take_succ_eq_append_getElem positive] at before
      obtain ⟨front, rfl⟩ := ended
      have last := (concat_suffix_concat.mp before).2
      rw [List.getElem?_eq_getElem positive, last]

theorem Scan.Covers.step (restartable : Restartable word) {state : Scan α}
    (covers : state.Covers word past) (knows : state.Knows word past) (x : α) :
    (state.step word x).Covers word (past ++ [x]) := by
  cases state with
  | run matched => exact covers.step_run restartable knows x
  | lost previous => exact covers.step_lost knows x

theorem scan_covers (restartable : Restartable word) (past : List α) :
    (scan word past).Covers word past := by
  induction past using List.reverseRecOn with
  | nil =>
      rintro - l bound suffix
      have empty : (word.take l).length = 0 := by
        rw [List.suffix_nil.mp suffix, List.length_nil]
      rw [List.length_take, Nat.min_eq_left bound] at empty
      omega
  | append_singleton past x inductionHypothesis =>
      rw [scan_concat]
      exact inductionHypothesis.step restartable (scan_knows word past) x

theorem Restartable.completes (restartable : Restartable word) (occurs : word <:+: past) :
    Completes word past := by
  induction past using List.reverseRecOn with
  | nil =>
      rw [List.infix_nil] at occurs
      subst occurs
      rfl
  | append_singleton past x inductionHypothesis =>
      rcases List.infix_concat_iff.mp occurs with suffix | before
      · have covers := scan_covers restartable (past ++ [x])
        have knows := scan_knows word (past ++ [x])
        rw [← List.take_length (l := word)] at suffix
        rw [Completes]
        cases reached : scan word (past ++ [x]) with
        | run matched =>
            rw [reached] at covers knows
            rcases Nat.lt_or_eq_of_le knows.1 with inside | rfl
            · have := covers inside word.length le_rfl suffix
              omega
            · rfl
        | lost latest =>
            rw [reached] at covers knows
            have positive := List.length_pos_iff.mpr knows.1
            have := covers word.length le_rfl suffix
            omega
      · exact (inductionHypothesis before).append [x]

/-- How many symbols of the word a scan may have in hand. -/
def Scan.rank : Scan α → ℕ
  | run matched => matched
  | lost _ => 1

omit [DecidableEq α] in
@[simp] theorem Scan.rank_run (matched : ℕ) : (run matched : Scan α).rank = matched := rfl

omit [DecidableEq α] in
@[simp] theorem Scan.rank_lost (latest : α) : (lost latest).rank = 1 := rfl

theorem Scan.rank_step_le (word : List α) (state : Scan α) (x : α) :
    (state.step word x).rank ≤ state.rank + 1 := by
  cases state with
  | run matched =>
      simp only [step]
      split
      · simp
      · split <;> simp
  | lost latest =>
      simp only [step]
      split_ifs <;> simp

theorem Scan.rank_foldl_le (word stream : List α) (state : Scan α) :
    (stream.foldl (step word) state).rank ≤ state.rank + stream.length := by
  induction stream generalizing state with
  | nil => simp
  | cons x stream inductionHypothesis =>
      have first := rank_step_le word state x
      have rest := inductionHypothesis (state.step word x)
      rw [List.foldl_cons, List.length_cons]
      omega

theorem scan_take {j : ℕ} (bound : j ≤ word.length) : scan word (word.take j) = .run j := by
  induction j with
  | zero => rfl
  | succ j inductionHypothesis =>
      have inside : j < word.length := bound
      rw [List.take_succ_eq_append_getElem inside, scan_concat, inductionHypothesis inside.le,
        Scan.step_run inside, if_pos rfl]

/-- A border that expects another symbol is lost with the rest: an occurrence that begins in it
ends before the scan can have caught up. -/
theorem exists_missed (fails : ¬ Restartable word) :
    ∃ stream, word <:+: stream ∧ ¬ Completes word stream := by
  unfold Restartable at fails
  push Not at fails
  obtain ⟨j, inside, l, proper, positive, ⟨front, border⟩, differs⟩ := fails
  have within : l < word.length := proper.trans inside
  refine ⟨word.take j ++ word.drop l, ⟨front, [], ?_⟩, ?_⟩
  · rw [List.append_nil, ← border, List.append_assoc, List.take_append_drop]
  · intro completes
    rw [List.getElem?_eq_getElem within, List.getElem?_eq_getElem inside, ne_eq,
      Option.some.injEq] at differs
    rw [Completes, scan_append, scan_take inside.le, List.drop_eq_getElem_cons within,
      List.foldl_cons, Scan.step_run inside, if_neg (Ne.symm differs)] at completes
    have small := Scan.rank_foldl_le word (word.drop (l + 1)) (.lost word[l])
    rw [completes, Scan.rank_run, Scan.rank_lost, List.length_drop] at small
    omega

/-- The scan finds every occurrence exactly when its word is restartable. -/
theorem complete_iff_restartable :
    (∀ stream, word <:+: stream → Completes word stream) ↔ Restartable word := by
  refine ⟨fun complete => ?_, fun restartable stream => restartable.completes⟩
  by_contra fails
  obtain ⟨stream, occurs, missed⟩ := exists_missed fails
  exact missed (complete stream occurs)

end Completeness

end SeqDetect.Pattern
