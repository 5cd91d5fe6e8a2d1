import SeqDetect.Delta.Logic

/-!
# Drivers and slices

A signal with several drivers takes the resolved value of all of them.  The equality of
`STD_LOGIC_UNSIGNED` compares two vectors after `MAKE_BINARY`, which turns a vector with a
metavalue into a vector of `'X'`, so two such vectors are equal whatever else they hold.
-/

namespace SeqDetect.Delta

namespace StdLogic

/-- `resolution_table` of IEEE 1164. -/
def resolve : StdLogic → StdLogic → StdLogic
  | U, _ | _, U => U
  | X, _ | _, X | dash, _ | _, dash => X
  | zero, one | one, zero => X
  | zero, _ | _, zero => zero
  | one, _ | _, one => one
  | Z, level | level, Z => level
  | L, L => L
  | H, H => H
  | _, _ => W

/-- `resolved`: a single driver decides the value, several are joined from `'Z'` on. -/
def resolved : List StdLogic → StdLogic
  | [level] => level
  | levels => levels.foldl resolve Z

/-- Drivers that agree on a level other than `'-'` are resolved to it. -/
theorem resolved_same {a : StdLogic} (weak : a ≠ dash) : resolved [a, a, a] = a := by
  cases a <;> first | rfl | exact absurd rfl weak

/-- `MAKE_BINARY`: one metavalue spoils the whole vector. -/
def makeBinary (levels : List StdLogic) : List StdLogic :=
  if ∃ level ∈ levels, level.toX01 = X then List.replicate levels.length X
  else levels.map toX01

theorem makeBinary_ofBool (bits : List Bool) :
    makeBinary (bits.map ofBool) = bits.map ofBool := by
  have defined : ¬ ∃ level ∈ bits.map ofBool, level.toX01 = X := by
    rintro ⟨level, membership, metavalue⟩
    obtain ⟨bit, -, rfl⟩ := List.mem_map.mp membership
    cases bit <;> exact absurd metavalue (by decide)
  rw [makeBinary, if_neg defined, List.map_map]
  congr 1
  funext bit
  exact toX01_ofBool bit

end StdLogic

namespace Value

/-- The elements of a signal, leftmost first. -/
def levels : Value → List StdLogic
  | logic level => [level]
  | vector levels => levels

/-- `=` of `STD_LOGIC_UNSIGNED` on vectors of one length. -/
def equals (left right : Value) : Bool :=
  decide (StdLogic.makeBinary left.levels = StdLogic.makeBinary right.levels)

/-- The value of a signal with several drivers, all of type `std_logic`. -/
def resolved (drivers : List Value) : Value :=
  logic (StdLogic.resolved (drivers.flatMap levels))

/-- `value(high downto low)` of a signal declared `(left downto 0)`. -/
def slice (left high low : ℕ) (value : Value) : Value :=
  vector ((value.levels.drop (left - high)).take (high - low + 1))

/-- `&`, of any number of vectors. -/
def join (values : List Value) : Value := vector (values.flatMap levels)

/-- A vector that holds whole bytes, leftmost first. -/
def word (bytes : List Byte) : Value := join (bytes.map byte)

/-- `n` zero bits. -/
def zeros (n : ℕ) : Value := vector (List.replicate n .zero)

theorem resolved_same {level : StdLogic} (weak : level ≠ .dash) :
    resolved [logic level, logic level, logic level] = logic level := by
  rw [resolved, logic.injEq]
  exact StdLogic.resolved_same weak

@[simp] theorem length_levels_byte (b : Byte) : (byte b).levels.length = 8 := rfl

/-- On defined bytes the overloaded equality is equality. -/
@[simp] theorem equals_byte {a b : Byte} : equals (byte a) (byte b) = decide (a = b) := by
  have binary : ∀ x : Byte, StdLogic.makeBinary (byte x).levels = (byte x).levels := fun x =>
    StdLogic.makeBinary_ofBool [x[7], x[6], x[5], x[4], x[3], x[2], x[1], x[0]]
  rw [equals, binary, binary, decide_eq_decide]
  constructor
  · intro same
    exact byte_inj.mp (congrArg vector same)
  · rintro rfl
    rfl

theorem zeros_eight : zeros 8 = byte 0 := by decide

section Words

variable {bytes : List Byte}

theorem levels_word (bytes : List Byte) :
    (word bytes).levels = bytes.flatMap fun b => (byte b).levels := by
  simp [word, join, levels, List.flatMap_map]

theorem drop_levels_word (bytes : List Byte) (i : ℕ) :
    (word bytes).levels.drop (8 * i) = (word (bytes.drop i)).levels := by
  induction i generalizing bytes with
  | zero => rfl
  | succ i inductionHypothesis =>
      cases bytes with
      | nil => rfl
      | cons b bytes =>
          rw [levels_word, List.flatMap_cons, List.drop_append, length_levels_byte,
            List.drop_of_length_le (by rw [length_levels_byte]; omega), List.nil_append,
            ← levels_word, Nat.mul_succ, Nat.add_sub_cancel, inductionHypothesis, List.drop_succ_cons]

theorem take_levels_word (bytes : List Byte) (n : ℕ) :
    (word bytes).levels.take (8 * n) = (word (bytes.take n)).levels := by
  induction n generalizing bytes with
  | zero => rfl
  | succ n inductionHypothesis =>
      cases bytes with
      | nil => rfl
      | cons b bytes =>
          rw [levels_word, List.flatMap_cons, List.take_append, length_levels_byte,
            List.take_of_length_le (by rw [length_levels_byte]; omega), ← levels_word,
            Nat.mul_succ, Nat.add_sub_cancel, inductionHypothesis, List.take_succ_cons,
            levels_word (b :: _), List.flatMap_cons, ← levels_word]

/-- A slice along byte boundaries. -/
theorem slice_word {left high low : ℕ} (i n : ℕ) (first : left - high = 8 * i)
    (size : high - low + 1 = 8 * n) :
    slice left high low (word bytes) = word ((bytes.drop i).take n) := by
  rw [slice, first, size, drop_levels_word, take_levels_word]
  rfl

theorem word_eq (bytes : List Byte) : word bytes = vector (word bytes).levels := rfl

theorem word_inj {first second : List Byte} : word first = word second ↔ first = second := by
  refine ⟨fun same => ?_, congrArg word⟩
  rw [word_eq first, word_eq second, vector.injEq, levels_word, levels_word] at same
  induction first generalizing second with
  | nil =>
      cases second with
      | nil => rfl
      | cons c second =>
          have sizes := congrArg List.length same
          simp only [List.flatMap_nil, List.flatMap_cons, List.length_nil, List.length_append,
            length_levels_byte] at sizes
          omega
  | cons b first inductionHypothesis =>
      cases second with
      | nil =>
          have sizes := congrArg List.length same
          simp at sizes
      | cons c second =>
          rw [List.flatMap_cons, List.flatMap_cons] at same
          obtain ⟨heads, tails⟩ := List.append_inj same rfl
          rw [inductionHypothesis tails, byte_inj.mp (congrArg vector heads)]

theorem join_word (groups : List (List Byte)) : join (groups.map word) = word groups.flatten := by
  rw [word_eq groups.flatten, levels_word, join, List.flatMap_map]
  congr 1
  induction groups with
  | nil => rfl
  | cons group groups inductionHypothesis =>
      rw [List.flatMap_cons, List.flatten_cons, List.flatMap_append, inductionHypothesis,
        levels_word]

theorem zeros_word (n : ℕ) : zeros (8 * n) = word (List.replicate n 0) := by
  rw [word_eq, zeros]
  congr 1
  induction n with
  | zero => rfl
  | succ n inductionHypothesis =>
      rw [Nat.mul_succ, Nat.add_comm, List.replicate_add, inductionHypothesis, levels_word,
        levels_word, List.replicate_succ (n := n) (a := (0 : Byte)), List.flatMap_cons]
      rfl

end Words

end Value

end SeqDetect.Delta
