import Mathlib.Data.BitVec
import Mathlib.Tactic

/-!
# Nine-valued logic

The values of `std_logic` and `std_logic_vector` signals, with the operations of
the IEEE 1164 package that a synthesizable description uses: `and`, `To_X01` and
the predefined equality.  Vectors are listed from the leftmost element on, as
`(7 downto 0)` literals are written.
-/

namespace SeqDetect.Delta

/-- `('U', 'X', '0', '1', 'Z', 'W', 'L', 'H', '-')`. -/
inductive StdLogic where
  | U | X | zero | one | Z | W | L | H | dash
  deriving DecidableEq, Repr

namespace StdLogic

/-- `To_X01`: strip the strength of a level. -/
def toX01 : StdLogic → StdLogic
  | zero | L => zero
  | one | H => one
  | _ => X

/-- The `and` table of IEEE 1164.  A low operand decides the result whatever the
other one is; only then does `'U'` win over the remaining metavalues. -/
def and : StdLogic → StdLogic → StdLogic
  | zero, _ | L, _ | _, zero | _, L => zero
  | U, _ | _, U => U
  | one, one | one, H | H, one | H, H => one
  | _, _ => X

def ofBool (level : Bool) : StdLogic := if level then one else zero

@[simp] theorem ofBool_true : ofBool true = one := rfl
@[simp] theorem ofBool_false : ofBool false = zero := rfl

@[simp] theorem ofBool_inj {a b : Bool} : ofBool a = ofBool b ↔ a = b := by
  cases a <;> cases b <;> simp [ofBool]

@[simp] theorem ofBool_and (a b : Bool) : and (ofBool a) (ofBool b) = ofBool (a && b) := by
  cases a <;> cases b <;> rfl

@[simp] theorem toX01_ofBool (a : Bool) : toX01 (ofBool a) = ofBool a := by
  cases a <;> rfl

/-- The literal `'0'` or `'1'` of one position of a bit string. -/
def ofChar (c : Char) : StdLogic := if c = '1' then one else zero

end StdLogic

abbrev Byte := BitVec 8

/-- A signal carries one level or a vector of levels. -/
inductive Value where
  | logic (level : StdLogic)
  | vector (levels : List StdLogic)
  deriving DecidableEq, Repr

namespace Value

/-- `and` on two signals.  Mixed or vector operands do not occur in the designs
simulated here, where every gate joins two `std_logic` signals. -/
def and : Value → Value → Value
  | logic a, logic b => logic (a.and b)
  | _, _ => logic .X

def bit (level : Bool) : Value := logic (.ofBool level)

def byte (b : Byte) : Value :=
  vector [.ofBool b[7], .ofBool b[6], .ofBool b[5], .ofBool b[4],
    .ofBool b[3], .ofBool b[2], .ofBool b[1], .ofBool b[0]]

@[simp] theorem bit_inj {a b : Bool} : bit a = bit b ↔ a = b := by simp [bit]

@[simp] theorem bit_and (a b : Bool) : and (bit a) (bit b) = bit (a && b) := by
  simp [bit, and]

@[simp] theorem bit_eq_one {a : Bool} : bit a = logic .one ↔ a = true := by
  cases a <;> simp [bit]

@[simp] theorem bit_eq_zero {a : Bool} : bit a = logic .zero ↔ a = false := by
  cases a <;> simp [bit]

@[simp] theorem byte_inj {a b : Byte} : byte a = byte b ↔ a = b := by
  constructor
  · intro equality
    simp only [byte, vector.injEq, List.cons.injEq, StdLogic.ofBool_inj, and_true] at equality
    obtain ⟨h7, h6, h5, h4, h3, h2, h1, h0⟩ := equality
    apply BitVec.eq_of_getElem_eq
    intro k hk
    interval_cases k <;> assumption
  · rintro rfl
    rfl

/-- `rising_edge` of a signal that went from `before` to `after`. -/
def rises (before after : Value) : Bool :=
  match before, after with
  | logic a, logic b => a ≠ b && a.toX01 = .zero && b.toX01 = .one
  | _, _ => false

@[simp] theorem rises_self (value : Value) : rises value value = false := by
  cases value <;> simp [rises]

@[simp] theorem rises_bit (a b : Bool) : rises (bit a) (bit b) = (!a && b) := by
  cases a <;> cases b <;> rfl

end Value

end SeqDetect.Delta
