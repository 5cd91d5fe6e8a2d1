import SeqDetect.Script.Names
import SeqDetect.Vhdl.WellFormed

/-!
# Declared names

Besides signals the architectures declare components and labels.  All these names stay
distinct without regard to case: up to its first digit a name tells what it is a name of,
and the numbers behind tell which one.
-/

namespace SeqDetect.Script

open Vhdl

inductive Name where
  | signal (ident : Ident)
  | out_s (i : ℕ)
  | byte_compare | FF | pull_up_module
  | byte_comp (i : ℕ) (byte : String) (j : ℕ)
  | flipflop (i j : ℕ)
  | and_ff (i j : ℕ)
  | and_s (i j : ℕ)
  | pull (i : ℕ)
  | FF_out (i : ℕ)
  deriving DecidableEq

namespace Name

def text : Name → String
  | signal ident => ident.name
  | out_s i => "out_s" ++ toString i
  | byte_compare => "byte_compare"
  | FF => "FF"
  | pull_up_module => "pull_up_module"
  | byte_comp i byte j => "byte_comp_s" ++ toString i ++ "_" ++ byte ++ "_" ++ toString j
  | flipflop i j => "flipflop_s" ++ toString i ++ "_f" ++ toString j
  | and_ff i j => "and_s" ++ toString i ++ "_ff_" ++ toString j
  | and_s i j => "and_s" ++ toString i ++ "_" ++ toString j
  | pull i => "pull_" ++ toString i
  | FF_out i => "FF_out_" ++ toString i

/-- The name in lower case, up to its first digit. -/
def stem : Name → String
  | signal .clk => "clk"
  | signal .reset => "reset"
  | signal .data_in => "data_in"
  | signal .input => "input"
  | signal .enable => "enable"
  | signal (.output _) => "output_"
  | signal (.isMatching _) => "ismatching_"
  | signal (.hold _) => "hold_"
  | signal (.cmp ..) => "cmp_s"
  | signal (.ff ..) => "s"
  | signal (.out_and ..) => "out_and_s"
  | signal (.en_and_cmp ..) => "en_and_cmp_s"
  | out_s _ => "out_s"
  | byte_compare => "byte_compare"
  | FF => "ff"
  | pull_up_module => "pull_up_module"
  | byte_comp .. => "byte_comp_s"
  | flipflop .. => "flipflop_s"
  | and_ff .. => "and_s"
  | and_s .. => "and_s"
  | pull _ => "pull_"
  | FF_out _ => "ff_out_"

/-- The name from its first digit on. -/
def tail : Name → List Char
  | signal (.output i) | signal (.isMatching i) | signal (.hold i) | out_s i | pull i
  | FF_out i => Nat.toDigits 10 i
  | signal (.cmp i byte j) =>
      Nat.toDigits 10 i ++ '_' :: ("0x".toList ++ byte.toList ++ '_' :: Nat.toDigits 10 j)
  | signal (.ff i j) | signal (.out_and i j) | and_ff i j =>
      Nat.toDigits 10 i ++ '_' :: ("ff_".toList ++ Nat.toDigits 10 j)
  | signal (.en_and_cmp i j) | and_s i j => Nat.toDigits 10 i ++ '_' :: Nat.toDigits 10 j
  | byte_comp i byte j =>
      Nat.toDigits 10 i ++ '_' :: (byte.toList ++ '_' :: Nat.toDigits 10 j)
  | flipflop i j => Nat.toDigits 10 i ++ '_' :: ("f".toList ++ Nat.toDigits 10 j)
  | _ => []

/-- The bytes in names are rendered in lower case. -/
def Lowered : Name → Prop
  | signal (.cmp _ byte _) | byte_comp _ byte _ => lower byte = byte
  | _ => True

theorem toLower_digit {c : Char} (digit : c.isDigit = true) : c.toLower = c := by
  unfold Char.toLower
  rw [dif_neg]
  intro upper
  simp only [Char.isDigit, Bool.and_eq_true, decide_eq_true_eq] at digit
  exact absurd (UInt32.le_trans upper.1 digit.2) (by decide)

@[simp] theorem map_toLower_toDigits (n : ℕ) :
    (Nat.toDigits 10 n).map Char.toLower = Nat.toDigits 10 n := by
  conv_rhs => rw [← List.map_id (Nat.toDigits 10 n)]
  exact List.map_congr_left fun c membership => toLower_digit (isDigit_of_mem_toDigits membership)

theorem toList_lower (name : String) : (lower name).toList = name.toList.map Char.toLower :=
  String.toList_map

theorem toList_lower_text {name : Name} (lowered : name.Lowered) :
    (lower name.text).toList = name.stem.toList ++ name.tail := by
  have bytes : ∀ byte, lower byte = byte → byte.toList.map Char.toLower = byte.toList := by
    intro byte same
    rw [← toList_lower, same]
  rw [toList_lower]
  cases name with
  | signal ident =>
      cases ident with
      | cmp i byte j => simp [text, Ident.name, stem, tail, bytes byte lowered]
      | _ => simp [text, Ident.name, stem, tail]
  | byte_comp i byte j => simp [text, stem, tail, bytes byte lowered]
  | _ => simp [text, stem, tail]

theorem stem_letters (name : Name) : ∀ c ∈ name.stem.toList, c.isDigit = false := by
  have letters : name.stem.toList.all (fun c => !c.isDigit) = true := by
    cases name with
    | signal ident => cases ident <;> simp only [stem] <;> decide
    | _ => simp only [stem]; decide
  simpa using letters

theorem tail_digit (name : Name) : ∀ c ∈ name.tail.head?, c.isDigit = true := by
  have digits : ∀ i rest, ∀ c ∈ (Nat.toDigits 10 i ++ rest).head?, c.isDigit = true := by
    intro i rest c first
    cases number : Nat.toDigits 10 i with
    | nil => exact absurd number Nat.toDigits_ne_nil
    | cons d others =>
        rw [number, List.cons_append, List.head?_cons, Option.mem_some_iff] at first
        subst first
        apply isDigit_of_mem_toDigits
        rw [number]
        exact List.mem_cons_self
  have number : ∀ i, ∀ c ∈ (Nat.toDigits 10 i).head?, c.isDigit = true := by
    intro i
    have alone := digits i []
    rwa [List.append_nil] at alone
  cases name with
  | signal ident => cases ident <;> simp only [tail] <;>
      first | exact digits _ _ | exact number _ | simp
  | _ => simp only [tail]; first | exact digits _ _ | exact number _ | simp

/-- Letters end at the first digit. -/
theorem letters_inj {first second rest rest' : List Char}
    (firstLetters : ∀ c ∈ first, c.isDigit = false)
    (secondLetters : ∀ c ∈ second, c.isDigit = false)
    (firstDigit : ∀ c ∈ rest.head?, c.isDigit = true)
    (secondDigit : ∀ c ∈ rest'.head?, c.isDigit = true)
    (equality : first ++ rest = second ++ rest') : first = second ∧ rest = rest' := by
  have letters : ∀ {front back : List Char}, (∀ c ∈ front, c.isDigit = false) →
      (∀ c ∈ back.head?, c.isDigit = true) →
      (front ++ back).takeWhile (fun c => !c.isDigit) = front := by
    intro front back frontLetters backDigit
    rw [List.takeWhile_append_of_pos fun c membership => by simp [frontLetters c membership]]
    cases back with
    | nil => simp
    | cons c back => simp [backDigit c rfl]
  have fronts := letters firstLetters firstDigit
  rw [equality, letters secondLetters secondDigit] at fronts
  obtain rfl := fronts
  exact ⟨rfl, List.append_cancel_left equality⟩

/-- A letter is not the first digit of a number. -/
theorem letter_ne_toDigits {c : Char} {rest : List Char} {j : ℕ} (letter : c.isDigit = false) :
    c :: rest ≠ Nat.toDigits 10 j := by
  intro same
  have digit : c.isDigit = true := isDigit_of_mem_toDigits (same ▸ List.mem_cons_self)
  exact absurd digit (by simp [letter])

theorem eq_of_stem_of_tail {first second : Name} (stems : first.stem = second.stem)
    (tails : first.tail = second.tail) : first = second := by
  cases first <;> cases second
  case signal.signal ident other =>
    congr 1
    cases ident <;> cases other <;> simp [stem] at stems <;> simp [tail] at tails ⊢
    case output.output | isMatching.isMatching | hold.hold => exact toDigits_inj tails
    case cmp.cmp =>
      obtain ⟨rfl, others⟩ := number_inj tails
      simp only [List.cons.injEq, true_and] at others
      obtain ⟨bytes, rfl⟩ := lastNumber_inj others
      exact ⟨rfl, String.toList_inj.mp bytes, rfl⟩
    case ff.ff | out_and.out_and | en_and_cmp.en_and_cmp =>
      obtain ⟨rfl, others⟩ := number_inj tails
      exact ⟨rfl, toDigits_inj (by simpa using others)⟩
  all_goals try simp only [stem, String.reduceEq] at stems
  case byte_compare.byte_compare | FF.FF | pull_up_module.pull_up_module => rfl
  case out_s.out_s | pull.pull | FF_out.FF_out => exact congrArg _ (toDigits_inj tails)
  case byte_comp.byte_comp =>
    obtain ⟨rfl, others⟩ := number_inj tails
    obtain ⟨bytes, rfl⟩ := lastNumber_inj others
    rw [String.toList_inj.mp bytes]
  case flipflop.flipflop | and_ff.and_ff =>
    obtain ⟨rfl, others⟩ := number_inj tails
    rw [toDigits_inj (List.append_cancel_left others)]
  case and_s.and_s =>
    obtain ⟨rfl, others⟩ := number_inj tails
    rw [toDigits_inj others]
  case and_ff.and_s => exact absurd (number_inj tails).2 (letter_ne_toDigits (by decide))
  case and_s.and_ff => exact absurd (number_inj tails).2.symm (letter_ne_toDigits (by decide))
  -- No signal shares its stem with anything else.
  all_goals cases ‹Ident› <;> simp at stems

/-- Names that differ in more than case are different names. -/
theorem lower_inj {first second : Name} (firstLowered : first.Lowered)
    (secondLowered : second.Lowered) (same : lower first.text = lower second.text) :
    first = second := by
  have characters := congrArg String.toList same
  rw [toList_lower_text firstLowered, toList_lower_text secondLowered] at characters
  obtain ⟨stems, tails⟩ := letters_inj first.stem_letters second.stem_letters first.tail_digit
    second.tail_digit characters
  exact eq_of_stem_of_tail (String.toList_inj.mp stems) tails

end Name

end SeqDetect.Script
