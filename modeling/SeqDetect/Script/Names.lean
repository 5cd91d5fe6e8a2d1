import SeqDetect.Script.Python
import Std.Data.String.ToNat

/-!
# Signal names

The scripts build the name of a signal from literal text, the index of the
signature, the byte and the position of the stage.  Distinct signals get distinct
names: a decimal number is followed by the end of the name or by an underscore.
-/

namespace SeqDetect.Script

/-- The signals of the emitted architectures. -/
inductive Ident where
  | clk | reset | data_in | input | enable
  | output (i : ℕ)
  | isMatching (i : ℕ)
  | hold (i : ℕ)
  | cmp (i : ℕ) (byte : String) (j : ℕ)
  | ff (i j : ℕ)
  | out_and (i j : ℕ)
  | en_and_cmp (i j : ℕ)
  deriving DecidableEq

def Ident.name : Ident → String
  | clk => "clk"
  | reset => "reset"
  | data_in => "data_in"
  | input => "input"
  | enable => "enable"
  | output i => "output_" ++ toString i
  | isMatching i => "isMatching_" ++ toString i
  | hold i => "hold_" ++ toString i
  | cmp i byte j => "cmp_s" ++ toString i ++ "_0x" ++ byte ++ "_" ++ toString j
  | ff i j => "s" ++ toString i ++ "_ff_" ++ toString j
  | out_and i j => "out_and_s" ++ toString i ++ "_ff_" ++ toString j
  | en_and_cmp i j => "en_and_cmp_s" ++ toString i ++ "_" ++ toString j

def outputName (i : ℕ) : String := "output_" ++ toString i

theorem isDigit_of_mem_toDigits {n : ℕ} {c : Char} (membership : c ∈ Nat.toDigits 10 n) :
    c.isDigit = true :=
  Nat.isDigit_of_mem_toDigits (by decide) (by decide) membership

theorem toDigits_inj {m n : ℕ} (equality : Nat.toDigits 10 m = Nat.toDigits 10 n) : m = n :=
  Nat.repr_injective (congrArg String.ofList equality)

/-- A run of digits ends at the first underscore. -/
theorem digits_inj {first second rest rest' : List Char}
    (firstDigits : ∀ c ∈ first, c.isDigit = true) (secondDigits : ∀ c ∈ second, c.isDigit = true)
    (equality : first ++ '_' :: rest = second ++ '_' :: rest') :
    first = second ∧ rest = rest' := by
  induction first generalizing second with
  | nil =>
      cases second with
      | nil => simpa using equality
      | cons c second =>
          simp only [List.nil_append, List.cons_append, List.cons.injEq] at equality
          have digit := secondDigits c List.mem_cons_self
          rw [← equality.1] at digit
          simp at digit
  | cons c first inductionHypothesis =>
      cases second with
      | nil =>
          simp only [List.nil_append, List.cons_append, List.cons.injEq] at equality
          have digit := firstDigits c List.mem_cons_self
          rw [equality.1] at digit
          simp at digit
      | cons d second =>
          simp only [List.cons_append, List.cons.injEq] at equality
          obtain ⟨rfl, equality⟩ := equality
          obtain ⟨rfl, restEquality⟩ := inductionHypothesis
            (fun e membership => firstDigits e (List.mem_cons_of_mem _ membership))
            (fun e membership => secondDigits e (List.mem_cons_of_mem _ membership)) equality
          exact ⟨rfl, restEquality⟩

/-- A number followed by an underscore. -/
theorem number_inj {m n : ℕ} {rest rest' : List Char}
    (equality : Nat.toDigits 10 m ++ '_' :: rest = Nat.toDigits 10 n ++ '_' :: rest') :
    m = n ∧ rest = rest' := by
  obtain ⟨digits, tails⟩ := digits_inj (fun _ => isDigit_of_mem_toDigits)
    (fun _ => isDigit_of_mem_toDigits) equality
  exact ⟨toDigits_inj digits, tails⟩

/-- A number at the end of a name, after an underscore. -/
theorem lastNumber_inj {m n : ℕ} {front front' : List Char}
    (equality : front ++ '_' :: Nat.toDigits 10 m = front' ++ '_' :: Nat.toDigits 10 n) :
    front = front' ∧ m = n := by
  have reversed := congrArg List.reverse equality
  simp only [List.reverse_append, List.reverse_cons, List.append_assoc, List.singleton_append]
    at reversed
  obtain ⟨digits, fronts⟩ := digits_inj
    (fun _ membership => isDigit_of_mem_toDigits (List.mem_reverse.mp membership))
    (fun _ membership => isDigit_of_mem_toDigits (List.mem_reverse.mp membership)) reversed
  exact ⟨List.reverse_injective fronts, toDigits_inj (List.reverse_injective digits)⟩

theorem Ident.name_injective : Function.Injective Ident.name := by
  intro first second equality
  have characters := congrArg String.toList equality
  cases first <;> cases second <;> simp [Ident.name] at characters ⊢
  case output.output | isMatching.isMatching | hold.hold => exact toDigits_inj characters
  case cmp.cmp =>
    obtain ⟨rfl, tails⟩ := number_inj characters
    simp only [List.cons.injEq, true_and] at tails
    obtain ⟨bytes, rfl⟩ := lastNumber_inj tails
    exact ⟨rfl, String.toList_inj.mp bytes, rfl⟩
  case ff.ff | out_and.out_and | en_and_cmp.en_and_cmp =>
    obtain ⟨rfl, tails⟩ := number_inj characters
    exact ⟨rfl, toDigits_inj (by simpa using tails)⟩

end SeqDetect.Script
