import SeqDetect.Script.Names

/-!
# Signatures in hexadecimal

A byte from `0x10` on is rendered with two digits, so the pairs of characters that
the scripts cut out of a hexified line are the bytes of the line.
-/

namespace SeqDetect.Script

open Delta Vhdl

/-- What a line of a signature file describes, for the lines the generators handle. -/
structure Signature where
  bytes : List Byte
  nonempty : bytes ≠ []
  twoDigits : ∀ b ∈ bytes, 0x10 ≤ b.toNat

/-- The lines whose stripped bytes are non-empty and all at least `0x10`. -/
def Admissible (lines : List (List Byte)) : Prop :=
  ∀ line ∈ lines, rstrip line ≠ [] ∧ ∀ b ∈ rstrip line, 0x10 ≤ b.toNat

/-- The signatures in the order in which the outputs are numbered. -/
def signatures (lines : List (List Byte)) : List (List Byte) := (sort lines).map rstrip

instance (lines : List (List Byte)) : Decidable (Admissible lines) :=
  inferInstanceAs (Decidable (∀ line ∈ lines, _))

theorem Admissible.of_mem {lines : List (List Byte)} (admissible : Admissible lines)
    {signature : List Byte} (membership : signature ∈ signatures lines) :
    signature ≠ [] ∧ ∀ b ∈ signature, 0x10 ≤ b.toNat := by
  obtain ⟨line, sorted, rfl⟩ := List.mem_map.mp membership
  exact admissible line ((List.perm_insertionSort _ _).mem_iff.mp sorted)

def hexPair (b : Byte) : String := String.ofList (Nat.toDigits 16 b.toNat)

theorem length_toDigits_of_twoDigits {b : Byte} (large : 0x10 ≤ b.toNat) :
    (Nat.toDigits 16 b.toNat).length = 2 := by
  have all : ∀ b : Byte, 0x10 ≤ b.toNat → (Nat.toDigits 16 b.toNat).length = 2 := by
    decide +kernel
  exact all b large

/-- The literal `x"…"` of a byte denotes the byte. -/
theorem eval_hexPair {Signal : Type} (state : Signal → Value) {b : Byte}
    (large : 0x10 ≤ b.toNat) :
    (Operand.hex (hexPair b)).eval state = .byte b := by
  have all : ∀ b : Byte, 0x10 ≤ b.toNat →
      Value.vector ((Nat.toDigits 16 b.toNat).flatMap hexDigitLevels) = .byte b := by
    decide +kernel
  simpa [Operand.eval, hexPair] using all b large

theorem decodeHexList_toDigits {b : Byte} (large : 0x10 ≤ b.toNat) :
    decodeHexList (Nat.toDigits 16 b.toNat) = .ok [b] := by
  have all : ∀ b : Byte, 0x10 ≤ b.toNat →
      decodeHexList (Nat.toDigits 16 b.toNat) = .ok [b] := by
    decide +kernel
  exact all b large

theorem toList_hexifyLine (line : List Byte) :
    (hexifyLine line).toList = (rstrip line).flatMap fun b => Nat.toDigits 16 b.toNat := by
  have general : ∀ (bytes : List Byte) (hexVal : String),
      (bytes.foldl (fun hexVal ch => hexVal ++ String.ofList ((hex ch.toNat).toList.drop 2))
        hexVal).toList =
        hexVal.toList ++ bytes.flatMap fun b => Nat.toDigits 16 b.toNat := by
    intro bytes
    induction bytes with
    | nil => simp
    | cons b bytes inductionHypothesis =>
        intro hexVal
        rw [List.foldl_cons, inductionHypothesis]
        simp [hex]
  simpa [hexifyLine] using general (rstrip line) ""

namespace Signature

variable (signature : Signature)

/-- The hexified line of the signature. -/
def hexVal : String :=
  String.ofList (signature.bytes.flatMap fun b => Nat.toDigits 16 b.toNat)

theorem length_pos : 0 < signature.bytes.length :=
  List.length_pos_iff.mpr signature.nonempty

/-- The index of the last stage. -/
def last : Fin signature.bytes.length :=
  ⟨signature.bytes.length - 1, Nat.sub_lt signature.length_pos Nat.one_pos⟩

/-- The byte that stage `j` compares with. -/
def byte (j : Fin signature.bytes.length) : Byte := signature.bytes[j]

theorem byte_twoDigits (j : Fin signature.bytes.length) : 0x10 ≤ (signature.byte j).toNat :=
  signature.twoDigits _ (List.getElem_mem j.isLt)

private theorem length_digits {bytes : List Byte} (large : ∀ b ∈ bytes, 0x10 ≤ b.toNat) :
    (bytes.flatMap fun b => Nat.toDigits 16 b.toNat).length = 2 * bytes.length := by
  induction bytes with
  | nil => rfl
  | cons b bytes inductionHypothesis =>
      have first := length_toDigits_of_twoDigits (large b List.mem_cons_self)
      have others := inductionHypothesis fun c membership =>
        large c (List.mem_cons_of_mem _ membership)
      simp only [List.flatMap_cons, List.length_append, first, others, List.length_cons]
      omega

theorem length_hexVal : signature.hexVal.length = 2 * signature.bytes.length := by
  simpa [hexVal] using length_digits signature.twoDigits

private theorem drop_pairs {bytes : List Byte} (large : ∀ b ∈ bytes, 0x10 ≤ b.toNat)
    (j : ℕ) (bound : j < bytes.length) :
    ((bytes.flatMap fun b => Nat.toDigits 16 b.toNat).take (2 * j + 2)).drop (2 * j) =
      Nat.toDigits 16 (bytes[j]).toNat := by
  induction bytes generalizing j with
  | nil => simp at bound
  | cons b bytes inductionHypothesis =>
      have two := length_toDigits_of_twoDigits (large b List.mem_cons_self)
      cases j with
      | zero => simp [two]
      | succ j =>
          have tail := inductionHypothesis
            (fun c membership => large c (List.mem_cons_of_mem _ membership)) j
            (by simpa using bound)
          rw [List.flatMap_cons, List.take_append, two,
            List.take_of_length_le (by omega), List.drop_append, two,
            List.drop_of_length_le (by omega)]
          simpa [Nat.mul_add] using tail

/-- The `j`-th pair of characters renders the `j`-th byte. -/
theorem slice_hexVal (j : Fin signature.bytes.length) :
    slice signature.hexVal (2 * j) (2 * j + 2) = hexPair (signature.byte j) := by
  simp [slice, hexVal, hexPair, byte, drop_pairs signature.twoDigits j j.isLt]

theorem evens_hexVal :
    evens signature.hexVal.length = (List.range signature.bytes.length).map (2 * ·) := by
  rw [evens, signature.length_hexVal]
  congr 2
  omega

theorem decode_hexVal : decodeHex signature.hexVal = .ok signature.bytes := by
  have general : ∀ bytes : List Byte, (∀ b ∈ bytes, 0x10 ≤ b.toNat) →
      decodeHexList (bytes.flatMap fun b => Nat.toDigits 16 b.toNat) = .ok bytes := by
    intro bytes
    induction bytes with
    | nil => exact fun _ => rfl
    | cons b bytes inductionHypothesis =>
        intro large
        have pair := decodeHexList_toDigits (large b List.mem_cons_self)
        have two := length_toDigits_of_twoDigits (large b List.mem_cons_self)
        obtain ⟨high, low, digits⟩ := List.length_eq_two.mp two
        have rest := inductionHypothesis fun c membership =>
          large c (List.mem_cons_of_mem _ membership)
        rw [List.flatMap_cons, digits, List.cons_append, List.cons_append, List.nil_append,
          decodeHexList, rest]
        rw [digits] at pair
        simp only [decodeHexList, bind, Except.bind, Except.ok.injEq, List.cons.injEq,
          and_true] at pair ⊢
        exact pair
  simpa [decodeHex, hexVal] using general signature.bytes signature.twoDigits

theorem decode_hexPair {b : Byte} (large : 0x10 ≤ b.toNat) :
    decodeHex (hexPair b) = .ok [b] := by
  simpa [decodeHex, hexPair] using decodeHexList_toDigits large

end Signature

/-- The signature with index `i` is the one of chain `i`. -/
theorem getElem_signatures {lines : List (List Byte)} {chains : List Signature}
    (bytes : signatures lines = chains.map Signature.bytes) {i : ℕ}
    (bound : i < (signatures lines).length) :
    ∃ inChains : i < chains.length, (signatures lines)[i] = chains[i].bytes := by
  have inChains : i < chains.length := by
    simpa [bytes] using bound
  exact ⟨inChains, by simp [bytes]⟩

/-- An admissible file, in the sorted order, is a list of signatures. -/
theorem exists_signatures {lines : List (List Byte)} (admissible : Admissible lines) :
    ∃ chains : List Signature, signatures lines = chains.map Signature.bytes ∧
      hexify (sort lines) = chains.map Signature.hexVal := by
  have general : ∀ sorted : List (List Byte),
      (∀ line ∈ sorted, rstrip line ≠ [] ∧ ∀ b ∈ rstrip line, 0x10 ≤ b.toNat) →
      ∃ chains : List Signature, sorted.map rstrip = chains.map Signature.bytes ∧
        hexify sorted = chains.map Signature.hexVal := by
    intro sorted
    induction sorted with
    | nil => exact fun _ => ⟨[], rfl, rfl⟩
    | cons line sorted inductionHypothesis =>
        intro valid
        obtain ⟨chains, bytes, hexVals⟩ := inductionHypothesis fun other membership =>
          valid other (List.mem_cons_of_mem _ membership)
        have first := valid line List.mem_cons_self
        refine ⟨⟨rstrip line, first.1, first.2⟩ :: chains, by simp [bytes], ?_⟩
        have rendered : hexifyLine line = Signature.hexVal ⟨rstrip line, first.1, first.2⟩ := by
          rw [← String.toList_inj, toList_hexifyLine]
          simp [Signature.hexVal]
        rw [List.map_cons, ← hexVals, ← rendered]
        rfl
  apply general
  intro line membership
  exact admissible.of_mem (List.mem_map_of_mem membership)

theorem chains_ne_nil {lines : List (List Byte)} (nonempty : lines ≠ [])
    {chains : List Signature} (bytes : signatures lines = chains.map Signature.bytes) :
    chains ≠ [] := by
  rintro rfl
  have count := congrArg List.length bytes
  simp only [signatures, sort, List.length_map, List.length_insertionSort] at count
  exact nonempty (List.length_eq_zero_iff.mp count)

end SeqDetect.Script
