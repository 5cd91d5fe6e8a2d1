import SeqDetect.Script.Hexify

/-!
# The groups of a hexified line

`seq_detect_signals` and `seq_detect_ports` cut a hexified line into groups of two
characters.  A byte below `0x10` is rendered with one character, which moves every group
behind it.
-/

namespace SeqDetect.Script

open Delta

/-- The groups `hexVal[j:j+2]` of the loops over a hexified line. -/
def groups (hexVal : String) : List String :=
  (evens hexVal.length).map fun j => slice hexVal j (j + 2)

/-- The groups decode to exactly these bytes. -/
def Decodes (hexVal : String) (bytes : List Byte) : Prop :=
  (groups hexVal).map decodeHex = bytes.map fun b => .ok [b]

/-- What `hexify` has to do to lose nothing. -/
structure LosesNothing (lines : List (List Byte)) : Prop where
  one_per_line : (hexify lines).length = lines.length
  decodes : ∀ i (bound : i < lines.length), ∃ hexVal, (hexify lines)[i]? = some hexVal ∧
    Decodes hexVal (rstrip lines[i])
  injective : ∀ i (bound : i < lines.length), ∀ k (other : k < lines.length),
    (hexify lines)[i]? = (hexify lines)[k]? → rstrip lines[i] = rstrip lines[k]

theorem Decodes.unique {hexVal : String} {first second : List Byte}
    (decodesFirst : Decodes hexVal first) (decodesSecond : Decodes hexVal second) :
    first = second := by
  have same : (first.map fun b => (Except.ok [b] : Except PyError (List Byte))) =
      second.map fun b => .ok [b] := decodesFirst.symm.trans decodesSecond
  exact List.map_injective_iff.mpr (fun b c equality => by simpa using equality) same

theorem length_groups (hexVal : String) : (groups hexVal).length = (hexVal.length + 1) / 2 := by
  simp [groups, evens]

theorem decodeHexList_of_odd {digits : List Char} (odd : digits.length % 2 = 1) :
    decodeHexList digits = .error .typeError := by
  induction digits using decodeHexList.induct with
  | case1 => simp at odd
  | case2 => rfl
  | case3 high low rest inductionHypothesis =>
      rw [decodeHexList, inductionHypothesis (by simp only [List.length_cons] at odd; omega)]
      rfl

theorem decodeHex_of_odd {hexVal : String} (odd : hexVal.length % 2 = 1) :
    decodeHex hexVal = .error .typeError :=
  decodeHexList_of_odd (by rwa [String.length_toList])

/-- The last group of an odd number of characters has one character, which does not
decode. -/
theorem decodeHex_last {hexVal : String} (odd : hexVal.length % 2 = 1) :
    decodeHex (slice hexVal (hexVal.length - 1) (hexVal.length - 1 + 2)) = .error .typeError := by
  refine decodeHex_of_odd ?_
  rw [slice, ← String.length_toList, String.toList_ofList, List.length_drop, List.length_take,
    String.length_toList]
  omega

theorem Decodes.length_eq {hexVal : String} {bytes : List Byte} (decodes : Decodes hexVal bytes) :
    hexVal.length = 2 * bytes.length := by
  have count : (groups hexVal).length = bytes.length := by
    have same := congrArg List.length decodes
    rwa [List.length_map, List.length_map] at same
  rw [length_groups] at count
  rcases Nat.mod_two_eq_zero_or_one hexVal.length with even | odd
  · omega
  · have inLoop : hexVal.length - 1 ∈ evens hexVal.length :=
      List.mem_map.mpr ⟨hexVal.length / 2, List.mem_range.mpr (by omega), by omega⟩
    have decoded : decodeHex (slice hexVal (hexVal.length - 1) (hexVal.length - 1 + 2)) ∈
        (groups hexVal).map decodeHex :=
      List.mem_map_of_mem (List.mem_map_of_mem inLoop)
    rw [decodes, decodeHex_last odd] at decoded
    simp at decoded

/-- No byte has more than two digits, and only the bytes from `0x10` on have two. -/
theorem length_toDigits (b : Byte) :
    (Nat.toDigits 16 b.toNat).length = if 0x10 ≤ b.toNat then 2 else 1 := by
  have all : ∀ b : Byte,
      (Nat.toDigits 16 b.toNat).length = if 0x10 ≤ b.toNat then 2 else 1 := by
    decide +kernel
  exact all b

/-- Each narrow byte costs one character. -/
theorem length_digits_add (bytes : List Byte) :
    (bytes.flatMap fun b => Nat.toDigits 16 b.toNat).length +
      bytes.countP (fun b => b.toNat < 0x10) = 2 * bytes.length := by
  induction bytes with
  | nil => rfl
  | cons b bytes inductionHypothesis =>
      rw [List.flatMap_cons, List.length_append, length_toDigits, List.countP_cons,
        List.length_cons]
      by_cases large : 0x10 ≤ b.toNat
      · rw [if_pos large, if_neg (by simpa using large)]
        omega
      · rw [if_neg large, if_pos (by simpa using large)]
        omega

theorem length_hexifyLine (line : List Byte) :
    (hexifyLine line).length + (rstrip line).countP (fun b => b.toNat < 0x10) =
      2 * (rstrip line).length := by
  rw [← String.length_toList, toList_hexifyLine]
  exact length_digits_add (rstrip line)

theorem decodes_hexVal (signature : Signature) :
    Decodes signature.hexVal signature.bytes := by
  rw [Decodes, groups, signature.evens_hexVal]
  refine List.ext_getElem (by simp) fun j _ bound => ?_
  rw [List.length_map] at bound
  have pair := signature.slice_hexVal ⟨j, bound⟩
  simp only [List.getElem_map, List.getElem_range]
  rw [pair]
  exact Signature.decode_hexPair (signature.byte_twoDigits _)

/-- A line comes back from its groups exactly if it has no narrow byte. -/
theorem decodes_iff (line : List Byte) :
    Decodes (hexifyLine line) (rstrip line) ↔ ∀ b ∈ rstrip line, 0x10 ≤ b.toNat := by
  constructor
  · intro decodes b membership
    have narrow := length_hexifyLine line
    rw [decodes.length_eq] at narrow
    have none : (rstrip line).countP (fun b => b.toNat < 0x10) = 0 := by omega
    simpa using List.countP_eq_zero.mp none b membership
  · intro large
    by_cases empty : rstrip line = []
    · have nothing : hexifyLine line = "" := by
        rw [← String.toList_inj, toList_hexifyLine, empty]
        rfl
      rw [nothing, empty]
      rfl
    · have rendered : hexifyLine line = Signature.hexVal ⟨rstrip line, empty, large⟩ := by
        rw [← String.toList_inj, toList_hexifyLine]
        simp [Signature.hexVal]
      rw [rendered]
      exact decodes_hexVal ⟨rstrip line, empty, large⟩

/-- `hexify` loses nothing exactly if no line has a byte below `0x10` left when it is
stripped. -/
theorem losesNothing_iff (lines : List (List Byte)) :
    LosesNothing lines ↔ ∀ line ∈ lines, ∀ b ∈ rstrip line, 0x10 ≤ b.toNat := by
  have rendered : ∀ i (bound : i < lines.length),
      (hexify lines)[i]? = some (hexifyLine lines[i]) := by
    intro i bound
    rw [hexify, List.getElem?_map, List.getElem?_eq_getElem bound, Option.map_some]
  constructor
  · intro loses line membership
    obtain ⟨i, bound, rfl⟩ := List.getElem_of_mem membership
    obtain ⟨hexVal, found, decodes⟩ := loses.decodes i bound
    rw [rendered i bound, Option.some.injEq] at found
    subst found
    exact (decodes_iff _).mp decodes
  · intro large
    have decodes : ∀ i (bound : i < lines.length),
        Decodes (hexifyLine lines[i]) (rstrip lines[i]) :=
      fun i bound => (decodes_iff _).mpr (large _ (List.getElem_mem bound))
    refine ⟨List.length_map _, fun i bound => ⟨_, rendered i bound, decodes i bound⟩, ?_⟩
    intro i bound k other same
    rw [rendered i bound, rendered k other, Option.some.injEq] at same
    have others := decodes k other
    rw [← same] at others
    exact (decodes i bound).unique others

/-- The lines `01 23` and `12 03` are both rendered as `123`. -/
theorem loses_0123_1203 : ¬ LosesNothing [[0x01, 0x23], [0x12, 0x03]] := by
  intro loses
  exact absurd (loses.injective 0 (by decide) 1 (by decide) (by decide +kernel))
    (by decide +kernel)

end SeqDetect.Script
