import SeqDetect.Script.Groups
import SeqDetect.Script.Labels
import SeqDetect.Vhdl.Layout
import SeqDetect.Vhdl.Sketch

/-!
# What a script writes

The code and the comments of a run are followed apart.  The comments hold the decoded bytes,
which is why a generator can fail; the loops over a hexified line see its groups and their
numbers.
-/

namespace SeqDetect.Script

open Delta Vhdl

namespace Emit

/-- The computation ran to its end, and these are the code and the comments that it wrote. -/
def Codes (computation : Emit Unit) (items : List Item) (texts : List (List Byte)) : Prop :=
  ∃ written, computation.Writes written ∧ code written = items ∧ comments written = texts

def Fails {Result : Type} (computation : Emit Result) : Prop :=
  ∃ error, computation.result = .error error

theorem codes_write {items : List Item} (noComment : ∀ item ∈ items, item.isComment = false) :
    (write items).Codes items [] := by
  have same : code items = items := by
    refine List.filter_eq_self.mpr fun item membership => ?_
    rw [noComment item membership]
    rfl
  refine ⟨items, rfl, same, ?_⟩
  rw [← same]
  exact comments_code items

theorem codes_comment (text : List Byte) : (write [.comment text]).Codes [] [text] :=
  ⟨_, rfl, rfl, rfl⟩

section Composition

variable {items rest : List Item} {texts more : List (List Byte)}

theorem Codes.bind {first : Emit Unit} {next : Unit → Emit Unit}
    (firstCodes : first.Codes items texts) (nextCodes : (next ()).Codes rest more) :
    (first >>= next).Codes (items ++ rest) (texts ++ more) := by
  obtain ⟨written, firstWrites, rfl, rfl⟩ := firstCodes
  obtain ⟨others, nextWrites, rfl, rfl⟩ := nextCodes
  exact ⟨written ++ others, firstWrites.bind nextWrites, code_append _ _, comments_append _ _⟩

/-- One computation after another. -/
theorem Codes.then {first next : Emit Unit} (firstCodes : first.Codes items texts)
    (nextCodes : next.Codes rest more) :
    (first >>= fun _ => next).Codes (items ++ rest) (texts ++ more) :=
  firstCodes.bind nextCodes

/-- Code without comments comes first. -/
theorem Codes.silent_then {first next : Emit Unit} (firstCodes : first.Codes items [])
    (nextCodes : next.Codes rest texts) :
    (first >>= fun _ => next).Codes (items ++ rest) texts :=
  firstCodes.then nextCodes

/-- Code without comments comes last. -/
theorem Codes.then_silent {first next : Emit Unit} (firstCodes : first.Codes items texts)
    (nextCodes : next.Codes rest []) :
    (first >>= fun _ => next).Codes (items ++ rest) texts := by
  have codes := firstCodes.then nextCodes
  rwa [List.append_nil] at codes

theorem Codes.ofExcept_bind {Result : Type} {value : Result} {next : Result → Emit Unit}
    (nextCodes : (next value).Codes items texts) :
    (ofExcept (.ok value) >>= next).Codes items texts := by
  obtain ⟨written, nextWrites, rfl, rfl⟩ := nextCodes
  exact ⟨written, nextWrites.ofExcept_bind, rfl, rfl⟩

theorem codes_forM {Entry : Type} {entries : List Entry} {body : Entry → Emit Unit}
    {items : Entry → List Item} {texts : Entry → List (List Byte)}
    (each : ∀ entry ∈ entries, (body entry).Codes (items entry) (texts entry)) :
    (entries.forM body).Codes (entries.flatMap items) (entries.flatMap texts) := by
  induction entries with
  | nil => exact ⟨[], rfl, rfl, rfl⟩
  | cons entry entries inductionHypothesis =>
      change (body entry >>= fun _ => entries.forM body).Codes _ _
      exact (each entry List.mem_cons_self).bind
        (inductionHypothesis fun other membership => each other (List.mem_cons_of_mem _ membership))

/-- A computation fails or runs to its end. -/
theorem fails_or_codes (computation : Emit Unit) :
    computation.Fails ∨
      computation.Codes (code computation.written) (comments computation.written) := by
  obtain ⟨written, result⟩ := computation
  cases result with
  | error error => exact .inl ⟨error, rfl⟩
  | ok => exact .inr ⟨written, rfl, rfl, rfl⟩

theorem Writes.not_fails {computation : Emit Unit} (writes : computation.Writes items) :
    ¬ computation.Fails := by
  rintro ⟨error, failed⟩
  obtain rfl : computation = ⟨items, .ok ()⟩ := writes
  exact absurd failed (by simp)

theorem Codes.not_fails {computation : Emit Unit} (codes : computation.Codes items texts) :
    ¬ computation.Fails := by
  obtain ⟨written, writes, -⟩ := codes
  exact writes.not_fails

end Composition

theorem Fails.bind {First Second : Type} {first : Emit First} {next : First → Emit Second}
    (fails : first.Fails) : (first >>= next).Fails := by
  obtain ⟨written, result⟩ := first
  obtain ⟨error, rfl⟩ : ∃ error, result = .error error := fails
  exact ⟨error, rfl⟩

theorem Fails.of_next {First Second : Type} {first : Emit First} {next : First → Emit Second}
    (fails : ∀ value, (next value).Fails) : (first >>= next).Fails := by
  obtain ⟨written, result⟩ := first
  cases result with
  | error error => exact ⟨error, rfl⟩
  | ok value => exact fails value

theorem fails_forM {Entry : Type} {entries : List Entry} {body : Entry → Emit Unit}
    {entry : Entry} (membership : entry ∈ entries) (fails : (body entry).Fails) :
    (entries.forM body).Fails := by
  induction entries with
  | nil => exact absurd membership List.not_mem_nil
  | cons other entries inductionHypothesis =>
      change (body other >>= fun _ => entries.forM body).Fails
      rcases List.mem_cons.mp membership with rfl | later
      · exact fails.bind
      · exact Fails.of_next fun _ => inductionHypothesis later

end Emit

/-- The file that a sketch stands for. -/
abbrev rendered (lines : List (Line Name)) : List Item := Sketch.render Name.text lines

theorem isComment_rendered (lines : List (Line Name)) :
    ∀ item ∈ rendered lines, item.isComment = false := by
  intro item membership
  obtain ⟨line, -, rfl⟩ := List.mem_map.mp membership
  cases line <;> rfl

theorem rendered_append (first second : List (Line Name)) :
    rendered (first ++ second) = rendered first ++ rendered second :=
  List.map_append

theorem rendered_flatMap {Entry : Type} (entries : List Entry) (lines : Entry → List (Line Name)) :
    rendered (entries.flatMap lines) = entries.flatMap fun entry => rendered (lines entry) :=
  List.map_flatMap

/-- A write of items with structured names. -/
theorem codes_rendered {items : List Item} {lines : List (Line Name)}
    (same : items = rendered lines) : (Emit.write items).Codes (rendered lines) [] := by
  rw [same]
  exact Emit.codes_write (isComment_rendered lines)

/-- A loop that writes one item for each index. -/
theorem codes_range {item : ℕ → Item} {line : ℕ → Line Name}
    (same : ∀ i, item i = (line i).item Name.text) (count : ℕ) :
    (Emit.write ((List.range count).map item)).Codes
      (rendered ((List.range count).map line)) [] := by
  refine codes_rendered ?_
  rw [rendered, Sketch.render, List.map_map]
  exact List.map_congr_left fun i _ => same i

/-- Both headers end with the output ports, the last of which has no separator behind it. -/
theorem outputs_codes (count : ℕ) :
    (Emit.write ((List.range (count + 1 - 1)).map fun i =>
        .port ⟨"output_" ++ toString i, .output, .std_logic⟩) >>= fun _ =>
      Emit.write [.port ⟨"output_" ++ toString (((count + 1 : ℕ) : ℤ) - 1), .output,
        .std_logic⟩]).Codes
      (rendered ((List.range (count + 1)).map fun i =>
        .port (.signal (.output i)) .output .std_logic)) [] := by
  have last : toString (((count + 1 : ℕ) : ℤ) - 1) = toString count := by
    rw [Nat.cast_succ, add_sub_cancel_right]
    rfl
  rw [last, Nat.add_sub_cancel, List.range_succ, List.map_append, rendered_append]
  refine Emit.Codes.silent_then (codes_range ?_ count) (codes_rendered rfl)
  exact fun _ => rfl

section Hexadecimal

theorem decodeHexList_of_even {digits : List Char} (even : digits.length % 2 = 0) :
    ∃ bytes, decodeHexList digits = .ok bytes := by
  induction digits using decodeHexList.induct with
  | case1 => exact ⟨[], rfl⟩
  | case2 => simp at even
  | case3 high low rest inductionHypothesis =>
      have shorter : rest.length % 2 = 0 := by
        simp only [List.length_cons] at even
        omega
      obtain ⟨bytes, decoded⟩ := inductionHypothesis shorter
      rw [decodeHexList, decoded]
      exact ⟨_, rfl⟩

theorem decodeHex_of_even {hexVal : String} (even : hexVal.length % 2 = 0) :
    ∃ bytes, decodeHex hexVal = .ok bytes :=
  decodeHexList_of_even (by rwa [String.length_toList])

/-- What a hexified line decodes to, for a line that does. -/
def decoded (hexVal : String) : List Byte := (decodeHex hexVal).toOption.getD []

theorem decodeHex_eq_decoded {hexVal : String} (even : hexVal.length % 2 = 0) :
    decodeHex hexVal = .ok (decoded hexVal) := by
  obtain ⟨bytes, decodes⟩ := decodeHex_of_even even
  rw [decoded, decodes]
  rfl

theorem mem_evens {stop j : ℕ} : j ∈ evens stop ↔ j < stop ∧ j % 2 = 0 := by
  simp only [evens, List.mem_map, List.mem_range]
  constructor
  · rintro ⟨k, bound, rfl⟩
    omega
  · rintro ⟨bound, even⟩
    exact ⟨j / 2, by omega, by omega⟩

/-- In a line of even length every group has two characters. -/
theorem length_slice {hexVal : String} (even : hexVal.length % 2 = 0) {j : ℕ}
    (inLoop : j ∈ evens hexVal.length) : (slice hexVal j (j + 2)).length = 2 := by
  rw [mem_evens] at inLoop
  rw [slice, ← String.length_toList, String.toList_ofList, List.length_drop, List.length_take,
    String.length_toList]
  omega

/-- The comments for a line: its text, and the byte of each group. -/
def remarks (hexVal : String) : List (List Byte) :=
  decoded hexVal :: (evens hexVal.length).map fun j => decoded (slice hexVal j (j + 2))

/-- A group decodes to one byte. -/
theorem decoded_slice {hexVal : String} (even : hexVal.length % 2 = 0) {j : ℕ}
    (inLoop : j ∈ evens hexVal.length) : ∃ b, decoded (slice hexVal j (j + 2)) = [b] := by
  have two := length_slice even inLoop
  obtain ⟨high, low, digits⟩ := List.length_eq_two.mp (String.length_toList.trans two)
  refine ⟨hexDigitValue high ++ hexDigitValue low, ?_⟩
  rw [decoded, decodeHex, digits]
  rfl

/-- Only the text of the whole line can break out of its comment. -/
theorem confined_remarks_iff {hexVal : String} (even : hexVal.length % 2 = 0) :
    (∀ text ∈ remarks hexVal, Confined text) ↔ Confined (decoded hexVal) := by
  refine ⟨fun confined => confined _ List.mem_cons_self, fun whole text membership => ?_⟩
  rcases List.mem_cons.mp membership with rfl | ofGroup
  · exact whole
  · obtain ⟨j, inLoop, rfl⟩ := List.mem_map.mp ofGroup
    obtain ⟨b, single⟩ := decoded_slice even inLoop
    rw [single]
    exact confined_singleton b

/-- The groups with their numbers. -/
theorem zipIdx_groups (hexVal : String) :
    (groups hexVal).zipIdx =
      (evens hexVal.length).map fun j => (slice hexVal j (j + 2), j / 2) := by
  refine List.ext_getElem (by simp [groups]) fun k _ bound => ?_
  simp [groups, evens]

/-- A loop over the offsets of a line is a loop over its groups. -/
theorem flatMap_evens {Result : Type} {hexVal : String} {body : ℕ → List Result}
    {ofGroup : String × ℕ → List Result}
    (same : ∀ j ∈ evens hexVal.length, body j = ofGroup (slice hexVal j (j + 2), j / 2)) :
    (evens hexVal.length).flatMap body = (groups hexVal).zipIdx.flatMap ofGroup := by
  rw [zipIdx_groups, List.flatMap_map]
  exact List.flatMap_congr same

/-- Both chains treat the first group in a way of its own. -/
theorem chain_rendered {hexVal : String} {body : ℕ → List Item}
    {ofGroup : String × ℕ → List (Line Name)}
    (first : body 0 = rendered (ofGroup (slice hexVal 0 2, 0)))
    (later : ∀ k, body (2 * (k + 1)) =
      rendered (ofGroup (slice hexVal (2 * (k + 1)) (2 * (k + 1) + 2), k + 1))) :
    (evens hexVal.length).flatMap body =
      rendered ((groups hexVal).zipIdx.flatMap ofGroup) := by
  rw [rendered_flatMap]
  refine flatMap_evens fun j inLoop => ?_
  obtain ⟨k, rfl⟩ := Nat.dvd_of_mod_eq_zero (mem_evens.mp inLoop).2
  rw [Nat.mul_div_cancel_left k Nat.two_pos]
  cases k with
  | zero => exact first
  | succ k => exact later k

theorem groups_eq_nil {hexVal : String} : groups hexVal = [] ↔ hexVal = "" := by
  rw [groups, evens, List.map_eq_nil_iff, List.map_eq_nil_iff, List.range_eq_nil,
    ← String.toList_inj, ← String.length_toList]
  constructor
  · intro none
    exact List.length_eq_zero_iff.mp (by omega)
  · intro empty
    rw [empty]
    rfl

/-- The loop variable is left at the last group. -/
theorem getLast?_evens_of_ne {hexVal : String} (nonempty : hexVal ≠ "") :
    (evens hexVal.length).getLast? = some (2 * ((groups hexVal).length - 1)) := by
  have some_group := List.length_pos_iff.mpr (mt groups_eq_nil.mp nonempty)
  rw [length_groups] at some_group ⊢
  rw [evens, List.getLast?_map, List.getLast?_range, if_neg (by omega)]
  rfl

/-- The group at the last value of the loop variable. -/
theorem slice_last {hexVal : String} (nonempty : hexVal ≠ "") :
    slice hexVal (2 * ((groups hexVal).length - 1)) (2 * ((groups hexVal).length - 1) + 2) =
      (groups hexVal).getLastD "" := by
  have last := getLast?_evens_of_ne nonempty
  rw [List.getLastD_eq_getLast?]
  conv_rhs => rw [groups, List.getLast?_map, last]
  rfl

/-- A hexified line has digits in lower case only. -/
theorem lower_slice_hexifyLine (line : List Byte) (j : ℕ) :
    lower (slice (hexifyLine line) j (j + 2)) = slice (hexifyLine line) j (j + 2) := by
  have digits : ∀ b : Byte,
      (Nat.toDigits 16 b.toNat).map Char.toLower = Nat.toDigits 16 b.toNat := by
    decide +kernel
  have rendered : ∀ c ∈ (hexifyLine line).toList, c.toLower = c := by
    intro c membership
    rw [toList_hexifyLine] at membership
    obtain ⟨b, -, digit⟩ := List.mem_flatMap.mp membership
    have same := digits b
    rw [← List.map_id (Nat.toDigits 16 b.toNat), List.map_map] at same
    exact List.map_inj_left.mp same c digit
  rw [← String.toList_inj, lower, String.toList_map, slice, String.toList_ofList]
  conv_rhs => rw [← List.map_id (((hexifyLine line).toList.take (j + 2)).drop j)]
  exact List.map_congr_left fun c membership =>
    rendered c (List.mem_of_mem_take (List.mem_of_mem_drop membership))

end Hexadecimal

section Parts

variable (parts : List (List String))

/-- Group `k` of line `i` is `pair`. -/
def Stage (i : ℕ) (pair : String) (k : ℕ) : Prop :=
  ∃ groups, parts[i]? = some groups ∧ groups[k]? = some pair

/-- Line `i` has a group `k`. -/
def HasStage (i k : ℕ) : Prop := ∃ groups, parts[i]? = some groups ∧ ∃ pair, groups[k]? = some pair

theorem exists_groups {i : ℕ} : (∃ groups, parts[i]? = some groups) ↔ i < parts.length :=
  ⟨fun ⟨_, found⟩ => (List.getElem?_eq_some_iff.mp found).1,
    fun bound => ⟨_, List.getElem?_eq_getElem bound⟩⟩

/-- The groups of the lines for which a generator writes a netlist. -/
structure Grouped : Prop where
  nonempty : ∀ groups ∈ parts, groups ≠ []
  pairs : ∀ groups ∈ parts, ∀ pair ∈ groups, pair.length = 2 ∧ lower pair = pair

variable {parts}

theorem Stage.hasStage {i k : ℕ} {pair : String} (stage : Stage parts i pair k) :
    HasStage parts i k := by
  obtain ⟨groups, listed, found⟩ := stage
  exact ⟨groups, listed, pair, found⟩

theorem HasStage.of_le {i j k : ℕ} (has : HasStage parts i k) (earlier : j ≤ k) :
    HasStage parts i j := by
  obtain ⟨groups, listed, pair, found⟩ := has
  obtain ⟨bound, -⟩ := List.getElem?_eq_some_iff.mp found
  exact ⟨groups, listed, _, List.getElem?_eq_getElem (lt_of_le_of_lt earlier bound)⟩

theorem HasStage.lt {i k : ℕ} (has : HasStage parts i k) : i < parts.length := by
  obtain ⟨groups, listed, -⟩ := has
  exact (List.getElem?_eq_some_iff.mp listed).1

theorem Grouped.lastStage {i : ℕ} {groups : List String} (grouped : Grouped parts)
    (listed : parts[i]? = some groups) :
    Stage parts i (groups.getLastD "") (groups.length - 1) := by
  have nonempty := grouped.nonempty groups (List.mem_of_getElem? listed)
  refine ⟨groups, listed, ?_⟩
  rw [List.getLastD_eq_getLast?, ← List.getLast?_eq_getElem?,
    List.getLast?_eq_some_getLast nonempty]
  rfl

/-- The last group of a line. -/
theorem Grouped.last {i : ℕ} {groups : List String} (grouped : Grouped parts)
    (listed : parts[i]? = some groups) : HasStage parts i (groups.length - 1) :=
  (grouped.lastStage listed).hasStage

theorem Grouped.lowered (grouped : Grouped parts) :
    ∀ groups ∈ parts, ∀ pair ∈ groups, lower pair = pair :=
  fun groups listed pair membership => (grouped.pairs groups listed pair membership).2

theorem Grouped.pair {i k : ℕ} {pair : String} (grouped : Grouped parts)
    (stage : Stage parts i pair k) : pair.length = 2 ∧ lower pair = pair := by
  obtain ⟨groups, listed, found⟩ := stage
  exact grouped.pairs groups (List.mem_of_getElem? listed) pair (List.mem_of_getElem? found)

end Parts

section Distinct

variable {Entry Result : Type}

/-- What a loop makes for each index is distinct if the index can be told from it. -/
theorem nodup_zipIdx_flatMap {entries : List Entry} {body : Entry × ℕ → List Result}
    (each : ∀ entry, (body entry).Nodup)
    (apart : ∀ first i second k, ∀ result ∈ body (first, i), result ∈ body (second, k) → i = k) :
    (entries.zipIdx.flatMap body).Nodup := by
  rw [List.nodup_flatMap]
  refine ⟨fun entry _ => each entry, (zipIdx_pairwise entries).imp ?_⟩
  rintro ⟨first, i⟩ ⟨second, k⟩ different result inFirst inSecond
  exact different (apart first i second k result inFirst inSecond)

/-- The same for the groups of every line. -/
theorem nodup_stages (parts : List (List String)) (ofStage : ℕ → String × ℕ → List Result)
    (each : ∀ i stage, (ofStage i stage).Nodup)
    (apart : ∀ i first j second, ∀ result ∈ ofStage i first, result ∈ ofStage j second →
      i = j ∧ first.2 = second.2) :
    (parts.zipIdx.flatMap fun part => part.1.zipIdx.flatMap (ofStage part.2)).Nodup := by
  refine nodup_zipIdx_flatMap (fun part => nodup_zipIdx_flatMap (each part.2) ?_) ?_
  · intro first k second l result inFirst inSecond
    exact (apart _ _ _ _ result inFirst inSecond).2
  · intro first i second j result inFirst inSecond
    obtain ⟨stage, -, made⟩ := List.mem_flatMap.mp inFirst
    obtain ⟨other, -, clashing⟩ := List.mem_flatMap.mp inSecond
    exact (apart _ _ _ _ result made clashing).1

/-- The same with one more result for every line. -/
theorem nodup_chains (parts : List (List String)) (ofStage : ℕ → String × ℕ → List Result)
    (ofLine : ℕ → Result) (each : ∀ i stage, (ofStage i stage).Nodup)
    (apart : ∀ i first j second, ∀ result ∈ ofStage i first, result ∈ ofStage j second →
      i = j ∧ first.2 = second.2)
    (injective : ∀ i j, ofLine i = ofLine j → i = j)
    (between : ∀ i j stage, ofLine i ∉ ofStage j stage) :
    (parts.zipIdx.flatMap fun part =>
      part.1.zipIdx.flatMap (ofStage part.2) ++ [ofLine part.2]).Nodup := by
  have outside : ∀ i j (groups : List String), ofLine i ∉ groups.zipIdx.flatMap (ofStage j) := by
    intro i j groups membership
    obtain ⟨stage, -, made⟩ := List.mem_flatMap.mp membership
    exact between i j stage made
  refine nodup_zipIdx_flatMap (fun part => ?_) ?_
  · refine List.Nodup.append ?_ (List.nodup_singleton _) ?_
    · exact nodup_zipIdx_flatMap (each part.2) fun _ _ _ _ result inFirst inSecond =>
        (apart _ _ _ _ result inFirst inSecond).2
    · exact List.disjoint_singleton.mpr (outside _ _ _)
  · intro first i second j result inFirst inSecond
    simp only [List.mem_append, List.mem_singleton] at inFirst inSecond
    rcases inFirst with made | rfl <;> rcases inSecond with clashing | same
    · obtain ⟨stage, -, made⟩ := List.mem_flatMap.mp made
      obtain ⟨other, -, clashing⟩ := List.mem_flatMap.mp clashing
      exact (apart _ _ _ _ result made clashing).1
    · exact absurd (same ▸ made) (outside _ _ _)
    · exact absurd clashing (outside _ _ _)
    · exact injective i j same

theorem nodup_numbered {name : ℕ → Result} (injective : ∀ i j, name i = name j → i = j)
    (count : ℕ) : ((List.range count).map name).Nodup :=
  List.nodup_range.map injective

/-- Distinct results of kinds below `k`. -/
structure Kinds (kind : Result → ℕ) (k : ℕ) (results : List Result) : Prop where
  nodup : results.Nodup
  below : ∀ result ∈ results, kind result < k

/-- Results of a later kind do not clash with those before. -/
theorem Kinds.append {kind : Result → ℕ} {k : ℕ} {results others : List Result}
    (kinds : Kinds kind k results) (later : ℕ) (distinct : others.Nodup)
    (same : ∀ other ∈ others, kind other = later) (notBefore : k ≤ later) :
    Kinds kind (later + 1) (results ++ others) where
  nodup := by
    refine kinds.nodup.append distinct ?_
    intro result before after
    have below := kinds.below result before
    rw [same result after] at below
    exact absurd below (Nat.not_lt.mpr notBefore)
  below := by
    intro result membership
    rcases List.mem_append.mp membership with before | after
    · exact lt_of_lt_of_le (kinds.below result before) (Nat.le_succ_of_le notBefore)
    · rw [same result after]
      exact Nat.lt_succ_self later

end Distinct

end SeqDetect.Script
