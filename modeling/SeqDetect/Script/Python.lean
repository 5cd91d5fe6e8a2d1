import SeqDetect.Vhdl.Design
import Mathlib.Data.List.Sort
import Mathlib.Data.List.DropRight

/-!
# The Python side of the generators

The built-in string operations the scripts use, on byte strings, and the effect of
a script that writes a file: what was written before an exception stays written.
-/

namespace SeqDetect.Script

open Delta Vhdl

/-- The exceptions the scripts can raise. -/
inductive PyError where
  /-- `decode("hex")` of a string of odd length or with other characters. -/
  | typeError
  /-- A loop variable read before any loop assigned it. -/
  | unboundLocalError
  deriving DecidableEq

/-- A computation that writes items to the output file and may raise. -/
structure Emit (Result : Type) where
  written : List Item
  result : Except PyError Result

namespace Emit

def write (items : List Item) : Emit Unit := ⟨items, .ok ()⟩

def raise {Result : Type} (error : PyError) : Emit Result := ⟨[], .error error⟩

def ofExcept {Result : Type} (result : Except PyError Result) : Emit Result := ⟨[], result⟩

instance : Monad Emit where
  pure value := ⟨[], .ok value⟩
  bind first next :=
    match first.result with
    | .error error => ⟨first.written, .error error⟩
    | .ok value => ⟨first.written ++ (next value).written, (next value).result⟩

/-- The computation ran to its end and wrote exactly these items. -/
def Writes (computation : Emit Unit) (items : List Item) : Prop :=
  computation = ⟨items, .ok ()⟩

theorem writes_of_result {computation : Emit Unit} (ended : computation.result = .ok ()) :
    computation.Writes computation.written := by
  obtain ⟨written, result⟩ := computation
  obtain rfl : result = .ok () := ended
  rfl

theorem Writes.unique {computation : Emit Unit} {items others : List Item}
    (writes : computation.Writes items) (same : computation.Writes others) : items = others :=
  congrArg Emit.written ((show computation = _ from writes).symm.trans same)

theorem Writes.bind {first : Emit Unit} {next : Unit → Emit Unit} {items rest : List Item}
    (firstWrites : first.Writes items) (nextWrites : (next ()).Writes rest) :
    (first >>= next).Writes (items ++ rest) := by
  obtain rfl := firstWrites
  change Emit.mk (items ++ (next ()).written) (next ()).result = _
  rw [nextWrites]

theorem Writes.ofExcept_bind {Result : Type} {value : Result} {next : Result → Emit Unit}
    {items : List Item} (nextWrites : (next value).Writes items) :
    (ofExcept (.ok value) >>= next).Writes items := by
  change Emit.mk ([] ++ (next value).written) (next value).result = _
  rw [nextWrites]
  rfl

end Emit

/-- `str.isspace` for one byte: tab, line feed, vertical tab, form feed, carriage
return and space. -/
def isspace (ch : Byte) : Bool := ch = 0x20 || (0x09 ≤ ch && ch ≤ 0x0d)

def rstrip (line : List Byte) : List Byte := line.rdropWhile isspace

/-- `list.sort` on byte strings: lexicographic, a proper prefix first. -/
def sort (sig_list : List (List Byte)) : List (List Byte) :=
  sig_list.insertionSort (· ≤ ·)

/-- `hex(n)`. -/
def hex (n : ℕ) : String := "0x" ++ String.ofList (Nat.toDigits 16 n)

/-- `s[lo:hi]`. -/
def slice (s : String) (lo hi : ℕ) : String := String.ofList ((s.toList.take hi).drop lo)

/-- `range(0, stop, 2)`. -/
def evens (stop : ℕ) : List ℕ := (List.range ((stop + 1) / 2)).map (2 * ·)

/-- `s.decode("hex")` on the characters of `s`. -/
def decodeHexList : List Char → Except PyError (List Byte)
  | [] => .ok []
  | [_] => .error .typeError
  | high :: low :: rest => do
      let rest ← decodeHexList rest
      .ok ((hexDigitValue high ++ hexDigitValue low) :: rest)

/-- `s.decode("hex")`.  Only the output of `hexify` is decoded, so every character is
a hexadecimal digit and an odd length is the one error there is. -/
def decodeHex (s : String) : Except PyError (List Byte) := decodeHexList s.toList

/-- `hexify` of both scripts, for one line. -/
def hexifyLine (line : List Byte) : String :=
  (rstrip line).foldl
    (fun hexVal ch => hexVal ++ String.ofList ((hex ch.toNat).toList.drop 2)) ""

def hexify (sigList : List (List Byte)) : List String := sigList.map hexifyLine

end SeqDetect.Script
