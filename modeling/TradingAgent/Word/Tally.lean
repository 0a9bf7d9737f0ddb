import Mathlib.Data.Rat.Encodable
import Mathlib.Logic.Equiv.List

/-!
# Tallies

Texts that stand for values of an encodable type: as many strokes as the number of the value,
and one more. They are read back (`read_write`) and are never empty.
-/

namespace Tally

variable {A : Type} [Encodable A]

def write (a : A) : String := String.ofList (List.replicate (Encodable.encode a + 1) '|')

def read (text : String) : Option A := Encodable.decode (text.length - 1)

theorem read_write (a : A) : read (write a) = some a := by
  unfold read write
  rw [String.length_ofList, List.length_replicate, Nat.add_sub_cancel, Encodable.encodek]

theorem write_ne_empty (a : A) : write a ≠ "" := by
  intro hEmpty
  have hLength := congrArg String.length hEmpty
  simp [write] at hLength

@[reducible] def encodableString : Encodable String :=
  have : Encodable Char := Encodable.ofLeftInverse Char.toNat Char.ofNat Char.ofNat_toNat
  Encodable.ofLeftInverse String.toList String.ofList fun _ => String.ofList_toList

end Tally
