import RailSpec.Text.Utf8

/-! Byte offsets into the encoded form of a text, as indexes of its characters. -/

namespace RailSpec.ParseTree

/-- In an ASCII text bytes and characters coincide; else there is a table with the character of each
byte, closed by the number of characters. -/
inductive OffsetMap where
  | identity
  | table (indexes : Array Nat)

namespace OffsetMap

/-- For each byte of a text the index of its character, counted from `index`, and at last the index
behind the text. -/
def indexesFrom (index : Nat) : List Char → List Nat
  | [] => [index]
  | c :: rest => List.replicate (Text.Utf8.width c) index ++ indexesFrom (index + 1) rest

def ofString (text : String) : OffsetMap :=
  if text.toList.all fun c => c.toNat < 128 then .identity
  else .table (indexesFrom 0 text.toList).toArray

/-- The character at a byte offset; a table sends every offset behind the text to its end. -/
def toCharacter : OffsetMap → Nat → Nat
  | .identity, offset => offset
  | .table indexes, offset => (indexes[offset]?).getD (indexes.back?.getD 0)

end OffsetMap

end RailSpec.ParseTree
