/-!
# Integer types

The types of fixed width between which numbers are narrowed, with their names and ranges.
-/

namespace RemoteWrite

inductive IntType where
  | u8 | u16 | u32 | u64 | size | i8 | i32 | i64
  deriving DecidableEq, Inhabited

namespace IntType

def name : IntType → String
  | u8 => "u8"
  | u16 => "u16"
  | u32 => "u32"
  | u64 => "u64"
  | size => "usize"
  | i8 => "i8"
  | i32 => "i32"
  | i64 => "i64"

/-- The least and the greatest number of the type; sizes have 64 bits. -/
def range : IntType → Int × Int
  | u8 => (0, UInt8.size - 1)
  | u16 => (0, UInt16.size - 1)
  | u32 => (0, UInt32.size - 1)
  | u64 | size => (0, UInt64.size - 1)
  | i8 => (Int8.minValue.toInt, Int8.maxValue.toInt)
  | i32 => (Int32.minValue.toInt, Int32.maxValue.toInt)
  | i64 => (Int64.minValue.toInt, Int64.maxValue.toInt)

def holds (t : IntType) (n : Int) : Bool := t.range.1 ≤ n && n ≤ t.range.2

end IntType

end RemoteWrite
