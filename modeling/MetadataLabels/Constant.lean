/-!
# Constants

The values that a parameter or a field may have as its default.
-/

namespace MetadataLabels

/-- Constants are equal if they have the same form and the same value; floating point values
compare as numbers, so a NaN equals nothing. -/
inductive Constant
  | null
  | boolean (value : Bool)
  | char (unit : UInt16)
  | int8 (value : Int8)
  | uint8 (value : UInt8)
  | int16 (value : Int16)
  | uint16 (value : UInt16)
  | int32 (value : Int32)
  | uint32 (value : UInt32)
  | int64 (value : Int64)
  | uint64 (value : UInt64)
  | float32 (value : Float32)
  | float64 (value : Float)
  | string (value : String)
deriving BEq, Inhabited

end MetadataLabels
