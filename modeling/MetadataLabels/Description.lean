import MetadataLabels.Graph.Basic
import MetadataLabels.Text.Quoted

/-!
# Descriptions

One-line texts that show the contents of a row to a developer.  A description
names the parts in order; two dots stand for parts that are left out.  A link to
a type is shown as a link only, so describing a row never follows one.
-/

namespace MetadataLabels
namespace Description

/-! ## Shapes -/

def call (name : String) (args : List String) : String :=
  name ++ "(" ++ String.intercalate ", " args ++ ")"

def bracketed (items : List String) : String :=
  "[" ++ String.intercalate ", " items ++ "]"

def parts (fields : List (String × String)) : List String :=
  fields.map fun (label, value) => label ++ ": " ++ value

def braced (name : String) (items : List String) : String :=
  name ++ " \x7b " ++ String.intercalate ", " items ++ " \x7d"

def closed (name : String) (fields : List (String × String)) : String :=
  braced name (parts fields)

def openEnded (name : String) (fields : List (String × String)) : String :=
  braced name (parts fields ++ [".."])

def bool (b : Bool) : String :=
  if b then "true" else "false"

/-! ## Signatures -/

def basicType : BasicType -> String
  | .unknown => "Unknown"
  | .void => "Void"
  | .boolean => "Boolean"
  | .char => "Char"
  | .int8 => "I1"
  | .uint8 => "U1"
  | .int16 => "I2"
  | .uint16 => "U2"
  | .int32 => "I4"
  | .uint32 => "U4"
  | .int64 => "I8"
  | .uint64 => "U8"
  | .float32 => "R4"
  | .float64 => "R8"
  | .string => "String"
  | .nativeInt => "I"
  | .nativeUInt => "U"
  | .object => "Object"
  | .typedByRef => "TypedByRef"

def modified (type : String) : Modifier -> String
  | .pointer => call "Ptr" [type]
  | .byRef => call "ByRef" [type]
  | .vector => call "SzArray" [type]
  | .pinned => call "Pinned" [type]
  | .array rank => call "Array" [type, Numeral.decimal rank]

def storage : Storage -> String
  | .valueType => "ValueType"
  | .reference => "Class"

def genericOwner : GenericOwner -> String
  | .type => "GenericParamType"
  | .method => "GenericParamMethod"

def typeLink : String :=
  closed "CilTypeRef" [("weak_ref", "(Weak)")]

mutual

def typeSig : TypeSig -> String
  | .basic type => basicType type
  | .modified modifier type => modified (typeSig type) modifier
  | .named kind _ => call (storage kind) [typeLink]
  | .param owner index => call (genericOwner owner) [Numeral.decimal index]
  | .inst base args =>
      call "GenericInst"
        [closed "SignatureGenericInst"
          [("base", typeSig base), ("args", bracketed (typeSigs args))]]

def typeSigs : List TypeSig -> List String
  | [] => []
  | type :: rest => typeSig type :: typeSigs rest

end

def paramSig (p : ParamSig) : String :=
  closed "SignatureParameter" [("by_ref", bool p.byRef), ("base", typeSig p.type)]

def methodSig (m : MethodSig) : String :=
  closed "SignatureMethod"
    [("has_this", bool m.hasThis), ("vararg", bool m.vararg),
      ("param_count_generic", Numeral.decimal m.genericCount),
      ("return_type", paramSig m.returns), ("params", bracketed (m.params.map paramSig))]

def fieldSig (f : FieldSig) : String :=
  closed "SignatureField" [("base", typeSig f.type)]

/-! ## Constants -/

/-- Floating point values are shown by their bits. -/
def constant : Constant -> String
  | .null => "Null"
  | .boolean value => call "Boolean" [bool value]
  | .char unit => call "Char" [Numeral.decimal unit.toNat]
  | .int8 value => call "I1" [Numeral.signed value.toInt]
  | .uint8 value => call "U1" [Numeral.decimal value.toNat]
  | .int16 value => call "I2" [Numeral.signed value.toInt]
  | .uint16 value => call "U2" [Numeral.decimal value.toNat]
  | .int32 value => call "I4" [Numeral.signed value.toInt]
  | .uint32 value => call "U4" [Numeral.decimal value.toNat]
  | .int64 value => call "I8" [Numeral.signed value.toInt]
  | .uint64 value => call "U8" [Numeral.decimal value.toNat]
  | .float32 value => call "R4" ["0x" ++ Numeral.paddedHex 8 value.toBits.toNat]
  | .float64 value => call "R8" ["0x" ++ Numeral.paddedHex 16 value.toBits.toNat]
  | .string value => call "String" [quoted value]

def default (value : Option Constant) : String :=
  call "OnceLock" [value.elim "<uninit>" constant]

/-! ## Rows -/

def flavor : Flavor -> String
  | .void => "Void"
  | .boolean => "Boolean"
  | .char => "Char"
  | .int8 => "I1"
  | .uint8 => "U1"
  | .int16 => "I2"
  | .uint16 => "U2"
  | .int32 => "I4"
  | .uint32 => "U4"
  | .int64 => "I8"
  | .uint64 => "U8"
  | .float32 => "R4"
  | .float64 => "R8"
  | .nativeInt => "I"
  | .nativeUInt => "U"
  | .object => "Object"
  | .string => "String"
  | .classType => "Class"
  | .valueType => "ValueType"
  | .interface => "Interface"
  | .unknown => "Unknown"

/-- A reference to a member is not described. -/
def row? : (k : Kind) -> Row k -> Option String
  | .type, r =>
      let d := TypeRow.toTypeDecl r
      some (openEnded "CilType"
        [("token", d.token.describe), ("flavor", flavor d.flavor),
          ("fullname", quoted d.fullName)])
  | .method, r =>
      let d := MethodRow.toMethodDecl r
      some (openEnded "Method"
        [("token", d.token.describe), ("name", quoted d.name),
          ("signature", methodSig d.signature)])
  | .field, r =>
      let d := FieldRow.toFieldDecl r
      some (openEnded "Field"
        [("token", d.token.describe), ("name", quoted d.name),
          ("signature", fieldSig d.signature), ("default", default (FieldRow.default r))])
  | .property, r =>
      let d := PropertyRow.toPropertyDecl r
      some (openEnded "Property" [("token", d.token.describe), ("name", quoted d.name)])
  | .event, r =>
      let d := EventRow.toEventDecl r
      some (openEnded "Event" [("token", d.token.describe), ("name", quoted d.name)])
  | .param, r =>
      let d := ParamRow.toParamDecl r
      some (openEnded "Param"
        [("token", d.token.describe), ("sequence", Numeral.decimal d.sequence),
          ("name", d.name.elim "None" fun name => call "Some" [quoted name]),
          ("default", default (ParamRow.default r))])
  | .memberRef, _ => none

end Description

namespace Graph

def describe? (g : Graph) (n : Node) : Option String :=
  (g.find? n.id).bind (Description.row? n.kind)

end Graph
end MetadataLabels
