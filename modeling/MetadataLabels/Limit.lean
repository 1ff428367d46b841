/-!
# Limits

How far a query goes into metadata that may be cyclic, nested without end or
hostile, and how much of a name is shown.  A walk up a base chain or up the
hierarchy of an attribute looks at `levels` types, a tuple nests at most
`tupleNesting` times, and of a name `nameLength` characters are shown.
-/

namespace MetadataLabels
namespace Limit

def levels : Nat := 200

def tupleNesting : Nat := 1000

def nameLength : Nat := 256

end Limit
end MetadataLabels
