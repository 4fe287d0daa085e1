/-!
# Type identifiers

Every type of the server has a number. Zero stands for a type that is not known yet.
-/

namespace ExtendedQuery

abbrev Oid := UInt32

namespace Oid

def unspecified : Oid := 0
def bool : Oid := 16
def bytea : Oid := 17
def int8 : Oid := 20
def int2 : Oid := 21
def int4 : Oid := 23
def text : Oid := 25
def float4 : Oid := 700
def float8 : Oid := 701
def timestamp : Oid := 1114
def timestamptz : Oid := 1184
def void : Oid := 2278
def uuid : Oid := 2950
def jsonb : Oid := 3802

def orElse (known found : Oid) : Oid := if known = unspecified then found else known

def fill (known found : List Oid) : List Oid :=
  List.zipWith orElse known found ++ known.drop found.length

/-- A statement declared with types `declared` takes parameters of types `wanted`: each of these is
unspecified or the declared one. -/
def accepts (declared wanted : List Oid) : Bool :=
  declared.length == wanted.length &&
    (declared.zip wanted).all fun (d, w) => w == unspecified || d == w

end Oid

end ExtendedQuery
