import ExtendedQuery.Real
import ExtendedQuery.Text.Quoted

/-!
# JSON values

A value is written without blanks. The members of an object are written in the order of their names, and
a name occurs once. Numbers with a fraction are written by their shortest decimal: in places from
`0.00001` up to sixteen digits before the point, with an exponent otherwise. Of two decimals that are
equally near the even one is written.
-/

namespace ExtendedQuery

inductive Json where
  | null
  | bool (value : Bool)
  | integer (value : Int)
  | number (value : Float8)
  | string (value : String)
  | array (elements : List Json)
  | object (members : List (String × Json))

namespace Json

def insertMember (name : String) (value : Json) : List (String × Json) → List (String × Json)
  | [] => [(name, value)]
  | member :: later =>
    if name = member.1 then (name, value) :: later
    else if name < member.1 then (name, value) :: member :: later
    else member :: insertMember name value later

def ofMembers (members : List (String × Json)) : Json :=
  .object (members.foldl (fun ordered member => insertMember member.1 member.2 ordered) [])

def escaped (c : Char) : Text :=
  if c = '"' then ['\x5c', '"']
  else if c = '\x5c' then ['\x5c', '\x5c']
  else if c = '\x08' then ['\x5c', 'b']
  else if c = '\x0c' then ['\x5c', 'f']
  else if c = '\n' then ['\x5c', 'n']
  else if c = '\r' then ['\x5c', 'r']
  else if c = '\t' then ['\x5c', 't']
  else if c.toNat < 0x20 then
    ['\x5c', 'u', '0', '0', (c.toNat / 16).digitChar, (c.toNat % 16).digitChar]
  else [c]

def writeString (s : String) : Text := '"' :: s.toList.flatMap escaped ++ ['"']

def writeScientific (x : Decimal.Scientific) : Text :=
  let ds := Decimal.digits x.digits
  let point : Int := ds.length + x.exponent
  if 0 ≤ x.exponent ∧ point ≤ 16 then x.positional ++ ['.', '0']
  else if -5 < point ∧ point ≤ 16 then x.positional
  else
    ds.take 1 ++ (if ds.length = 1 then [] else '.' :: ds.drop 1) ++
      'e' :: (if 0 < point then ['+'] else []) ++ Decimal.signed (point - 1)

def writeNumber (x : Float8) : Text :=
  match x.number with
  | .finite negative mantissa exponent boundary =>
    (if negative then ['-'] else []) ++
      writeScientific (Decimal.shortest .toEven mantissa exponent boundary)
  | _ => "null".toList

mutual

def write : Json → Text
  | .null => "null".toList
  | .bool true => "true".toList
  | .bool false => "false".toList
  | .integer value => Decimal.signed value
  | .number value => writeNumber value
  | .string value => writeString value
  | .array elements => '[' :: [','].intercalate (writeElements elements) ++ [']']
  | .object members => '\x7b' :: [','].intercalate (writeMembers members) ++ ['\x7d']

def writeElements : List Json → List Text
  | [] => []
  | element :: later => write element :: writeElements later

def writeMembers : List (String × Json) → List Text
  | [] => []
  | (name, value) :: later => (writeString name ++ ':' :: write value) :: writeMembers later

end

end Json

end ExtendedQuery
