import Delivery.Json.Draft
import Delivery.Text.Quoted

/-!
The words for faults.
-/

namespace Delivery

def Found.describe : Found → String
  | .null => "null"
  | .bool b => s!"boolean `{b}`"
  | .number (.integer n) => s!"integer `{n}`"
  | .number (.real x) => "floating point `" ++ Layout.json.render x ++ "`"
  | .string s => "string " ++ Text.quoted s
  | .sequence => "sequence"
  | .map => "map"

def expectedNames (names : List String) : String :=
  match names.map fun name => "`" ++ name ++ "`" with
  | [] => "there are no variants"
  | [name] => "expected " ++ name
  | [first, second] => "expected " ++ first ++ " or " ++ second
  | many => "expected one of " ++ String.intercalate ", " many

def Mismatch.message : Mismatch → String
  | .wrongType found wanted => s!"invalid type: {found.describe}, expected {wanted}"
  | .wrongValue found wanted => s!"invalid value: {found.describe}, expected {wanted}"
  | .wrongLength length wanted => s!"invalid length {length}, expected {wanted}"
  | .unknownVariant name known => "unknown variant `" ++ name ++ "`, " ++ expectedNames known
  | .missingField name => "missing field `" ++ name ++ "`"
  | .duplicateField name => "duplicate field `" ++ name ++ "`"
  | .refused reason => reason

def Defect.message : Defect → String
  | .expectedValue => "expected value"
  | .trailingCharacters => "trailing characters"
  | .tooDeep => "recursion limit exceeded"
  | .garbled => "invalid syntax"

def Fault.message : Fault → String
  | .malformed defect => defect.message
  | .truncated => "unexpected end of input"
  | .mismatch what => what.message

end Delivery
