import SeisLog.Layout.Encoding
import SeisLog.Number.Numeral
import SeisLog.Text.Quoted

/-!
# Raw data

Unchecked items from which a layout is drafted, what can be read from them, and how they are shown
when they are refused.
-/

namespace SeisLog

inductive Datum
  | null
  | flag (value : Bool)
  | integer (number : Int)
  | text (content : String)
  | encoding (given : Encoding)
  | list (items : List Datum)
  | tuple (items : List Datum)
deriving Inhabited

namespace Datum

mutual

def shown : Datum → String
  | .null => "None"
  | .flag value => if value then "True" else "False"
  | .integer number => toString number
  | .text content => Text.quoted content
  | .encoding given =>
      "<DecodeType." ++ given.label ++ ": " ++ Text.quoted given.tag ++ ">"
  | .list items => "[" ++ ", ".intercalate (shownAll items) ++ "]"
  | .tuple items =>
      match shownAll items with
      | [single] => "(" ++ single ++ ",)"
      | several => "(" ++ ", ".intercalate several ++ ")"

def shownAll : List Datum → List String
  | [] => []
  | item :: rest => item.shown :: shownAll rest

end

mutual

/-- The integers that are written where a datum is shown. -/
def numbers : Datum → List Int
  | .integer number => [number]
  | .list items | .tuple items => numbersAll items
  | .null | .flag _ | .text _ | .encoding _ => []

def numbersAll : List Datum → List Int
  | [] => []
  | item :: rest => item.numbers ++ numbersAll rest

end

/-- Text as it is, an encoding by its name, anything else as it is shown. -/
def plain : Datum → String
  | .text content => content
  | .encoding given => "DecodeType." ++ given.label
  | datum => datum.shown

def kind : Datum → String
  | .null => "NoneType"
  | .flag _ => "bool"
  | .integer _ => "int"
  | .text _ => "str"
  | .encoding _ => "DecodeType"
  | .list _ => "list"
  | .tuple _ => "tuple"

/-- The items of a sequence of four. Text is a sequence of characters. -/
def four? : Datum → Option (Datum × Datum × Datum × Datum)
  | .list [first, second, third, fourth] | .tuple [first, second, third, fourth] =>
      some (first, second, third, fourth)
  | .text content =>
      match content.toList.map fun c => Datum.text (String.singleton c) with
      | [first, second, third, fourth] => some (first, second, third, fourth)
      | _ => none
  | _ => none

/-- Why a datum is no offset. -/
inductive OffsetFault
  | numeral (fault : Numeral.Fault)
  | kind (given : Datum)

def OffsetFault.message : OffsetFault → String
  | .numeral fault => fault.message
  | .kind given =>
      s!"int() argument must be a string, a bytes-like object or a real number, not '{given.kind}'"

/-- The integer that a datum stands for: a flag counts as a number, and text is read as a numeral. -/
def toOffset : Datum → Except OffsetFault Int
  | .flag value => .ok (if value then 1 else 0)
  | .integer number => .ok number
  | .text content => (Numeral.integer content).mapError .numeral
  | datum => .error (.kind datum)

end Datum

end SeisLog
