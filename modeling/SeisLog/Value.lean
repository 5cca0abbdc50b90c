import SeisLog.Number.Decimal
import SeisLog.Number.Numeral
import SeisLog.Text.Quoted

/-!
# Values

What a header field or a log item holds: an integer, a double or text.
-/

namespace SeisLog

inductive Value
  | integer (number : Int)
  | real (number : Binary64)
  | text (content : String)
deriving DecidableEq, Repr

namespace Value

inductive IntegerFault
  | notANumber
  | infinite
  | numeral (fault : Numeral.Fault)
deriving DecidableEq, Repr

def IntegerFault.message : IntegerFault → String
  | .notANumber => "cannot convert float NaN to integer"
  | .infinite => "cannot convert float infinity to integer"
  | .numeral fault => fault.message

/-- A double is cut off toward zero, and text is read as a numeral. -/
def toInteger : Value → Except IntegerFault Int
  | .integer number => .ok number
  | .real number =>
      if number.isNaN then .error .notANumber
      else if number.isInfinite then .error .infinite
      else .ok number.truncate
  | .text content => (Numeral.integer content).mapError .numeral

def plain : Value → String
  | .integer number => toString number
  | .real number => number.toText
  | .text content => content

def listed : Value → String
  | .text content => Text.quoted content
  | value => value.plain

end Value

end SeisLog
