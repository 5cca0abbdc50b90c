import SeisLog.Number.Binary64
import SeisLog.Text.Basic
import SeisLog.Text.Quoted

/-!
# Numerals

Reading integers and decimals from text: digits of any script, single underscores between digits,
blanks around. An integer may have at most `digitLimit` digits, in a text that is read as well as
in one that is written (`isPrintable`).
-/

namespace SeisLog

namespace Numeral

inductive Fault
  | malformed (text : String)
  | tooLong (digits : Nat)
  | unprintable
deriving DecidableEq, Repr

def digitLimit : Nat := 4300

def shownLength : Nat := 200

/-- The head of a quoted text, which may lose its closing quote. -/
def shown (text : String) : String := String.ofList ((Text.quoted text).toList.take shownLength)

def Fault.message : Fault → String
  | .malformed text => "invalid literal for int() with base 10: " ++ shown text
  | .tooLong digits =>
      s!"Exceeds the limit ({digitLimit} digits) for integer string conversion: value has {digits} digits; use sys.set_int_max_str_digits() to increase the limit"
  | .unprintable =>
      s!"Exceeds the limit ({digitLimit} digits) for integer string conversion; use sys.set_int_max_str_digits() to increase the limit"

/-- Whether a number has few enough digits to be written. -/
@[irreducible] def isPrintable (number : Nat) : Bool := number < Nat.pow 10 digitLimit

def arePrintable (numbers : List Int) : Bool := numbers.all fun number => isPrintable number.natAbs

theorem isPrintable_iff {number : Nat} :
    isPrintable number = true ↔ number < Nat.pow 10 digitLimit := by
  unfold isPrintable
  exact decide_eq_true_iff

/-- The least number with too many digits. -/
theorem isPrintable_pow : isPrintable (Nat.pow 10 digitLimit) = false := by
  unfold isPrintable
  exact decide_eq_false (Nat.lt_irrefl _)

theorem isPrintable_of_lt {number : Nat} (h : number < 1 <<< 64) : isPrintable number = true := by
  have hp : ∀ limit : Nat, 20 ≤ limit → Nat.pow 10 20 ≤ Nat.pow 10 limit := fun _ hl =>
    Nat.pow_le_pow_right (by decide) hl
  have hs : 1 <<< 64 ≤ Nat.pow 10 20 := by decide
  exact isPrintable_iff.mpr (Nat.lt_of_lt_of_le h (Nat.le_trans hs (hp digitLimit (by decide))))

/-- The blanks that may stand around a numeral: not the separators U+001C to U+001F. -/
def isMargin (c : Char) : Bool := Text.isBlank c && !(28 ≤ c.toNat && c.toNat ≤ 31)

def trimMargin (text : List Char) : List Char :=
  ((text.dropWhile isMargin).reverse.dropWhile isMargin).reverse

def takeSign : List Char → Bool × List Char
  | '-' :: rest => (true, rest)
  | '+' :: rest => (false, rest)
  | rest => (false, rest)

/-- The digits after a digit, an underscore allowed before each, and what follows them. -/
def takeDigitsAfter : List Char → List Nat × List Char
  | [] => ([], [])
  | '_' :: c :: rest =>
      match Text.digitValue? c with
      | some d =>
          let (digits, left) := takeDigitsAfter rest
          (d :: digits, left)
      | none => ([], '_' :: c :: rest)
  | c :: rest =>
      match Text.digitValue? c with
      | some d =>
          let (digits, left) := takeDigitsAfter rest
          (d :: digits, left)
      | none => ([], c :: rest)

def takeDigits : List Char → List Nat × List Char
  | [] => ([], [])
  | c :: rest =>
      match Text.digitValue? c with
      | some d =>
          let (digits, left) := takeDigitsAfter rest
          (d :: digits, left)
      | none => ([], c :: rest)

def ofDigits (digits : List Nat) : Nat := digits.foldl (fun n d => 10 * n + d) 0

def integer (text : String) : Except Fault Int :=
  let (negative, body) := takeSign (text.toList.dropWhile isMargin)
  let (digits, left) := takeDigits body
  if digits.isEmpty || left.head? == some '_' then .error (.malformed text)
  else if digitLimit < digits.length then .error (.tooLong digits.length)
  else if (left.dropWhile isMargin).isEmpty then
    .ok (if negative then -(ofDigits digits : Int) else ofDigits digits)
  else .error (.malformed text)

/-- The double nearest to the digits times `10 ^ exponent`. Far beyond the range of doubles only
the side of the range counts. -/
def scale (negative : Bool) (digits : List Nat) (exponent : Int) : Binary64 :=
  let kept := digits.dropWhile (· == 0)
  let size := exponent + kept.length
  if kept.isEmpty || size < -400 then Binary64.ofMagnitude negative 0
  else if 400 < size then Binary64.infinity negative
  else Binary64.ofRatio negative (ofDigits kept * Nat.pow 10 exponent.toNat)
    (Nat.pow 10 (-exponent).toNat)

/-- An exponent part, if the text begins with one, and what follows; zero without one. -/
def takeExponent : List Char → Int × List Char
  | [] => (0, [])
  | c :: rest =>
      let (negative, body) := takeSign rest
      let (digits, left) := takeDigits body
      if (c == 'e' || c == 'E') && !digits.isEmpty then
        (if negative then -(ofDigits digits : Int) else ofDigits digits, left)
      else (0, c :: rest)

/-- The finite or infinite double that a decimal text spells; a decimal needs a digit somewhere. -/
def decimal? (text : String) : Option Binary64 :=
  let (negative, body) := takeSign (trimMargin text.toList)
  let (whole, afterWhole) := takeDigits body
  let (part, afterPart) :=
    match afterWhole with
    | '.' :: rest => takeDigits rest
    | rest => ([], rest)
  let (exponent, left) := takeExponent afterPart
  let digits := whole ++ part
  if digits.isEmpty || !left.isEmpty then none
  else some (scale negative digits (exponent - part.length))

end Numeral

end SeisLog
