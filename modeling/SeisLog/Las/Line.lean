import SeisLog.Text.Basic

/-!
# Header lines of a log

A header line reads `NAME.UNIT VALUE : DESCRIPTION`. The end of the name and the colon before the
description depend on the section and on which marks the line holds.
-/

namespace SeisLog.Las

/-- The kind of a section, by which its lines are read. -/
inductive Kind
  | version
  | well
  | curves
  | parameter
  | other
deriving DecidableEq, Repr

/-- The parts of a line, still with their blanks. -/
structure Parts where
  name : List Char
  value : List Char
  description : List Char
deriving DecidableEq, Repr

namespace Line

/-- A way to end the name: the name, the text before the rest with the nearest character first, and
the rest. -/
structure Head where
  name : List Char
  before : List Char
  rest : List Char

/-- The head that ends at the first `mark`, which is dropped. -/
def headTo (mark : Char) (before text : List Char) : Option Head :=
  let name := text.takeWhile (· != mark)
  match text.drop name.length with
  | [] => none
  | _ :: rest => some ⟨name, mark :: name.reverse ++ before, rest⟩

/-- A period before the name is dropped if a period ends the name; else it ends an empty name. -/
def headsToPeriod (line : List Char) : List Head :=
  match line with
  | '.' :: rest => (headTo '.' ['.'] rest).toList ++ [⟨[], ['.'], rest⟩]
  | _ => (headTo '.' [] line).toList

/-- The heads whose name ends in a period that another period follows, the longest first. -/
def doubledFrom (shorter : List Head) (name before : List Char) : List Char → List Head
  | '.' :: '.' :: rest =>
      doubledFrom (⟨('.' :: name).reverse, '.' :: '.' :: before, rest⟩ :: shorter)
        ('.' :: name) ('.' :: before) ('.' :: rest)
  | c :: rest => doubledFrom shorter (c :: name) (c :: before) rest
  | [] => shorter

/-- A name that ends in a period starts, after one optional period, with another character. -/
def headsThroughDots (line : List Char) : List Head :=
  let (before, body) :=
    match line with
    | '.' :: rest => (['.'], rest)
    | _ => ([], line)
  match body with
  | [] => []
  | '.' :: _ => []
  | c :: rest => doubledFrom [] [c] (c :: before) rest

def isAsciiDigit (c : Char) : Bool := '0' ≤ c && c ≤ '9'

/-- The length of a number with the blank after it, which may stand at the head of a unit. -/
def unitNumber (rest : List Char) : Nat :=
  let digits := rest.takeWhile isAsciiDigit
  match digits, rest.drop digits.length with
  | [], _ => 0
  | _, [] => 0
  | _, c :: _ => if Text.isBlank c then digits.length + 1 else 0

def unitRun (rest : List Char) : Nat := (rest.takeWhile fun c => !Text.isBlank c).length

/-- The places of the colons that `accepts` takes, given what is before and after each. -/
def colonsFrom (accepts : List Char → List Char → Bool) (before : List Char) (place : Nat) :
    List Char → List Nat
  | [] => []
  | ':' :: rest =>
      let later := colonsFrom accepts (':' :: before) (place + 1) rest
      if accepts before rest then place :: later else later
  | c :: rest => colonsFrom accepts (c :: before) (place + 1) rest

/-- The parts when the value runs from the unit to the colon at `place`; a unit that reaches past
the colon gives way. -/
def partsAt (name rest : List Char) (place : Nat) : Parts :=
  let start := min (unitRun rest) place
  ⟨name, (rest.drop start).take (place - start), rest.drop (place + 1)⟩

/-- The value ends at the last colon. -/
def described (head : Head) : Option Parts :=
  let rest := head.rest.drop (unitNumber head.rest)
  (colonsFrom (fun _ _ => true) [] 0 rest).getLast?.map (partsAt head.name rest)

def endsInHour : List Char → Bool
  | c :: b :: ' ' :: _ =>
      ('0' ≤ b && b ≤ '2' && '0' ≤ c && c ≤ '3') || (b == 'h' && c == 'h') ||
        (b == 'H' && c == 'H')
  | _ => false

def startsInMinute : List Char → Bool
  | b :: c :: _ =>
      ('0' ≤ b && b ≤ '5' && isAsciiDigit c) || (b == 'm' && c == 'm') || (b == 'M' && c == 'M')
  | _ => false

/-- The value ends at the first colon after the unit that is not part of a time of day; failing
that, at the last such colon inside the unit. -/
def timed (head : Head) : Option Parts :=
  let number := unitNumber head.rest
  let rest := head.rest.drop number
  let before := (head.rest.take number).reverse ++ head.before
  let places := colonsFrom (fun before after => !endsInHour before && !startsInMinute after)
    before 0 rest
  let start := unitRun rest
  match places.find? (start ≤ ·) with
  | some place => some (partsAt head.name rest place)
  | none => places.getLast?.map (partsAt head.name rest)

/-- A line without a colon has no description. -/
def undescribed (head : Head) : Option Parts :=
  let rest := head.rest.drop (unitNumber head.rest)
  some ⟨head.name, rest.drop (unitRun rest), []⟩

/-- After a name that ends at a colon everything is value. -/
def bare (head : Head) : Option Parts := some ⟨head.name, head.rest, []⟩

def hasDoubledPeriod : List Char → Bool
  | '.' :: '.' :: _ => true
  | _ :: rest => hasDoubledPeriod rest
  | [] => false

/-- A doubled period right after a character other than the space. -/
def hasAbuttingDots : List Char → Bool
  | c :: '.' :: '.' :: rest => c != ' ' || hasAbuttingDots ('.' :: '.' :: rest)
  | _ :: rest => hasAbuttingDots rest
  | [] => false

/-- The place of the first doubled period. -/
def doubledPlace (place : Nat) : List Char → Nat
  | '.' :: '.' :: _ => place
  | _ :: rest => doubledPlace (place + 1) rest
  | [] => place

def lastColon (line : List Char) : Option Nat :=
  (colonsFrom (fun _ _ => true) [] 0 line).getLast?

def lacksPeriod (line : List Char) : Bool := !(line.takeWhile (· != ':')).contains '.'

def heads (kind : Kind) (line : List Char) : List Head :=
  match lastColon line with
  | none =>
      if kind = .curves && hasDoubledPeriod line then headsThroughDots line
      else headsToPeriod line
  | some colon =>
      if kind = .curves && hasAbuttingDots line && doubledPlace 0 line < colon then
        headsThroughDots line
      else if lacksPeriod line then (headTo ':' [] line).toList
      else headsToPeriod line

/-- The parts of a trimmed line, unless it has no form of a header line. -/
def parts? (kind : Kind) (line : List Char) : Option Parts :=
  let heads := heads kind line
  match lastColon line with
  | none => heads.findSome? undescribed
  | some _ =>
      if lacksPeriod line then heads.findSome? bare
      else if kind = .parameter then
        match heads.findSome? timed with
        | some parts => some parts
        | none => heads.findSome? described
      else heads.findSome? described

end Line

end SeisLog.Las
