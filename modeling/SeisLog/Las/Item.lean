import SeisLog.Las.Line
import SeisLog.Text.Basic
import SeisLog.Text.Upper
import SeisLog.Value

/-!
# Items of a log header

A line becomes a name with a value. Names are in upper case, and a name that a section has several
times is numbered.
-/

namespace SeisLog.Las

inductive Version
  | v1_0
  | v1_2
  | v2_0
  | v2_1
  | v3_0
deriving DecidableEq, Repr

namespace Version

def all : List Version := [.v1_0, .v1_2, .v2_0, .v2_1, .v3_0]

def tenths : Version → Nat
  | .v1_0 => 10
  | .v1_2 => 12
  | .v2_0 => 20
  | .v2_1 => 21
  | .v3_0 => 30

def number (version : Version) : Binary64 := Binary64.ofRatio false version.tenths 10

def ofValue? (value : Value) : Option Version :=
  all.find? fun version =>
    match value with
    | .integer number => 10 * number == version.tenths
    | .real number => number == version.number
    | .text _ => false

end Version

structure Item where
  mnemonic : String
  value : Value
deriving DecidableEq, Repr

namespace Item

/-- Commas between digits become points, from left to right. -/
def pointed : List Char → List Char
  | a :: ',' :: b :: rest =>
      if Text.isDigit a && Text.isDigit b then a :: '.' :: b :: pointed rest
      else a :: pointed (',' :: b :: rest)
  | c :: rest => c :: pointed rest
  | [] => []

def fitsWord (number : Int) : Bool := -(1 <<< 63 : Nat) ≤ number && number < (1 <<< 63 : Nat)

/-- A number where the text is one: an integer of 64 bits or else a finite double. -/
def numberOrText (text : String) : Value :=
  let written := String.ofList (pointed text.toList)
  let decimal :=
    match Numeral.decimal? written with
    | some number => if number.isFinite then .real number else .text text
    | none => .text text
  match Numeral.integer written with
  | .ok number => if fitsWord number then .integer number else decimal
  | .error _ => decimal

/-- Names whose description holds a value even in the early versions' well section. -/
def keepsOrder (name : String) : Bool := ["STRT", "STOP", "STEP", "NULL"].contains name

/-- Names of well identifiers, which are never numbers. -/
def isIdentifier (name : String) : Bool := ["API", "UWI"].contains name

/-- Early versions put the value of a well item after the colon. -/
def swaps (kind : Kind) (version : Version) (name : String) : Bool :=
  kind == .well && (version == .v1_0 || version == .v1_2) && !keepsOrder name

def ofParts (kind : Kind) (version : Version) (parts : Parts) : Item :=
  let name := String.ofList (Text.upper (Text.trim parts.name))
  let chosen := if swaps kind version name then parts.description else parts.value
  let text := String.ofList (Text.trim chosen)
  let isText := kind == .curves || (kind != .parameter && isIdentifier name)
  ⟨if name.isEmpty then "UNKNOWN" else name, if isText then .text text else numberOrText text⟩

/-- Items in order, a mnemonic that `all` of them have several times numbered from one; `before`
holds the mnemonics of the items already numbered. -/
def numberFrom (all before : List String) : List Item → List Item
  | [] => []
  | item :: rest =>
      let name := item.mnemonic
      let numbered :=
        if all.count name ≤ 1 then name else s!"{name}:{before.count name + 1}"
      { item with mnemonic := numbered } :: numberFrom all (name :: before) rest

def number (items : List Item) : List Item :=
  numberFrom (items.map Item.mnemonic) [] items

end Item

end SeisLog.Las
