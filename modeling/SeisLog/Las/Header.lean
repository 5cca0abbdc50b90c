import SeisLog.Fields
import SeisLog.Failure
import SeisLog.Las.Item
import SeisLog.Text.Basic

/-!
# Log headers

The text of a log is cut into sections at the lines that start with a tilde. Sections are read in
order under the version found so far, and the last section of a kind stands for that kind; what the
text lacks has defaults.
-/

namespace SeisLog.Las

structure Section where
  title : String
  lines : List (Nat × List Char)
deriving DecidableEq, Repr

namespace Section

/-- Adds a numbered, trimmed line to sections in reverse order. -/
def place (sections : List Section) (line : Nat × List Char) : List Section :=
  if line.2.head? == some '~' then ⟨String.ofList line.2, []⟩ :: sections
  else
    match sections with
    | [] => []
    | current :: earlier => { current with lines := line :: current.lines } :: earlier

/-- The sections of a text; lines before the first title belong to none. -/
def ofText (text : List Char) : List Section :=
  let lines := (Text.splitAt '\n' text).map Text.trim
  let numbered := (List.range' 1 lines.length).zip lines
  (numbered.foldl place []).reverse.map fun part => { part with lines := part.lines.reverse }

def has (part : String) (title : String) : Bool := Text.hasPart part.toList title.toList

def starts (part : String) (title : String) : Bool := part.toList.isPrefixOf title.toList

/-- Data and free text, which hold no items. -/
def isSkipped (title : String) : Bool :=
  starts "~A" title || has "~Log_Data" title || starts "~O" title || has "_Data" title

def upperTitle (title : String) : String := String.ofList (Text.upper title.toList)

/-- Data, parameters and definitions of the third version's named sections. -/
def isNamed (version? : Option Version) (title : String) : Bool :=
  let title := upperTitle title
  version? == some .v3_0 && (has "_DATA" title || has "_PARAMETER" title || has "_DEFINITION" title)

def kind (version : Version) (title : String) : Kind :=
  let upper := upperTitle title
  if isNamed (some version) title then .other
  else if starts "~C" upper then .curves
  else if starts "~P" upper then .parameter
  else if starts "~W" upper then .well
  else if starts "~V" upper then .version
  else .other

def items (version : Version) (part : Section) : Except Fault (List Item) := do
  let kind := kind version part.title
  let lines := part.lines.filter fun line => !line.2.isEmpty && line.2.head? != some '#'
  let items ← lines.mapM fun line =>
    match Line.parts? kind line.2 with
    | some parts => .ok (Item.ofParts kind version parts)
    | none => .error (.unreadable line.1 part.title (String.ofList line.2))
  return Item.number items

end Section

/-- The items under each section letter, and the kind of section that the curves were read as. -/
structure Header where
  version : List Item
  well : List Item
  curves : List Item
  parameters : List Item
  curveKind : Kind
deriving DecidableEq, Repr

namespace Header

def defaults : Header where
  version := [
    ⟨"VERS", .real Version.v2_0.number⟩, ⟨"WRAP", .text "NO"⟩, ⟨"DLM", .text "SPACE"⟩]
  well :=
    ["STRT", "STOP", "STEP"].map (⟨·, .real Binary64.nan⟩) ++
    [⟨"NULL", .real (Binary64.ofRatio true 999925 100)⟩] ++
    ["COMP", "WELL", "FLD", "LOC", "PROV", "CNTY", "STAT", "CTRY", "SRVC", "DATE", "UWI",
      "API"].map (⟨·, .text ""⟩)
  curves := []
  parameters := []
  curveKind := .curves

/-- The header so far, with the version and the delimiter in force. -/
structure Progress where
  header : Header
  version : Value
  delimiter : Value

def initial : Progress := ⟨defaults, .real Version.v2_0.number, .text "SPACE"⟩

def valueOf (items : List Item) (mnemonic : String) : Option Value :=
  (items.find? (·.mnemonic == mnemonic)).map Item.value

/-- Puts the items of a section, read as one of the given kind, where its title belongs. -/
def put (header : Header) (version? : Option Version) (kind : Kind) (title : String)
    (items : List Item) : Except Fault Header :=
  match title.toList with
  | _ :: letter :: _ =>
      let plain := !Section.has "_" title
      if (letter == 'C' && plain) || Section.has "~Log_Definition" title then
        .ok { header with curves := items, curveKind := kind }
      else if (letter == 'P' && plain) || Section.has "~Log_Parameter" title then
        .ok { header with parameters := items }
      else if Section.isNamed version? title then .ok header
      else if letter == 'V' then .ok { header with version := items }
      else if letter == 'W' then .ok { header with well := items }
      else .ok header
  | _ => .error .emptyTitle

def addSection (progress : Progress) (part : Section) : Except Fault Progress := do
  if Section.isSkipped part.title then return progress
  let some version := Version.ofValue? progress.version | throw .version
  let kind := Section.kind version part.title
  let items ← part.items version
  let version := (valueOf items "VERS").getD progress.version
  let delimiter := (valueOf items "DLM").getD progress.delimiter
  let header ← progress.header.put (Version.ofValue? version) kind part.title items
  return ⟨header, version, delimiter⟩

def delimiters : List Value := [.text "SPACE", .text "COMMA", .text "TAB"]

/-- The header of a log that is not blank. -/
def ofText (text : String) : Except Fault Header := do
  if Section.starts "LASF" text then throw .pointCloud
  let parts := Section.ofText text.toList
  if parts.isEmpty then throw .noSections
  let progress ← parts.foldlM addSection initial
  if !delimiters.contains progress.delimiter then throw .delimiter
  let header := progress.header
  if !header.curves.isEmpty && header.curveKind != .curves then throw .curveKind
  return header

def items? (header : Header) : String → Option (List Item)
  | "V" => some header.version
  | "W" => some header.well
  | "C" => some header.curves
  | "P" => some header.parameters
  | _ => none

end Header

/-- Item names and values as text, and remarks on what could not be read. -/
structure Selection where
  fields : Fields String
  warnings : List String
deriving DecidableEq, Repr

namespace Selection

def field (item : Item) : String × String :=
  (String.ofList (Text.upper item.mnemonic.toList),
    String.ofList (Text.trim item.value.plain.toList))

def add (header : Header) (selection : Selection) (letter : String) : Selection :=
  match header.items? (String.ofList (Text.upper letter.toList)) with
  | some items => { selection with fields := selection.fields.setAll (items.map field) }
  | none => { selection with warnings := selection.warnings ++ ["unknown LAS section ~" ++ letter] }

def ofHeader (header : Header) (letters : List String) : Selection :=
  letters.foldl (add header) ⟨[], []⟩

/-- The items of the sections with the given letters. A header with a line that cannot be read
gives none of its items. -/
def ofText (text : String) (letters : List String) : Except Fault Selection :=
  if text.toList.all Text.isBlank then .ok ⟨[], []⟩
  else
    match Header.ofText text with
    | .ok header => .ok (ofHeader header letters)
    | .error (.unreadable number title line) =>
        .ok ⟨[], ["LAS header not readable: " ++ (Fault.unreadable number title line).message]⟩
    | .error fault => .error fault

end Selection

end SeisLog.Las
