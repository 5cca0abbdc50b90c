import SeisLog.File
import SeisLog.Header.Basic
import SeisLog.Las.Header

/-!
# LAS records

The content of a record is the whole text of a log; the items of the wanted header sections are its
fields.
-/

namespace SeisLog.Las

def mediaType : String := "text/las"

def dcmiType : String := "Dataset"

def supportedTypes : List String := [mediaType]

def extensions : List String := [".las"]

structure Config where
  charset : String := "US-ASCII"
  sections : List String := ["V", "W"]

def canParse (path : String) : Bool := FileName.hasExtension extensions path

/-- No sections wanted means that the text is not parsed at all. -/
def select (text : String) (sections : List String) : Except Failure Selection :=
  if sections.isEmpty then .ok ⟨[], []⟩
  else (Selection.ofText text sections).mapError .log

def extract {σ : Type} [Medium σ] (config : Config) : Reading σ Record := do
  let text ← Reading.text config.charset none
  let selection ← Reading.ofExcept (select text config.sections)
  return {
    mediaType, dcmiType
    content := text
    fields := selection.fields.map fun (name, value) => (name, .text value)
    warnings := selection.warnings }

def extractFile (file : File) (config : Config) : Except Failure Record :=
  file.read (extract config)

end SeisLog.Las
