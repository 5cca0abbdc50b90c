import SeisLog.Fields
import SeisLog.Summary
import SeisLog.Text.Lower

/-!
# Files and their records

What may be found under a name, and what is indexed of it. The extension of a path is what follows
the last period of its last component, the period included, if that period is neither the first nor
the last character of the component. Empty components and single periods do not count.
-/

namespace SeisLog

inductive File
  | missing
  | directory
  | regular (content : Bytes)

def File.read {α : Type} (file : File) (reading : Reading Tape α) : Except Failure α :=
  match file with
  | .missing => .error .noFile
  | .directory => .error .directory
  | .regular content => (reading (Tape.ofFile content)).1

structure Record where
  mediaType : String
  dcmiType : String
  content : String
  fields : Fields Value := []
  summary : Option Summary := none
  warnings : List String := []
deriving DecidableEq, Repr

def Record.metadata (record : Record) : Fields String := [
    ("stream_content_type", record.mediaType), ("format", record.mediaType),
    ("type", record.dcmiType), ("content", record.content)]

namespace FileName

def lastComponent (path : List Char) : List Char :=
  let parts := (Text.splitAt '/' path).filter fun part => part != [] && part != ['.']
  parts.getLast?.getD []

def extension (path : String) : String :=
  let name := lastComponent path.toList
  let ending := name.reverse.takeWhile (· != '.')
  let stem := name.length - ending.length - 1
  if ending.length = name.length || ending.isEmpty || stem = 0 then ""
  else String.ofList (name.drop stem)

/-- Whether the extension of a path, in lower case, is one of the given ones. -/
def hasExtension (extensions : List String) (path : String) : Bool :=
  extensions.contains (String.ofList (Text.lower (extension path).toList))

end FileName

end SeisLog
