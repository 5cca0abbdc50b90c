import SeisLog.Layout.Basic

/-!
# Drafts of layouts

A draft collects entries without looking at them; building it checks the block size, then each
entry, then the fields together, and reports the first fault.
-/

namespace SeisLog

namespace Layout

/-- A finished field, or raw data that should be a name, two offsets and an encoding. -/
inductive Entry
  | field (field : Field)
  | raw (datum : Datum)

namespace Entry

def described (name : String) (start stop : Int) (encoding : Encoding) : Entry :=
  .raw (.tuple [.text name, .integer start, .integer stop, .encoding encoding])

def encoding? : Datum → Option Encoding
  | .encoding encoding => some encoding
  | _ => none

def toField : Entry → Except Fault Field
  | .field done => .ok done
  | .raw datum =>
      match datum.four? with
      | none => .error (Fault.shape datum).told
      | some (name, start, stop, kind) =>
          if Numeral.arePrintable name.numbers then
            match encoding? kind with
            | none => .error (Fault.encoding name.plain kind).told
            | some encoding => do
                let start ← start.toOffset.mapError .offset
                let stop ← stop.toOffset.mapError .offset
                Field.make name.plain (← Span.make start stop) encoding
          else .error .unprintable

end Entry

def build (name : String) (entries : List Entry) (blockSize : Option Int) :
    Except Fault Layout := do
  match blockSize with
  | some size => if size ≤ 0 then throw (Fault.blockSize name size).told
  | none => pure ()
  ofFields name (← entries.mapM Entry.toField) blockSize

structure Draft where
  name : String
  blockSize : Option Int
  entries : List Entry

namespace Draft

def empty (name : String) (blockSize : Option Int) : Draft := ⟨name, blockSize, []⟩

/-- A draft that starts with the fields of a layout. -/
def ofLayout (layout : Layout) (name : String) (blockSize : Option Int) : Draft :=
  ⟨name, blockSize, layout.fields.map .field⟩

def add (draft : Draft) (entry : Entry) : Draft :=
  { draft with entries := draft.entries ++ [entry] }

def build (draft : Draft) : Except Fault Layout :=
  Layout.build draft.name draft.entries draft.blockSize

end Draft

end Layout

end SeisLog
