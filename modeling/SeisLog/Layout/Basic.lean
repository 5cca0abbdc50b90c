import SeisLog.Layout.Field

/-!
# Layouts

A layout names the fields of one fixed-size block. Its field names are distinct and, where a block
size is declared, no field ends beyond it. A declared size need not be positive.
-/

namespace SeisLog

structure Layout where
  name : String
  fields : List Field
  blockSize : Option Int
  names_nodup : (fields.map Field.name).Nodup
  stop_le_blockSize : ∀ size ∈ blockSize, ∀ field ∈ fields, (field.span.stop : Int) ≤ size
deriving DecidableEq

namespace Layout

def fieldNames (layout : Layout) : List String := layout.fields.map Field.name

/-- The least number of bytes that holds every field. -/
def requiredSize (layout : Layout) : Nat :=
  layout.fields.foldl (fun size field => max size field.span.stop) 0

def readSize (layout : Layout) : Int := layout.blockSize.getD layout.requiredSize

def hasText (layout : Layout) : Bool := layout.fields.any (·.encoding == .text)

def field? (layout : Layout) (name : String) : Option Field :=
  layout.fields.find? (·.name == name)

def contains (layout : Layout) (name : String) : Bool := (layout.field? name).isSome

private theorem foldl_max_le_iff {fields : List Field} {start bound : Nat} :
    fields.foldl (fun size field => max size field.span.stop) start ≤ bound ↔
      start ≤ bound ∧ ∀ field ∈ fields, field.span.stop ≤ bound := by
  induction fields generalizing start with
  | nil => simp
  | cons field rest ih => rw [List.foldl_cons, ih, Nat.max_le, and_assoc, List.forall_mem_cons]

/-- The required size is the least bound of the ends of the fields. -/
theorem requiredSize_le_iff {layout : Layout} {bound : Nat} :
    layout.requiredSize ≤ bound ↔ ∀ field ∈ layout.fields, field.span.stop ≤ bound := by
  rw [requiredSize, foldl_max_le_iff]
  exact and_iff_right (Nat.zero_le _)

theorem stop_le_requiredSize {layout : Layout} {field : Field} (h : field ∈ layout.fields) :
    field.span.stop ≤ layout.requiredSize :=
  requiredSize_le_iff.mp (Nat.le_refl _) field h

/-- The first fault among fields that are sound one by one, after the names `seen`: a repeated name,
or an end beyond the block. -/
def firstFault (name : String) (blockSize : Option Int) (seen : List String) :
    List Field → Option Fault
  | [] => none
  | field :: rest =>
      if field.name ∈ seen then some (.duplicate name field.name)
      else
        match blockSize with
        | some size =>
            if size < field.span.stop then some (.beyond name field.name field.span.stop size)
            else firstFault name blockSize (field.name :: seen) rest
        | none => firstFault name blockSize (field.name :: seen) rest

theorem firstFault_cons_eq_none {name : String} {blockSize : Option Int} {seen : List String}
    {field : Field} {rest : List Field}
    (h : firstFault name blockSize seen (field :: rest) = none) :
    field.name ∉ seen ∧ (∀ size ∈ blockSize, (field.span.stop : Int) ≤ size) ∧
      firstFault name blockSize (field.name :: seen) rest = none := by
  unfold firstFault at h
  split at h
  · contradiction
  · rename_i hs
    cases blockSize with
    | none => exact ⟨hs, by simp, h⟩
    | some size =>
        dsimp only at h
        split at h
        · contradiction
        · exact ⟨hs, by simp; omega, h⟩

theorem names_nodup_of_firstFault {name : String} {blockSize : Option Int} {seen : List String}
    {fields : List Field} (h : firstFault name blockSize seen fields = none) :
    (fields.map Field.name).Nodup ∧ ∀ field ∈ fields, field.name ∉ seen := by
  induction fields generalizing seen with
  | nil => simp
  | cons field rest ih =>
      obtain ⟨hs, -, hr⟩ := firstFault_cons_eq_none h
      obtain ⟨hn, hd⟩ := ih hr
      refine ⟨?_, ?_⟩
      · rw [List.map_cons, List.nodup_cons]
        refine ⟨fun hm => ?_, hn⟩
        obtain ⟨other, ho, he⟩ := List.mem_map.mp hm
        exact hd other ho (by simp [he])
      · intro other ho
        rcases List.mem_cons.mp ho with rfl | ho
        · exact hs
        · exact fun hm => hd other ho (List.mem_cons_of_mem _ hm)

theorem stop_le_of_firstFault {name : String} {blockSize : Option Int} {seen : List String}
    {fields : List Field} (h : firstFault name blockSize seen fields = none) :
    ∀ size ∈ blockSize, ∀ field ∈ fields, (field.span.stop : Int) ≤ size := by
  induction fields generalizing seen with
  | nil => simp
  | cons field rest ih =>
      obtain ⟨-, hb, hr⟩ := firstFault_cons_eq_none h
      intro size hz other ho
      rcases List.mem_cons.mp ho with rfl | ho
      · exact hb size hz
      · exact ih hr size hz other ho

/-- The layout of the given fields, whatever the sign of the declared size. -/
def ofFields (name : String) (fields : List Field) (blockSize : Option Int) :
    Except Fault Layout :=
  match h : firstFault name blockSize [] fields with
  | some fault => .error fault.told
  | none =>
      .ok ⟨name, fields, blockSize, (names_nodup_of_firstFault h).1, stop_le_of_firstFault h⟩

end Layout

end SeisLog
