import Mathlib.Data.List.Forall2
import SeisLog.Layout.Draft
import SeisLog.Proofs.Header

/-!
# Which layouts are accepted

What makes an entry sound (`Entry.Valid`), which field it describes, and the first thing that is
wrong with one that is not (`Entry.Faulty`); then what keeps sound fields from standing together
(`Clash`). Building a layout accepts what is sound in both respects and reports the first fault in
a fixed order: the block size, the entries one by one, the fields together (`build_outcome`). An
offset that is no integer, and a message that would need a number with too many digits, end it with
a fault that is none of the layout.
-/

namespace SeisLog

/-- Raw data with everything in its place: a name that can be written, two offsets and an encoding,
which need not suit each other. -/
def Datum.Gives (datum : Datum) (name : String) (start stop : Int) (encoding : Encoding) : Prop :=
  ∃ title low high, datum.four? = some (title, low, high, .encoding encoding) ∧
    Numeral.arePrintable title.numbers ∧ title.plain = name ∧
    low.toOffset = .ok start ∧ high.toOffset = .ok stop

theorem Span.make_eq_ok_iff {start stop : Int} {span : Span} :
    make start stop = .ok span ↔ span.start = start ∧ span.stop = stop := by
  unfold make
  constructor
  · intro h
    split at h
    · cases h
    · split at h
      · cases h
        exact ⟨by dsimp only; omega, by dsimp only; omega⟩
      · cases h
  · rintro ⟨rfl, rfl⟩
    have hlt := span.start_lt_stop
    rw [dif_neg (by omega), dif_pos (by omega)]
    rfl

theorem Span.make_eq_error_iff {start stop : Int} {fault : Layout.Fault} :
    make start stop = .error fault ↔
      (start < 0 ∧ fault = (Layout.Fault.negativeStart start).told) ∨
        (0 ≤ start ∧ stop ≤ start ∧ fault = (Layout.Fault.emptySpan start stop).told) := by
  unfold make
  by_cases hstart : start < 0
  · rw [dif_pos hstart, Except.error.injEq, eq_comm]
    simp [hstart, Int.not_le.mpr hstart]
  · by_cases hstop : start < stop
    · rw [dif_neg hstart, dif_pos hstop]
      simp [hstart, Int.not_le.mpr hstop]
    · rw [dif_neg hstart, dif_neg hstop, Except.error.injEq, eq_comm]
      simp [hstart, Int.not_lt.mp hstart, Int.not_lt.mp hstop]

theorem Field.make_eq_ok_iff {name : String} {span : Span} {encoding : Encoding} {field : Field} :
    make name span encoding = .ok field ↔
      field.name = name ∧ field.span = span ∧ field.encoding = encoding := by
  unfold make
  constructor
  · intro h
    split at h
    · cases h
    · split at h
      · cases h
        exact ⟨rfl, rfl, rfl⟩
      · split at h
        · cases h
          exact ⟨rfl, rfl, rfl⟩
        · cases h
  · rintro ⟨rfl, rfl, rfl⟩
    rw [dif_neg field.name_ne_empty]
    split
    · rfl
    · rename_i width hwidth
      rw [dif_pos (field.length_eq_width width hwidth)]

theorem Field.make_eq_error_iff {name : String} {span : Span} {encoding : Encoding}
    {fault : Layout.Fault} : make name span encoding = .error fault ↔
      (name = "" ∧ fault = .emptyName) ∨
        (name ≠ "" ∧ ∃ width, encoding.width? = some width ∧ span.stop - span.start ≠ width ∧
          fault = (Layout.Fault.width name encoding width span).told) := by
  unfold make
  by_cases hname : name = ""
  · rw [dif_pos hname, Except.error.injEq, eq_comm]
    simp [hname]
  · rw [dif_neg hname]
    split
    · rename_i hnone
      simp [hname, hnone]
    · rename_i width hwidth
      by_cases hlength : span.stop - span.start = width
      · rw [dif_pos hlength]
        simp [hname, hwidth, hlength]
      · rw [dif_neg hlength, Except.error.injEq, eq_comm]
        simp [hname, hwidth, hlength]

namespace Layout

inductive Misfit (name : String) (start stop : Int) (encoding : Encoding) : Fault → Prop
  | negativeStart : start < 0 → Misfit name start stop encoding (.negativeStart start)
  | emptySpan : 0 ≤ start → stop ≤ start → Misfit name start stop encoding (.emptySpan start stop)
  | emptyName : 0 ≤ start → start < stop → name = "" → Misfit name start stop encoding .emptyName
  | width {width : Nat} {span : Span} : span.start = start → span.stop = stop → name ≠ "" →
      encoding.width? = some width → stop - start ≠ width →
      Misfit name start stop encoding (.width name encoding width span)

namespace Entry

/-- The entry is sound for itself. -/
def Valid : Entry → Prop
  | .field _ => True
  | .raw datum => ∃ name start stop encoding, datum.Gives name start stop encoding ∧
      0 ≤ start ∧ start < stop ∧ name ≠ "" ∧
      ∀ width ∈ encoding.width?, stop - start = (width : Int)

def Describes : Entry → Field → Prop
  | .field done, described => described = done
  | .raw datum, described =>
      datum.Gives described.name described.span.start described.span.stop described.encoding

/-- The first thing that is wrong with an entry: its shape, a name that cannot be written, its
encoding, an offset that is no integer, or what it gives. -/
inductive Faulty : Entry → Fault → Prop
  | shape {datum : Datum} : datum.four? = none → Faulty (.raw datum) (.shape datum)
  | title {datum title low high kind : Datum} :
      datum.four? = some (title, low, high, kind) → ¬ Numeral.arePrintable title.numbers →
      Faulty (.raw datum) .unprintable
  | encoding {datum title low high kind : Datum} :
      datum.four? = some (title, low, high, kind) → Numeral.arePrintable title.numbers →
      (∀ encoding : Encoding, kind ≠ .encoding encoding) →
      Faulty (.raw datum) (.encoding title.plain kind)
  | start {datum title low high : Datum} {encoding : Encoding} {fault : Datum.OffsetFault} :
      datum.four? = some (title, low, high, .encoding encoding) →
      Numeral.arePrintable title.numbers →
      low.toOffset = .error fault → Faulty (.raw datum) (.offset fault)
  | stop {datum title low high : Datum} {encoding : Encoding} {start : Int}
      {fault : Datum.OffsetFault} :
      datum.four? = some (title, low, high, .encoding encoding) →
      Numeral.arePrintable title.numbers →
      low.toOffset = .ok start → high.toOffset = .error fault →
      Faulty (.raw datum) (.offset fault)
  | misfit {datum : Datum} {name : String} {start stop : Int} {encoding : Encoding} {fault : Fault} :
      datum.Gives name start stop encoding → Misfit name start stop encoding fault →
      Faulty (.raw datum) fault

end Entry

/-- What is wrong with a field that comes after others. A repeated name is told before an end beyond
the block. -/
inductive Clash (name : String) (blockSize : Option Int) (before : List Field) (field : Field) :
    Fault → Prop
  | duplicate : field.name ∈ before.map Field.name →
      Clash name blockSize before field (.duplicate name field.name)
  | beyond {size : Int} : field.name ∉ before.map Field.name → blockSize = some size →
      size < field.span.stop →
      Clash name blockSize before field (.beyond name field.name field.span.stop size)

structure Together (blockSize : Option Int) (fields : List Field) : Prop where
  names : (fields.map Field.name).Nodup
  stops : ∀ size ∈ blockSize, ∀ field ∈ fields, (field.span.stop : Int) ≤ size

/-- The first fault of entries for a layout. -/
inductive Refused (name : String) (blockSize : Option Int) (entries : List Entry) : Fault → Prop
  | blockSize {size : Int} : blockSize = some size → size ≤ 0 →
      Refused name blockSize entries (.blockSize name size)
  | entry {before after : List Entry} {entry : Entry} {fault : Fault} :
      (∀ size ∈ blockSize, 0 < size) → entries = before ++ entry :: after →
      (∀ sound ∈ before, sound.Valid) → entry.Faulty fault →
      Refused name blockSize entries fault
  | field {before after : List Field} {field : Field} {fault : Fault} :
      (∀ size ∈ blockSize, 0 < size) →
      List.Forall₂ Entry.Describes entries (before ++ field :: after) →
      Together blockSize before → Clash name blockSize before field fault →
      Refused name blockSize entries fault

section

variable {name : String} {start stop : Int} {encoding : Encoding} {fault : Fault}

/-- The field of what raw data give, with the checks of its span first. -/
theorem make_eq_ok_iff {field : Field} :
    (Span.make start stop >>= fun span => Field.make name span encoding) = .ok field ↔
      field.name = name ∧ field.span.start = start ∧ field.span.stop = stop ∧
        field.encoding = encoding := by
  constructor
  · intro h
    cases hspan : Span.make start stop with
    | error fault =>
        rw [hspan] at h
        cases h
    | ok span =>
        rw [hspan] at h
        obtain ⟨hname, rfl, hencoding⟩ := Field.make_eq_ok_iff.mp h
        obtain ⟨hstart, hstop⟩ := Span.make_eq_ok_iff.mp hspan
        exact ⟨hname, hstart, hstop, hencoding⟩
  · rintro ⟨hname, hstart, hstop, hencoding⟩
    rw [Span.make_eq_ok_iff.mpr ⟨hstart, hstop⟩]
    exact Field.make_eq_ok_iff.mpr ⟨hname, rfl, hencoding⟩

theorem make_eq_error_iff {told : Fault} :
    (Span.make start stop >>= fun span => Field.make name span encoding) = .error told ↔
      ∃ fault, Misfit name start stop encoding fault ∧ told = fault.told := by
  cases hspan : Span.make start stop with
  | error other =>
      have hother : (Except.error other >>= fun span => Field.make name span encoding) =
          .error told ↔ told = other := ⟨fun h => (Except.error.inj h).symm, fun h => h ▸ rfl⟩
      rw [hother]
      obtain ⟨hstart, rfl⟩ | ⟨hstart, hstop, rfl⟩ := Span.make_eq_error_iff.mp hspan
      · refine ⟨fun htold => ⟨_, .negativeStart hstart, htold⟩, ?_⟩
        rintro ⟨fault, hfault, rfl⟩
        cases hfault with
        | negativeStart _ => rfl
        | emptySpan hnonneg _ => omega
        | emptyName hnonneg _ _ => omega
        | width hlow _ _ _ _ => omega
      · refine ⟨fun htold => ⟨_, .emptySpan hstart hstop, htold⟩, ?_⟩
        rintro ⟨fault, hfault, rfl⟩
        cases hfault with
        | negativeStart hneg => omega
        | emptySpan _ _ => rfl
        | emptyName _ hlt _ => omega
        | @width _ span hlow hhigh _ _ _ =>
            have hlt := span.start_lt_stop
            omega
  | ok span =>
      obtain ⟨rfl, rfl⟩ := Span.make_eq_ok_iff.mp hspan
      have hlt := span.start_lt_stop
      show Field.make name span encoding = .error told ↔ _
      rw [Field.make_eq_error_iff]
      constructor
      · rintro (⟨hname, rfl⟩ | ⟨hname, width, hwidth, hlength, rfl⟩)
        · exact ⟨.emptyName, .emptyName (by omega) (by omega) hname, rfl⟩
        · exact ⟨_, .width rfl rfl hname hwidth (by omega), rfl⟩
      · rintro ⟨fault, hfault, rfl⟩
        cases hfault with
        | negativeStart hneg => omega
        | emptySpan _ hle => omega
        | emptyName _ _ hname => exact .inl ⟨hname, rfl⟩
        | width hlow hhigh hname hwidth hlength =>
            obtain rfl := Except.ok.inj ((Span.make_eq_ok_iff.mpr ⟨hlow, hhigh⟩).symm.trans hspan)
            exact .inr ⟨hname, _, hwidth, by omega, rfl⟩

namespace Entry

theorem encoding?_eq_some_iff {kind : Datum} :
    encoding? kind = some encoding ↔ kind = .encoding encoding := by
  constructor
  · intro h
    cases kind with
    | encoding given =>
        cases h
        rfl
    | null | flag _ | integer _ | text _ | list _ | tuple _ => cases h
  · rintro rfl
    rfl

variable {datum : Datum}

theorem toField_of_four {title low high kind : Datum}
    (h : datum.four? = some (title, low, high, kind)) (hp : Numeral.arePrintable title.numbers) :
    (Entry.raw datum).toField = (
      match encoding? kind with
      | none => .error (Fault.encoding title.plain kind).told
      | some encoding => do
          let start ← low.toOffset.mapError .offset
          let stop ← high.toOffset.mapError .offset
          Field.make title.plain (← Span.make start stop) encoding) := by
  rw [toField, h]
  exact if_pos hp

theorem toField_of_gives (h : datum.Gives name start stop encoding) :
    (Entry.raw datum).toField = (do
      let span ← Span.make start stop
      Field.make name span encoding) := by
  obtain ⟨title, low, high, hfour, hp, rfl, hlow, hhigh⟩ := h
  rw [toField_of_four hfour hp, encoding?_eq_some_iff.mpr rfl, hlow, hhigh]
  rfl

theorem describes_described {described : Field} :
    (Entry.described name start stop encoding).Describes described ↔
      described.name = name ∧ described.span.start = start ∧ described.span.stop = stop ∧
        described.encoding = encoding := by
  constructor
  · rintro ⟨title, low, high, hfour, -, hname, hlow, hhigh⟩
    simp only [Datum.four?, Option.some.injEq, Prod.mk.injEq, Datum.encoding.injEq] at hfour
    obtain ⟨rfl, rfl, rfl, rfl⟩ := hfour
    exact ⟨hname.symm, (Except.ok.inj hlow).symm, (Except.ok.inj hhigh).symm, rfl⟩
  · rintro ⟨rfl, rfl, rfl, rfl⟩
    exact ⟨_, _, _, rfl, rfl, rfl, rfl, rfl⟩

variable {entry : Entry}

theorem Faulty.toField_eq (h : entry.Faulty fault) : entry.toField = .error fault.told := by
  cases h with
  | shape hfour => rw [toField, hfour]
  | title hfour hp =>
      rw [toField, hfour]
      exact if_neg hp
  | encoding hfour hp hkind =>
      rw [toField_of_four hfour hp]
      cases hencoding : encoding? _ with
      | none => rfl
      | some encoding => exact absurd (encoding?_eq_some_iff.mp hencoding) (hkind encoding)
  | start hfour hp hlow =>
      rw [toField_of_four hfour hp, encoding?_eq_some_iff.mpr rfl, hlow]
      rfl
  | stop hfour hp hlow hhigh =>
      rw [toField_of_four hfour hp, encoding?_eq_some_iff.mpr rfl, hlow, hhigh]
      rfl
  | misfit hgives hmisfit =>
      rw [toField_of_gives hgives]
      exact make_eq_error_iff.mpr ⟨_, hmisfit, rfl⟩

/-- Raw data give something, or it is clear what they lack. -/
theorem gives_or_faulty (datum : Datum) :
    (∃ name start stop encoding, datum.Gives name start stop encoding) ∨
      ∃ fault, (Entry.raw datum).Faulty fault := by
  cases hfour : datum.four? with
  | none => exact .inr ⟨_, .shape hfour⟩
  | some items =>
      obtain ⟨title, low, high, kind⟩ := items
      by_cases hp : Numeral.arePrintable title.numbers
      · cases hkind : encoding? kind with
        | none =>
            refine .inr ⟨_, .encoding hfour hp ?_⟩
            intro encoding hlabel
            rw [encoding?_eq_some_iff.mpr hlabel] at hkind
            cases hkind
        | some encoding =>
            obtain rfl := encoding?_eq_some_iff.mp hkind
            cases hlow : low.toOffset with
            | error fault => exact .inr ⟨_, .start hfour hp hlow⟩
            | ok start =>
                cases hhigh : high.toOffset with
                | error fault => exact .inr ⟨_, .stop hfour hp hlow hhigh⟩
                | ok stop =>
                    exact .inl
                      ⟨_, start, stop, encoding, title, low, high, hfour, hp, rfl, hlow, hhigh⟩
      · exact .inr ⟨_, .title hfour hp⟩

theorem toField_eq_ok_iff {described : Field} :
    entry.toField = .ok described ↔ entry.Describes described := by
  cases entry with
  | field done =>
      constructor
      · intro h
        cases h
        rfl
      · rintro rfl
        rfl
  | raw datum =>
      constructor
      · intro h
        obtain ⟨name, start, stop, encoding, hgives⟩ | ⟨fault, hfaulty⟩ := gives_or_faulty datum
        · rw [toField_of_gives hgives] at h
          obtain ⟨rfl, rfl, rfl, rfl⟩ := make_eq_ok_iff.mp h
          exact hgives
        · rw [hfaulty.toField_eq] at h
          cases h
      · intro h
        rw [toField_of_gives h]
        exact make_eq_ok_iff.mpr ⟨rfl, rfl, rfl, rfl⟩

theorem toField_eq_error_iff {told : Fault} :
    entry.toField = .error told ↔ ∃ fault, entry.Faulty fault ∧ told = fault.told := by
  constructor
  · intro h
    cases entry with
    | field done => cases h
    | raw datum =>
        obtain ⟨name, start, stop, encoding, hgives⟩ | ⟨fault, hfaulty⟩ := gives_or_faulty datum
        · rw [toField_of_gives hgives] at h
          obtain ⟨fault, hmisfit, htold⟩ := make_eq_error_iff.mp h
          exact ⟨fault, .misfit hgives hmisfit, htold⟩
        · rw [hfaulty.toField_eq] at h
          exact ⟨fault, hfaulty, (Except.error.inj h).symm⟩
  · rintro ⟨fault, hfaulty, rfl⟩
    exact hfaulty.toField_eq

theorem valid_iff : entry.Valid ↔ ∃ described, entry.Describes described := by
  cases entry with
  | field done => exact ⟨fun _ => ⟨done, rfl⟩, fun _ => trivial⟩
  | raw datum =>
      constructor
      · rintro ⟨name, start, stop, encoding, hgives, hstart, hstop, hname, hwidth⟩
        have hlow : (start.toNat : Int) = start := Int.toNat_of_nonneg hstart
        have hhigh : (stop.toNat : Int) = stop := by omega
        refine ⟨⟨name, ⟨start.toNat, stop.toNat, by omega⟩, encoding, hname, ?_⟩, ?_⟩
        · intro width hmem
          have := hwidth width hmem
          dsimp only
          omega
        · rw [← hlow, ← hhigh] at hgives
          exact hgives
      · rintro ⟨described, hgives⟩
        have hlt := described.span.start_lt_stop
        refine ⟨_, _, _, _, hgives, by omega, by omega, described.name_ne_empty, ?_⟩
        intro width hmem
        have := described.length_eq_width width hmem
        omega

variable {entries : List Entry} {fields : List Field}

theorem mapM_cons_toField (entry : Entry) (entries : List Entry) :
    (entry :: entries).mapM toField = (do
      let field ← entry.toField
      let fields ← entries.mapM toField
      return field :: fields) := List.mapM_cons

theorem mapM_toField_eq_ok_iff :
    entries.mapM toField = .ok fields ↔ List.Forall₂ Describes entries fields := by
  induction entries generalizing fields with
  | nil =>
      rw [List.forall₂_nil_left_iff, List.mapM_nil]
      exact ⟨fun h => (Except.ok.inj h).symm, fun h => h ▸ rfl⟩
  | cons entry rest ih =>
      rw [List.forall₂_cons_left_iff, mapM_cons_toField]
      constructor
      · intro h
        cases hentry : entry.toField with
        | error fault =>
            rw [hentry] at h
            cases h
        | ok field =>
            cases hrest : rest.mapM toField with
            | error fault =>
                rw [hentry, hrest] at h
                cases h
            | ok others =>
                rw [hentry, hrest] at h
                cases h
                exact ⟨field, others, toField_eq_ok_iff.mp hentry, ih.mp hrest, rfl⟩
      · rintro ⟨field, others, hentry, hrest, rfl⟩
        rw [toField_eq_ok_iff.mpr hentry, ih.mpr hrest]
        rfl

theorem valid_of_forall₂ (h : List.Forall₂ Describes entries fields) :
    ∀ entry ∈ entries, entry.Valid := by
  induction h with
  | nil => exact nofun
  | cons hfirst _ ih => exact List.forall_mem_cons.mpr ⟨valid_iff.mpr ⟨_, hfirst⟩, ih⟩

/-- The first entry that is not sound is the one that is told. -/
theorem mapM_toField_eq_error_iff {told : Fault} : entries.mapM toField = .error told ↔
    ∃ before entry after fault, entries = before ++ entry :: after ∧
      (∀ sound ∈ before, sound.Valid) ∧ entry.Faulty fault ∧ told = fault.told := by
  constructor
  · intro h
    induction entries with
    | nil => cases h
    | cons entry rest ih =>
        rw [mapM_cons_toField] at h
        cases hentry : entry.toField with
        | error other =>
            rw [hentry] at h
            cases h
            obtain ⟨fault, hfaulty, htold⟩ := toField_eq_error_iff.mp hentry
            exact ⟨[], entry, rest, fault, rfl, nofun, hfaulty, htold⟩
        | ok field =>
            have hrest : rest.mapM toField = .error told := by
              cases hrest : rest.mapM toField with
              | error other =>
                  rw [hentry, hrest] at h
                  cases h
                  rfl
              | ok others =>
                  rw [hentry, hrest] at h
                  cases h
            obtain ⟨before, first, after, fault, rfl, hbefore, hfirst⟩ := ih hrest
            refine ⟨entry :: before, first, after, fault, rfl, ?_, hfirst⟩
            exact List.forall_mem_cons.mpr
              ⟨valid_iff.mpr ⟨field, toField_eq_ok_iff.mp hentry⟩, hbefore⟩
  · rintro ⟨before, entry, after, fault, rfl, hbefore, hfaulty, rfl⟩
    induction before with
    | nil =>
        rw [List.nil_append, mapM_cons_toField, hfaulty.toField_eq]
        rfl
    | cons first rest ih =>
        obtain ⟨hfirst, hrest⟩ := List.forall_mem_cons.mp hbefore
        obtain ⟨field, hfield⟩ := valid_iff.mp hfirst
        rw [List.cons_append, mapM_cons_toField, toField_eq_ok_iff.mpr hfield, ih hrest]
        rfl

end Entry

end

section

variable {name : String} {blockSize : Option Int} {fields : List Field} {fault : Fault}

theorem Together.left {before after : List Field} (h : Together blockSize (before ++ after)) :
    Together blockSize before := by
  refine ⟨?_, ?_⟩
  · exact h.names.sublist ((List.sublist_append_left before after).map _)
  · exact fun size hsize field hf => h.stops size hsize field (List.mem_append_left _ hf)

/-- One more field can stand with others under a new name and within the block. -/
theorem together_concat_iff {before : List Field} {field : Field} :
    Together blockSize (before ++ [field]) ↔ Together blockSize before ∧
      field.name ∉ before.map Field.name ∧
        ∀ size ∈ blockSize, (field.span.stop : Int) ≤ size := by
  constructor
  · intro h
    have hnames := h.names
    rw [List.map_append, List.nodup_append] at hnames
    refine ⟨h.left, fun hm => hnames.2.2 _ hm _ List.mem_cons_self rfl, ?_⟩
    exact fun size hsize => h.stops size hsize field (by simp)
  · rintro ⟨⟨hnames, hstops⟩, hname, hstop⟩
    have hsingle : [field.name].Nodup := List.nodup_cons.mpr ⟨List.not_mem_nil, List.nodup_nil⟩
    refine ⟨?_, ?_⟩
    · rw [List.map_append, List.nodup_append]
      refine ⟨hnames, hsingle, ?_⟩
      intro other hother last hlast hsame
      rw [hsame, List.mem_singleton.mp hlast] at hother
      exact hname hother
    · intro size hsize other hother
      rcases List.mem_append.mp hother with hm | hm
      · exact hstops size hsize other hm
      · rw [List.mem_singleton.mp hm]
        exact hstop size hsize

theorem firstFault_cons_of_sound {seen : List String} {field : Field} (rest : List Field)
    (hname : field.name ∉ seen) (hstop : ∀ size ∈ blockSize, (field.span.stop : Int) ≤ size) :
    firstFault name blockSize seen (field :: rest) =
      firstFault name blockSize (field.name :: seen) rest := by
  cases blockSize with
  | none => exact if_neg hname
  | some size => exact (if_neg hname).trans (if_neg (Int.not_lt.mpr (hstop size rfl)))

theorem firstFault_append {done before : List Field} (h : Together blockSize (done ++ before))
    (after : List Field) :
    firstFault name blockSize (done.map Field.name).reverse (before ++ after) =
      firstFault name blockSize ((done ++ before).map Field.name).reverse after := by
  induction before generalizing done with
  | nil => rw [List.append_nil, List.nil_append]
  | cons field rest ih =>
      have hstep : field.name :: (done.map Field.name).reverse =
          ((done ++ [field]).map Field.name).reverse := by simp
      have hsplit : done ++ field :: rest = done ++ [field] ++ rest := by simp
      rw [hsplit] at h ⊢
      obtain ⟨-, hname, hstop⟩ := together_concat_iff.mp h.left
      rw [List.cons_append, firstFault_cons_of_sound _ (mt List.mem_reverse.mp hname) hstop, hstep]
      exact ih h

theorem firstFault_of_clash {before : List Field} {field : Field}
    (h : Clash name blockSize before field fault) (after : List Field) :
    firstFault name blockSize (before.map Field.name).reverse (field :: after) = some fault := by
  cases h with
  | duplicate hname => exact if_pos (List.mem_reverse.mpr hname)
  | beyond hname hsize hstop =>
      subst hsize
      exact (if_neg (mt List.mem_reverse.mp hname)).trans (if_pos hstop)

/-- After fields that can stand together, the next one either joins them or clashes. -/
theorem together_or_clash {before : List Field} (h : Together blockSize before) (field : Field) :
    Together blockSize (before ++ [field]) ∨ ∃ fault, Clash name blockSize before field fault := by
  by_cases hname : field.name ∈ before.map Field.name
  · exact .inr ⟨_, .duplicate hname⟩
  · by_cases hstop : ∀ size ∈ blockSize, (field.span.stop : Int) ≤ size
    · exact .inl (together_concat_iff.mpr ⟨h, hname, hstop⟩)
    · simp only [not_forall] at hstop
      obtain ⟨size, hsize, hlt⟩ := hstop
      exact .inr ⟨_, .beyond hname hsize (Int.not_le.mp hlt)⟩

theorem firstFault_eq_none_iff : firstFault name blockSize [] fields = none ↔
    Together blockSize fields := by
  constructor
  · intro h
    exact ⟨(names_nodup_of_firstFault h).1, stop_le_of_firstFault h⟩
  · intro h
    have happend := @firstFault_append name blockSize [] fields h []
    rwa [List.append_nil] at happend

theorem firstFault_append_clash {before : List Field} {field : Field}
    (h : Together blockSize before) (hc : Clash name blockSize before field fault)
    (after : List Field) :
    firstFault name blockSize [] (before ++ field :: after) = some fault :=
  (@firstFault_append name blockSize [] before h _).trans (firstFault_of_clash hc after)

theorem firstFault_eq_some_iff : firstFault name blockSize [] fields = some fault ↔
    ∃ before field after, fields = before ++ field :: after ∧ Together blockSize before ∧
      Clash name blockSize before field fault := by
  constructor
  · intro h
    -- by induction on what is left of the fields after some that can stand together
    have hfirst : ∀ before after, Together blockSize before → fields = before ++ after →
        ∃ before field after, fields = before ++ field :: after ∧ Together blockSize before ∧
          Clash name blockSize before field fault := by
      intro before after htogether hsplit
      induction after generalizing before with
      | nil =>
          rw [List.append_nil] at hsplit
          rw [hsplit, firstFault_eq_none_iff.mpr htogether] at h
          cases h
      | cons field rest ih =>
          obtain hjoin | ⟨other, hother⟩ := @together_or_clash name _ _ htogether field
          · exact ih (before ++ [field]) hjoin (by rw [hsplit, List.append_assoc]; rfl)
          · rw [hsplit, firstFault_append_clash htogether hother] at h
            cases h
            exact ⟨before, field, rest, hsplit, htogether, hother⟩
    exact hfirst [] fields ⟨List.nodup_nil, nofun⟩ rfl
  · rintro ⟨before, field, after, rfl, htogether, hclash⟩
    exact firstFault_append_clash htogether hclash after

theorem together (layout : Layout) : Together layout.blockSize layout.fields :=
  ⟨layout.names_nodup, layout.stop_le_blockSize⟩

theorem ofFields_eq_ok_iff {layout : Layout} : ofFields name fields blockSize = .ok layout ↔
    layout.name = name ∧ layout.fields = fields ∧ layout.blockSize = blockSize := by
  unfold ofFields
  constructor
  · intro h
    split at h
    · cases h
    · cases h
      exact ⟨rfl, rfl, rfl⟩
  · rintro ⟨rfl, rfl, rfl⟩
    have hnone : firstFault layout.name layout.blockSize [] layout.fields = none :=
      firstFault_eq_none_iff.mpr layout.together
    split
    · rename_i fault hsome
      rw [hnone] at hsome
      cases hsome
    · rfl

theorem ofFields_eq_error_iff {told : Fault} : ofFields name fields blockSize = .error told ↔
    ∃ fault, firstFault name blockSize [] fields = some fault ∧ told = fault.told := by
  unfold ofFields
  split
  · rename_i other hsome
    rw [hsome, Except.error.injEq]
    constructor
    · rintro rfl
      exact ⟨other, rfl, rfl⟩
    · rintro ⟨fault, hfault, rfl⟩
      rw [Option.some.inj hfault]
  · rename_i hnone
    refine ⟨nofun, ?_⟩
    rintro ⟨fault, hfault, -⟩
    cases hnone.symm.trans hfault

variable {entries : List Entry}

theorem build_of_nonpos {size : Int} (h : size ≤ 0) :
    build name entries (some size) = .error (Fault.blockSize name size).told := by
  unfold build
  dsimp only
  rw [if_pos h]
  rfl

theorem build_of_pos (h : ∀ size ∈ blockSize, 0 < size) :
    build name entries blockSize = (do
      let fields ← entries.mapM Entry.toField
      ofFields name fields blockSize) := by
  cases blockSize with
  | none => rfl
  | some size =>
      unfold build
      dsimp only
      rw [if_neg (Int.not_le.mpr (h size rfl))]

theorem build_eq_ok_iff {layout : Layout} : build name entries blockSize = .ok layout ↔
    (∀ size ∈ blockSize, 0 < size) ∧ List.Forall₂ Entry.Describes entries layout.fields ∧
      layout.name = name ∧ layout.blockSize = blockSize := by
  by_cases hpos : ∀ size ∈ blockSize, 0 < size
  · rw [build_of_pos hpos, and_iff_right hpos]
    constructor
    · intro h
      cases hfields : entries.mapM Entry.toField with
      | error fault =>
          rw [hfields] at h
          cases h
      | ok fields =>
          rw [hfields] at h
          obtain ⟨hname, rfl, hsize⟩ := ofFields_eq_ok_iff.mp h
          exact ⟨Entry.mapM_toField_eq_ok_iff.mp hfields, hname, hsize⟩
    · rintro ⟨hfields, hname, hsize⟩
      rw [Entry.mapM_toField_eq_ok_iff.mpr hfields]
      exact ofFields_eq_ok_iff.mpr ⟨hname, rfl, hsize⟩
  · refine ⟨fun h => ?_, fun h => absurd h.1 hpos⟩
    simp only [not_forall] at hpos
    obtain ⟨size, rfl, hsize⟩ := hpos
    rw [build_of_nonpos (Int.not_lt.mp hsize)] at h
    cases h

theorem build_eq_error_iff {told : Fault} : build name entries blockSize = .error told ↔
    ∃ fault, Refused name blockSize entries fault ∧ told = fault.told := by
  constructor
  · intro h
    by_cases hpos : ∀ size ∈ blockSize, 0 < size
    · rw [build_of_pos hpos] at h
      cases hfields : entries.mapM Entry.toField with
      | error other =>
          rw [hfields] at h
          cases h
          obtain ⟨before, entry, after, fault, hsplit, hbefore, hfaulty, htold⟩ :=
            Entry.mapM_toField_eq_error_iff.mp hfields
          exact ⟨fault, .entry hpos hsplit hbefore hfaulty, htold⟩
      | ok fields =>
          rw [hfields] at h
          obtain ⟨fault, hfault, htold⟩ := ofFields_eq_error_iff.mp h
          obtain ⟨before, field, after, rfl, htogether, hclash⟩ := firstFault_eq_some_iff.mp hfault
          exact ⟨fault, .field hpos (Entry.mapM_toField_eq_ok_iff.mp hfields) htogether hclash,
            htold⟩
    · simp only [not_forall] at hpos
      obtain ⟨size, rfl, hsize⟩ := hpos
      rw [build_of_nonpos (Int.not_lt.mp hsize)] at h
      exact ⟨_, .blockSize rfl (Int.not_lt.mp hsize), (Except.error.inj h).symm⟩
  · rintro ⟨fault, hrefused, rfl⟩
    cases hrefused with
    | blockSize hsize hnonpos => rw [hsize, build_of_nonpos hnonpos]
    | entry hpos hsplit hbefore hfaulty =>
        rw [build_of_pos hpos,
          Entry.mapM_toField_eq_error_iff.mpr ⟨_, _, _, _, hsplit, hbefore, hfaulty, rfl⟩]
        rfl
    | field hpos hfields htogether hclash =>
        rw [build_of_pos hpos, Entry.mapM_toField_eq_ok_iff.mpr hfields]
        exact ofFields_eq_error_iff.mpr
          ⟨_, firstFault_eq_some_iff.mpr ⟨_, _, _, rfl, htogether, hclash⟩, rfl⟩

theorem exists_build_iff : (∃ layout, build name entries blockSize = .ok layout) ↔
    (∀ size ∈ blockSize, 0 < size) ∧
      ∃ fields, List.Forall₂ Entry.Describes entries fields ∧ Together blockSize fields := by
  constructor
  · rintro ⟨layout, hlayout⟩
    obtain ⟨hpos, hfields, -, rfl⟩ := build_eq_ok_iff.mp hlayout
    exact ⟨hpos, layout.fields, hfields, layout.together⟩
  · rintro ⟨hpos, fields, hfields, htogether⟩
    exact ⟨⟨name, fields, blockSize, htogether.names, htogether.stops⟩,
      build_eq_ok_iff.mpr ⟨hpos, hfields, rfl, rfl⟩⟩

theorem exists_stop_eq_requiredSize {layout : Layout} (h : layout.fields ≠ []) :
    ∃ field ∈ layout.fields, field.span.stop = layout.requiredSize := by
  by_contra hnone
  have hbelow : layout.requiredSize ≤ layout.requiredSize - 1 := by
    rw [requiredSize_le_iff]
    intro field hf
    have hle := stop_le_requiredSize hf
    have hne : field.span.stop ≠ layout.requiredSize := fun hstop => hnone ⟨field, hf, hstop⟩
    omega
  obtain ⟨field, hf⟩ := List.exists_mem_of_ne_nil _ h
  have hlt := field.span.start_lt_stop
  have hle := stop_le_requiredSize hf
  omega

theorem requiredSize_le_readSize_of_pos {layout : Layout}
    (h : ∀ size ∈ layout.blockSize, 0 < size) : (layout.requiredSize : Int) ≤ layout.readSize := by
  have hle := layout.requiredSize_le_readSize
  have hnonneg : 0 ≤ layout.readSize := by
    unfold readSize
    cases hsize : layout.blockSize with
    | none => exact Int.natCast_nonneg _
    | some size => exact Int.le_of_lt (h size hsize)
  omega

/-- The faults of a layout, as against an offset that is no integer and a number with too many
digits for a message. -/
def Fault.IsOfLayout (fault : Fault) : Prop :=
  (∀ unread, fault ≠ .offset unread) ∧ fault ≠ .unprintable

theorem Fault.isOfLayout_told_iff {fault : Fault} :
    fault.told.IsOfLayout ↔ fault.IsOfLayout ∧ Numeral.arePrintable fault.numbers := by
  unfold told
  split
  · rename_i hp
    exact (and_iff_left hp).symm
  · rename_i hp
    exact ⟨fun h => absurd rfl h.2, fun h => absurd h.2 hp⟩

theorem Fault.told_eq_and_isOfLayout_iff {fault told : Fault} :
    told = fault.told ∧ told.IsOfLayout ↔
      told = fault ∧ fault.IsOfLayout ∧ Numeral.arePrintable fault.numbers := by
  constructor
  · rintro ⟨rfl, hlayout⟩
    obtain ⟨hfault, hp⟩ := isOfLayout_told_iff.mp hlayout
    exact ⟨if_pos hp, hfault, hp⟩
  · rintro ⟨rfl, hfault, hp⟩
    exact ⟨(if_pos hp).symm, hfault⟩

/-- A layout is built from sound entries whose fields can stand together, and from no others. What
is refused is told by its first fault, and by a fault of the layout exactly where that first fault
is one, with a message that can be written. The layout has the fields that the entries describe, in
their order, and takes as many bytes as the one that ends last needs. -/
theorem build_outcome (name : String) (entries : List Entry) (blockSize : Option Int) :
    ((∃ layout, build name entries blockSize = .ok layout) ↔
      (∀ size ∈ blockSize, 0 < size) ∧ (∀ entry ∈ entries, entry.Valid) ∧
        ∃ fields, List.Forall₂ Entry.Describes entries fields ∧ Together blockSize fields) ∧
    (∀ told, build name entries blockSize = .error told ↔
      ∃ fault, Refused name blockSize entries fault ∧ told = fault.told) ∧
    (∀ fault, build name entries blockSize = .error fault ∧ fault.IsOfLayout ↔
      Refused name blockSize entries fault ∧ fault.IsOfLayout ∧
        Numeral.arePrintable fault.numbers) ∧
    ∀ layout, build name entries blockSize = .ok layout →
      layout.name = name ∧ layout.blockSize = blockSize ∧
        List.Forall₂ Entry.Describes entries layout.fields ∧
        (∀ field ∈ layout.fields, layout.field? field.name = some field) ∧
        (layout.fields = [] → layout.requiredSize = 0) ∧
        (layout.fields ≠ [] → ∃ field ∈ layout.fields, field.span.stop = layout.requiredSize) ∧
        (∀ field ∈ layout.fields, field.span.stop ≤ layout.requiredSize) ∧
        (layout.requiredSize : Int) ≤ layout.readSize := by
  refine ⟨?_, fun _ => build_eq_error_iff, ?_, ?_⟩
  · rw [exists_build_iff]
    constructor
    · rintro ⟨hpos, fields, hfields, htogether⟩
      exact ⟨hpos, Entry.valid_of_forall₂ hfields, fields, hfields, htogether⟩
    · rintro ⟨hpos, -, fields, hfields, htogether⟩
      exact ⟨hpos, fields, hfields, htogether⟩
  · intro told
    rw [build_eq_error_iff]
    constructor
    · rintro ⟨⟨fault, hrefused, htold⟩, hlayout⟩
      obtain ⟨rfl, hfault, hp⟩ := Fault.told_eq_and_isOfLayout_iff.mp ⟨htold, hlayout⟩
      exact ⟨hrefused, hfault, hp⟩
    · rintro ⟨hrefused, hlayout, hp⟩
      exact ⟨⟨told, hrefused, (if_pos hp).symm⟩, hlayout⟩
  · intro layout hlayout
    obtain ⟨hpos, hfields, hname, rfl⟩ := build_eq_ok_iff.mp hlayout
    refine ⟨hname, rfl, hfields, fun _ hf => field?_of_mem hf, ?_,
      exists_stop_eq_requiredSize, fun _ hf => stop_le_requiredSize hf,
      requiredSize_le_readSize_of_pos hpos⟩
    intro hnil
    rw [requiredSize, hnil]
    rfl

theorem build_outcome_manyFaults :
    (∃ layout, build "pair" [.described "b" 4 8 .int32, .described "a" 0 2 .int16]
      (some 16) = .ok layout ∧ layout.fieldNames = ["b", "a"] ∧ layout.requiredSize = 8) ∧
    build "many" [.described "a" 0 2 .int16, .described "a" 0 2 .int16,
      .described "" (-2) 0 .int16, .raw .null] none = .error (.negativeStart (-2)) := by
  constructor
  · have hfields : List.Forall₂ Entry.Describes
        [.described "b" 4 8 .int32, .described "a" 0 2 .int16]
        [⟨"b", ⟨4, 8, by decide⟩, .int32, by decide, by decide⟩,
          ⟨"a", ⟨0, 2, by decide⟩, .int16, by decide, by decide⟩] :=
      .cons (Entry.describes_described.mpr ⟨rfl, rfl, rfl, rfl⟩)
        (.cons (Entry.describes_described.mpr ⟨rfl, rfl, rfl, rfl⟩) .nil)
    obtain ⟨haccepted, -, -, hbuilt⟩ := build_outcome "pair"
      [.described "b" 4 8 .int32, .described "a" 0 2 .int16] (some 16)
    obtain ⟨layout, hlayout⟩ := haccepted.mpr ⟨by decide, Entry.valid_of_forall₂ hfields, _,
      hfields, ⟨by decide, by decide⟩⟩
    obtain ⟨-, -, hdescribed, -, -, hattained, hbound, -⟩ := hbuilt layout hlayout
    obtain ⟨first, others, hfirst, hothers, heq⟩ := List.forall₂_cons_left_iff.mp hdescribed
    obtain ⟨second, rest, hsecond, hrest, rfl⟩ := List.forall₂_cons_left_iff.mp hothers
    obtain rfl := List.forall₂_nil_left_iff.mp hrest
    obtain ⟨hb, -, hbstop, -⟩ := Entry.describes_described.mp hfirst
    obtain ⟨ha, -, hastop, -⟩ := Entry.describes_described.mp hsecond
    obtain ⟨last, hlast, hstop⟩ := hattained (heq ▸ List.cons_ne_nil _ _)
    have hfirstle := hbound first (heq ▸ List.mem_cons_self)
    rw [heq, List.mem_cons, List.mem_singleton] at hlast
    refine ⟨layout, hlayout, ?_, ?_⟩
    · rw [fieldNames, heq, List.map_cons, List.map_cons, hb, ha]
      rfl
    · obtain rfl | rfl := hlast <;> omega
  · obtain ⟨-, -, hrefused, -⟩ := build_outcome "many" [.described "a" 0 2 .int16,
      .described "a" 0 2 .int16, .described "" (-2) 0 .int16, .raw .null] none
    have hvalid : (Entry.described "a" 0 2 .int16).Valid :=
      ⟨"a", 0, 2, .int16, ⟨_, _, _, rfl, rfl, rfl, rfl, rfl⟩, by decide, by decide, by decide,
        by decide⟩
    have hbefore : ∀ sound ∈ [Entry.described "a" 0 2 .int16, .described "a" 0 2 .int16],
        sound.Valid :=
      List.forall_mem_cons.mpr ⟨hvalid, List.forall_mem_cons.mpr ⟨hvalid, nofun⟩⟩
    have hfaulty : (Entry.described "" (-2) 0 .int16).Faulty (.negativeStart (-2)) :=
      .misfit ⟨_, _, _, rfl, rfl, rfl, rfl, rfl⟩ (@Misfit.negativeStart _ _ _ .int16 (by decide))
    have hp : Numeral.arePrintable [-2] := by decide +kernel
    exact ((hrefused _).mpr ⟨.entry nofun rfl hbefore hfaulty, ⟨nofun, nofun⟩, hp⟩).1

/-- Letters for an offset, or a block size below zero with too many digits, are refused by a fault
that is none of the layout. -/
theorem build_outcome_of_letters :
    let letters := Entry.raw (.tuple [.text "f", .text "abc", .integer 4, .encoding .int32])
    let fault := Fault.offset (.numeral (.malformed "abc"))
    let size : Int := -(Nat.pow 10 Numeral.digitLimit : Nat)
    (Refused "s" none [letters] fault ∧ build "s" [letters] none = .error fault ∧
      ¬ fault.IsOfLayout) ∧
    Refused "s" (some size) [] (.blockSize "s" size) ∧
      build "s" [] (some size) = .error .unprintable ∧ ¬ Fault.unprintable.IsOfLayout := by
  intro letters fault size
  have hfaulty : letters.Faulty fault := .start rfl rfl rfl
  have hrefused : Refused "s" none [letters] fault :=
    @Refused.entry _ _ _ [] [] _ _ nofun rfl nofun hfaulty
  have hsize : size ≤ 0 := by
    have := Nat.zero_le (Nat.pow 10 Numeral.digitLimit)
    omega
  have htold : (Fault.blockSize "s" size).told = .unprintable := if_neg (by decide +kernel)
  refine ⟨⟨hrefused, build_eq_error_iff.mpr ⟨_, hrefused, rfl⟩, fun h => h.1 _ rfl⟩,
    .blockSize rfl hsize, ?_, fun h => h.2 rfl⟩
  rw [build_of_nonpos hsize, htold]

end

end Layout

end SeisLog
