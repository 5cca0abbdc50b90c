import SeisLog.Proofs.Acceptance
import SeisLog.Proofs.Decoding
import SeisLog.Proofs.Segy.Binary

/-!
# Extending a layout

A draft grows by entries and changes its name, and the layouts it stands for keep what they had: an
extension decodes no block that the layout before it does not, and to the same values
(`extension_conservative`). Behind it is that a layout with some of the fields of another decodes
wherever the other does (`decode_of_subset`), which also says that the order of the fields does not
matter.
-/

namespace SeisLog

namespace Layout

variable {wide narrow : Layout}

theorem requiredSize_le_of_subset (h : ∀ field ∈ narrow.fields, field ∈ wide.fields) :
    narrow.requiredSize ≤ wide.requiredSize :=
  requiredSize_le_iff.mpr fun field hf => stop_le_requiredSize (h field hf)

theorem hasText_of_subset (h : ∀ field ∈ narrow.fields, field ∈ wide.fields)
    (ht : narrow.hasText = true) : wide.hasText = true := by
  obtain ⟨field, hf, htext⟩ := List.any_eq_true.mp ht
  exact List.any_eq_true.mpr ⟨field, h field hf, htext⟩

/-- Fields that all stand in another layout are decoded wherever those of the other are, and to the
same values. -/
theorem decode_of_subset (h : ∀ field ∈ narrow.fields, field ∈ wide.fields)
    {charset? : Option String} {block : Bytes} {header : Header}
    (hd : wide.decode charset? block = .ok header) :
    ∃ charset, header = Decoder.header ⟨wide, charset⟩ block ∧
      narrow.decode charset? block = .ok (Decoder.header ⟨narrow, charset⟩ block) := by
  obtain ⟨hsize, charset, hc, rfl⟩ := decode_eq_ok_iff.mp hd
  refine ⟨charset, rfl, decode_eq_ok_iff.mpr ⟨?_, charset, ?_, rfl⟩⟩
  · exact Nat.le_trans (requiredSize_le_of_subset h) hsize
  · exact fun ht => hc (hasText_of_subset h ht)

namespace Entry

variable {entries added : List Entry} {fields : List Field}

theorem describes_unique {others : List Field} (h : List.Forall₂ Describes entries fields)
    (ho : List.Forall₂ Describes entries others) : fields = others := by
  rw [← mapM_toField_eq_ok_iff] at h ho
  exact Except.ok.inj (h.symm.trans ho)

theorem describes_append_iff : List.Forall₂ Describes (entries ++ added) fields ↔
    ∃ first second, fields = first ++ second ∧ List.Forall₂ Describes entries first ∧
      List.Forall₂ Describes added second := by
  constructor
  · intro h
    induction entries generalizing fields with
    | nil => exact ⟨[], fields, rfl, .nil, h⟩
    | cons entry rest ih =>
        rw [List.cons_append, List.forall₂_cons_left_iff] at h
        obtain ⟨described, others, hdescribed, hothers, rfl⟩ := h
        obtain ⟨first, second, rfl, hfirst, hsecond⟩ := ih hothers
        exact ⟨described :: first, second, rfl, .cons hdescribed hfirst, hsecond⟩
  · rintro ⟨first, second, rfl, hfirst, hsecond⟩
    exact List.rel_append hfirst hsecond

end Entry

namespace Draft

/-- A draft that was drawn up from another by adding entries and by giving it other names. -/
inductive Extends (draft : Draft) : Draft → Prop
  | refl : Extends draft draft
  | add {wide : Draft} (entry : Entry) : Extends draft wide → Extends draft (wide.add entry)
  | rename {wide : Draft} (name : String) :
      Extends draft wide → Extends draft { wide with name := name }

variable {draft wide : Draft}

/-- What was entered stays in its place. -/
theorem Extends.entries (h : draft.Extends wide) :
    wide.blockSize = draft.blockSize ∧ ∃ added, wide.entries = draft.entries ++ added := by
  induction h with
  | refl => exact ⟨rfl, [], (List.append_nil _).symm⟩
  | add entry _ ih =>
      obtain ⟨hsize, added, hadded⟩ := ih
      exact ⟨hsize, added ++ [entry], by rw [Draft.add, hadded, List.append_assoc]⟩
  | rename name _ ih => exact ih

theorem build_eq_ok_iff {layout : Layout} : draft.build = .ok layout ↔
    (∀ size ∈ draft.blockSize, 0 < size) ∧
      List.Forall₂ Entry.Describes draft.entries layout.fields ∧
      layout.name = draft.name ∧ layout.blockSize = draft.blockSize :=
  Layout.build_eq_ok_iff

theorem exists_build_iff : (∃ layout, draft.build = .ok layout) ↔
    (∀ size ∈ draft.blockSize, 0 < size) ∧ ∃ fields,
      List.Forall₂ Entry.Describes draft.entries fields ∧ Together draft.blockSize fields :=
  Layout.exists_build_iff

theorem Extends.exists_build (h : draft.Extends wide) {wider : Layout}
    (hw : wide.build = .ok wider) :
    ∃ layout, draft.build = .ok layout ∧ layout.fields <+: wider.fields := by
  obtain ⟨hsize, added, hadded⟩ := h.entries
  obtain ⟨hpos, hfields, -, hblock⟩ := build_eq_ok_iff.mp hw
  rw [hadded] at hfields
  obtain ⟨first, second, hsplit, hfirst, -⟩ := Entry.describes_append_iff.mp hfields
  have htogether := wider.together
  rw [hblock, hsize, hsplit] at htogether
  rw [hsize] at hpos
  obtain ⟨layout, hlayout⟩ := exists_build_iff.mpr ⟨hpos, first, hfirst, htogether.left⟩
  obtain ⟨-, hdescribed, -, -⟩ := build_eq_ok_iff.mp hlayout
  obtain rfl := Entry.describes_unique hdescribed hfirst
  exact ⟨layout, hlayout, second, hsplit.symm⟩

/-- One more entry is accepted if it is sound, under a new name and within the block. -/
theorem exists_build_add_iff {layout : Layout} (h : draft.build = .ok layout) (entry : Entry) :
    (∃ wider, (draft.add entry).build = .ok wider) ↔
      entry.Valid ∧ ∃ field, entry.Describes field ∧ field.name ∉ layout.fieldNames ∧
        ∀ size ∈ draft.blockSize, (field.span.stop : Int) ≤ size := by
  obtain ⟨hpos, hfields, -, hblock⟩ := build_eq_ok_iff.mp h
  rw [exists_build_iff]
  constructor
  · rintro ⟨-, fields, hall, htogether⟩
    obtain ⟨first, second, rfl, hfirst, hsecond⟩ := Entry.describes_append_iff.mp hall
    obtain rfl := Entry.describes_unique hfields hfirst
    obtain ⟨field, rest, hfield, hrest, rfl⟩ := List.forall₂_cons_left_iff.mp hsecond
    obtain rfl := List.forall₂_nil_left_iff.mp hrest
    exact ⟨Entry.valid_iff.mpr ⟨field, hfield⟩, field, hfield,
      (together_concat_iff.mp htogether).2⟩
  · rintro ⟨-, field, hfield, hname, hstop⟩
    have htogether := layout.together
    rw [hblock] at htogether
    exact ⟨hpos, layout.fields ++ [field],
      Entry.describes_append_iff.mpr ⟨_, _, rfl, hfields, .cons hfield .nil⟩,
      together_concat_iff.mpr ⟨htogether, hname, hstop⟩⟩

end Draft

section

variable {layout other : Layout}

theorem requiredSize_of_perm (h : other.fields.Perm layout.fields) :
    other.requiredSize = layout.requiredSize :=
  Nat.le_antisymm (requiredSize_le_of_subset fun _ => h.mem_iff.mp)
    (requiredSize_le_of_subset fun _ => h.mem_iff.mpr)

theorem readSize_of_perm (h : other.fields.Perm layout.fields)
    (hsize : other.blockSize = layout.blockSize) : other.readSize = layout.readSize := by
  rw [readSize, readSize, hsize, requiredSize_of_perm h]

theorem decode_of_perm (h : other.fields.Perm layout.fields) {charset? : Option String}
    {block : Bytes} {header : Header} (hd : layout.decode charset? block = .ok header) :
    ∃ again, other.decode charset? block = .ok again ∧ again.values.Perm header.values := by
  obtain ⟨charset, rfl, hagain⟩ := decode_of_subset (fun _ => h.mem_iff.mp) hd
  exact ⟨_, hagain, h.map _⟩

/-- Fields in any order are accepted again, and as entries too where the block size is positive. -/
theorem exists_ofFields_of_perm {order : List Field} (h : order.Perm layout.fields) :
    ∃ other, ofFields layout.name order layout.blockSize = .ok other ∧ other.fields = order ∧
      ((∀ size ∈ layout.blockSize, 0 < size) →
        build layout.name (order.map .field) layout.blockSize = .ok other) := by
  have hnames : (order.map Field.name).Nodup := (h.map _).nodup_iff.mpr layout.names_nodup
  have hstops : ∀ size ∈ layout.blockSize, ∀ field ∈ order, (field.span.stop : Int) ≤ size :=
    fun size hsize field hf => layout.stop_le_blockSize size hsize field (h.mem_iff.mp hf)
  have hfields : List.Forall₂ Entry.Describes (order.map .field) order := by
    rw [List.forall₂_map_left_iff]
    exact List.forall₂_same.mpr fun _ _ => rfl
  exact ⟨⟨layout.name, order, layout.blockSize, hnames, hstops⟩,
    ofFields_eq_ok_iff.mpr ⟨rfl, rfl, rfl⟩, rfl,
    fun hpos => build_eq_ok_iff.mpr ⟨hpos, hfields, rfl, rfl⟩⟩

end

/-- Extending a draft is conservative: whatever is added, if the result is accepted then so was the
draft, with the first of its fields, no more bytes to read, and the same values of every block that
is decoded. One more entry is accepted under the conditions that concern that entry. The order of
the fields matters to the order of the values, and to nothing else. -/
theorem extension_conservative :
    (∀ draft wide : Draft, draft.Extends wide → ∀ wider, wide.build = .ok wider →
      ∃ layout, draft.build = .ok layout ∧ layout.fields <+: wider.fields ∧
        layout.requiredSize ≤ wider.requiredSize ∧
        ∀ charset? block header, wider.decode charset? block = .ok header →
          layout.decode charset? block = .ok (Segy.project header layout)) ∧
    (∀ draft layout, Draft.build draft = .ok layout → ∀ entry,
      (∃ wider, (draft.add entry).build = .ok wider) ↔
        entry.Valid ∧ ∃ field, entry.Describes field ∧ field.name ∉ layout.fieldNames ∧
          ∀ size ∈ draft.blockSize, (field.span.stop : Int) ≤ size) ∧
    ∀ (layout : Layout) (order : List Field), order.Perm layout.fields →
      ∃ other, ofFields layout.name order layout.blockSize = .ok other ∧ other.fields = order ∧
        ((∀ size ∈ layout.blockSize, 0 < size) →
          build layout.name (order.map .field) layout.blockSize = .ok other) ∧
        other.requiredSize = layout.requiredSize ∧ other.readSize = layout.readSize ∧
        ∀ charset? block,
          (∀ header, layout.decode charset? block = .ok header →
            ∃ again, other.decode charset? block = .ok again ∧
              again.values.Perm header.values) ∧
          ∀ header, other.decode charset? block = .ok header →
            ∃ again, layout.decode charset? block = .ok again ∧
              again.values.Perm header.values := by
  refine ⟨?_, fun _ _ hlayout entry => Draft.exists_build_add_iff hlayout entry, ?_⟩
  · intro draft wide hextends wider hwider
    obtain ⟨layout, hlayout, hprefix⟩ := hextends.exists_build hwider
    have hsubset : ∀ field ∈ layout.fields, field ∈ wider.fields := fun _ hf => hprefix.subset hf
    refine ⟨layout, hlayout, hprefix, requiredSize_le_of_subset hsubset, ?_⟩
    intro charset? block header hheader
    obtain ⟨charset, rfl, hnarrow⟩ := decode_of_subset hsubset hheader
    rw [Segy.project_header hsubset]
    exact hnarrow
  · intro layout order horder
    obtain ⟨other, hother, rfl, hbuild⟩ := exists_ofFields_of_perm horder
    obtain ⟨-, -, hsize⟩ := ofFields_eq_ok_iff.mp hother
    refine ⟨other, hother, rfl, hbuild, requiredSize_of_perm horder,
      readSize_of_perm horder hsize, ?_⟩
    intro charset? block
    exact ⟨fun _ hheader => decode_of_perm horder hheader,
      fun _ hheader => decode_of_perm horder.symm hheader⟩

def Draft.one : Draft := (Draft.empty "one" none).add (.described "x" 0 2 .uint16)

theorem extension_conservative_oneMore :
    ∃ layout, Draft.one.build = .ok layout ∧ layout.requiredSize ≤ 4 ∧
      layout.decode none [0, 1, 0, 2] = .ok ⟨"one", [("x", .integer 1)]⟩ ∧
      ¬ ∃ wider, (Draft.one.add (.described "x" 2 4 .uint16)).build = .ok wider := by
  let x : Field := ⟨"x", ⟨0, 2, by decide⟩, .uint16, by decide, by decide⟩
  let y : Field := ⟨"y", ⟨2, 4, by decide⟩, .uint16, by decide, by decide⟩
  let both : Layout := ⟨"both", [x, y], none, by decide, nofun⟩
  have hx : (Entry.described "x" 0 2 .uint16).Describes x :=
    Entry.describes_described.mpr ⟨rfl, rfl, rfl, rfl⟩
  have hy : (Entry.described "y" 2 4 .uint16).Describes y :=
    Entry.describes_described.mpr ⟨rfl, rfl, rfl, rfl⟩
  have hboth : Draft.build { Draft.one.add (.described "y" 2 4 .uint16) with name := "both" } =
      .ok both := Draft.build_eq_ok_iff.mpr ⟨nofun, .cons hx (.cons hy .nil), rfl, rfl⟩
  have hheader : both.decode none [0, 1, 0, 2] =
      .ok ⟨"both", [("x", .integer 1), ("y", .integer 2)]⟩ :=
    decode_eq_ok_iff.mpr ⟨by decide, .usAscii, fun htext => absurd htext (by decide), rfl⟩
  obtain ⟨hconservative, hadd, -⟩ := extension_conservative
  obtain ⟨layout, hlayout, -, hsize, hdecode⟩ :=
    hconservative Draft.one _ (.rename "both" (.add _ .refl)) both hboth
  obtain ⟨-, hdescribed, hname, -⟩ := Draft.build_eq_ok_iff.mp hlayout
  have hfields : layout.fields = [x] := Entry.describes_unique hdescribed (.cons hx .nil)
  refine ⟨layout, hlayout, hsize, ?_, ?_⟩
  · rw [hdecode _ _ _ hheader, Segy.project, hname, fieldNames, hfields]
    rfl
  · rw [hadd Draft.one layout hlayout]
    rintro ⟨-, field, hfield, hnew, -⟩
    obtain ⟨hsame, -⟩ := Entry.describes_described.mp hfield
    rw [fieldNames, hfields, hsame] at hnew
    exact hnew List.mem_cons_self

end Layout

end SeisLog
