import SeisLog.Proofs.Encoding
import SeisLog.Proofs.Header

/-!
# Undoing the decoding of a header

Writing what stands in a target block over another block gives the target under the fields and
leaves the rest alone, in whatever order the fields are written and however they overlap
(`writeAll?_target`). With a decoded block as the target, decoding is undone; with a block that
holds wanted values, encoding is (`decode_undone`).
-/

namespace SeisLog

namespace Bytes

theorem slice_congr_getElem? {first second : Bytes} {start stop : Nat}
    (h : ∀ i, start ≤ i → i < stop → first[i]? = second[i]?) :
    first.slice start stop = second.slice start stop := by
  apply List.ext_getElem?
  intro i
  rw [getElem?_slice, getElem?_slice]
  by_cases hi : i < stop - start
  · rw [if_pos hi, if_pos hi, h (start + i) (by omega) (by omega)]
  · rw [if_neg hi, if_neg hi]

theorem slice_splice {bytes raw : Bytes} {start : Nat} (h : start + raw.length ≤ bytes.length) :
    (bytes.splice start raw).slice start (start + raw.length) = raw := by
  apply List.ext_getElem?
  intro i
  rw [getElem?_slice, getElem?_splice h]
  by_cases hi : i < raw.length
  · rw [if_pos (by omega), if_pos (by omega), Nat.add_sub_cancel_left]
  · rw [if_neg (by omega), List.getElem?_eq_none (by omega)]

end Bytes

namespace Span

def Disjoint (first second : Span) : Prop :=
  first.stop ≤ second.start ∨ second.stop ≤ first.start

theorem start_add_length (span : Span) : span.start + span.length = span.stop := by
  have hlt := span.start_lt_stop
  unfold length
  omega

theorem length_slice {span : Span} {block : Bytes} (h : span.stop ≤ block.length) :
    (span.slice block).length = span.length := Bytes.length_slice_of_le h

/-- The bytes of a target within a span, written over a block. -/
theorem getElem?_splice_slice {span : Span} {block target : Bytes} (hb : span.stop ≤ block.length)
    (ht : span.stop ≤ target.length) (i : Nat) :
    (block.splice span.start (span.slice target))[i]? =
      if span.start ≤ i ∧ i < span.stop then target[i]? else block[i]? := by
  have hlength := length_slice ht
  have hsum := span.start_add_length
  rw [Bytes.getElem?_splice (by omega), hlength, hsum]
  split
  · rename_i hi
    rw [slice, Bytes.getElem?_slice, if_pos (by omega)]
    congr 1
    omega
  · rfl

end Span

namespace Field

variable {charset : Charset} {value? : String → Option Value} {fields : List Field}
  {block target : Bytes}

def Covered (fields : List Field) (i : Nat) : Prop :=
  ∃ field ∈ fields, field.span.start ≤ i ∧ i < field.span.stop

instance (fields : List Field) (i : Nat) : Decidable (Covered fields i) :=
  inferInstanceAs (Decidable (∃ field ∈ fields, _))

theorem covered_cons {field : Field} {i : Nat} : Covered (field :: fields) i ↔
    (field.span.start ≤ i ∧ i < field.span.stop) ∨ Covered fields i :=
  List.exists_mem_cons_iff _ _ _

theorem Covered.perm {others : List Field} (h : others.Perm fields) {i : Nat} :
    Covered others i ↔ Covered fields i := by
  simp only [Covered, h.mem_iff]

/-- The value for a field has the bytes that stand in the target. -/
def Fits (charset : Charset) (value? : String → Option Value) (target : Bytes) (field : Field) :
    Prop :=
  ∃ value, value? field.name = some value ∧
    field.encoding.encode? charset value = some (field.span.slice target)

/-- Whatever is written, and in whatever order, only the target shows. -/
theorem writeAll?_target (hfits : ∀ field ∈ fields, field.Fits charset value? target)
    (ht : ∀ field ∈ fields, field.span.stop ≤ target.length)
    (hb : ∀ field ∈ fields, field.span.stop ≤ block.length) :
    ∃ written, writeAll? charset value? fields block = some written ∧
      written.length = block.length ∧
      ∀ i, written[i]? = if Covered fields i then target[i]? else block[i]? := by
  induction fields generalizing block with
  | nil => exact ⟨block, rfl, rfl, fun i => (if_neg (by simp [Covered])).symm⟩
  | cons field rest ih =>
      obtain ⟨⟨value, hvalue, hraw⟩, hfits⟩ := List.forall_mem_cons.mp hfits
      obtain ⟨htfield, ht⟩ := List.forall_mem_cons.mp ht
      obtain ⟨hbfield, hb⟩ := List.forall_mem_cons.mp hb
      have hlength := Span.length_slice htfield
      have hsum := field.span.start_add_length
      have hwrite : field.write? charset value block =
          some (block.splice field.span.start (field.span.slice target)) := by
        rw [write?, hraw]
        exact if_pos hlength
      have hkept : (block.splice field.span.start (field.span.slice target)).length =
          block.length := Bytes.length_splice (by omega)
      obtain ⟨written, hwritten, hsize, hget⟩ :=
        @ih (block.splice field.span.start (field.span.slice target)) hfits ht (by rwa [hkept])
      refine ⟨written, ?_, hsize.trans hkept, ?_⟩
      · rw [writeAll?, hvalue]
        dsimp only
        rw [hwrite]
        exact hwritten
      · intro i
        rw [hget, Span.getElem?_splice_slice hbfield htfield]
        by_cases hi : field.span.start ≤ i ∧ i < field.span.stop
        · rw [if_pos hi, ite_self, if_pos (covered_cons.mpr (.inl hi))]
        · rw [if_neg hi]
          simp only [covered_cons, hi, false_or]

theorem writeAll?_zeros (hfits : ∀ field ∈ fields, field.Fits charset value? target)
    (ht : ∀ field ∈ fields, field.span.stop ≤ target.length) {size : Nat}
    (hsize : ∀ field ∈ fields, field.span.stop ≤ size) :
    ∃ written, writeAll? charset value? fields (List.replicate size 0) = some written ∧
      written.length = size ∧
      ∀ i, i < size → written[i]? = if Covered fields i then target[i]? else some 0 := by
  have hzeros : (List.replicate size (0 : UInt8)).length = size := List.length_replicate
  obtain ⟨written, hwritten, hlength, hget⟩ := writeAll?_target hfits ht (hzeros.symm ▸ hsize)
  refine ⟨written, hwritten, hlength.trans hzeros, ?_⟩
  intro i hi
  rw [hget, List.getElem?_replicate_of_lt hi]

/-- Bytes for disjoint fields stand together in one block. -/
theorem exists_target (hdisjoint : fields.Pairwise fun a b => a.span.Disjoint b.span)
    {rawOf : Field → Bytes} (hraw : ∀ field ∈ fields, (rawOf field).length = field.span.length)
    {size : Nat} (hsize : ∀ field ∈ fields, field.span.stop ≤ size) :
    ∃ target : Bytes, target.length = size ∧
      ∀ field ∈ fields, field.span.slice target = rawOf field := by
  induction fields with
  | nil => exact ⟨List.replicate size 0, List.length_replicate, nofun⟩
  | cons field rest ih =>
      obtain ⟨hapart, hdisjoint⟩ := List.pairwise_cons.mp hdisjoint
      obtain ⟨hrawfield, hraw⟩ := List.forall_mem_cons.mp hraw
      obtain ⟨hsizefield, hsize⟩ := List.forall_mem_cons.mp hsize
      obtain ⟨target, htarget, hslices⟩ := ih hdisjoint hraw hsize
      have hsum := field.span.start_add_length
      have hfit : field.span.start + (rawOf field).length ≤ target.length := by omega
      refine ⟨target.splice field.span.start (rawOf field),
        (Bytes.length_splice hfit).trans htarget, List.forall_mem_cons.mpr ⟨?_, ?_⟩⟩
      · have hslice := Bytes.slice_splice hfit
        rwa [hrawfield, hsum] at hslice
      · intro other hother
        rw [← hslices other hother]
        apply Bytes.slice_congr_getElem?
        intro i hlow hhigh
        have hother := hapart other hother
        rw [Bytes.getElem?_splice hfit, if_neg]
        unfold Span.Disjoint at hother
        omega

end Field

theorem Decoder.decode_of {layout : Layout} {field : Field} (h : field ∈ layout.fields)
    (charset : Charset) (block : Bytes) :
    field.decode (of layout charset).charset block = field.decode charset block := by
  by_cases ht : layout.hasText = true
  · rw [of, if_pos ht]
  · rw [of, if_neg ht, Field.decode, Field.decode]
    cases he : field.encoding with
    | text => exact absurd (List.any_eq_true.mpr ⟨field, h, by simp [he]⟩) ht
    | int16 | uint16 | int32 | ibmSingle | ieeeSingle => rfl

theorem Layout.decode_eq {layout : Layout} {name : String}
    (hname : Charset.named? name = some .ibm1047) {block : Bytes}
    (hb : layout.requiredSize ≤ block.length) :
    layout.decode (some name) block = .ok ((Decoder.of layout .ibm1047).header block) := by
  rw [decode, Decoder.make_of_named hname]
  exact Decoder.decode_of_le hb

namespace Field

variable {field : Field} {block : Bytes}

theorem length_slice_eq_width (field : Field) (h : field.span.stop ≤ block.length) :
    ∀ width ∈ field.encoding.width?, (field.span.slice block).length = width := by
  rw [Span.length_slice h]
  exact field.length_eq_width

theorem fits_header {layout : Layout} (hf : field ∈ layout.fields)
    (hb : layout.requiredSize ≤ block.length)
    (hr : field.encoding.Reversible (field.span.slice block)) :
    field.Fits .ibm1047 ((Decoder.of layout .ibm1047).header block).get? block := by
  have hstop := Nat.le_trans (Layout.stop_le_requiredSize hf) hb
  refine ⟨field.decode .ibm1047 block, ?_, ?_⟩
  · rw [Decoder.get?_header]
    show (layout.field? field.name).map _ = _
    rw [Layout.field?_of_mem hf, Option.map_some, Decoder.decode_of hf]
  · exact Encoding.encode?_decode (field.length_slice_eq_width hstop) hr

/-- The bytes of a value, where it has some. -/
def rawOf (values : String → Value) (field : Field) : Bytes :=
  (field.encoding.encode? .ibm1047 (values field.name)).getD []

theorem rawOf_spec {values : String → Value}
    (h : field.encoding.Represents field.span.length (values field.name)) :
    field.encoding.encode? .ibm1047 (values field.name) = some (field.rawOf values) ∧
      (field.rawOf values).length = field.span.length ∧
      field.encoding.decode .ibm1047 (field.rawOf values) = values field.name := by
  obtain ⟨raw, hraw, hlength, hvalue⟩ := Encoding.exists_encode? field.length_eq_width h
  rw [rawOf, hraw]
  exact ⟨rfl, hlength, hvalue⟩

end Field

namespace Layout

/-- Decoding a header is undone by writing its values over zeros: where fields lie, the bytes of the
block return, in whatever order the fields are written and however they overlap. If the fields are
disjoint, writing values is undone by decoding. -/
theorem decode_undone {layout : Layout} {name : String}
    (hname : Charset.named? name = some .ibm1047) :
    (∀ block, layout.requiredSize ≤ block.length →
      (∀ field ∈ layout.fields, field.encoding.Reversible (field.span.slice block)) →
      ∃ header, layout.decode (some name) block = .ok header ∧
        ∀ order, order.Perm layout.fields → ∀ size, layout.requiredSize ≤ size →
          ∃ written,
            Field.writeAll? .ibm1047 header.get? order (List.replicate size 0) = some written ∧
            written.length = size ∧
            ∀ i, i < size →
              written[i]? = if Field.Covered layout.fields i then block[i]? else some 0) ∧
    (layout.fields.Pairwise (fun first second => first.span.Disjoint second.span) →
      ∀ values : String → Value,
        (∀ field ∈ layout.fields,
          field.encoding.Represents field.span.length (values field.name)) →
        ∀ order, order.Perm layout.fields → ∀ size, layout.requiredSize ≤ size →
          ∃ written,
            Field.writeAll? .ibm1047 (fun name => some (values name)) order
              (List.replicate size 0) = some written ∧
            written.length = size ∧
            (∀ i, i < size → ¬ Field.Covered layout.fields i → written[i]? = some 0) ∧
            layout.decode (some name) written =
              .ok ⟨layout.name, layout.fields.map fun field => (field.name, values field.name)⟩) := by
  have hstops : ∀ {size : Nat} {order : List Field}, order.Perm layout.fields →
      layout.requiredSize ≤ size → ∀ field ∈ order, field.span.stop ≤ size :=
    fun horder hsize field hf =>
      Nat.le_trans (stop_le_requiredSize (horder.mem_iff.mp hf)) hsize
  refine ⟨?_, ?_⟩
  · intro block hb hr
    refine ⟨_, decode_eq hname hb, ?_⟩
    intro order horder size hsize
    have hfits : ∀ field ∈ order,
        field.Fits .ibm1047 ((Decoder.of layout .ibm1047).header block).get? block := by
      intro field hf
      have hm := horder.mem_iff.mp hf
      exact Field.fits_header hm hb (hr field hm)
    obtain ⟨written, hwritten, hlength, hget⟩ :=
      Field.writeAll?_zeros hfits (hstops horder hb) (hstops horder hsize)
    refine ⟨written, hwritten, hlength, ?_⟩
    intro i hi
    simp only [hget i hi, Field.Covered.perm horder]
  · intro hdisjoint values hrep order horder size hsize
    have hraw := fun field hf => Field.rawOf_spec (hrep field hf)
    obtain ⟨target, htarget, hslices⟩ := Field.exists_target hdisjoint
      (fun field hf => (hraw field hf).2.1) (hstops (.refl _) hsize)
    have hfits : ∀ field ∈ order,
        field.Fits .ibm1047 (fun name => some (values name)) target := by
      intro field hf
      have hm := horder.mem_iff.mp hf
      exact ⟨values field.name, rfl, by rw [(hraw field hm).1, hslices field hm]⟩
    obtain ⟨written, hwritten, hlength, hget⟩ :=
      Field.writeAll?_zeros hfits (htarget.symm ▸ hstops horder hsize) (hstops horder hsize)
    simp only [Field.Covered.perm horder] at hget
    refine ⟨written, hwritten, hlength, ?_, ?_⟩
    · intro i hi hcovered
      rw [hget i hi, if_neg hcovered]
    · rw [decode_eq hname (hlength.symm ▸ hsize), Decoder.header]
      congr 2
      apply List.map_congr_left
      intro field hm
      have hf : field ∈ layout.fields := hm
      have hstop := hstops (.refl _) hsize field hf
      have hslice : field.span.slice written = field.span.slice target := by
        apply Bytes.slice_congr_getElem?
        intro i hlow hhigh
        rw [hget i (by omega), if_pos ⟨field, hf, hlow, hhigh⟩]
      rw [Decoder.decode_of hf, Field.decode, hslice, hslices field hf, (hraw field hf).2.2]

def depthThenMark : Layout where
  name := "depth_then_mark"
  fields := [⟨"depth", ⟨1, 5, by decide⟩, .ieeeSingle, by decide, by decide⟩,
    ⟨"mark", ⟨5, 7, by decide⟩, .text, by decide, by decide⟩]
  blockSize := none
  names_nodup := by decide
  stop_le_blockSize := by decide

/-- Four characters, of which the last two are the halves of a number. -/
def lettersOverHalves : Layout where
  name := "letters_over_halves"
  fields := [⟨"letters", ⟨1, 5, by decide⟩, .text, by decide, by decide⟩,
    ⟨"halves", ⟨3, 5, by decide⟩, .int16, by decide, by decide⟩]
  blockSize := some 6
  names_nodup := by decide
  stop_le_blockSize := by decide

theorem decode_undone_lettersOverHalves :
    (∃ header written,
      lettersOverHalves.decode (some "cp1047") [9, 193, 194, 255, 254, 9] = .ok header ∧
      Field.writeAll? .ibm1047 header.get? lettersOverHalves.fields.reverse
        (List.replicate 6 0) = some written ∧
      written[0]? = some 0 ∧ written[1]? = some 193 ∧ written[4]? = some 254) ∧
    ∃ written,
      depthThenMark.decode (some "cp1047") written = .ok ⟨"depth_then_mark",
        [("depth", .real (Binary64.infinity true)), ("mark", .text "AB")]⟩ := by
  have hname : Charset.named? "cp1047" = some .ibm1047 := by decide +kernel
  constructor
  · obtain ⟨header, hheader, hwrites⟩ :=
      (@decode_undone lettersOverHalves _ hname).1 [9, 193, 194, 255, 254, 9] (by decide) (by
        simp [lettersOverHalves, Encoding.Reversible])
    obtain ⟨written, hwritten, -, hget⟩ := hwrites lettersOverHalves.fields.reverse
      (List.reverse_perm _) 6 (by decide)
    exact ⟨header, written, hheader, hwritten, hget 0 (by decide), hget 1 (by decide),
      hget 4 (by decide)⟩
  · obtain ⟨written, -, -, -, hheader⟩ := (@decode_undone depthThenMark _ hname).2
      (by simp [depthThenMark, Span.Disjoint])
      (fun name => if name = "depth" then .real (Binary64.infinity true) else .text "AB")
      (by simp [depthThenMark, Encoding.Represents, Single.Represents]; decide)
      depthThenMark.fields (.refl _) 7 (by decide)
    exact ⟨written, hheader⟩

end Layout

end SeisLog
