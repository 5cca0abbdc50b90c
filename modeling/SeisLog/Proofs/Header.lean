import SeisLog.Header.Basic

/-!
# Numbers in headers

The integer that a block holds in a named field, said of the bytes, is the value that the decoded
header holds there. A block as long as the layout says always decodes.
-/

namespace SeisLog

theorem Bytes.slice_congr {size start stop : Nat} {first second : Bytes} (hs : stop ≤ size)
    (h : first.take size = second.take size) :
    Bytes.slice first start stop = Bytes.slice second start stop := by
  have hle : ∀ bytes : Bytes, Bytes.slice bytes start stop =
      ((bytes.take size).drop start).take (stop - start) := by
    intro bytes
    rw [slice, List.drop_take, List.take_take, Nat.min_eq_left (by omega)]
  rw [hle, hle, h]

theorem Bytes.signed_le_unsigned (bytes : Bytes) : Bytes.signed bytes ≤ Bytes.unsigned bytes := by
  have hlt := Bytes.unsigned_lt bytes
  have hmod : (Bytes.unsigned bytes : Int) % (Nat.pow 256 bytes.length : Nat) =
      Bytes.unsigned bytes := Int.emod_eq_of_lt (by omega) (by omega)
  rw [Bytes.signed, Int.bmod_def, hmod]
  split
  · exact Int.le_refl _
  · omega

namespace Encoding

def isInteger : Encoding → Bool
  | .int16 | .uint16 | .int32 => true
  | .ibmSingle | .ieeeSingle | .text => false

def number (encoding : Encoding) (bytes : Bytes) : Int :=
  match encoding with
  | .uint16 => Bytes.unsigned bytes
  | _ => Bytes.signed bytes

theorem decode_of_isInteger {encoding : Encoding} (h : encoding.isInteger = true)
    (charset : Charset) (bytes : Bytes) :
    encoding.decode charset bytes = .integer (encoding.number bytes) := by
  cases encoding <;> first | rfl | contradiction

theorem number_lt (encoding : Encoding) {bytes : Bytes} (h : bytes.length ≤ 4) :
    encoding.number bytes < 1 <<< 32 := by
  have hu := Bytes.unsigned_lt bytes
  have hp : Nat.pow 256 bytes.length ≤ Nat.pow 256 4 := Nat.pow_le_pow_right (by decide) h
  have hw : Nat.pow 256 4 = 1 <<< 32 := rfl
  have hs := Bytes.signed_le_unsigned bytes
  have hunsigned : (Bytes.unsigned bytes : Int) < 1 <<< 32 := by omega
  cases encoding with
  | uint16 => exact hunsigned
  | int16 | int32 | ibmSingle | ieeeSingle | text => exact Int.lt_of_le_of_lt hs hunsigned

end Encoding

namespace Layout

/-- The integer that a block holds in a field, zero where the layout has no such field. -/
def numberAt (layout : Layout) (name : String) (block : Bytes) : Int :=
  match layout.field? name with
  | some field => field.encoding.number (field.span.slice block)
  | none => 0

def HasInteger (layout : Layout) (name : String) : Prop :=
  ∃ field, layout.field? name = some field ∧ field.encoding.isInteger = true

theorem field?_of_mem {layout : Layout} {field : Field} (h : field ∈ layout.fields) :
    layout.field? field.name = some field := by
  have hn := layout.names_nodup
  unfold field?
  revert h hn
  induction layout.fields with
  | nil => intro h; cases h
  | cons first rest ih =>
      intro h hn
      obtain ⟨hfirst, hrest⟩ := List.nodup_cons.mp hn
      rcases List.mem_cons.mp h with rfl | hm
      · exact List.find?_cons_of_pos (by simp)
      · have hne : first.name ≠ field.name := by
          intro he
          exact hfirst (List.mem_map.mpr ⟨field, hm, he.symm⟩)
        rw [List.find?_cons, beq_false_of_ne hne]
        exact ih hm hrest

def AllowsInteger (layout : Layout) (name : String) : Prop :=
  layout.contains name = true → layout.HasInteger name

theorem HasInteger.allows {layout : Layout} {name : String} (h : layout.HasInteger name) :
    layout.AllowsInteger name := fun _ => h

theorem HasInteger.contains {layout : Layout} {name : String} (h : layout.HasInteger name) :
    layout.contains name = true := by
  obtain ⟨field, hf, -⟩ := h
  rw [Layout.contains, hf]
  rfl

theorem numberAt_lt {layout : Layout} {name : String} (h : layout.AllowsInteger name)
    (block : Bytes) : layout.numberAt name block < 1 <<< 32 := by
  unfold numberAt
  cases hf : layout.field? name with
  | none => exact Int.natCast_pos.mpr (by decide)
  | some field =>
      obtain ⟨other, ho, hi⟩ := h (by rw [contains, hf]; rfl)
      obtain rfl : field = other := Option.some.inj (hf.symm.trans ho)
      have hw := field.length_eq_width
      have hlength : (field.span.slice block).length ≤ field.span.stop - field.span.start := by
        rw [Span.slice, Bytes.slice, List.length_take]
        exact Nat.min_le_left _ _
      refine field.encoding.number_lt (Nat.le_trans hlength ?_)
      cases he : field.encoding with
      | int16 | uint16 => exact Nat.le_trans (Nat.le_of_eq (hw 2 (by rw [he]; rfl))) (by decide)
      | int32 => exact Nat.le_of_eq (hw 4 (by rw [he]; rfl))
      | ibmSingle | ieeeSingle | text =>
          rw [he] at hi
          cases hi

def decode (layout : Layout) (charset? : Option String) (block : Bytes) :
    Except Failure Header := do
  (← Decoder.make layout charset?).decode block

/-- A block that passes for one of the size that is read holds every field. -/
theorem requiredSize_le_of_readSize_le {layout : Layout} {size : Nat}
    (h : layout.readSize ≤ size) : layout.requiredSize ≤ size := by
  unfold readSize at h
  cases hb : layout.blockSize with
  | none =>
      rw [hb, Option.getD_none] at h
      exact Int.ofNat_le.mp h
  | some declared =>
      rw [hb, Option.getD_some] at h
      rw [requiredSize_le_iff]
      intro field hf
      have hstop := layout.stop_le_blockSize declared hb field hf
      omega

theorem requiredSize_le_readSize (layout : Layout) :
    layout.requiredSize ≤ layout.readSize.toNat :=
  requiredSize_le_of_readSize_le (Int.self_le_toNat _)

theorem HasInteger.readSize_pos {layout : Layout} {name : String} (h : layout.HasInteger name) :
    0 < layout.readSize := by
  obtain ⟨field, hf, -⟩ := h
  have hm : field ∈ layout.fields := List.mem_of_find?_eq_some hf
  have hstop := field.span.start_lt_stop
  have hrequired := stop_le_requiredSize hm
  unfold readSize
  cases hb : layout.blockSize with
  | none =>
      rw [Option.getD_none]
      omega
  | some size =>
      have hle := layout.stop_le_blockSize size hb field hm
      rw [Option.getD_some]
      omega

end Layout

namespace Decoder

def of (layout : Layout) (charset : Charset) : Decoder :=
  ⟨layout, if layout.hasText then charset else .usAscii⟩

theorem make_of_named {name : String} {charset : Charset}
    (hc : Charset.named? name = some charset) (layout : Layout) :
    make layout (some name) = .ok (of layout charset) := by
  have hr : Charset.require name = .ok charset := by rw [Charset.require, hc]
  unfold make of
  dsimp only
  rw [hr]
  cases layout.hasText <;> rfl

@[simp] theorem layout_of_make {layout : Layout} {charset? : Option String} {decoder : Decoder}
    (h : make layout charset? = .ok decoder) : decoder.layout = layout := by
  unfold make at h
  split at h
  · split at h
    · rename_i name
      cases hr : Charset.require name with
      | error failure => simp [hr, Except.map] at h
      | ok charset =>
          simp only [hr, Except.map, Except.ok.injEq] at h
          rw [← h]
    · cases h
  · simp only [Except.ok.injEq] at h
    rw [← h]

def header (decoder : Decoder) (block : Bytes) : Header :=
  ⟨decoder.layout.name, decoder.layout.fields.map fun field =>
    (field.name, field.decode decoder.charset block)⟩

theorem decode_eq_header {decoder : Decoder} {block : Bytes}
    (h : block.length = decoder.layout.readSize.toNat) :
    decoder.decode block = .ok (decoder.header block) :=
  decode_of_le (h ▸ decoder.layout.requiredSize_le_readSize)

theorem header_congr (decoder : Decoder) {size : Nat} {block other : Bytes}
    (hs : decoder.layout.requiredSize ≤ size) (h : block.take size = other.take size) :
    decoder.header block = decoder.header other := by
  have hfields : ∀ field ∈ decoder.layout.fields,
      field.span.slice block = field.span.slice other := by
    intro field hf
    exact Bytes.slice_congr (Nat.le_trans (Layout.stop_le_requiredSize hf) hs) h
  unfold header
  congr 1
  apply List.map_congr_left
  intro field hf
  rw [Field.decode, Field.decode, hfields field hf]

theorem get?_header (decoder : Decoder) (block : Bytes) (name : String) :
    (decoder.header block).get? name =
      (decoder.layout.field? name).map (·.decode decoder.charset block) := by
  unfold Header.get? Fields.get? Layout.field? header
  dsimp only
  induction decoder.layout.fields with
  | nil => rfl
  | cons field rest ih =>
      by_cases hn : field.name = name
      · simp [hn]
      · have hm : (name == field.name) = false := by
          simpa using fun he : name = field.name => hn he.symm
        have hk : (field.name == name) = false := by simpa using hn
        simpa only [List.map_cons, List.lookup_cons, List.find?_cons, hm, hk] using ih

theorem toInteger_of_allows {decoder : Decoder} {name : String}
    (h : decoder.layout.AllowsInteger name) (block : Bytes) :
    (((decoder.header block).get? name).getD (.integer 0)).toInteger =
      .ok (decoder.layout.numberAt name block) := by
  rw [get?_header, Layout.numberAt]
  cases hf : decoder.layout.field? name with
  | none => rfl
  | some field =>
      obtain ⟨other, ho, hi⟩ := h (by rw [Layout.contains, hf]; rfl)
      obtain rfl : field = other := Option.some.inj (hf.symm.trans ho)
      simp only [Option.map_some, Option.getD_some, Field.decode, Encoding.decode_of_isInteger hi]
      rfl

theorem toInteger_header {decoder : Decoder} {name : String}
    (h : decoder.layout.HasInteger name) (block : Bytes) :
    (((decoder.header block).get? name).getD (.integer 0)).toInteger =
      .ok (decoder.layout.numberAt name block) :=
  toInteger_of_allows h.allows block

end Decoder

end SeisLog
