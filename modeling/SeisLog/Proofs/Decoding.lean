import Mathlib.Data.Nat.Digits.Defs
import SeisLog.Proofs.Acceptance
import SeisLog.Proofs.Call
import SeisLog.Proofs.Exactness
import SeisLog.Proofs.Stages
import SeisLog.Proofs.Writing

/-!
# What a decoded header shows

The bytes of a field denote a value (`Encoding.Denotes`), said in terms of numbers and characters.
A header shows a block if it has the names of the layout, each with what the bytes of its field
denote (`Layout.Shows`). Decoding gives such a header for every block that is long enough, it looks
at no byte outside the fields, and a block that is too short is its only failure
(`Layout.decode_shows`). A block that was read in full is long enough.
-/

namespace SeisLog

namespace Bytes

/-- The number that the bytes are the digits of in base 256. -/
def numeral (bytes : Bytes) : ℕ := Nat.ofDigits 256 (bytes.reverse.map UInt8.toNat)

theorem unsigned_eq_numeral (bytes : Bytes) : unsigned bytes = bytes.numeral := by
  induction bytes using List.reverseRecOn with
  | nil => rfl
  | append_singleton bytes byte ih =>
      rw [unsigned_append_singleton, ih, numeral, numeral, List.reverse_concat, List.map_cons,
        Nat.ofDigits_cons, Nat.add_comm]

/-- The two's complement number lies in its range, and has the numeral for a remainder. -/
theorem signed_spec {bytes : Bytes} {half : ℕ} (h : Nat.pow 256 bytes.length = 2 * half) :
    -(half : ℤ) ≤ signed bytes ∧ signed bytes < half ∧
      signed bytes % (2 * half : ℕ) = bytes.numeral := by
  have hlt := unsigned_lt bytes
  rw [h] at hlt
  have hlow := @Int.le_bmod (unsigned bytes) (2 * half) (by omega)
  have hhigh := @Int.bmod_lt (unsigned bytes) (2 * half) (by omega)
  rw [signed, h]
  refine ⟨by omega, by omega, ?_⟩
  rw [Int.bmod_emod, Int.emod_eq_of_lt (Int.natCast_nonneg _) (Int.ofNat_lt.mpr hlt),
    unsigned_eq_numeral]

end Bytes

namespace Encoding

variable {encoding : Encoding} {charset : Charset} {bytes : Bytes}

def Denotes (encoding : Encoding) (charset : Charset) (bytes : Bytes) (value : Value) : Prop :=
  match encoding, value with
  | .int16, .integer number =>
      -2 ^ 15 ≤ number ∧ number < 2 ^ 15 ∧ number % 2 ^ 16 = bytes.numeral
  | .int32, .integer number =>
      -2 ^ 31 ≤ number ∧ number < 2 ^ 31 ∧ number % 2 ^ 32 = bytes.numeral
  | .uint16, .integer number => number < 2 ^ 16 ∧ number = bytes.numeral
  | .ibmSingle, .real number => IbmSingle.Denotes bytes.numeral number
  | .ieeeSingle, .real number => Single.Denotes bytes.numeral number
  | .text, .text content =>
      content.length = bytes.length ∧ content.toList = bytes.map charset.decodeByte
  | _, _ => False

theorem denotes_decode (hw : ∀ width ∈ encoding.width?, bytes.length = width) :
    encoding.Denotes charset bytes (encoding.decode charset bytes) := by
  cases encoding with
  | int16 => exact @Bytes.signed_spec bytes (2 ^ 15) (by rw [hw 2 rfl])
  | int32 => exact @Bytes.signed_spec bytes (2 ^ 31) (by rw [hw 4 rfl])
  | uint16 =>
      have hlt := Bytes.unsigned_lt bytes
      rw [hw 2 rfl] at hlt
      exact ⟨Int.ofNat_lt.mpr hlt, congrArg _ (Bytes.unsigned_eq_numeral bytes)⟩
  | ibmSingle =>
      have hword := IbmSingle.denotes_ofBytes (hw 4 rfl)
      rwa [Bytes.unsigned_eq_numeral] at hword
  | ieeeSingle =>
      have hword := Single.denotes_ofBytes (hw 4 rfl)
      rwa [Bytes.unsigned_eq_numeral] at hword
  | text => exact ⟨Charset.length_decode _ _, String.toList_ofList⟩

end Encoding

/-- The value is what the bytes of the field denote: those at its offsets, of which none is
missing from the block. -/
def Field.Shows (field : Field) (charset : Charset) (block : Bytes) (value : Value) : Prop :=
  ∃ raw : Bytes, raw.length = field.span.stop - field.span.start ∧
    (∀ i < raw.length, raw[i]? = block[field.span.start + i]?) ∧
    field.encoding.Denotes charset raw value

/-- The header of a block: the fields of the layout in their order, each under its name. -/
structure Layout.Shows (layout : Layout) (charset : Charset) (block : Bytes) (header : Header) :
    Prop where
  name : header.layout = layout.name
  names : header.names = layout.fieldNames
  values : ∀ field ∈ layout.fields,
    ∃ value, header.get? field.name = some value ∧ field.Shows charset block value

theorem Field.shows_decode {field : Field} {charset : Charset} {block : Bytes}
    (h : field.span.stop ≤ block.length) :
    field.Shows charset block (field.decode charset block) := by
  refine ⟨field.span.slice block, Span.length_slice h, ?_,
    Encoding.denotes_decode (field.length_slice_eq_width h)⟩
  intro i hi
  rw [Span.length_slice h] at hi
  rw [Span.slice, Bytes.getElem?_slice]
  exact if_pos hi

namespace Decoder

variable {layout : Layout} {charset : Charset}

theorem make_of_text {charset? : Option String}
    (hc : layout.hasText = true → charset?.bind Charset.named? = some charset) :
    make layout charset? = .ok (of layout charset) := by
  by_cases ht : layout.hasText = true
  · obtain ⟨name, rfl, hname⟩ := Option.bind_eq_some_iff.mp (hc ht)
    exact make_of_named hname layout
  · unfold make of
    rw [if_neg ht, if_neg ht]

theorem shows_header {block : Bytes} (h : layout.requiredSize ≤ block.length) :
    layout.Shows charset block (header ⟨layout, charset⟩ block) where
  name := rfl
  names := by
    rw [Header.names, header, Fields.names, List.map_map]
    rfl
  values field hf := by
    have hstop := Nat.le_trans (Layout.stop_le_requiredSize hf) h
    refine ⟨field.decode charset block, ?_, Field.shows_decode hstop⟩
    rw [get?_header]
    show (layout.field? field.name).map _ = _
    rw [Layout.field?_of_mem hf, Option.map_some]

theorem header_congr_covered (decoder : Decoder) {first second : Bytes}
    (h : ∀ i, Field.Covered decoder.layout.fields i → first[i]? = second[i]?) :
    decoder.header first = decoder.header second := by
  unfold header
  congr 1
  apply List.map_congr_left
  intro field hf
  have hslice : field.span.slice first = field.span.slice second :=
    Bytes.slice_congr_getElem? fun i hlow hhigh => h i ⟨field, hf, hlow, hhigh⟩
  rw [Field.decode, Field.decode, hslice]

end Decoder

namespace Layout

variable {layout : Layout} {charset? : Option String} {block : Bytes}

theorem decode_of_text {charset : Charset}
    (hc : layout.hasText = true → charset?.bind Charset.named? = some charset) (block : Bytes) :
    layout.decode charset? block = (Decoder.of layout charset).decode block := by
  rw [decode, Decoder.make_of_text hc]
  rfl

theorem header_of (layout : Layout) (charset : Charset) (block : Bytes) :
    (Decoder.of layout charset).header block = Decoder.header ⟨layout, charset⟩ block := by
  unfold Decoder.header
  congr 1
  apply List.map_congr_left
  intro field hf
  exact congrArg (Prod.mk field.name) (Decoder.decode_of hf charset block)

theorem exists_charset_of_decode {header : Header}
    (h : layout.decode charset? block = .ok header) :
    ∃ charset, layout.hasText = true → charset?.bind Charset.named? = some charset := by
  by_cases ht : layout.hasText = true
  · unfold decode Decoder.make at h
    rw [if_pos ht] at h
    cases charset? with
    | none => cases h
    | some name =>
        cases hname : Charset.named? name with
        | none =>
            have hrequire : Charset.require name = .error (.charset name) := by
              unfold Charset.require
              rw [hname]
            dsimp only at h
            rw [hrequire] at h
            cases h
        | some charset => exact ⟨charset, fun _ => by rw [Option.bind_some, hname]⟩
  · exact ⟨.usAscii, fun hc => absurd hc ht⟩

theorem decode_of_charset {charset : Charset}
    (hc : layout.hasText = true → charset?.bind Charset.named? = some charset)
    (hsize : layout.requiredSize ≤ block.length) :
    layout.decode charset? block = .ok (Decoder.header ⟨layout, charset⟩ block) := by
  rw [decode_of_text hc, ← header_of]
  exact Decoder.decode_of_le hsize

theorem decode_eq_ok_iff {header : Header} : layout.decode charset? block = .ok header ↔
      layout.requiredSize ≤ block.length ∧ ∃ charset,
        (layout.hasText = true → charset?.bind Charset.named? = some charset) ∧
          header = Decoder.header ⟨layout, charset⟩ block := by
  constructor
  · intro h
    obtain ⟨charset, hc⟩ := exists_charset_of_decode h
    have hsize : layout.requiredSize ≤ block.length := by
      by_contra hshort
      have herror : (Decoder.of layout charset).decode block = .error _ :=
        Decoder.decode_eq_error_iff.mpr ⟨Nat.not_le.mp hshort, rfl⟩
      rw [decode_of_text hc, herror] at h
      cases h
    rw [decode_of_charset hc hsize] at h
    exact ⟨hsize, charset, hc, (Except.ok.inj h).symm⟩
  · rintro ⟨hsize, charset, hc, rfl⟩
    exact decode_of_charset hc hsize

end Layout

theorem Reading.failure_of_header {layout : Layout} {charset? : Option String}
    {decoder : Decoder} (hd : Decoder.make layout charset? = .ok decoder) {tape : Tape}
    {failure : Failure} (h : (header layout charset? tape).1 = .error failure) :
    (∃ actual : ℕ, actual < layout.readSize ∧
      failure = (Failure.header ⟨.stream layout.name, layout.readSize, actual⟩).told) ∨
      failure = .closed ∨ ∃ asked, failure = .request asked := by
  rw [header_eq hd] at h
  split at h
  · rename_i refused after htake
    cases h
    exact .inr (refusal_of_take (congrArg Prod.fst htake))
  · rename_i block after htake
    split at h
    · rename_i hshort
      cases h
      exact .inl ⟨block.length, hshort, rfl⟩
    · cases h

namespace Layout

/-- Decoding with a layout gives the header of every block that holds the fields, it looks at
nothing but the bytes that fields cover, and it fails in one way, for a block that is too short,
with a message where the size of the fields can be written. A block that was read in full never is
too short: reading a header, or the next trace, fails for other reasons only. -/
theorem decode_shows (layout : Layout) (charset? : Option String) (charset : Charset)
    (hc : layout.hasText = true → charset?.bind Charset.named? = some charset) :
    (∀ block failure, layout.decode charset? block = .error failure ↔
      block.length < layout.requiredSize ∧
        failure = (Failure.header
          ⟨.block layout.name, layout.requiredSize, block.length⟩).told) ∧
    (∀ block : Bytes, layout.requiredSize ≤ block.length →
      ∃ header, layout.decode charset? block = .ok header ∧ layout.Shows charset block header) ∧
    (∀ first second : Bytes,
      layout.requiredSize ≤ first.length → layout.requiredSize ≤ second.length →
      (∀ i, Field.Covered layout.fields i → first[i]? = second[i]?) →
      layout.decode charset? first = layout.decode charset? second) ∧
    (∀ block : Bytes, layout.readSize ≤ block.length →
      ∃ header, layout.decode charset? block = .ok header) ∧
    (∀ (tape : Tape) failure, (Reading.header layout charset? tape).1 = .error failure →
      (∃ actual : ℕ, actual < layout.readSize ∧
        failure = (Failure.header ⟨.stream layout.name, layout.readSize, actual⟩).told) ∨
        failure = .closed ∨ ∃ asked, failure = .request asked) ∧
    ∀ (walk : Walk) (tape : Tape) (failure : Failure), walk.decoder.layout = layout →
      (walk.next tape).answer = .error failure → failure.OfCall := by
  have hheader : ∀ {block : Bytes}, layout.requiredSize ≤ block.length →
      layout.decode charset? block = .ok (Decoder.header ⟨layout, charset⟩ block) :=
    fun hsize => decode_of_charset hc hsize
  refine ⟨?_, ?_, ?_, ?_, ?_, ?_⟩
  · intro block failure
    rw [decode_of_text hc]
    exact Decoder.decode_eq_error_iff
  · intro block hsize
    exact ⟨_, hheader hsize, Decoder.shows_header hsize⟩
  · intro first second hfirst hsecond hagree
    rw [hheader hfirst, hheader hsecond, Decoder.header_congr_covered ⟨layout, charset⟩ hagree]
  · intro block hsize
    exact ⟨_, hheader (requiredSize_le_of_readSize_le hsize)⟩
  · exact fun _ _ hfailure => Reading.failure_of_header (Decoder.make_of_text hc) hfailure
  · exact fun _ _ _ _ hanswer => Walk.ofCall_of_next hanswer

theorem decode_shows_lettersOverHalves :
    (∃ header, lettersOverHalves.decode (some "cp1047") [9, 193, 194, 255, 254] = .ok header ∧
      header.names = ["letters", "halves"] ∧
      header.get? "halves" = some (.integer (-2))) ∧
    lettersOverHalves.decode (some "cp1047") [9, 193, 194, 255, 254] =
      lettersOverHalves.decode (some "cp1047") [7, 193, 194, 255, 254, 6] := by
  have hname : (some "cp1047").bind Charset.named? = some .ibm1047 := by decide +kernel
  obtain ⟨-, hshows, hlocal, -⟩ :=
    decode_shows lettersOverHalves (some "cp1047") .ibm1047 fun _ => hname
  constructor
  · obtain ⟨header, hheader, hshown⟩ := hshows [9, 193, 194, 255, 254] (by decide)
    refine ⟨header, hheader, hshown.names, ?_⟩
    obtain ⟨value, hvalue, raw, hlength, hget, hdenotes⟩ :=
      hshown.values ⟨"halves", ⟨3, 5, by decide⟩, .int16, by decide, by decide⟩ (by decide)
    have htwo : raw.length = 2 := hlength
    have hraw : raw = [255, 254] := by
      apply List.ext_getElem?
      intro i
      rcases i with _ | _ | i
      · exact hget 0 (by omega)
      · exact hget 1 (by omega)
      · rw [List.getElem?_eq_none (by omega), List.getElem?_eq_none (by simp)]
    subst hraw
    cases value with
    | integer number =>
        obtain ⟨hlow, hhigh, hemod⟩ := hdenotes
        have hnumeral : (Bytes.numeral [255, 254] : ℤ) = 65534 := by decide
        rw [hnumeral] at hemod
        obtain rfl : number = -2 := by omega
        exact hvalue
    | real number => exact hdenotes.elim
    | text content => exact hdenotes.elim
  · apply hlocal _ _ (by decide) (by decide)
    rintro i ⟨field, hfield, hlow, hhigh⟩
    simp only [lettersOverHalves, List.mem_cons, List.not_mem_nil, or_false] at hfield
    have hoffset : i = 1 ∨ i = 2 ∨ i = 3 ∨ i = 4 := by
      obtain rfl | rfl := hfield <;> dsimp only at hlow hhigh <;> omega
    obtain rfl | rfl | rfl | rfl := hoffset <;> rfl

def textOfSize (size : Nat) (hs : 0 < size) : Layout where
  name := "text_of_size"
  fields := [⟨"t", ⟨0, size, hs⟩, .text, by decide, nofun⟩]
  blockSize := none
  names_nodup := List.nodup_singleton _
  stop_le_blockSize := nofun

theorem requiredSize_textOfSize {size : Nat} (hs : 0 < size) :
    (textOfSize size hs).requiredSize = size := Nat.zero_max size

theorem build_textOfSize {size : Nat} (hs : 0 < size) :
    build "text_of_size" [.described "t" 0 size .text] none = .ok (textOfSize size hs) := by
  have hfields : List.Forall₂ Entry.Describes [.described "t" 0 size .text]
      (textOfSize size hs).fields :=
    .cons (Entry.describes_described.mpr ⟨rfl, rfl, rfl, rfl⟩) .nil
  exact build_eq_ok_iff.mpr ⟨nofun, hfields, rfl, rfl⟩

/-- A block that is too short for a text of `10 ^ 4300` bytes fails, but no message tells how many
bytes it lacks: the number has too many digits. -/
theorem decode_shows_of_longText :
    ∃ layout, build "text_of_size"
        [.described "t" 0 (Nat.pow 10 Numeral.digitLimit : Nat) .text] none = .ok layout ∧
      layout.decode (some "ascii") [] = .error .unprintable ∧
      layout.decode (some "ascii") [] ≠
        .error (.header ⟨.block layout.name, layout.requiredSize, 0⟩) := by
  have hpow : ∀ limit : Nat, 0 < Nat.pow 10 limit := fun _ => Nat.pow_pos (by decide)
  have hs := hpow Numeral.digitLimit
  let layout := textOfSize (Nat.pow 10 Numeral.digitLimit) hs
  have hsize : layout.requiredSize = Nat.pow 10 Numeral.digitLimit := requiredSize_textOfSize hs
  have huntold : (Failure.header ⟨.block layout.name, layout.requiredSize, 0⟩).told =
      .unprintable := by
    rw [hsize, Failure.told_header, Int.natAbs_natCast, Numeral.isPrintable_pow]
    rfl
  have hname : (some "ascii").bind Charset.named? = some .usAscii := by decide +kernel
  have hdecode : layout.decode (some "ascii") [] = .error .unprintable := by
    rw [decode_of_text fun _ => hname]
    exact Decoder.decode_eq_error_iff.mpr ⟨hsize ▸ hs, huntold.symm⟩
  refine ⟨layout, build_textOfSize hs, hdecode, ?_⟩
  rw [hdecode]
  nofun

end Layout

end SeisLog
