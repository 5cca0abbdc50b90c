import SeisLog.Proofs.Decoding
import SeisLog.Proofs.Region.RoundTrip

/-!
# Samples and header fields

A block of samples is read sample by sample, and each double denotes the number in its bytes
(`SampleCoding.Denotes`): no conversion rounds. A header field over the same bytes has the same
number. A walk asks for whole samples only, so it has as many of them as its header says, and its
blocks are never refused (`SampleFormat.unpack_exact`).
-/

namespace SeisLog

namespace Binary64

theorem exactly_ofInt {number : ℤ} (h : number.natAbs < 1 <<< 53) :
    (ofInt number).Exactly (decide (number < 0)) (number.natAbs <<< 1074) := by
  have hexactly := @exactly_ofUnits (decide (number < 0)) number.natAbs 1074 h (by decide)
  rwa [ofInt, ← shiftLeft_one]

theorem value_ofInt {number : ℤ} (h : number.natAbs < 1 <<< 53) :
    (ofInt number).value = number := by
  have hscale : (2 : ℚ) ^ (((1074 : ℕ) : ℤ) - 1074) = 1 := by norm_num
  rw [(exactly_ofInt h).value_shiftLeft, hscale, mul_one]
  by_cases hn : number < 0
  · have habs : (number.natAbs : ℤ) = -number := Int.ofNat_natAbs_of_nonpos (Int.le_of_lt hn)
    have hcast : ((number.natAbs : ℤ) : ℚ) = -number := by rw [habs, Int.cast_neg]
    rw [decide_eq_true hn, ← Int.cast_natCast, hcast]
    norm_num
  · have habs : (number.natAbs : ℤ) = number := Int.natAbs_of_nonneg (Int.not_lt.mp hn)
    have hcast : ((number.natAbs : ℤ) : ℚ) = number := by rw [habs]
    rw [decide_eq_false hn, ← Int.cast_natCast, hcast]
    norm_num

/-- The double is an integer, and negative only below zero. -/
structure IsInteger (x : Binary64) (number : ℤ) : Prop where
  isFinite : x.isFinite = true
  isNegative : x.isNegative = decide (number < 0)
  value : x.value = number

theorem isInteger_ofInt {number : ℤ} (h : number.natAbs < 1 <<< 53) :
    (ofInt number).IsInteger number :=
  ⟨(exactly_ofInt h).isFinite, (exactly_ofInt h).isNegative, value_ofInt h⟩

/-- The double is the two's complement number of so many bits. -/
def IsSigned (x : Binary64) (bits : ℕ) (bytes : Bytes) : Prop :=
  ∃ number : ℤ, -2 ^ (bits - 1) ≤ number ∧ number < 2 ^ (bits - 1) ∧
    number % 2 ^ bits = bytes.numeral ∧ x.IsInteger number

end Binary64

namespace SampleCoding

variable {coding : SampleCoding} {bytes block : Bytes}

def Denotes (coding : SampleCoding) (bytes : Bytes) (x : Binary64) : Prop :=
  match coding with
  | .int32 => x.IsSigned 32 bytes
  | .int16 => x.IsSigned 16 bytes
  | .int8 => x.IsSigned 8 bytes
  | .ieeeSingle => Single.Denotes bytes.numeral x
  | .ibmSingle => IbmSingle.Denotes bytes.numeral x

/-- The encoding of a header field that holds the same numbers. -/
def encoding? : SampleCoding → Option Encoding
  | .ibmSingle => some .ibmSingle
  | .int32 => some .int32
  | .int16 => some .int16
  | .ieeeSingle => some .ieeeSingle
  | .int8 => none

theorem natAbs_signed_lt (h : bytes.length ≤ 4) : (Bytes.signed bytes).natAbs < 1 <<< 53 := by
  have hpow : Nat.pow 256 bytes.length ≤ Nat.pow 256 4 := Nat.pow_le_pow_right (by decide) h
  have hword : Nat.pow 256 4 = 4294967296 := rfl
  have hpos : 0 < Nat.pow 256 bytes.length := Nat.pow_pos (by decide)
  have hlow := @Int.le_bmod (Bytes.unsigned bytes) (Nat.pow 256 bytes.length) hpos
  have hhigh := @Int.bmod_lt (Bytes.unsigned bytes) (Nat.pow 256 bytes.length) hpos
  simp only [Nat.reduceShiftLeft]
  unfold Bytes.signed
  omega

theorem denotes_decodeOne (h : bytes.length = coding.width) :
    coding.Denotes bytes (coding.decodeOne bytes) := by
  have hle : bytes.length ≤ 4 := by
    rw [h]
    cases coding <;> decide
  have hinteger := Binary64.isInteger_ofInt (natAbs_signed_lt hle)
  cases coding with
  | int32 =>
      obtain ⟨hlow, hhigh, hnumeral⟩ := @Bytes.signed_spec bytes (2 ^ 31) (by rw [h]; rfl)
      exact ⟨_, hlow, hhigh, hnumeral, hinteger⟩
  | int16 =>
      obtain ⟨hlow, hhigh, hnumeral⟩ := @Bytes.signed_spec bytes (2 ^ 15) (by rw [h]; rfl)
      exact ⟨_, hlow, hhigh, hnumeral, hinteger⟩
  | int8 =>
      obtain ⟨hlow, hhigh, hnumeral⟩ := @Bytes.signed_spec bytes (2 ^ 7) (by rw [h]; rfl)
      exact ⟨_, hlow, hhigh, hnumeral, hinteger⟩
  | ieeeSingle =>
      have hword := Single.denotes_ofBytes h
      rwa [Bytes.unsigned_eq_numeral] at hword
  | ibmSingle =>
      have hword := IbmSingle.denotes_ofBytes h
      rwa [Bytes.unsigned_eq_numeral, ← IbmSingle.ofBlockBytes_eq] at hword

theorem getElem_decode {i : ℕ} (hi : i < (coding.decode block).length) :
    (coding.decode block)[i] =
      coding.decodeOne (block.slice (i * coding.width) (i * coding.width + coding.width)) := by
  have hgroup := Bytes.getElem?_groups coding.width_pos block i
  have hlength : i < (Bytes.groups coding.width block).length := by
    rwa [decode, List.length_map] at hi
  rw [List.getElem?_eq_getElem hlength] at hgroup
  split at hgroup
  · simp only [decode, List.getElem_map, Option.some.inj hgroup]
  · cases hgroup

theorem length_sample {count i : ℕ} (h : block.length = count * coding.width) (hi : i < count) :
    (block.slice (i * coding.width) (i * coding.width + coding.width)).length = coding.width := by
  have hstop : i * coding.width + coding.width ≤ block.length := by
    rw [h, ← Nat.succ_mul]
    exact Nat.mul_le_mul_right _ hi
  rw [Bytes.length_slice_of_le hstop, Nat.add_sub_cancel_left]

end SampleCoding

def Value.IsNumber (x : Binary64) : Value → Prop
  | .integer number => x.IsInteger number
  | .real y => x = y
  | .text _ => False

theorem SampleCoding.isNumber_decode {coding : SampleCoding} {encoding : Encoding}
    (h : coding.encoding? = some encoding) (charset : Charset) {bytes : Bytes}
    (hlength : bytes.length = coding.width) :
    (encoding.decode charset bytes).IsNumber (coding.decodeOne bytes) := by
  have hle : bytes.length ≤ 4 := by
    rw [hlength]
    cases coding <;> decide
  have hinteger := Binary64.isInteger_ofInt (SampleCoding.natAbs_signed_lt hle)
  cases coding with
  | int32 | int16 =>
      cases h
      exact hinteger
  | ieeeSingle =>
      cases h
      rfl
  | ibmSingle =>
      cases h
      exact IbmSingle.ofBlockBytes_eq bytes
  | int8 => cases h

namespace Layout

theorem get?_of_decode {layout : Layout} {charset? : Option String} {block : Bytes}
    {header : Header} (h : layout.decode charset? block = .ok header) {field : Field}
    (hf : field ∈ layout.fields) :
    ∃ charset, header.get? field.name =
      some (field.encoding.decode charset (field.span.slice block)) := by
  obtain ⟨-, charset, -, rfl⟩ := decode_eq_ok_iff.mp h
  refine ⟨charset, ?_⟩
  rw [Decoder.get?_header]
  show (layout.field? field.name).map _ = _
  rw [field?_of_mem hf]
  rfl

end Layout

namespace Walk

variable {walk : Walk} {tape : Tape} {trace : Trace}

/-- What a trace shows of the walk that yielded it: a header that the walk decoded, and as many
samples as the walk takes the header to say. -/
structure Yielded (walk : Walk) (trace : Trace) : Prop where
  header : ∃ block, walk.decoder.decode block = .ok trace.header
  count : walk.rule.count trace.header = .ok trace.samples.length

theorem yielded_of_readSamples {header : Header} {count : ℕ}
    (hheader : ∃ block, walk.decoder.decode block = .ok header)
    (hcount : walk.rule.count header = .ok count)
    (h : (walk.readSamples header count tape).answer = .ok (some trace)) : walk.Yielded trace := by
  unfold readSamples at h
  dsimp only at h
  split at h
  · cases h
  · rename_i block after htake
    obtain ⟨-, hle⟩ := Reading.take_append htake
    rw [Int.toNat_natCast] at hle
    rw [ofSamples_eq hle] at h
    dsimp only at h
    split at h
    · unfold fail at h
      split at h <;> cases h
    · rename_i hfull
      cases h
      refine ⟨hheader, ?_⟩
      have hlength : block.length = count * walk.coding.width := by omega
      rw [SampleCoding.length_decode hlength, hcount]

theorem yielded_of_next (h : (walk.next tape).answer = .ok (some trace)) : walk.Yielded trace := by
  unfold next at h
  split at h
  · cases h
  · split at h
    · cases h
    · dsimp only at h
      split at h
      · cases h
      · cases h
      · rename_i block after hblock htake
        unfold ofHeader at h
        dsimp only at h
        split at h
        · unfold fail at h
          split at h <;> cases h
        · split at h
          · cases h
          · rename_i header hheader
            split at h
            · cases h
            · rename_i count hcount
              obtain ⟨hdecoded, htold⟩ := yielded_of_readSamples ⟨block, hheader⟩ hcount h
              exact ⟨hdecoded, htold⟩

end Walk

namespace SampleFormat

/-- A block of whole samples has one double for each, which denotes the number in its bytes exactly;
a header field of the matching encoding over the same bytes holds the same number. The blocks that
a walk reads are such blocks. -/
theorem unpack_exact {format : SampleFormat} {coding : SampleCoding}
    (hformat : format.coding? = some coding) :
    format.width? = some coding.width ∧
    (∀ (block : Bytes) (count : ℕ), block.length = count * coding.width →
      ∃ samples, coding.unpack block = .ok samples ∧ samples.length = count ∧
        ∀ i (hi : i < samples.length),
          let raw := block.slice (i * coding.width) (i * coding.width + coding.width)
          raw.length = coding.width ∧ coding.Denotes raw samples[i] ∧
            ∀ (layout : Layout) (charset? : Option String) (other : Bytes) (header : Header),
              layout.decode charset? other = .ok header →
              ∀ field ∈ layout.fields, coding.encoding? = some field.encoding →
                field.span.slice other = raw →
                ∃ value, header.get? field.name = some value ∧ value.IsNumber samples[i]) ∧
    ∀ (walk : Walk) (tape : Tape),
      (∀ trace, (walk.next tape).answer = .ok (some trace) →
        walk.rule.count trace.header = .ok trace.samples.length) ∧
      ∀ fault, (walk.next tape).answer ≠ .error (.samples fault) := by
  refine ⟨width?_eq_of_coding? hformat, ?_, ?_⟩
  · intro block count hblock
    have hlength := SampleCoding.length_decode hblock
    refine ⟨coding.decode block, ?_, hlength, ?_⟩
    · exact SampleCoding.unpack_of_dvd (Dvd.intro_left count hblock.symm)
    · intro i hi
      dsimp only
      have hraw := SampleCoding.length_sample hblock (hlength ▸ hi)
      rw [SampleCoding.getElem_decode hi]
      refine ⟨hraw, SampleCoding.denotes_decodeOne hraw, ?_⟩
      intro layout charset? other header hheader field hfield hencoding hsame
      obtain ⟨charset, hget⟩ := Layout.get?_of_decode hheader hfield
      rw [hsame] at hget
      exact ⟨_, hget, SampleCoding.isNumber_decode hencoding charset hraw⟩
  · intro walk tape
    refine ⟨fun trace h => (Walk.yielded_of_next h).count, ?_⟩
    intro fault h
    cases Walk.ofCall_of_next h

theorem unpack_exact_twoHalves :
    SampleFormat.integer2.coding? = some .int16 ∧
    ∃ samples first header value,
      SampleCoding.int16.unpack [128, 0, 255, 254] = .ok samples ∧
      samples.length = 2 ∧ samples[0]? = some first ∧ first.value = -32768 ∧
      Walk.countAndText.decode (some "us_ascii") [128, 0, 65, 66, 9] = .ok header ∧
      header.get? "count" = some value ∧ value.IsNumber first := by
  have hformat : SampleFormat.integer2.coding? = some .int16 := rfl
  have hname : (some "us_ascii").bind Charset.named? = some .usAscii := by decide +kernel
  have hheader : Walk.countAndText.decode (some "us_ascii") [128, 0, 65, 66, 9] = .ok _ :=
    Layout.decode_of_charset (fun _ => hname) (by decide)
  obtain ⟨-, hblocks, -⟩ := unpack_exact hformat
  obtain ⟨samples, hunpack, hlength, hsamples⟩ := hblocks [128, 0, 255, 254] 2 rfl
  have hfirst : 0 < samples.length := by
    rw [hlength]
    decide
  obtain ⟨-, ⟨number, hlow, hhigh, hnumeral, hnumber⟩, hsame⟩ := hsamples 0 hfirst
  have hspelled :
      (Bytes.numeral (Bytes.slice [128, 0, 255, 254] (0 * 2) (0 * 2 + 2)) : ℤ) = 32768 := by decide
  have hminimum : number = -32768 := by
    have hrest : number % 2 ^ 16 = 32768 := hnumeral.trans hspelled
    omega
  obtain ⟨value, hvalue, hequal⟩ := hsame Walk.countAndText (some "us_ascii") _ _ hheader
    ⟨"count", ⟨0, 2, by decide⟩, .int16, by decide, by decide⟩ (by decide) rfl rfl
  refine ⟨hformat, samples, samples[0], _, value, hunpack, hlength,
    List.getElem?_eq_getElem hfirst, ?_, hheader, hvalue, hequal⟩
  rw [hnumber.value, hminimum]
  norm_num

end SampleFormat

end SeisLog
