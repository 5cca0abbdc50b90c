import SeisLog.Header.Writing
import SeisLog.Proofs.Charset
import SeisLog.Proofs.Numbers

/-!
# Encoding values

Each encoding has an inverse. Bytes that are `Reversible` are found again from the value they stand
for (`encode?_decode`), and a value that an encoding `Represents` is found again from its bytes
(`exists_encode?`). Both are said of code page 1047, in which every byte is a character of its own.
-/

namespace SeisLog

namespace Bytes

def word (bytes : Bytes) : UInt32 := UInt32.ofNat (unsigned bytes)

theorem ofUnsigned_word {bytes : Bytes} (h : bytes.length = 4) :
    ofUnsigned 4 bytes.word.toNat = bytes := by
  rw [word, toNat_word h, ← h, ofUnsigned_unsigned]

theorem word_ofUnsigned (word : UInt32) : (ofUnsigned 4 word.toNat).word = word := by
  apply UInt32.toNat_inj.mp
  rw [Bytes.word, unsigned_ofUnsigned, UInt32.toNat_ofNat']
  have hlt := word.toNat_lt
  rw [Nat.mod_eq_of_lt hlt]
  exact Nat.mod_eq_of_lt hlt

end Bytes

namespace Encoding

theorem signed?_signed (bytes : Bytes) :
    signed? bytes.length (Bytes.signed bytes) = some bytes := by
  have hlt := Bytes.unsigned_lt bytes
  have hpos : 0 < Nat.pow 256 bytes.length := by omega
  unfold signed? Bytes.signed
  have hlow := @Int.le_bmod (Bytes.unsigned bytes) _ hpos
  have hhigh := @Int.bmod_lt (Bytes.unsigned bytes) _ hpos
  have hmod : (Int.bmod (Bytes.unsigned bytes) (Nat.pow 256 bytes.length) %
      (Nat.pow 256 bytes.length : Nat)).toNat = Bytes.unsigned bytes := by
    rw [Int.bmod_emod, Int.emod_eq_of_lt (by omega) (by omega)]
    rfl
  dsimp only
  rw [if_pos (by omega), hmod, Bytes.ofUnsigned_unsigned]

theorem exists_signed? {width : Nat} {number : Int}
    (hlow : -(Nat.pow 256 width : Int) ≤ 2 * number)
    (hhigh : 2 * number < (Nat.pow 256 width : Int)) :
    ∃ raw, signed? width number = some raw ∧ raw.length = width ∧ Bytes.signed raw = number := by
  have hpos : 0 < Nat.pow 256 width := Nat.pow_pos (by decide)
  have hnonneg := Int.emod_nonneg number (Int.natCast_ne_zero.mpr (Nat.ne_of_gt hpos))
  have hlt := Int.emod_lt_of_pos number (Int.natCast_pos.mpr hpos)
  refine ⟨_, if_pos ⟨hlow, hhigh⟩, Bytes.length_ofUnsigned _ _, ?_⟩
  rw [Bytes.signed, Bytes.length_ofUnsigned, Bytes.unsigned_ofUnsigned,
    Nat.mod_eq_of_lt (by omega), Int.toNat_of_nonneg hnonneg, Int.emod_bmod]
  exact Int.bmod_eq_of_le (by omega) (by omega)

theorem unsigned?_unsigned (bytes : Bytes) :
    unsigned? bytes.length (Bytes.unsigned bytes) = some bytes := by
  have hlt := Bytes.unsigned_lt bytes
  rw [unsigned?, if_pos ⟨Int.natCast_nonneg _, Int.ofNat_lt.mpr hlt⟩, Int.toNat_natCast,
    Bytes.ofUnsigned_unsigned]

theorem exists_unsigned? {width : Nat} {number : Int} (hlow : 0 ≤ number)
    (hhigh : number < (Nat.pow 256 width : Int)) :
    ∃ raw, unsigned? width number = some raw ∧ raw.length = width ∧
      (Bytes.unsigned raw : Int) = number := by
  refine ⟨_, if_pos ⟨hlow, hhigh⟩, Bytes.length_ofUnsigned _ _, ?_⟩
  rw [Bytes.unsigned_ofUnsigned, Nat.mod_eq_of_lt (by omega), Int.toNat_of_nonneg hlow]

/-- The bytes of a field that can be found again from their value: no NaN, and a hexadecimal word
is zero or has a full leading digit. -/
def Reversible (encoding : Encoding) (raw : Bytes) : Prop :=
  match encoding with
  | .ieeeSingle => ¬ Single.IsNaN raw.word
  | .ibmSingle => IbmSingle.IsNormal raw.word
  | .int16 | .int32 | .uint16 | .text => True

/-- The values that some `length` bytes stand for. -/
def Represents (encoding : Encoding) (length : Nat) (value : Value) : Prop :=
  match encoding, value with
  | .int16, .integer number => -32768 ≤ number ∧ number ≤ 32767
  | .int32, .integer number => -2147483648 ≤ number ∧ number ≤ 2147483647
  | .uint16, .integer number => 0 ≤ number ∧ number ≤ 65535
  | .ibmSingle, .real number => IbmSingle.Represents number
  | .ieeeSingle, .real number => Single.Represents number
  | .text, .text content => content.length = length ∧ ∀ c ∈ content.toList, c.toNat < 256
  | _, _ => False

section

variable {encoding : Encoding}

theorem encode?_decode {raw : Bytes} (hw : ∀ width ∈ encoding.width?, raw.length = width)
    (hr : encoding.Reversible raw) :
    encoding.encode? .ibm1047 (encoding.decode .ibm1047 raw) = some raw := by
  cases encoding with
  | int16 =>
      have hsigned := signed?_signed raw
      rwa [hw 2 rfl] at hsigned
  | int32 =>
      have hsigned := signed?_signed raw
      rwa [hw 4 rfl] at hsigned
  | uint16 =>
      have hunsigned := unsigned?_unsigned raw
      rwa [hw 2 rfl] at hunsigned
  | ibmSingle =>
      have hword : IbmSingle.ofBinary64? (IbmSingle.ofBytes raw) = some raw.word :=
        IbmSingle.ofBinary64?_toBinary64 hr
      rw [decode, encode?, hword, Option.map_some, Bytes.ofUnsigned_word (hw 4 rfl)]
  | ieeeSingle =>
      have hword : Single.narrow? (Single.ofBytes raw) = some raw.word := Single.narrow?_widen hr
      rw [decode, encode?, hword, Option.map_some, Bytes.ofUnsigned_word (hw 4 rfl)]
  | text => exact Charset.encode?_decode raw

theorem exists_ofWord {pack? : Binary64 → Option UInt32} {unpack : UInt32 → Binary64}
    {number : Binary64} (h : ∃ word, pack? number = some word ∧ unpack word = number) :
    ∃ raw, (pack? number).map (Bytes.ofUnsigned 4 ·.toNat) = some raw ∧ raw.length = 4 ∧
      unpack raw.word = number := by
  obtain ⟨word, hpack, hunpack⟩ := h
  refine ⟨Bytes.ofUnsigned 4 word.toNat, by rw [hpack]; rfl, Bytes.length_ofUnsigned _ _, ?_⟩
  rw [Bytes.word_ofUnsigned, hunpack]

theorem exists_encode? {length : Nat} {value : Value}
    (hw : ∀ width ∈ encoding.width?, length = width) (h : encoding.Represents length value) :
    ∃ raw, encoding.encode? .ibm1047 value = some raw ∧ raw.length = length ∧
      encoding.decode .ibm1047 raw = value := by
  -- the kinds of value that an encoding does not have are excluded by `h`
  cases encoding <;> cases value <;> try exact h.elim
  case int16.integer number =>
    obtain ⟨hlow, hhigh⟩ : -32768 ≤ number ∧ number ≤ 32767 := h
    rw [hw 2 rfl]
    obtain ⟨raw, hraw, hlength, hnumber⟩ := @exists_signed? 2 number (by simp; omega)
      (by simp; omega)
    exact ⟨raw, hraw, hlength, congrArg Value.integer hnumber⟩
  case int32.integer number =>
    obtain ⟨hlow, hhigh⟩ : -2147483648 ≤ number ∧ number ≤ 2147483647 := h
    rw [hw 4 rfl]
    obtain ⟨raw, hraw, hlength, hnumber⟩ := @exists_signed? 4 number (by simp; omega)
      (by simp; omega)
    exact ⟨raw, hraw, hlength, congrArg Value.integer hnumber⟩
  case uint16.integer number =>
    obtain ⟨hlow, hhigh⟩ : 0 ≤ number ∧ number ≤ 65535 := h
    rw [hw 2 rfl]
    obtain ⟨raw, hraw, hlength, hnumber⟩ := @exists_unsigned? 2 number hlow (by simp; omega)
    exact ⟨raw, hraw, hlength, congrArg Value.integer hnumber⟩
  case ibmSingle.real number =>
    rw [hw 4 rfl]
    obtain ⟨raw, hraw, hlength, hnumber⟩ := exists_ofWord (IbmSingle.exists_ofBinary64? h)
    exact ⟨raw, hraw, hlength, congrArg Value.real hnumber⟩
  case ieeeSingle.real number =>
    rw [hw 4 rfl]
    obtain ⟨raw, hraw, hlength, hnumber⟩ := exists_ofWord (Single.exists_narrow? h)
    exact ⟨raw, hraw, hlength, congrArg Value.real hnumber⟩
  case text.text content =>
    obtain ⟨hlength, hchars⟩ := h
    obtain ⟨raw, hraw, hcontent⟩ := Charset.exists_encode? hchars
    have hsize : raw.length = length := by rw [← hlength, ← hcontent, Charset.length_decode]
    exact ⟨raw, hraw, hsize, congrArg Value.text hcontent⟩

end

end Encoding

end SeisLog
