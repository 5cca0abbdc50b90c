import Mathlib.Data.Fintype.EquivFin
import SeisLog.Charset

/-!
# Code page 1047 is a permutation

The table of code page 1047 has each number below 256, so it has each only once. Text over these
characters can be encoded, and comes back when it is decoded.
-/

namespace SeisLog

/-- The set of the numbers of a list, one bit for each. -/
def mask (numbers : List Nat) : Nat := numbers.foldr (fun number bits => 1 <<< number ||| bits) 0

theorem testBit_mask {numbers : List Nat} {number : Nat} :
    (mask numbers).testBit number = true ↔ number ∈ numbers := by
  induction numbers with
  | nil => simp [mask]
  | cons first rest ih =>
      rw [mask, List.foldr_cons, Nat.testBit_or, Nat.one_shiftLeft, Nat.testBit_two_pow,
        Bool.or_eq_true, List.mem_cons, ← ih, mask, decide_eq_true_eq, eq_comm]

namespace Charset

theorem mem_ibm1047Codes {number : Nat} (h : number < 256) : number ∈ ibm1047Codes.toList := by
  -- one comparison of masks stands for all the searches through the table
  have hmask : mask ibm1047Codes.toList = 2 ^ 256 - 1 := by decide +kernel
  rw [← testBit_mask, hmask, Nat.testBit_two_pow_sub_one]
  exact decide_eq_true h

theorem lt_of_mem_ibm1047Codes {number : Nat} (h : number ∈ ibm1047Codes.toList) :
    number < 256 := by
  have hall : ∀ number ∈ ibm1047Codes.toList, number < 256 := by decide +kernel
  exact hall number h

theorem size_ibm1047Codes : ibm1047Codes.size = 256 := by decide +kernel

theorem getD_ibm1047Codes {i : Nat} (h : i < ibm1047Codes.toList.length) :
    ibm1047Codes.getD i 0 = ibm1047Codes.toList[i] := by
  have hlt : i < ibm1047Codes.size := by rwa [← Array.length_toList]
  simp [Array.getD, hlt]

def codeOf (byte : Fin 256) : Fin 256 where
  val := ibm1047Codes.getD byte 0
  isLt := by
    rw [getD_ibm1047Codes (by rw [Array.length_toList, size_ibm1047Codes]; exact byte.isLt)]
    exact lt_of_mem_ibm1047Codes (List.getElem_mem _)

theorem codeOf_surjective : Function.Surjective codeOf := by
  intro number
  obtain ⟨i, hi, hget⟩ := List.getElem_of_mem (mem_ibm1047Codes number.isLt)
  have hlt : i < 256 := by rwa [Array.length_toList, size_ibm1047Codes] at hi
  refine ⟨⟨i, hlt⟩, Fin.ext ?_⟩
  simp only [codeOf, getD_ibm1047Codes hi, hget]

theorem codeOf_injective : Function.Injective codeOf :=
  Finite.injective_iff_surjective.mpr codeOf_surjective

theorem toNat_ofNat {number : Nat} (h : number < 256) : (Char.ofNat number).toNat = number := by
  have hvalid : number.isValidChar := .inl (by omega)
  rw [Char.ofNat, dif_pos hvalid]
  rfl

theorem decodeByte_eq (byte : UInt8) :
    ibm1047.decodeByte byte = Char.ofNat (codeOf ⟨byte.toNat, byte.toNat_lt⟩) := by
  simp only [decodeByte, codeOf]

theorem toNat_decodeByte (byte : UInt8) :
    (ibm1047.decodeByte byte).toNat = codeOf ⟨byte.toNat, byte.toNat_lt⟩ := by
  rw [decodeByte_eq]
  exact toNat_ofNat (Fin.isLt _)

theorem decodeByte_injective : Function.Injective ibm1047.decodeByte := by
  intro first second h
  have hcode := congrArg Char.toNat h
  rw [toNat_decodeByte, toNat_decodeByte] at hcode
  exact UInt8.toNat_inj.mp (congrArg Fin.val (codeOf_injective (Fin.ext hcode)))

theorem exists_decodeByte {c : Char} (h : c.toNat < 256) :
    ∃ byte, ibm1047.decodeByte byte = c := by
  obtain ⟨byte, hbyte⟩ := codeOf_surjective ⟨c.toNat, h⟩
  have hnat : (UInt8.ofNat byte).toNat = byte := by
    rw [UInt8.toNat_ofNat', Nat.mod_eq_of_lt byte.isLt]
  refine ⟨UInt8.ofNat byte, Char.toNat_inj.mp ?_⟩
  rw [toNat_decodeByte]
  simp only [hnat, Fin.eta, hbyte]

theorem encodeChar?_decodeByte (byte : UInt8) :
    ibm1047.encodeChar? (ibm1047.decodeByte byte) = some byte := by
  unfold encodeChar?
  cases hfind : ((List.range 256).reverse.map UInt8.ofNat).find? fun other =>
      ibm1047.decodeByte other == ibm1047.decodeByte byte with
  | none =>
      have hnone := List.find?_eq_none.mp hfind byte (by
        simp only [List.mem_map, List.mem_reverse, List.mem_range]
        exact ⟨byte.toNat, byte.toNat_lt, UInt8.ofNat_toNat⟩)
      simp at hnone
  | some other =>
      have hsome := List.find?_some hfind
      rw [beq_iff_eq] at hsome
      rw [decodeByte_injective hsome]

theorem encode?_decode (bytes : Bytes) : ibm1047.encode? (ibm1047.decode bytes) = some bytes := by
  rw [encode?, decode, String.toList_ofList]
  induction bytes with
  | nil => rfl
  | cons byte rest ih => simp [encodeChar?_decodeByte, ih]

theorem exists_encode? {text : String} (h : ∀ c ∈ text.toList, c.toNat < 256) :
    ∃ bytes, ibm1047.encode? text = some bytes ∧ ibm1047.decode bytes = text := by
  suffices hlist : ∀ chars : List Char, (∀ c ∈ chars, c.toNat < 256) →
      ∃ bytes : Bytes, bytes.map ibm1047.decodeByte = chars by
    obtain ⟨bytes, hbytes⟩ := hlist text.toList h
    have htext : ibm1047.decode bytes = text := by
      rw [decode, hbytes, String.ofList_toList]
    exact ⟨bytes, htext ▸ encode?_decode bytes, htext⟩
  intro chars hchars
  induction chars with
  | nil => exact ⟨[], rfl⟩
  | cons c rest ih =>
      obtain ⟨hc, hrest⟩ := List.forall_mem_cons.mp hchars
      obtain ⟨byte, hbyte⟩ := exists_decodeByte hc
      obtain ⟨bytes, hbytes⟩ := ih hrest
      exact ⟨byte :: bytes, by rw [List.map_cons, hbyte, hbytes]⟩

end Charset

end SeisLog
