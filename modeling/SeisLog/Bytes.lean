/-!
# Bytes

Big-endian numerals, slices and equal groups of a byte list. `ofUnsigned` and `splice` undo
`unsigned` and `slice`.
-/

namespace SeisLog

abbrev Bytes := List UInt8

namespace Bytes

/-- The number that the bytes spell, most significant byte first. -/
def unsigned (bytes : Bytes) : Nat :=
  bytes.foldl (fun n byte => 256 * n + byte.toNat) 0

/-- The low digits of a number, as many as there are bytes. -/
def ofUnsigned : Nat → Nat → Bytes
  | 0, _ => []
  | width + 1, number => ofUnsigned width (number / 256) ++ [UInt8.ofNat number]

/-- The same bytes as a two's complement number. -/
def signed (bytes : Bytes) : Int :=
  Int.bmod (unsigned bytes) (Nat.pow 256 bytes.length)

/-- The bytes at offsets `start ≤ i < stop`; what lies past the end is left out. -/
def slice (bytes : Bytes) (start stop : Nat) : Bytes :=
  (bytes.drop start).take (stop - start)

/-- The bytes with `raw` written over those from `start` on. -/
def splice (bytes : Bytes) (start : Nat) (raw : Bytes) : Bytes :=
  bytes.take start ++ raw ++ bytes.drop (start + raw.length)

def groupsInto (done : List Bytes) : Nat → Bytes → List Bytes
  | width + 1, byte :: rest =>
      groupsInto ((byte :: rest.take width) :: done) (width + 1) (rest.drop width)
  | _, _ => done.reverse
termination_by _ bytes => bytes.length
decreasing_by
  simp only [List.length_drop, List.length_cons]
  omega

/-- The bytes cut into groups of `width`, the last one possibly shorter. -/
def groups (width : Nat) (bytes : Bytes) : List Bytes :=
  groupsInto [] width bytes

@[simp] theorem unsigned_nil : unsigned [] = 0 := rfl

theorem unsigned_append_singleton (bytes : Bytes) (byte : UInt8) :
    unsigned (bytes ++ [byte]) = 256 * unsigned bytes + byte.toNat := by
  simp [unsigned]

theorem unsigned_lt (bytes : Bytes) : unsigned bytes < Nat.pow 256 bytes.length := by
  suffices h : ∀ (rest done : Bytes), unsigned done < Nat.pow 256 done.length →
      unsigned (done ++ rest) < Nat.pow 256 (done ++ rest).length by
    simpa using h bytes [] (by simp)
  intro rest
  induction rest with
  | nil => intro done h; simpa using h
  | cons byte rest ih =>
      intro done h
      have hb := byte.toNat_lt
      have := ih (done ++ [byte]) (by
        rw [unsigned_append_singleton]
        simp only [List.length_append, List.length_singleton, Nat.pow_eq, Nat.pow_succ] at h ⊢
        omega)
      simpa using this

@[simp] theorem length_ofUnsigned (width number : Nat) :
    (ofUnsigned width number).length = width := by
  induction width generalizing number with
  | zero => rfl
  | succ width ih => simp [ofUnsigned, ih]

/-- The digits spell the number, up to what does not fit. -/
theorem unsigned_ofUnsigned (width number : Nat) :
    unsigned (ofUnsigned width number) = number % Nat.pow 256 width := by
  induction width generalizing number with
  | zero => simp [ofUnsigned, Nat.mod_one]
  | succ width ih =>
      rw [ofUnsigned, unsigned_append_singleton, ih]
      simp only [Nat.pow_eq, UInt8.toNat_ofNat', Nat.reducePow]
      rw [Nat.pow_succ, Nat.mul_comm _ 256, Nat.mod_mul]
      omega

theorem ofUnsigned_unsigned (bytes : Bytes) : ofUnsigned bytes.length (unsigned bytes) = bytes := by
  induction h : bytes.length generalizing bytes with
  | zero => simp [List.length_eq_zero_iff.mp h, ofUnsigned]
  | succ width ih =>
      obtain ⟨front, last, rfl⟩ : ∃ front last, bytes = front ++ [last] := by
        have hne : bytes ≠ [] := by
          rintro rfl
          cases h
        exact ⟨_, _, (List.dropLast_concat_getLast hne).symm⟩
      have hlast := last.toNat_lt
      have hdiv : (256 * unsigned front + last.toNat) / 256 = unsigned front := by omega
      have hmod : UInt8.ofNat (256 * unsigned front + last.toNat) = last := by
        apply UInt8.toNat_inj.mp
        rw [UInt8.toNat_ofNat']
        omega
      rw [ofUnsigned, unsigned_append_singleton, hdiv, hmod, ih front (by simpa using h)]

theorem length_splice {bytes raw : Bytes} {start : Nat} (h : start + raw.length ≤ bytes.length) :
    (bytes.splice start raw).length = bytes.length := by
  simp only [splice, List.length_append, List.length_take, List.length_drop]
  omega

/-- Only the bytes that are written over change. -/
theorem getElem?_splice {bytes raw : Bytes} {start : Nat}
    (h : start + raw.length ≤ bytes.length) (i : Nat) :
    (bytes.splice start raw)[i]? =
      if start ≤ i ∧ i < start + raw.length then raw[i - start]? else bytes[i]? := by
  have hfront : (bytes.take start).length = start := by
    rw [List.length_take]
    omega
  rw [splice, List.append_assoc]
  by_cases hbefore : i < start
  · rw [List.getElem?_append_left (by omega), List.getElem?_take_of_lt hbefore,
      if_neg (by omega)]
  · rw [List.getElem?_append_right (by omega), hfront]
    by_cases hwithin : i < start + raw.length
    · rw [List.getElem?_append_left (by omega), if_pos (by omega)]
    · rw [List.getElem?_append_right (by omega), List.getElem?_drop, if_neg (by omega)]
      congr 1
      omega

theorem getElem?_slice (bytes : Bytes) (start stop i : Nat) :
    (bytes.slice start stop)[i]? = if i < stop - start then bytes[start + i]? else none := by
  rw [slice, List.getElem?_take, List.getElem?_drop]

theorem length_slice_of_le {bytes : Bytes} {start stop : Nat} (h : stop ≤ bytes.length) :
    (slice bytes start stop).length = stop - start := by
  simp only [slice, List.length_take, List.length_drop]
  omega

theorem groupsInto_eq (done : List Bytes) (width : Nat) (bytes : Bytes) :
    groupsInto done width bytes = done.reverse ++ groups width bytes := by
  induction h : bytes.length using Nat.strongRecOn generalizing done bytes with
  | _ n ih =>
      match width, bytes with
      | 0, _ => simp [groups, groupsInto]
      | _ + 1, [] => simp [groups, groupsInto]
      | width + 1, byte :: rest =>
          have hd : (rest.drop width).length < n := by
            simp only [← h, List.length_drop, List.length_cons]
            omega
          rw [groups, groupsInto, groupsInto, ih _ hd _ _ rfl, ih _ hd [_] _ rfl]
          simp

@[simp] theorem groups_nil (width : Nat) : groups width [] = [] := by
  simp [groups, groupsInto]

theorem groups_cons (width : Nat) (byte : UInt8) (rest : Bytes) :
    groups (width + 1) (byte :: rest) =
      (byte :: rest.take width) :: groups (width + 1) (rest.drop width) := by
  rw [groups, groupsInto, groupsInto_eq]
  simp

theorem groups_append {width : Nat} {front : Bytes} (h : front.length = width) (hw : 0 < width)
    (rest : Bytes) : groups width (front ++ rest) = front :: groups width rest := by
  cases front with
  | nil =>
      rw [List.length_nil] at h
      omega
  | cons byte front =>
      obtain rfl : width = front.length + 1 := h.symm
      rw [List.cons_append, groups_cons, List.take_left, List.drop_left]

theorem length_groups {width count : Nat} (hw : 0 < width) {bytes : Bytes}
    (h : bytes.length = count * width) : (groups width bytes).length = count := by
  obtain ⟨width, rfl⟩ := Nat.exists_eq_add_of_lt hw
  rw [Nat.zero_add] at h ⊢
  induction count generalizing bytes with
  | zero =>
      have : bytes = [] := List.eq_nil_of_length_eq_zero (by omega)
      simp [this]
  | succ count ih =>
      rw [Nat.succ_mul] at h
      cases bytes with
      | nil =>
          simp only [List.length_nil] at h
          omega
      | cons byte rest =>
          rw [groups_cons, List.length_cons, ih]
          simp only [List.length_drop, List.length_cons] at h ⊢
          omega

/-- The groups are slices, one after the other. -/
theorem getElem?_groups {width : Nat} (hw : 0 < width) (bytes : Bytes) (i : Nat) :
    (groups width bytes)[i]? =
      if i * width < bytes.length then some (bytes.slice (i * width) (i * width + width))
      else none := by
  obtain ⟨width, rfl⟩ := Nat.exists_eq_succ_of_ne_zero (Nat.ne_of_gt hw)
  induction i generalizing bytes with
  | zero =>
      cases bytes with
      | nil => simp
      | cons byte rest => simp [groups_cons, slice]
  | succ i ih =>
      cases bytes with
      | nil => simp
      | cons byte rest =>
          have hstart : (i + 1) * (width + 1) = width + i * (width + 1) + 1 := by
            rw [Nat.succ_mul]
            omega
          have hlength : i * (width + 1) < (rest.drop width).length ↔
              (i + 1) * (width + 1) < (byte :: rest).length := by
            rw [hstart, List.length_drop, List.length_cons]
            omega
          rw [groups_cons, List.getElem?_cons_succ, ih]
          simp only [hlength, slice, Nat.add_sub_cancel_left]
          rw [List.drop_drop, hstart, List.drop_succ_cons]

end Bytes

end SeisLog
