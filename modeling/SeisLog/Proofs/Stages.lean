import SeisLog.Header.Basic
import SeisLog.Proofs.Header
import SeisLog.Proofs.Steady

/-!
# Stages of a reading

Readings in a row hand the tape on, and the first failure ends them. A block of text or a header
that lies within the reach of a tape comes whole, unless the tape refuses it. On a flowing tape
that grants it, it comes whole or fails with the number of bytes that were left.
-/

namespace SeisLog.Reading

section

variable {σ α β : Type} {reading : Reading σ α} {tape after : σ}

theorem bind_of_ok (next : α → Reading σ β) {answer : α} (h : reading tape = (.ok answer, after)) :
    (reading >>= next) tape = next answer after := by
  simp only [bind, h]

theorem bind_of_error (next : α → Reading σ β) {failure : Failure}
    (h : reading tape = (.error failure, after)) :
    (reading >>= next) tape = (.error failure, after) := by
  simp only [bind, h]

theorem ofExcept_of_eq {found : Except Failure α} {answer : α} (h : found = .ok answer)
    (tape : σ) : ofExcept found tape = (.ok answer, tape) := by
  rw [h]
  rfl

theorem ofExcept_map (f : α → β) (found : Except Failure α) :
    ofExcept (found.map f) = (do
      let answer ← ofExcept found
      return f answer : Reading σ β) := by
  cases found <;> rfl

theorem bind_pure_eq (reading : Reading σ α) : reading >>= pure = reading := by
  funext tape
  simp only [bind]
  cases reading tape with
  | mk answer after => cases answer <;> rfl

theorem bind_bind_eq {γ : Type} (reading : Reading σ α) (next : α → Reading σ β)
    (last : β → Reading σ γ) :
    reading >>= next >>= last = reading >>= fun answer => next answer >>= last := by
  funext tape
  simp only [bind]
  cases reading tape with
  | mk answer after => cases answer <;> rfl

instance : LawfulMonad (Reading σ) :=
  LawfulMonad.mk' (Reading σ) bind_pure_eq (fun _ _ => rfl) bind_bind_eq

end

variable {tape : Tape}

theorem require_of_named {name : String} {charset : Charset}
    (hc : Charset.named? name = some charset) (tape : Tape) :
    ofExcept (Charset.require name) tape = (.ok charset, tape) := by
  apply ofExcept_of_eq
  rw [Charset.require, hc]

/-- A block of text is what was taken, unless that is too short. -/
theorem text_eq {name : String} {charset : Charset} (hc : Charset.named? name = some charset)
    (size : Int) (tape : Tape) :
    text name (some size) tape =
      match take size tape with
      | (.error failure, after) => (.error failure, after)
      | (.ok bytes, after) =>
          if bytes.length < size then
            (.error (Failure.header ⟨.textBlock, size, bytes.length⟩).told, after)
          else (.ok (charset.decode bytes), after) := by
  rw [text, textBlock, bind_of_ok _ (require_of_named hc tape)]
  cases h : take size tape with
  | mk answer after =>
      cases answer with
      | error failure => exact bind_of_error _ h
      | ok bytes =>
          rw [bind_of_ok _ h]
          by_cases hs : (bytes.length : Int) < size
          · simp only [Bool.true_and, decide_eq_true_eq, if_pos hs]
            rfl
          · simp only [Bool.true_and, decide_eq_true_eq, if_neg hs]
            rfl

theorem unread_of_text {name : String} {charset : Charset} {size : Int} {tape after : Tape}
    {content : String} (hc : Charset.named? name = some charset)
    (h : text name (some size) tape = (.ok content, after)) :
    after.unread = tape.unread.drop size.toNat := by
  rw [text_eq hc] at h
  cases htake : take size tape with
  | mk answer rest =>
      rw [htake] at h
      cases answer with
      | error failure => cases h
      | ok bytes =>
          by_cases hs : (bytes.length : Int) < size
          · simp only [if_pos hs] at h
            cases h
          · simp only [if_neg hs] at h
            cases h
            obtain ⟨happend, hle⟩ := take_append htake
            have hlength : size.toNat = bytes.length := by omega
            rw [← happend, hlength, List.drop_left]

theorem header_eq {layout : Layout} {charset? : Option String} {decoder : Decoder}
    (hd : Decoder.make layout charset? = .ok decoder) (tape : Tape) :
    header layout charset? tape =
      match take layout.readSize tape with
      | (.error failure, after) => (.error failure, after)
      | (.ok block, after) =>
          if block.length < layout.readSize then
            (.error (Failure.header ⟨.stream layout.name, layout.readSize, block.length⟩).told,
              after)
          else (.ok (decoder.header block), after) := by
  rw [header, bind_of_ok _ (ofExcept_of_eq hd tape)]
  cases h : take layout.readSize tape with
  | mk answer after =>
      cases answer with
      | error failure => exact bind_of_error _ h
      | ok block =>
          rw [bind_of_ok _ h]
          by_cases hb : (block.length : Int) < layout.readSize
          · simp only [if_pos hb]
            rfl
          · have hlayout := Decoder.layout_of_make hd
            have hle : decoder.layout.requiredSize ≤ block.length := by
              rw [hlayout]
              exact Layout.requiredSize_le_of_readSize_le (Int.not_lt.mp hb)
            simp only [if_neg hb]
            rw [Decoder.decode_of_le hle]
            rfl

theorem text_of_reach (hl : tape.limit ≠ some 0) {name : String} {charset : Charset} {size : Int}
    (hc : Charset.named? name = some charset) (hr : size.toNat ≤ tape.reach) :
    text name (some size) tape =
      match refused? size tape with
      | some failure => (.error failure, tape)
      | none => (.ok (charset.decode (tape.unread.take size.toNat)), tape.ahead size.toNat) := by
  have hle := tape.reach_le
  have hn : ¬ ((tape.unread.take size.toNat).length : Int) < size := by
    rw [List.length_take]
    omega
  rw [text_eq hc, take_of_reach hl hr]
  cases refused? size tape with
  | some failure => rfl
  | none => exact if_neg hn

theorem header_of_reach (hl : tape.limit ≠ some 0) {layout : Layout} {charset? : Option String}
    {decoder : Decoder} (hd : Decoder.make layout charset? = .ok decoder)
    (hs : 0 < layout.readSize) (hr : layout.readSize.toNat ≤ tape.reach) :
    header layout charset? tape =
      match refused? layout.readSize tape with
      | some failure => (.error failure, tape)
      | none => (.ok (decoder.header (tape.unread.take layout.readSize.toNat)),
          tape.ahead layout.readSize.toNat) := by
  have hle := tape.reach_le
  have hn : ¬ ((tape.unread.take layout.readSize.toNat).length : Int) < layout.readSize := by
    rw [List.length_take]
    omega
  rw [header_eq hd, take_of_reach hl hr]
  cases refused? layout.readSize tape with
  | some failure => rfl
  | none => exact if_neg hn

theorem text_of_refused (hl : tape.limit ≠ some 0) {name : String} {charset : Charset} {size : Int}
    {failure : Failure} (hc : Charset.named? name = some charset)
    (hr : refused? size tape = some failure) :
    text name (some size) tape = (.error failure, tape) := by
  rw [text_eq hc, take_eq hl, hr]

theorem header_of_refused (hl : tape.limit ≠ some 0) {layout : Layout} {charset? : Option String}
    {decoder : Decoder} {failure : Failure} (hd : Decoder.make layout charset? = .ok decoder)
    (hr : refused? layout.readSize tape = some failure) :
    header layout charset? tape = (.error failure, tape) := by
  rw [header_eq hd, take_eq hl, hr]

section

variable (ht : tape.Flowing)

include ht

theorem text_of_le {name : String} {charset : Charset} {size : Int} (hg : tape.Grants size)
    (hc : Charset.named? name = some charset) (hl : size ≤ tape.unread.length) :
    text name (some size) tape =
      (.ok (charset.decode (tape.unread.take size.toNat)), tape.ahead size.toNat) := by
  have hr : size.toNat ≤ tape.reach := by
    rw [ht.reach]
    omega
  rw [text_of_reach ht.limit hc hr, hg]

theorem text_of_lt {name : String} {charset : Charset} {size : Int} (hg : tape.Grants size)
    (hc : Charset.named? name = some charset) (hl : tape.unread.length < size) :
    text name (some size) tape =
      (.error (Failure.header ⟨.textBlock, size, tape.unread.length⟩).told,
        tape.ahead size.toNat) := by
  have hb : tape.unread.take size.toNat = tape.unread := List.take_of_length_le (by omega)
  rw [text_eq hc, take_of_flowing ht hg, hb]
  exact if_pos hl

theorem grants_of_text {name : String} {charset : Charset} {size : Int} {after : Tape}
    {content : String} (hc : Charset.named? name = some charset)
    (h : text name (some size) tape = (.ok content, after)) : tape.Grants size := by
  cases htake : take size tape with
  | mk answer rest =>
      cases answer with
      | ok bytes => exact grants_of_take ht.limit htake
      | error failure =>
          rw [text_eq hc, htake] at h
          cases h

variable {layout : Layout} {charset? : Option String} {decoder : Decoder}
  (hg : tape.Grants layout.readSize) (hd : Decoder.make layout charset? = .ok decoder)
  (hs : 0 < layout.readSize)

include hg hd hs

theorem header_of_lt (hl : tape.unread.length < layout.readSize) :
    header layout charset? tape =
      (.error (Failure.header ⟨.stream layout.name, layout.readSize, tape.unread.length⟩).told,
        tape.ahead layout.readSize.toNat) := by
  have hb : tape.unread.take layout.readSize.toNat = tape.unread :=
    List.take_of_length_le (by omega)
  rw [header_eq hd, take_of_flowing ht hg, hb]
  exact if_pos hl

omit hg hs in
theorem grants_of_header {after : Tape} {header : Header}
    (h : Reading.header layout charset? tape = (.ok header, after)) :
    tape.Grants layout.readSize := by
  cases htake : take layout.readSize tape with
  | mk answer rest =>
      cases answer with
      | ok block => exact grants_of_take ht.limit htake
      | error failure =>
          rw [Reading.header, bind_of_ok _ (ofExcept_of_eq hd tape), bind_of_error _ htake] at h
          cases h

end

end SeisLog.Reading
