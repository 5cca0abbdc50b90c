import Mathlib.Data.Set.Function
import SeisLog.Proofs.Charset
import SeisLog.Proofs.Las
import SeisLog.Proofs.Segy.Headings

/-!
# Text in blocks

Each byte of a text is one character, so text that is read in blocks is the text that is read
whole. Under code page 1047 the bytes are found again from the text, also from the content of a
record; US-ASCII keeps only the bytes that it knows (`Charset.decode_faithful`).
-/

namespace SeisLog

namespace Charset

theorem toList_decode (charset : Charset) (bytes : Bytes) :
    (charset.decode bytes).toList = bytes.map charset.decodeByte := by
  rw [decode, String.toList_ofList]

/-- Code page 1047 and the characters below 256 are in bijection, and so are the texts over them. -/
theorem bijOn_decode :
    Set.BijOn ibm1047.decode Set.univ {text | ∀ c ∈ text.toList, c.toNat < 256} := by
  refine ⟨fun bytes _ c hc => ?_, fun a _ b _ hab => ?_, fun text htext => ?_⟩
  · rw [toList_decode] at hc
    obtain ⟨byte, -, rfl⟩ := List.mem_map.mp hc
    rw [toNat_decodeByte]
    exact Fin.isLt _
  · have hencode := congrArg ibm1047.encode? hab
    rw [encode?_decode, encode?_decode] at hencode
    exact Option.some.inj hencode
  · obtain ⟨bytes, -, hbytes⟩ := exists_encode? htext
    exact ⟨bytes, trivial, hbytes⟩

theorem toNat_decodeByte_usAscii (byte : UInt8) :
    (usAscii.decodeByte byte).toNat = if byte < 128 then byte.toNat else 0xFFFD := by
  have hlt := byte.toNat_lt
  unfold decodeByte
  dsimp only
  split
  · exact toNat_ofNat hlt
  · rfl

theorem decodeByte_usAscii_eq_iff {x y : UInt8} :
    usAscii.decodeByte x = usAscii.decodeByte y ↔ (x < 128 ∨ y < 128 → x = y) := by
  have hx := x.toNat_lt
  have hy := y.toNat_lt
  rw [← Char.toNat_inj, toNat_decodeByte_usAscii, toNat_decodeByte_usAscii]
  by_cases hfirst : x < 128
  · by_cases hsecond : y < 128
    · rw [if_pos hfirst, if_pos hsecond, UInt8.toNat_inj]
      exact ⟨fun h _ => h, fun h => h (.inl hfirst)⟩
    · rw [if_pos hfirst, if_neg hsecond]
      refine iff_of_false (by omega) fun h => hsecond (h (.inl hfirst) ▸ hfirst)
  · by_cases hsecond : y < 128
    · rw [if_neg hfirst, if_pos hsecond]
      refine iff_of_false (by omega) fun h => hfirst (h (.inr hsecond) ▸ hsecond)
    · rw [if_neg hfirst, if_neg hsecond]
      exact iff_of_true rfl fun h => (h.elim hfirst hsecond).elim

theorem decode_eq_iff (charset : Charset) {a b : Bytes} :
    charset.decode a = charset.decode b ↔ a.length = b.length ∧
      ∀ (i : ℕ) (x y : UInt8), a[i]? = some x → b[i]? = some y →
        charset.decodeByte x = charset.decodeByte y := by
  rw [← String.toList_inj, toList_decode, toList_decode]
  constructor
  · intro h
    refine ⟨by simpa using congrArg List.length h, fun i x y hx hy => ?_⟩
    have hi := congrArg (·[i]?) h
    simp only [List.getElem?_map, hx, hy, Option.map_some, Option.some.injEq] at hi
    exact hi
  · rintro ⟨hlength, hbytes⟩
    refine List.ext_getElem (by simpa using hlength) fun i hi hi' => ?_
    rw [List.getElem_map, List.getElem_map]
    exact hbytes i _ _ (List.getElem?_eq_getElem _) (List.getElem?_eq_getElem _)

end Charset

namespace Reading

variable {α β : Type} {tape after : Tape}

theorem exists_of_bind {reading : Reading Tape α} {next : α → Reading Tape β} {answer : β}
    (h : (reading >>= next) tape = (.ok answer, after)) :
    ∃ found middle, reading tape = (.ok found, middle) ∧
      next found middle = (.ok answer, after) := by
  cases hr : reading tape with
  | mk result middle =>
      cases result with
      | error failure =>
          rw [bind_of_error next hr] at h
          cases h
      | ok found =>
          rw [bind_of_ok next hr] at h
          exact ⟨found, middle, rfl, h⟩

theorem eq_of_ofExcept {found : Except Failure α} {answer : α}
    (h : ofExcept found tape = (.ok answer, after)) : found = .ok answer ∧ tape = after :=
  Prod.mk.inj h

theorem named?_of_require {name : String} {charset : Charset}
    (h : Charset.require name = .ok charset) : Charset.named? name = some charset := by
  unfold Charset.require at h
  split at h
  · rename_i hnamed
    rw [hnamed, Except.ok.inj h]
  · cases h

theorem exists_of_textBlock {size : Int} {name text : String} {strict : Bool}
    (h : textBlock size name strict tape = (.ok text, after)) :
    ∃ charset bytes, Charset.named? name = some charset ∧ take size tape = (.ok bytes, after) ∧
      text = charset.decode bytes ∧ (strict = true → size ≤ bytes.length) := by
  obtain ⟨charset, start, hcharset, hblock⟩ := exists_of_bind h
  obtain ⟨hnamed, rfl⟩ := eq_of_ofExcept hcharset
  obtain ⟨bytes, middle, htake, h⟩ := exists_of_bind hblock
  by_cases hshort : (strict && decide ((bytes.length : Int) < size)) = true
  · rw [if_pos hshort] at h
    cases h
  · rw [if_neg hshort] at h
    obtain ⟨htext, rfl⟩ := Prod.mk.inj h
    refine ⟨charset, bytes, named?_of_require hnamed, htake, (Except.ok.inj htext).symm, ?_⟩
    rintro rfl
    simpa using hshort

theorem length_of_textBlock {size : Int} {name text : String} (hs : 0 ≤ size)
    (h : textBlock size name true tape = (.ok text, after)) : (text.length : Int) = size := by
  obtain ⟨charset, bytes, -, htake, rfl, hstrict⟩ := exists_of_textBlock h
  obtain ⟨-, hle⟩ := take_append htake
  have hge := hstrict rfl
  rw [Charset.length_decode]
  omega

/-- Blocks of text one after another, each of a size of its own, and strict or not. -/
def textBlocks (blocks : List (Int × Bool)) (charset : String) : Reading Tape (List String) :=
  blocks.mapM fun block => textBlock block.1 charset block.2

def blocksSize : List (Int × Bool) → Nat
  | [] => 0
  | (size, _) :: blocks => size.toNat + blocksSize blocks

section

variable {name : String} {charset : Charset} {blocks : List (Int × Bool)} {texts : List String}
  (hc : Charset.named? name = some charset)

include hc

/-- Blocks that were read are the text of what they took, wherever they were cut. -/
theorem exists_of_textBlocks (h : textBlocks blocks name tape = (.ok texts, after)) :
    ∃ bytes, bytes ++ after.unread = tape.unread ∧ String.join texts = charset.decode bytes := by
  induction blocks generalizing tape texts with
  | nil =>
      obtain ⟨htexts, rfl⟩ := Prod.mk.inj h
      obtain rfl : [] = texts := Except.ok.inj htexts
      exact ⟨[], rfl, rfl⟩
  | cons block blocks ih =>
      rw [textBlocks, List.mapM_cons] at h
      obtain ⟨text, middle, htext, h⟩ := exists_of_bind h
      obtain ⟨rest, last, hrest, h⟩ := exists_of_bind h
      obtain ⟨htexts, rfl⟩ := Prod.mk.inj h
      obtain rfl : text :: rest = texts := Except.ok.inj htexts
      obtain ⟨other, bytes, hother, htake, rfl, -⟩ := exists_of_textBlock htext
      obtain rfl : charset = other := Option.some.inj (hc.symm.trans hother)
      obtain ⟨later, hlater, hjoin⟩ := ih hrest
      obtain ⟨htaken, -⟩ := take_append htake
      refine ⟨bytes ++ later, ?_, ?_⟩
      · rw [List.append_assoc, hlater, htaken]
      · rw [String.join_cons, hjoin, Charset.decode_append]

theorem textBlock_of_flowing (ht : tape.Flowing) {size : Int} (hg : tape.Grants size)
    {strict : Bool} (hs : strict = false ∨ size ≤ tape.unread.length) :
    textBlock size name strict tape =
      (.ok (charset.decode (tape.unread.take size.toNat)), tape.ahead size.toNat) := by
  have hlong :
      ¬ (strict && decide (((tape.unread.take size.toNat).length : Int) < size)) = true := by
    rcases hs with rfl | hle
    · simp
    · rw [List.length_take]
      simp only [Bool.and_eq_true, decide_eq_true_eq, not_and]
      omega
  rw [textBlock, bind_of_ok _ (require_of_named hc tape), bind_of_ok _ (take_of_flowing ht hg),
    if_neg hlong]
  rfl

theorem textBlocks_of_flowing (ht : tape.Flowing) (hg : ∀ block ∈ blocks, tape.Grants block.1)
    (hs : (∀ block ∈ blocks, block.2 = false) ∨ blocksSize blocks ≤ tape.unread.length) :
    ∃ texts, textBlocks blocks name tape = (.ok texts, tape.ahead (blocksSize blocks)) := by
  induction blocks generalizing tape with
  | nil =>
      refine ⟨[], ?_⟩
      rw [blocksSize, Tape.ahead_zero]
      rfl
  | cons block blocks ih =>
      obtain ⟨hblock, hblocks⟩ := List.forall_mem_cons.mp hg
      have hsize : blocksSize (block :: blocks) = block.1.toNat + blocksSize blocks := rfl
      have hfirst : block.2 = false ∨ block.1 ≤ tape.unread.length := by
        rcases hs with hloose | hle
        · exact .inl (hloose block List.mem_cons_self)
        · exact .inr (by omega)
      have hlater : (∀ block ∈ blocks, block.2 = false) ∨
          blocksSize blocks ≤ (tape.ahead block.1.toNat).unread.length := by
        rcases hs with hloose | hle
        · exact .inl (List.forall_mem_cons.mp hloose).2
        · rw [Tape.unread_ahead, List.length_drop]
          exact .inr (by omega)
      obtain ⟨texts, htexts⟩ := ih (ht.ahead _) (fun b hb => (hblocks b hb).ahead _) hlater
      rw [textBlocks] at htexts
      refine ⟨charset.decode (tape.unread.take block.1.toNat) :: texts, ?_⟩
      rw [textBlocks, List.mapM_cons, bind_of_ok _ (textBlock_of_flowing hc ht hblock hfirst),
        bind_of_ok _ htexts, Tape.ahead_ahead, hsize]
      rfl

theorem textRest_of_flowing (ht : tape.Flowing) (hopen : tape.isOpen = true) :
    textRest name tape = (.ok (charset.decode tape.unread), tape.ahead tape.unread.length) := by
  have hhalt : (tape.ahead tape.unread.length).halt = tape.ahead tape.unread.length := by
    rw [Tape.halt, show (tape.ahead _).stalls = [] from ht.stalls]
  rw [textRest_of_open hopen ht.limit hc, ht.reach, List.take_length, hhalt]

end

end Reading

namespace Segy

/-- The textual header that the content of a record shows behind the sample format. -/
def headerText (size : Int) (record : Record) : String :=
  String.ofList (((record.content.toList.dropWhile (· ≠ ' ')).drop 1).take size.toNat)

theorem blank_not_mem_label (format : SampleFormat) : ' ' ∉ format.label.toList := by
  cases format <;> decide

theorem headerText_recordWith {size : Int} {text : String} (h : text.length = size.toNat)
    (header : Header) (code : Int) (survey : Survey) :
    headerText size (recordWith text header code survey) = text := by
  have hlabel : ∀ c ∈ (SampleFormat.ofCode code).label.toList, decide (c ≠ ' ') = true :=
    fun c hc => decide_eq_true (ne_of_mem_of_not_mem hc (blank_not_mem_label _))
  have htext : text.toList.length = size.toNat := by rw [String.length_toList, h]
  unfold headerText recordWith
  simp only [String.toList_append, List.append_assoc]
  rw [List.dropWhile_append_of_pos hlabel]
  show String.ofList ((text.toList ++ _).take size.toNat) = text
  rw [← htext, List.take_left, String.ofList_toList]

theorem text_of_headings {config : Config} {tape after : Tape} {found : String × Header}
    (h : headings config tape = (.ok found, after)) :
    ∃ charset bytes, Charset.named? config.charset = some charset ∧
      bytes.length = config.textHeaderSize.toNat ∧
      bytes = tape.unread.take config.textHeaderSize.toNat ∧ found.1 = charset.decode bytes := by
  obtain ⟨_, _, hcheck, h⟩ := Reading.exists_of_bind h
  obtain ⟨-, rfl⟩ := Reading.eq_of_ofExcept hcheck
  obtain ⟨_, _, hrequire, h⟩ := Reading.exists_of_bind h
  obtain ⟨-, rfl⟩ := Reading.eq_of_ofExcept hrequire
  obtain ⟨text, middle, htext, h⟩ := Reading.exists_of_bind h
  obtain ⟨header, last, -, hfound⟩ := Reading.exists_of_bind h
  obtain rfl : (text, header) = found := Except.ok.inj (Prod.mk.inj hfound).1
  obtain ⟨charset, bytes, hcharset, htake, rfl, hstrict⟩ := Reading.exists_of_textBlock htext
  obtain ⟨happend, hle⟩ := Reading.take_append htake
  have hlength : bytes.length = config.textHeaderSize.toNat := by
    have hge := hstrict rfl
    omega
  refine ⟨charset, bytes, hcharset, hlength, ?_, rfl⟩
  rw [← happend, ← hlength, List.take_left]

theorem exists_of_extract {config : Config} {tape after : Tape} {record : Record}
    (h : extract config tape = (.ok record, after)) :
    ∃ found behind code survey, headings config tape = (.ok found, behind) ∧
      record = recordWith found.1 found.2 code survey := by
  rw [extract_eq] at h
  obtain ⟨found, behind, hheadings, h⟩ := Reading.exists_of_bind h
  obtain ⟨code, start, -, h⟩ := Reading.exists_of_bind h
  dsimp only at h
  split at h
  all_goals
    obtain ⟨survey, last, -, hrecord⟩ := Reading.exists_of_bind h
    exact ⟨found, behind, code, survey, hheadings,
      (Except.ok.inj (Prod.mk.inj hrecord).1).symm⟩

theorem headerText_of_extract {config : Config} {tape after : Tape} {record : Record}
    (h : extract config tape = (.ok record, after)) :
    ∃ charset, Charset.named? config.charset = some charset ∧
      headerText config.textHeaderSize record =
        charset.decode (tape.unread.take config.textHeaderSize.toNat) := by
  obtain ⟨found, behind, code, survey, hheadings, rfl⟩ := exists_of_extract h
  obtain ⟨charset, bytes, hcharset, hlength, hbytes, htext⟩ := text_of_headings hheadings
  refine ⟨charset, hcharset, ?_⟩
  rw [headerText_recordWith (by rw [htext, Charset.length_decode, hlength]), htext, hbytes]

end Segy

namespace Charset

open Reading

/-- Decoding never fails and gives one character for each byte, whatever stands beside it. Under
code page 1047 it is a bijection onto the texts over the characters below 256, so the textual header
of a record tells its bytes; under US-ASCII the bytes below 128 are kept and all others look the
same. So a strict block has the length that was asked for, and text that is read to the end in
blocks, whatever their sizes, is the text that is read whole. -/
theorem decode_faithful :
    (∀ (charset : Charset) (a b : Bytes), (charset.decode a).length = a.length ∧
      charset.decode (a ++ b) = charset.decode a ++ charset.decode b) ∧
    Set.BijOn ibm1047.decode Set.univ {text | ∀ c ∈ text.toList, c.toNat < 256} ∧
    (∀ (config : Segy.Config) (tape after : Tape) (record : Record),
      named? config.charset = some .ibm1047 → Segy.extract config tape = (.ok record, after) →
      ibm1047.encode? (Segy.headerText config.textHeaderSize record) =
        some (tape.unread.take config.textHeaderSize.toNat)) ∧
    (∀ bytes : Bytes, (usAscii.decode bytes).toList.map Char.toNat =
      bytes.map fun byte => if byte < 128 then byte.toNat else 0xFFFD) ∧
    (∀ a b : Bytes, usAscii.decode a = usAscii.decode b ↔ a.length = b.length ∧
      ∀ (i : ℕ) (x y : UInt8), a[i]? = some x → b[i]? = some y → x < 128 ∨ y < 128 → x = y) ∧
    (∀ (name : String) (size : Int) (tape after : Tape) (text : String), 0 ≤ size →
      textBlock size name true tape = (.ok text, after) → (text.length : Int) = size) ∧
    ∀ (name : String) (charset : Charset) (tape : Tape), named? name = some charset →
      tape.Flowing → tape.isOpen = true → ∀ blocks : List (Int × Bool),
      (tape.unread.length ≤ blocksSize blocks → (∀ block ∈ blocks, tape.Grants block.1) →
        (∀ block ∈ blocks, block.2 = false) ∨ blocksSize blocks = tape.unread.length →
        ∃ texts, textBlocks blocks name tape = (.ok texts, (textRest name tape).2)) ∧
      ∀ texts after, textBlocks blocks name tape = (.ok texts, after) → after.unread = [] →
        (textRest name tape).1 = .ok (String.join texts) := by
  refine ⟨fun charset a b => ⟨length_decode charset a, decode_append charset a b⟩, bijOn_decode,
    ?_, ?_, ?_, fun name size tape after text hs => length_of_textBlock hs, ?_⟩
  · intro config tape after record hcharset h
    obtain ⟨charset, hnamed, htext⟩ := Segy.headerText_of_extract h
    obtain rfl : ibm1047 = charset := Option.some.inj (hcharset.symm.trans hnamed)
    rw [htext, encode?_decode]
  · intro bytes
    rw [toList_decode, List.map_map]
    exact List.map_congr_left fun byte _ => toNat_decodeByte_usAscii byte
  · intro a b
    simp only [decode_eq_iff, decodeByte_usAscii_eq_iff]
  · intro name charset tape hc ht hopen blocks
    have hrest := textRest_of_flowing hc ht hopen
    refine ⟨fun hle hg hs => ?_, fun texts after h hnil => ?_⟩
    · have hfits : (∀ block ∈ blocks, block.2 = false) ∨
          blocksSize blocks ≤ tape.unread.length := hs.imp_right Nat.le_of_eq
      obtain ⟨texts, htexts⟩ := textBlocks_of_flowing hc ht hg hfits
      refine ⟨texts, ?_⟩
      rw [htexts, hrest, Tape.ahead_of_le hle]
    · obtain ⟨bytes, hbytes, hjoin⟩ := exists_of_textBlocks hc h
      rw [hnil, List.append_nil] at hbytes
      rw [hrest, hjoin, hbytes]

def twoCharacters : Segy.Config where
  textHeaderSize := 2

/-- A letter and the last character in the headers of a stream, and a text of three bytes, of which
US-ASCII does not know the second, in blocks that are not all of a positive size. -/
theorem decode_faithful_twoCharacters :
    let volume := Tape.ofBytes (0xC1 :: 0xFF :: List.replicate 400 0) (some 7) []
    let tape := Tape.ofBytes [0x41, 0xE9, 0x42] (some 2) []
    let blocks : List (Int × Bool) := [(1, true), (-3, true), (2, true)]
    (∃ record, (Segy.extract twoCharacters volume).1 = .ok record ∧
      ibm1047.encode? (Segy.headerText 2 record) = some [0xC1, 0xFF]) ∧
    (∃ text, (textBlock 2 "ascii" true tape).1 = .ok text ∧ (text.length : Int) = 2) ∧
    ∃ texts, textBlocks blocks "ascii" tape = (.ok texts, (textRest "ascii" tape).2) ∧
      (textRest "ascii" tape).1 = .ok (String.join texts) := by
  intro volume tape blocks
  obtain ⟨-, -, hrecord, -, -, hblock, hblocks⟩ := decode_faithful
  have hebcdic : named? twoCharacters.charset = some .ibm1047 := by decide +kernel
  have hascii : named? "ascii" = some .usAscii := by decide +kernel
  have hsteady : tape.Steady := Tape.steady_ofBytes _ (by decide)
  refine ⟨?_, ?_, ?_⟩
  · have hok : (Segy.extract twoCharacters volume).1.toBool = true := by decide +kernel
    cases h : Segy.extract twoCharacters volume with
    | mk answer after =>
        cases answer with
        | error failure =>
            rw [h] at hok
            cases hok
        | ok record => exact ⟨record, rfl, hrecord twoCharacters volume after record hebcdic h⟩
  · have hok : (textBlock 2 "ascii" true tape).1.toBool = true := by decide +kernel
    cases h : textBlock 2 "ascii" true tape with
    | mk answer after =>
        cases answer with
        | error failure =>
            rw [h] at hok
            cases hok
        | ok text => exact ⟨text, rfl, hblock "ascii" 2 tape after text (by decide) h⟩
  · obtain ⟨hall, hjoin⟩ := hblocks "ascii" .usAscii tape hascii hsteady.flowing rfl blocks
    obtain ⟨texts, htexts⟩ :=
      hall (by decide) (fun block _ => hsteady.grants block.1) (.inr (by decide))
    have hnil : (textRest "ascii" tape).2.unread = [] := by
      rw [textRest_of_flowing hascii hsteady.flowing rfl, Tape.unread_ahead, List.drop_length]
    exact ⟨texts, htexts, hjoin texts _ htexts hnil⟩

end Charset

end SeisLog
