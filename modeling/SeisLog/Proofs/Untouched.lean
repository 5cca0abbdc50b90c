import SeisLog.Deck
import SeisLog.Proofs.Call
import SeisLog.Proofs.Deck
import SeisLog.Proofs.Region.RoundTrip
import SeisLog.Proofs.Run
import SeisLog.Proofs.Stages

/-!
# What an unknown character set leaves behind

A character set is looked up before the first byte is read, so a reading that wants it in vain
leaves the tape as it found it, its stalls included. One reading looks twice: an overview reads its
header before it looks for the character set of its traces (`reading_charset`).
-/

namespace SeisLog

def Failure.isCharset : Failure → Bool
  | .charset _ => true
  | _ => false

theorem Failure.isCharset_told (cut : HeaderCut) :
    (Failure.header cut).told.isCharset = false := by
  unfold told
  split <;> rfl

theorem Decoder.isCharset_of_decode {decoder : Decoder} {block : Bytes} {failure : Failure}
    (h : decoder.decode block = .error failure) : failure.isCharset = false := by
  obtain ⟨-, rfl⟩ := decode_eq_error_iff.mp h
  exact Failure.isCharset_told _

namespace Reading

variable {α β : Type}

/-- The reading never fails for want of a character set. -/
def Unconcerned (reading : Reading Tape α) : Prop :=
  ∀ tape failure, (reading tape).1 = .error failure → failure.isCharset = false

/-- If the reading fails for want of a character set, it has left the tape alone. -/
def LooksFirst (reading : Reading Tape α) : Prop :=
  ∀ tape name, (reading tape).1 = .error (.charset name) → (reading tape).2 = tape

theorem Unconcerned.looksFirst {reading : Reading Tape α} (h : reading.Unconcerned) :
    reading.LooksFirst := by
  intro tape name hf
  cases h tape _ hf

theorem unconcerned_pure (answer : α) : Unconcerned (pure answer : Reading Tape α) := by
  intro tape failure h
  cases h

theorem unconcerned_fail {failure : Failure} (h : failure.isCharset = false) :
    Unconcerned (fail failure : Reading Tape α) := by
  intro tape other ho
  cases ho
  exact h

theorem unconcerned_ofExcept {answer : Except Failure α}
    (h : ∀ failure, answer = .error failure → failure.isCharset = false) :
    Unconcerned (ofExcept answer) := fun _ failure hf => h failure hf

theorem Unconcerned.bind {reading : Reading Tape α} {next : α → Reading Tape β}
    (h : reading.Unconcerned) (hn : ∀ answer, (next answer).Unconcerned) : (reading >>= next).Unconcerned := by
  intro tape failure hf
  cases hr : reading tape with
  | mk answer after =>
      cases answer with
      | error other =>
          rw [bind_of_error next hr] at hf
          cases hf
          exact h tape failure (by rw [hr])
      | ok answer =>
          rw [bind_of_ok next hr] at hf
          exact hn answer after failure hf

theorem Unconcerned.map {reading : Reading Tape α} (h : reading.Unconcerned) (f : α → β) :
    (do return f (← reading) : Reading Tape β).Unconcerned :=
  h.bind fun _ => unconcerned_pure _

/-- What is read after the look may do anything but look again. -/
theorem LooksFirst.bind {reading : Reading Tape α} {next : α → Reading Tape β}
    (h : reading.LooksFirst) (hn : ∀ answer, (next answer).Unconcerned) : (reading >>= next).LooksFirst := by
  intro tape name hf
  cases hr : reading tape with
  | mk answer after =>
      cases answer with
      | error failure =>
          rw [bind_of_error next hr] at hf ⊢
          cases hf
          have ht := h tape name (by rw [hr])
          rwa [hr] at ht
      | ok answer =>
          rw [bind_of_ok next hr] at hf
          cases hn answer after _ hf

theorem error_of_map {reading : Reading Tape α} {f : α → β} {tape after : Tape} {failure : Failure}
    (h : (do return f (← reading) : Reading Tape β) tape = (.error failure, after)) :
    reading tape = (.error failure, after) := by
  cases hr : reading tape with
  | mk answer last =>
      cases answer with
      | ok found =>
          rw [bind_of_ok _ hr] at h
          cases h
      | error other =>
          rw [bind_of_error _ hr] at h
          cases h
          rfl

theorem LooksFirst.map {reading : Reading Tape α} (h : reading.LooksFirst) (f : α → β) :
    (do return f (← reading) : Reading Tape β).LooksFirst :=
  h.bind fun _ => unconcerned_pure _

theorem looksFirst_check {check : Except Failure α} {next : α → Reading Tape β}
    (hn : ∀ answer, check = .ok answer → (next answer).LooksFirst) :
    (ofExcept check >>= next).LooksFirst := by
  intro tape name hf
  cases hc : check with
  | error failure => rfl
  | ok answer =>
      have hb : (ofExcept (.ok answer) >>= next) tape = next answer tape := rfl
      rw [hc, hb] at hf
      rw [hb]
      exact hn answer hc tape name hf

theorem unconcerned_ofStep (size : Nat) (step : Tape → α × Tape) :
    (ofStep size step).Unconcerned := by
  intro tape failure h
  unfold ofStep refusal? at h
  cases ha : tape.access with
  | closed =>
      rw [ha] at h
      cases h
      rfl
  | file =>
      rw [ha] at h
      by_cases hs : Tape.fileCeiling < size
      · simp only [if_pos hs] at h
        cases h
        rfl
      · simp only [if_neg hs] at h
        cases h
  | stream =>
      rw [ha] at h
      cases h

theorem unconcerned_take (size : Int) : (take size).Unconcerned := by
  rw [take_tape]
  split
  · exact unconcerned_pure _
  · exact unconcerned_ofStep _ _

theorem unconcerned_takeRest (chunk : Nat) : (takeRest chunk).Unconcerned :=
  unconcerned_ofStep _ _

theorem unconcerned_skip (size : Int) (chunk : Nat) : (skip size chunk).Unconcerned := by
  rw [skip_tape]
  split
  · exact unconcerned_pure _
  · exact unconcerned_ofStep _ _

theorem looksFirst_textRest (charset : String) : (textRest charset).LooksFirst :=
  looksFirst_check fun _ _ => ((unconcerned_takeRest _).map _).looksFirst

theorem looksFirst_textBlock (size : Int) (charset : String) (strict : Bool) :
    (textBlock size charset strict).LooksFirst := by
  refine looksFirst_check fun found _ => Unconcerned.looksFirst ?_
  refine (unconcerned_take size).bind fun bytes => ?_
  split
  · exact unconcerned_fail (Failure.isCharset_told _)
  · exact unconcerned_pure _

theorem looksFirst_text (charset : String) (size? : Option Int) :
    (text charset size?).LooksFirst := by
  cases size? with
  | none => exact looksFirst_textRest charset
  | some size => exact looksFirst_textBlock size charset true

/-- Once its decoder is made, a header is read or it is cut. -/
theorem unconcerned_header {layout : Layout} {charset? : Option String}
    (h : ∀ failure, Decoder.make layout charset? = .error failure → failure.isCharset = false) :
    (header layout charset?).Unconcerned := by
  refine (unconcerned_ofExcept h).bind fun decoder => ?_
  refine (unconcerned_take _).bind fun block => ?_
  split
  · exact unconcerned_fail (Failure.isCharset_told _)
  · exact unconcerned_ofExcept fun _ hf => Decoder.isCharset_of_decode hf

theorem looksFirst_header (layout : Layout) (charset? : Option String) :
    (header layout charset?).LooksFirst := by
  cases hd : Decoder.make layout charset? with
  | error failure =>
      intro tape name hf
      rw [header, hd]
      rfl
  | ok decoder =>
      refine Unconcerned.looksFirst (unconcerned_header ?_)
      intro failure hf
      rw [hd] at hf
      cases hf

end Reading

namespace Walk

variable {walk : Walk} {tape : Tape} {failure : Failure}

/-- A walk looks for its character set when it starts, and never again. -/
theorem isCharset_of_next (h : (walk.next tape).answer = .error failure) :
    failure.isCharset = false := by
  cases ofCall_of_next h <;> rfl

theorem isCharset_of_run {wanted : Option Nat}
    (h : (walk.run wanted tape).failure? = some failure) : failure.isCharset = false := by
  induction wanted, walk, tape using run_induct with
  | stopped => cases h
  | failed wanted walk tape other hw ha =>
      cases h
      exact isCharset_of_next ha
  | ended => cases h
  | yielded wanted walk tape trace hw ha rest ih => exact ih h

/-- A walk looks for its character set last, when nothing else keeps it from starting. -/
theorem isCharset_of_start {layout : Layout} {options : Options}
    (hm : ∀ other, Decoder.make layout options.charset = .error other → other.isCharset = false)
    (h : start layout options = .error failure) : failure.isCharset = false := by
  unfold start at h
  cases hc : options.format.coding? with
  | none =>
      rw [hc] at h
      cases h
      rfl
  | some coding =>
      -- whichever check comes first is the one that fails; only the last can miss a charset
      cases hd : Decoder.make layout options.charset <;>
        cases hn : options.cap.any (· < 0) <;> cases hf : options.fixed <;>
        by_cases hk : layout.contains options.countField = true <;>
        simp [hc, hd, hn, hf, hk, bind, Except.bind, pure, Except.pure, throw, throwThe,
          MonadExceptOf.throw] at h <;>
        subst h <;> first | exact hm _ hd | rfl

end Walk

namespace Reading

theorem unconcerned_summary {layout : Layout} {options : Walk.Options}
    (h : ∀ failure, Walk.start layout options = .error failure → failure.isCharset = false) :
    (summary layout options).Unconcerned := by
  intro tape failure hf
  unfold summary at hf
  cases hs : Walk.start layout options with
  | error other =>
      rw [hs] at hf
      cases hf
      exact h failure hs
  | ok walk =>
      simp only [hs, Walk.summarize_eq, Run.summary, Run.interruption?] at hf
      cases hr : (walk.run none tape).failure? with
      | none =>
          rw [hr] at hf
          cases hf
      | some other =>
          rw [hr] at hf
          cases other with
          | trace cut => cases hf
          | _ =>
            cases hf
            exact Walk.isCharset_of_run hr

/-- A region is not touched where its walk lacks a character set. -/
theorem summary_charset {layout : Layout} {options : Walk.Options} {tape after : Tape}
    {name : String} (h : summary layout options tape = (.error (.charset name), after)) :
    Walk.start layout options = .error (.charset name) ∧ after = tape := by
  cases hs : Walk.start layout options with
  | error failure =>
      rw [summary, hs] at h
      cases h
      exact ⟨rfl, rfl⟩
  | ok walk =>
      have hu : (summary layout options).Unconcerned := by
        refine unconcerned_summary fun failure hf => ?_
        rw [hs] at hf
        cases hf
      cases hu tape _ (congrArg Prod.fst h)

theorem looksFirst_summary (layout : Layout) (options : Walk.Options) :
    (summary layout options).LooksFirst :=
  fun _ _ h => (summary_charset (Prod.ext h rfl)).2

end Reading

namespace Segy

open Reading

theorem isCharset_of_integerAt {header : Header} {name : String} {failure : Failure}
    (h : integerAt header name = .error failure) : failure.isCharset = false := by
  unfold integerAt at h
  cases hn : ((header.get? name).getD (.integer 0)).toInteger with
  | error fault =>
      rw [hn] at h
      cases h
      rfl
  | ok number =>
      rw [hn] at h
      cases h

theorem unconcerned_integerAt (header : Header) (name : String) :
    (ofExcept (integerAt header name)).Unconcerned :=
  unconcerned_ofExcept fun _ => isCharset_of_integerAt

section

variable {config : Config} {charset : Charset}
  (hc : Charset.named? config.charset = some charset)

include hc

theorem isCharset_of_make {layout : Layout} {failure : Failure}
    (h : Decoder.make layout (some config.charset) = .error failure) :
    failure.isCharset = false := by
  rw [Decoder.make_of_named hc] at h
  cases h

theorem unconcerned_binaryHeader : (binaryHeader config).Unconcerned := by
  unfold binaryHeader
  split
  · exact unconcerned_header fun _ => isCharset_of_make hc
  · refine (unconcerned_header fun _ => isCharset_of_make hc).bind fun header => ?_
    exact (unconcerned_integerAt _ _).map _

theorem unconcerned_walkRegion (header : Header) (format : SampleFormat) :
    (walkRegion config header format).Unconcerned := by
  unfold walkRegion
  refine (unconcerned_integerAt _ _).bind fun flag => ?_
  refine (unconcerned_integerAt _ _).bind fun count => ?_
  refine (unconcerned_summary ?_).map _
  intro failure hs
  refine Walk.isCharset_of_start ?_ hs
  intro other hmake
  exact isCharset_of_make hc hmake

theorem unconcerned_survey (header : Header) (format : SampleFormat) :
    (survey config header format).Unconcerned := by
  unfold survey
  split
  · exact unconcerned_pure _
  · refine (unconcerned_integerAt _ _).bind fun extended => ?_
    split
    · exact unconcerned_pure _
    · refine (unconcerned_skip _ _).bind fun passed => ?_
      split
      · split
        · exact unconcerned_pure _
        · exact unconcerned_fail rfl
      · exact unconcerned_walkRegion hc header format

end

theorem looksFirst_extract (config : Config) : (extract config).LooksFirst := by
  unfold extract
  refine looksFirst_check fun _ _ => looksFirst_check fun charset hr => ?_
  have hc : Charset.named? config.charset = some charset := by
    unfold Charset.require at hr
    split at hr
    · rename_i found hn
      cases hr
      exact hn
    · cases hr
  refine (looksFirst_text _ _).bind fun text => ?_
  refine (unconcerned_binaryHeader hc).bind fun header => ?_
  refine (unconcerned_integerAt _ _).bind fun code => ?_
  dsimp only
  split
  · exact (unconcerned_survey hc header _).map _
  · exact (unconcerned_pure _).map _

end Segy

theorem Las.looksFirst_extract (config : Las.Config) : (Las.extract config).LooksFirst := by
  unfold Las.extract
  refine (Reading.looksFirst_text _ _).bind fun text => ?_
  refine (Reading.unconcerned_ofExcept ?_).map _
  intro failure hf
  unfold Las.select at hf
  split at hf
  · cases hf
  · cases hs : Las.Selection.ofText text config.sections with
    | error fault =>
        rw [hs] at hf
        cases hf
        rfl
    | ok selection =>
        rw [hs] at hf
        cases hf

namespace Reading

theorem position_header {layout : Layout} {charset? : Option String} {tape after : Tape}
    {found : Header} (h : header layout charset? tape = (.ok found, after)) :
    after.position = tape.position + layout.readSize.toNat := by
  unfold header at h
  cases hd : Decoder.make layout charset? with
  | error failure =>
      rw [hd] at h
      cases h
  | ok decoder =>
      rw [bind_of_ok _ (ofExcept_of_eq hd tape)] at h
      cases ht : take layout.readSize tape with
      | mk answer last =>
          cases answer with
          | error failure =>
              rw [bind_of_error _ ht] at h
              cases h
          | ok block =>
              rw [bind_of_ok _ ht] at h
              obtain ⟨-, hle⟩ := take_append ht
              have hp := position_take ht
              by_cases hs : (block.length : Int) < layout.readSize
              · rw [if_pos hs] at h
                cases h
              · rw [if_neg hs] at h
                obtain rfl : last = after := (Prod.mk.inj h).2
                omega

/-- An overview looks for the character set of its traces behind the header. -/
theorem overview_charset {layout traceLayout : Layout} {charset? : Option String}
    {options : Walk.Options} {tape after : Tape} {name : String}
    (h : overview layout traceLayout charset? options tape = (.error (.charset name), after)) :
    after = tape ∨ ∃ found, header layout charset? tape = (.ok found, after) ∧
      Walk.start traceLayout options = .error (.charset name) := by
  unfold overview at h
  cases hh : header layout charset? tape with
  | mk answer middle =>
      cases answer with
      | error failure =>
          rw [bind_of_error _ hh] at h
          cases h
          have ht := looksFirst_header layout charset? tape name (by rw [hh])
          rw [hh] at ht
          exact .inl ht
      | ok found =>
          rw [bind_of_ok _ hh] at h
          cases hs : summary traceLayout options middle with
          | mk answer last =>
              cases answer with
              | ok summary =>
                  rw [bind_of_ok _ hs] at h
                  cases h
              | error failure =>
                  rw [bind_of_error _ hs] at h
                  cases h
                  obtain ⟨hstart, rfl⟩ := summary_charset hs
                  exact .inr ⟨found, rfl, hstart⟩

theorem overview_of_header {layout traceLayout : Layout} {charset? : Option String}
    {options : Walk.Options} {tape after : Tape} {found : Header} {failure : Failure}
    (hh : header layout charset? tape = (.ok found, after))
    (hs : Walk.start traceLayout options = .error failure) :
    overview layout traceLayout charset? options tape = (.error failure, after) := by
  have hsummary : summary traceLayout options after = (.error failure, after) := by
    rw [summary, hs]
  rw [overview, bind_of_ok _ hh, bind_of_error _ hsummary]

end Reading

namespace Request

/-- All requests but an overview look for their character set before they read. -/
theorem looksFirst_reading (request : Request)
    (h : ∀ layout traceLayout charset? options,
      request ≠ .overview layout traceLayout charset? options) : request.reading.LooksFirst := by
  cases request with
  | bytes size => exact ((Reading.unconcerned_take size).map _).looksFirst
  | rest chunk => exact ((Reading.unconcerned_takeRest chunk).map _).looksFirst
  | skip size chunk => exact ((Reading.unconcerned_skip size chunk).map _).looksFirst
  | textRest charset => exact (Reading.looksFirst_textRest charset).map _
  | textBlock size charset strict => exact (Reading.looksFirst_textBlock size charset strict).map _
  | header layout charset? => exact (Reading.looksFirst_header layout charset?).map _
  | summary layout options => exact (Reading.looksFirst_summary layout options).map _
  | overview layout traceLayout charset? options => exact (h _ _ _ _ rfl).elim
  | segy config => exact (Segy.looksFirst_extract config).map _
  | las config => exact (Las.looksFirst_extract config).map _

/-- A request that wants a character set in vain leaves the tape as it was, stalls and all, unless
it is an overview: one whose header was read, and whose traces want the character set, leaves the
tape right behind the header. -/
theorem reading_charset {request : Request} {tape after : Tape} {name : String}
    (h : request.reading tape = (.error (.charset name), after)) :
    after = tape ∨
      ∃ layout traceLayout charset? options found,
        request = .overview layout traceLayout charset? options ∧
        Reading.header layout charset? tape = (.ok found, after) ∧
        Walk.start traceLayout options = .error (.charset name) ∧
        after.position = tape.position + layout.readSize.toNat := by
  by_cases ho : ∃ layout traceLayout charset? options,
      request = .overview layout traceLayout charset? options
  · obtain ⟨layout, traceLayout, charset?, options, rfl⟩ := ho
    have hread : Reading.overview layout traceLayout charset? options tape =
        (.error (.charset name), after) := Reading.error_of_map h
    rcases Reading.overview_charset hread with ht | ⟨found, hheader, hstart⟩
    · exact .inl ht
    · exact .inr ⟨layout, traceLayout, charset?, options, found, rfl, hheader, hstart,
        Reading.position_header hheader⟩
  · refine .inl ?_
    have hlooks := request.looksFirst_reading fun _ _ _ _ he =>
      ho ⟨_, _, _, _, he⟩
    have ht := hlooks tape name (by rw [h])
    rwa [h] at ht

/-- A stall in front of the first byte is not used up by a character set that is not there. -/
theorem reading_charset_stalled :
    let tape := Tape.ofBytes [67, 49] (some 1) [0]
    let left := ((Request.segy { charset := "utf-8" }).reading tape).2
    (Request.segy { charset := "utf-8" }).reading tape = (.error (.charset "utf-8"), left) ∧
      left = tape ∧ left.stalls = [0] := by
  intro tape left
  have hread : (Request.segy { charset := "utf-8" }).reading tape =
      (.error (.charset "utf-8"), left) := rfl
  rcases reading_charset hread with ht | ⟨_, _, _, _, _, he, -⟩
  · exact ⟨hread, ht, by rw [ht]; rfl⟩
  · cases he

/-- Traces with text behind a header of one number: the header is lost to the failure. -/
theorem reading_charset_of_overview :
    let tape := Tape.ofBytes [0, 1] none []
    let options : Walk.Options := { countField := "count", charset := some "utf-8" }
    let request := Request.overview Deck.countOnly Walk.countAndText (some "utf-8") options
    request.reading tape = (.error (.charset "utf-8"), tape.ahead 2) ∧
      (tape.ahead 2).position = 2 ∧ tape.position = 0 := by
  intro tape options request
  have hheader := Reading.header_of_reach (show tape.limit ≠ some 0 by decide)
    (show Decoder.make Deck.countOnly (some "utf-8") = .ok ⟨Deck.countOnly, .usAscii⟩ by rfl)
    (by decide) (show Deck.countOnly.readSize.toNat ≤ tape.reach by decide)
  have hcharset : Charset.named? "utf-8" = none := by decide +kernel
  have hstart : Walk.start Walk.countAndText options = .error (.charset "utf-8") := by
    have hmake : Decoder.make Walk.countAndText (some "utf-8") = .error (.charset "utf-8") := by
      have htext : Walk.countAndText.hasText = true := by decide
      rw [Decoder.make, if_pos htext, Charset.require, hcharset]
      rfl
    have hcount : Walk.countAndText.contains "count" = true := by decide
    simp only [Walk.start, options, SampleFormat.coding?, hcount, if_true, hmake]
    rfl
  have hoverview := Reading.overview_of_header hheader hstart
  exact ⟨Reading.bind_of_error _ hoverview, rfl, rfl⟩

end Request

end SeisLog
