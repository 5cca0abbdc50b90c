import SeisLog.Deck
import SeisLog.Proofs.Run
import SeisLog.Proofs.Stages

/-!
# Matching media

A reading and a walk see a medium only through its operations. Media that are matched by a relation
which the operations keep, with the same answers, cannot be told apart by either
(`Request.agree_reading`, `Handling.agree_apply`).
-/

namespace SeisLog

section

variable {σ τ α β : Type} {R : σ → τ → Prop}

/-- On media that match, the answers are the same, and the media stay matched. -/
def Reading.Agree (R : σ → τ → Prop) (first : Reading σ α) (second : Reading τ α) : Prop :=
  ∀ ⦃s : σ⦄ ⦃t : τ⦄, R s t → (first s).1 = (second t).1 ∧ R (first s).2 (second t).2

namespace Reading

theorem agree_pure (answer : α) : Agree R (pure answer) (pure answer) := fun _ _ h => ⟨rfl, h⟩

theorem agree_fail (failure : Failure) :
    Agree R (fail failure : Reading σ α) (fail failure) := fun _ _ h => ⟨rfl, h⟩

theorem agree_ofExcept (answer : Except Failure α) : Agree R (ofExcept answer) (ofExcept answer) :=
  fun _ _ h => ⟨rfl, h⟩

namespace Agree

variable {first : Reading σ α} {second : Reading τ α}

theorem answers (h : Agree R first second) {s : σ} {t : τ} (hst : R s t) :
    ∃ answer after left, first s = (answer, after) ∧ second t = (answer, left) ∧ R after left := by
  obtain ⟨he, hleft⟩ := h hst
  exact ⟨(first s).1, (first s).2, (second t).2, rfl, Prod.ext he.symm rfl, hleft⟩

theorem bind (h : Agree R first second) {next : α → Reading σ β} {other : α → Reading τ β}
    (hn : ∀ answer, Agree R (next answer) (other answer)) :
    Agree R (first >>= next) (second >>= other) := by
  intro s t hst
  obtain ⟨answer, after, left, hs, ht, hleft⟩ := h.answers hst
  cases answer with
  | error failure =>
      rw [bind_of_error next hs, bind_of_error other ht]
      exact ⟨rfl, hleft⟩
  | ok answer =>
      rw [bind_of_ok next hs, bind_of_ok other ht]
      exact hn answer hleft

theorem map (h : Agree R first second) (f : α → β) :
    Agree R (do return f (← first) : Reading σ β) (do return f (← second) : Reading τ β) :=
  h.bind fun answer => agree_pure (f answer)

end Agree

end Reading

/-- Two calls with the same answer, which leave the same walk and media that match. -/
structure Walk.Step.Agree (R : σ → τ → Prop) (first : Step σ) (second : Step τ) : Prop where
  answer : first.answer = second.answer
  walk : first.walk = second.walk
  tape : R first.tape second.tape

structure Run.Agree (R : σ → τ → Prop) (first : Run σ) (second : Run τ) : Prop where
  traces : first.traces = second.traces
  failure? : first.failure? = second.failure?
  walk : first.walk = second.walk
  tape : R first.tape second.tape

namespace Run.Agree

variable {first : Run σ} {second : Run τ}

theorem interruption? (h : first.Agree R second) : first.interruption? = second.interruption? := by
  unfold Run.interruption?
  rw [h.failure?]

theorem summary (h : first.Agree R second) : first.summary = second.summary := by
  rw [Run.summary, Run.summary, h.interruption?, h.traces]

theorem table (h : first.Agree R second) : first.table = second.table := by
  rw [Run.table, Run.table, h.interruption?, h.traces]

end Run.Agree

end

/-- A relation that the operations keep, with the same answers. -/
structure Medium.Matching {σ τ : Type} [Medium σ] [Medium τ] (R : σ → τ → Prop) : Prop where
  take : ∀ size, Reading.Agree R (take size) (take size)
  takeRest : ∀ chunk, Reading.Agree R (takeRest chunk) (takeRest chunk)
  skip : ∀ size chunk, Reading.Agree R (skip size chunk) (skip size chunk)
  close : ∀ {s t}, R s t → R (close s) (close t)

variable {σ τ : Type} [Medium σ] [Medium τ] {R : σ → τ → Prop} (hR : Medium.Matching R) {s : σ}
  {t : τ}

include hR

namespace Reading

theorem agree_textRest (charset : String) : Agree R (textRest charset) (textRest charset) :=
  (agree_ofExcept _).bind fun _ => (hR.takeRest _).map _

theorem agree_textBlock (size : Int) (charset : String) (strict : Bool) :
    Agree R (textBlock size charset strict) (textBlock size charset strict) := by
  refine (agree_ofExcept _).bind fun _ => (hR.take size).bind fun bytes => ?_
  split
  · exact agree_fail _
  · exact agree_pure _

theorem agree_text (charset : String) (size? : Option Int) :
    Agree R (text charset size?) (text charset size?) := by
  cases size? with
  | none => exact agree_textRest hR charset
  | some size => exact agree_textBlock hR size charset true

theorem agree_header (layout : Layout) (charset? : Option String) :
    Agree R (header layout charset?) (header layout charset?) := by
  refine (agree_ofExcept _).bind fun _ => (hR.take _).bind fun block => ?_
  split
  · exact agree_fail _
  · exact agree_ofExcept _

end Reading

namespace Walk

omit hR [Medium σ] [Medium τ] in
theorem agree_fail (h : R s t) (walk : Walk) (cut : TraceCut) :
    (walk.fail cut s).Agree R (walk.fail cut t) := by
  unfold fail
  split
  · exact ⟨rfl, rfl, h⟩
  · exact ⟨rfl, rfl, h⟩

omit hR [Medium σ] [Medium τ] in
theorem agree_ofSamples (h : R s t) (walk : Walk) (header : Header) (size : Nat) (block : Bytes) :
    (walk.ofSamples header size block s).Agree R (walk.ofSamples header size block t) := by
  unfold ofSamples
  dsimp only
  split
  · exact agree_fail h _ _
  · split
    · exact ⟨rfl, rfl, h⟩
    · exact ⟨rfl, rfl, h⟩

theorem agree_readSamples (h : R s t) (walk : Walk) (header : Header) (count : Nat) :
    (walk.readSamples header count s).Agree R (walk.readSamples header count t) := by
  obtain ⟨answer, after, left, hs, ht, hleft⟩ :=
    (hR.take (count * walk.coding.width : Nat)).answers h
  unfold readSamples Reading.take
  dsimp only
  rw [hs, ht]
  cases answer with
  | error failure => exact ⟨rfl, rfl, hleft⟩
  | ok block => exact agree_ofSamples hleft walk header _ block

theorem agree_ofHeader (h : R s t) (walk : Walk) (size : Nat) (block : Bytes) :
    (walk.ofHeader size block s).Agree R (walk.ofHeader size block t) := by
  unfold ofHeader
  dsimp only
  split
  · exact agree_fail h _ _
  · split
    · exact ⟨rfl, rfl, h⟩
    · split
      · exact ⟨rfl, rfl, h⟩
      · exact agree_readSamples hR h _ _ _

theorem agree_next (h : R s t) (walk : Walk) : (walk.next s).Agree R (walk.next t) := by
  obtain ⟨answer, after, left, hs, ht, hleft⟩ := (hR.take walk.decoder.layout.readSize).answers h
  unfold next Reading.take
  dsimp only
  split
  · exact ⟨rfl, rfl, h⟩
  · split
    · exact ⟨rfl, rfl, h⟩
    · rw [hs, ht]
      cases answer with
      | error failure => exact ⟨rfl, rfl, hleft⟩
      | ok block =>
          cases block with
          | nil => exact ⟨rfl, rfl, hleft⟩
          | cons byte block => exact agree_ofHeader hR hleft walk _ _

theorem agree_run (h : R s t) (wanted : Option Nat) (walk : Walk) :
    (walk.run wanted s).Agree R (walk.run wanted t) := by
  induction hn : Medium.left s using Nat.strongRecOn generalizing s t wanted walk with
  | _ n ih =>
      by_cases hw : wanted = some 0
      · rw [hw, run_zero, run_zero]
        exact ⟨rfl, rfl, rfl, h⟩
      · obtain ⟨ha, hwalk, hleft⟩ := agree_next hR h walk
        rw [run_eq hw, run_eq hw]
        dsimp only
        rw [← ha, ← hwalk]
        cases he : (walk.next s).answer with
        | error failure => exact ⟨rfl, rfl, rfl, hleft⟩
        | ok trace? =>
            cases trace? with
            | none => exact ⟨rfl, rfl, rfl, hleft⟩
            | some trace =>
                have hlt := left_lt_of_next he
                have hrest := ih _ (hn ▸ hlt) hleft (wanted.map (· - 1)) (walk.next s).walk rfl
                exact ⟨congrArg (trace :: ·) hrest.traces, hrest.failure?, hrest.walk, hrest.tape⟩

theorem agree_close (h : R s t) (walk : Walk) :
    (walk.close s).1 = (walk.close t).1 ∧ R (walk.close s).2 (walk.close t).2 := by
  refine ⟨rfl, ?_⟩
  unfold Walk.close
  dsimp only
  split
  · exact hR.close h
  · exact h

theorem agree_callsInto (h : R s t) (done : List (Option Trace)) (count : Nat) (walk : Walk) :
    let first := walk.callsInto done count s
    let second := walk.callsInto done count t
    first.1 = second.1 ∧ first.2.1 = second.2.1 ∧ first.2.2.1 = second.2.2.1 ∧
      R first.2.2.2 second.2.2.2 := by
  induction count generalizing s t done walk with
  | zero => exact ⟨rfl, rfl, rfl, h⟩
  | succ count ih =>
      obtain ⟨ha, hwalk, hleft⟩ := agree_next hR h walk
      unfold callsInto
      dsimp only
      rw [← ha, ← hwalk]
      cases (walk.next s).answer with
      | error failure => exact ⟨rfl, rfl, rfl, hleft⟩
      | ok trace? => exact ih hleft (trace? :: done) (walk.next s).walk

theorem agree_within (h : R s t) (count : Nat) (walk : Walk) :
    let first := walk.within count s
    let second := walk.within count t
    first.1 = second.1 ∧ first.2.1 = second.2.1 ∧ first.2.2.1 = second.2.2.1 ∧
      R first.2.2.2 second.2.2.2 := by
  obtain ⟨htraces, hfailure, hwalk, hleft⟩ := agree_callsInto hR h [] count walk
  obtain ⟨hclosed, hrest⟩ := agree_close hR hleft (walk.callsInto [] count s).2.2.1
  unfold within
  dsimp only
  rw [← hwalk]
  exact ⟨htraces, hfailure, hclosed, hrest⟩

end Walk

namespace Reading

theorem agree_summary (layout : Layout) (options : Walk.Options) :
    Agree R (summary layout options) (summary layout options) := by
  intro s t h
  unfold summary
  cases Walk.start layout options with
  | error failure => exact ⟨rfl, h⟩
  | ok walk =>
      have hrun := Walk.agree_run hR h none walk
      dsimp only
      rw [Walk.summarize_eq, Walk.summarize_eq, hrun.summary, hrun.walk]
      exact ⟨rfl, (Walk.agree_close hR hrun.tape _).2⟩

theorem agree_overview (layout traceLayout : Layout) (charset? : Option String)
    (options : Walk.Options) :
    Agree R (overview layout traceLayout charset? options)
      (overview layout traceLayout charset? options) :=
  (agree_header hR layout charset?).bind fun _ => (agree_summary hR traceLayout options).map _

end Reading

namespace Segy

open Reading

theorem agree_binaryHeader (config : Config) :
    Agree R (binaryHeader config) (binaryHeader config) := by
  unfold binaryHeader
  split
  · exact agree_header hR _ _
  · exact (agree_header hR _ _).bind fun _ => (agree_ofExcept _).map _

theorem agree_walkRegion (config : Config) (header : Header) (format : SampleFormat) :
    Agree R (walkRegion config header format) (walkRegion config header format) := by
  unfold walkRegion
  refine (agree_ofExcept _).bind fun flag => (agree_ofExcept _).bind fun count => ?_
  exact (agree_summary hR _ _).map _

theorem agree_survey (config : Config) (header : Header) (format : SampleFormat) :
    Agree R (survey config header format) (survey config header format) := by
  unfold survey
  split
  · exact agree_pure _
  · refine (agree_ofExcept _).bind fun extended => ?_
    split
    · exact agree_pure _
    · refine Agree.bind (hR.skip _ _) fun passed => ?_
      split
      · split
        · exact agree_pure _
        · exact agree_fail _
      · exact agree_walkRegion hR config header format

theorem agree_extract (config : Config) : Agree R (extract config) (extract config) := by
  unfold extract
  refine (agree_ofExcept _).bind fun _ => (agree_ofExcept _).bind fun _ => ?_
  refine (agree_text hR _ _).bind fun text => (agree_binaryHeader hR config).bind fun header => ?_
  refine (agree_ofExcept _).bind fun code => ?_
  dsimp only
  split
  · exact (agree_survey hR config header _).map _
  · exact (agree_pure _).map _

end Segy

theorem Las.agree_extract (config : Las.Config) :
    Reading.Agree R (Las.extract config) (Las.extract config) := by
  unfold Las.extract
  refine (Reading.agree_text hR _ _).bind fun text => ?_
  exact (Reading.agree_ofExcept _).map _

theorem Request.agree_reading (request : Request) :
    Reading.Agree R request.reading request.reading := by
  cases request with
  | bytes size => exact Reading.Agree.map (hR.take size) _
  | rest chunk => exact Reading.Agree.map (hR.takeRest chunk) _
  | skip size chunk => exact Reading.Agree.map (hR.skip size chunk) _
  | textRest charset => exact (Reading.agree_textRest hR charset).map _
  | textBlock size charset strict => exact (Reading.agree_textBlock hR size charset strict).map _
  | header layout charset? => exact (Reading.agree_header hR layout charset?).map _
  | summary layout options => exact (Reading.agree_summary hR layout options).map _
  | overview layout traceLayout charset? options =>
      exact (Reading.agree_overview hR layout traceLayout charset? options).map _
  | segy config => exact (Segy.agree_extract hR config).map _
  | las config => exact (Las.agree_extract hR config).map _

theorem Handling.agree_apply (h : R s t) (handling : Handling) (walk : Walk) :
    let first := handling.apply walk s
    let second := handling.apply walk t
    first.1 = second.1 ∧ first.2.1 = second.2.1 ∧ R first.2.2 second.2.2 := by
  cases handling with
  | next =>
      have hstep := Walk.agree_next hR h walk
      unfold apply
      dsimp only
      rw [hstep.answer]
      exact ⟨rfl, hstep.walk, hstep.tape⟩
  | iterate wanted =>
      have hrun := Walk.agree_run hR h wanted walk
      unfold apply
      dsimp only
      rw [hrun.traces, hrun.failure?]
      exact ⟨rfl, hrun.walk, hrun.tape⟩
  | within calls =>
      obtain ⟨htraces, hfailure, hwalk, hleft⟩ := Walk.agree_within hR h calls walk
      unfold apply
      dsimp only
      rw [htraces, hfailure]
      exact ⟨rfl, hwalk, hleft⟩
  | close =>
      obtain ⟨hwalk, hleft⟩ := Walk.agree_close hR h walk
      exact ⟨rfl, hwalk, hleft⟩
  | summarize =>
      have hrun := Walk.agree_run hR h none walk
      unfold apply
      dsimp only
      rw [Walk.summarize_eq, Walk.summarize_eq, hrun.summary]
      exact ⟨rfl, hrun.walk, hrun.tape⟩
  | tabulate limit =>
      have hrun := Walk.agree_run hR h (limit.map Int.toNat) walk
      unfold apply
      dsimp only
      rw [Walk.tabulate_eq, Walk.tabulate_eq, hrun.table]
      exact ⟨rfl, hrun.walk, hrun.tape⟩

end SeisLog
