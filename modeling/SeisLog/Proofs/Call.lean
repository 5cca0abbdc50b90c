import SeisLog.Proofs.Region.Start

/-!
# What one call does

On any tape, also a stalled or a closed one, a call of a walk does one of five things
(`next_does`). It counts the bytes that it took from the tape, also those of a trace that it could
not finish. A header block that came whole is never what it fails for (`ofCall_of_next`).
-/

namespace SeisLog

namespace Tape

theorem position_pull (size : Nat) (tape : Tape) :
    (tape.pull size).2.position = tape.position + (tape.pull size).1.length := by
  unfold pull
  split
  · rfl
  · split <;> rfl

theorem position_gather (size : Nat) (tape : Tape) :
    (tape.gather size).2.position = tape.position + (tape.gather size).1.length := by
  induction size, tape using gather_induct with
  | done => rfl
  | dry size tape hs hp =>
      have hposition := position_pull size tape
      rwa [hp] at hposition
  | more size tape hs hp rest ih => rw [ih, position_pull, List.length_append, Nat.add_assoc]

end Tape

def Failure.cut? : Failure → Option TraceCut
  | .trace cut => some cut
  | _ => none

theorem Failure.cut?_eq_some {failure : Failure} {cut : TraceCut} :
    failure.cut? = some cut ↔ failure = .trace cut := by
  cases failure <;> simp [cut?]

theorem Failure.cut?_told_header (cut : HeaderCut) : (Failure.header cut).told.cut? = none := by
  rw [told_header]
  split <;> rfl

theorem Reading.position_take {size : Int} {tape after : Tape} {bytes : Bytes}
    (h : take size tape = (.ok bytes, after)) :
    after.position = tape.position + bytes.length := by
  rw [take_tape] at h
  split at h
  · obtain ⟨hb, rfl⟩ := Prod.mk.inj h
    obtain rfl : [] = bytes := by simpa using hb
    rfl
  · unfold ofStep at h
    split at h
    · simp at h
    · obtain ⟨hb, rfl⟩ := Prod.mk.inj h
      obtain rfl : _ = bytes := by simpa using hb
      exact Tape.position_gather _ _

theorem Reading.refusal_of_take {size : Int} {tape : Tape} {failure : Failure}
    (h : (take size tape).1 = .error failure) :
    failure = .closed ∨ ∃ asked, failure = .request asked := by
  rw [take_tape] at h
  split at h
  · cases h
  · unfold ofStep at h
    split at h
    · rename_i refused hr
      obtain rfl : refused = failure := by simpa using h
      exact kind_of_refusal hr
    · cases h

/-- The failures of a call: the walk ends at a cut, the tape refuses a request, or a number cannot
be told. -/
inductive Failure.OfCall : Failure → Prop
  | trace (cut : TraceCut) : OfCall (.trace cut)
  | integer (fault : Value.IntegerFault) : OfCall (.integer fault)
  | closed : OfCall .closed
  | request (size : Nat) : OfCall (.request size)

theorem Reading.ofCall_of_take {size : Int} {tape : Tape} {failure : Failure}
    (h : (take size tape).1 = .error failure) : failure.OfCall := by
  obtain rfl | ⟨asked, rfl⟩ := refusal_of_take h
  · exact .closed
  · exact .request asked

theorem Reading.take_error {size : Int} {tape after : Tape} {failure : Failure}
    (h : take size tape = (.error failure, after)) : after = tape ∧ failure.cut? = none := by
  refine ⟨?_, ?_⟩
  · rw [take_tape] at h
    split at h
    · cases h
    · unfold ofStep at h
      split at h
      · cases h
        rfl
      · cases h
  · obtain rfl | ⟨asked, rfl⟩ := refusal_of_take (congrArg Prod.fst h) <;> rfl

theorem Decoder.cut?_of_decode {decoder : Decoder} {block : Bytes} {failure : Failure}
    (h : decoder.decode block = .error failure) : failure.cut? = none := by
  obtain ⟨-, rfl⟩ := decode_eq_error_iff.mp h
  exact Failure.cut?_told_header _

namespace Walk

/-- What a call of a walk that takes `read` bytes can answer and leave behind. -/
inductive Does (walk : Walk) : Nat → Except Failure (Option Trace) → Walk → Prop
  | ended : walk.isOver = true → Does walk 0 (.ok none) walk
  | finished : walk.isOver = false → Does walk 0 (.ok none) walk.finish
  | yielded {read : Nat} (header : Header) (samples : List Binary64) :
      walk.isOver = false → walk.atCap = false → 0 < read →
      Does walk read (.ok (some ⟨walk.traces, header, samples, (walk.consumed + read : Nat)⟩))
        { walk with
          phase := .active
          traces := walk.traces + 1
          consumed := walk.consumed + read }
  | cut {read : Nat} (cut : TraceCut) :
      walk.isOver = false → cut.index = walk.traces → cut.consumed = walk.consumed + read →
      Does walk read (.error (.trace cut))
        { walk with phase := .failed, error := some cut, consumed := walk.consumed + read }
  | refused {read : Nat} (failure : Failure) :
      walk.isOver = false → failure.cut? = none →
      Does walk read (.error failure) { walk with consumed := walk.consumed + read }

variable {walk : Walk} {tape : Tape}

/-- A failing call ends at a cut, or it cannot tell the cut. -/
theorem fail_does (ho : walk.isOver = false) (read : Nat) {cut : TraceCut}
    (hi : cut.index = walk.traces) (hc : cut.consumed = walk.consumed + read) (tape : Tape) :
    let step := { walk with consumed := walk.consumed + read }.fail cut tape
    walk.Does read step.answer step.walk := by
  unfold fail
  dsimp only
  cases (Failure.trace cut).isTellable with
  | true => exact .cut cut ho hi hc
  | false => exact .refused .unprintable ho rfl

theorem readSamples_does (ho : walk.isOver = false) (hc : walk.atCap = false) {read : Nat}
    (hr : 0 < read) (header : Header) (count : Nat) (tape : Tape) :
    let step := { walk with consumed := walk.consumed + read }.readSamples header count tape
    ∃ more, step.tape.position = tape.position + more ∧
      walk.Does (read + more) step.answer step.walk := by
  unfold readSamples
  dsimp only
  split
  · rename_i failure after h
    obtain ⟨rfl, hf⟩ := Reading.take_error h
    exact ⟨0, rfl, .refused failure ho hf⟩
  · rename_i block after h
    refine ⟨block.length, ?_, ?_⟩
    · rw [tape_ofSamples]
      exact Reading.position_take h
    · unfold ofSamples
      dsimp only [advance]
      rw [Nat.add_assoc]
      split
      · exact fail_does ho _ rfl rfl after
      · split
        · exact .refused _ ho rfl
        · exact .yielded header _ ho hc (by omega)

theorem ofHeader_does (ho : walk.isOver = false) (hc : walk.atCap = false) {block : Bytes}
    (hb : 0 < block.length) (size : Nat) (tape : Tape) :
    let step := walk.ofHeader size block tape
    ∃ more, step.tape.position = tape.position + more ∧
      walk.Does (block.length + more) step.answer step.walk := by
  unfold ofHeader
  dsimp only [advance]
  split
  · exact ⟨0, by rw [tape_fail]; rfl, fail_does ho _ rfl rfl tape⟩
  · split
    · rename_i failure h
      exact ⟨0, rfl, .refused failure ho (Decoder.cut?_of_decode h)⟩
    · rename_i header h
      split
      · rename_i fault hf
        exact ⟨0, rfl, .refused (.integer fault) ho rfl⟩
      · rename_i count hn
        exact readSamples_does ho hc hb header count tape

/-- Whatever the tape holds, a call does one of five things, and it counts what it reads. -/
theorem next_does (walk : Walk) (tape : Tape) :
    ∃ read, (walk.next tape).tape.position = tape.position + read ∧
      walk.Does read (walk.next tape).answer (walk.next tape).walk := by
  unfold next
  cases ho : walk.isOver with
  | true => exact ⟨0, rfl, .ended ho⟩
  | false =>
      simp only [Bool.false_eq_true, if_false]
      cases hc : walk.atCap with
      | true => exact ⟨0, rfl, .finished ho⟩
      | false =>
          simp only [Bool.false_eq_true, if_false]
          split
          · rename_i failure after h
            obtain ⟨rfl, hf⟩ := Reading.take_error h
            exact ⟨0, rfl, .refused failure ho hf⟩
          · rename_i after h
            exact ⟨0, Reading.position_take h, .finished ho⟩
          · rename_i block after hn h
            have hb : 0 < block.length := List.length_pos_iff.mpr fun he => hn (he ▸ rfl)
            obtain ⟨more, hp, hd⟩ := ofHeader_does ho hc hb walk.decoder.layout.readSize.toNat after
            refine ⟨block.length + more, ?_, hd⟩
            rw [hp, Reading.position_take h, Nat.add_assoc]

variable {failure : Failure}

theorem ofCall_of_fail {cut : TraceCut} (h : (walk.fail cut tape).answer = .error failure) :
    failure.OfCall := by
  unfold fail at h
  split at h
  · cases h
    exact .trace cut
  · cases h
    exact .integer _

theorem ofCall_of_readSamples {header : Header} {count : Nat}
    (h : (walk.readSamples header count tape).answer = .error failure) : failure.OfCall := by
  unfold readSamples at h
  dsimp only at h
  split at h
  · rename_i other after htake
    cases h
    exact Reading.ofCall_of_take (congrArg Prod.fst htake)
  · rename_i block after htake
    obtain ⟨-, hle⟩ := Reading.take_append htake
    rw [ofSamples_eq hle] at h
    dsimp only at h
    split at h
    · exact ofCall_of_fail h
    · cases h

theorem ofCall_of_ofHeader {size : Nat} (hsize : walk.decoder.layout.requiredSize ≤ size)
    {block : Bytes} (h : (walk.ofHeader size block tape).answer = .error failure) :
    failure.OfCall := by
  unfold ofHeader at h
  dsimp only at h
  split at h
  · exact ofCall_of_fail h
  · rename_i hfull
    have hdecode : (walk.advance block).decoder.decode block = .ok (walk.decoder.header block) :=
      Decoder.decode_of_le (Nat.le_trans hsize (Nat.not_lt.mp hfull))
    rw [hdecode] at h
    dsimp only at h
    split at h
    · cases h
      exact .integer _
    · exact ofCall_of_readSamples h

theorem ofCall_of_next (h : (walk.next tape).answer = .error failure) : failure.OfCall := by
  unfold next at h
  split at h
  · cases h
  · split at h
    · cases h
    · dsimp only at h
      split at h
      · rename_i other after htake
        cases h
        exact Reading.ofCall_of_take (congrArg Prod.fst htake)
      · cases h
      · exact ofCall_of_ofHeader walk.decoder.layout.requiredSize_le_readSize h

theorem next_of_isOver (h : walk.isOver = true) (tape : Tape) :
    walk.next tape = ⟨.ok none, walk, tape⟩ := by
  rw [next, if_pos h]

theorem walk_close (walk : Walk) (tape : Tape) :
    (walk.close tape).1 = if walk.isOver then walk else walk.finish := rfl

@[simp] theorem position_close (walk : Walk) (tape : Tape) :
    (walk.close tape).2.position = tape.position := by
  unfold close
  dsimp only
  split <;> rfl

@[simp] theorem unread_close (walk : Walk) (tape : Tape) :
    (walk.close tape).2.unread = tape.unread := by
  unfold close
  dsimp only
  split <;> rfl

/-- The counts and the error of a walk fit its phase and its cap. -/
structure Consistent (walk : Walk) : Prop where
  ready : walk.phase = .ready → walk.traces = 0
  active : walk.phase = .active → 0 < walk.traces
  failed : walk.phase = .failed ↔ ∃ cut, walk.error = some cut
  error : ∀ cut, walk.error = some cut → cut.index = walk.traces ∧ cut.consumed = walk.consumed
  cap : ∀ cap, walk.cap = some cap → walk.traces ≤ cap

theorem Consistent.error_eq_none (h : walk.Consistent) (ho : walk.isOver = false) :
    walk.error = none := by
  cases he : walk.error with
  | none => rfl
  | some cut =>
      rw [isOver, h.failed.mpr ⟨cut, he⟩] at ho
      cases ho

theorem failed_iff_of_error_eq_none (h : walk.error = none) (hp : walk.phase ≠ .failed) :
    walk.phase = .failed ↔ ∃ cut, walk.error = some cut := by
  rw [h]
  exact ⟨fun hf => (hp hf).elim, nofun⟩

theorem Consistent.finish (h : walk.Consistent) (ho : walk.isOver = false) :
    walk.finish.Consistent :=
  ⟨nofun, nofun, failed_iff_of_error_eq_none (h.error_eq_none ho) nofun, h.error, h.cap⟩

theorem Does.cap {read : Nat} {answer : Except Failure (Option Trace)} {after : Walk}
    (hd : walk.Does read answer after) : after.cap = walk.cap := by
  cases hd <;> rfl

theorem Does.ownsTape {read : Nat} {answer : Except Failure (Option Trace)} {after : Walk}
    (hd : walk.Does read answer after) : after.ownsTape = walk.ownsTape := by
  cases hd <;> rfl

theorem Does.consistent {read : Nat} {answer : Except Failure (Option Trace)} {after : Walk}
    (hd : walk.Does read answer after) (h : walk.Consistent) : after.Consistent := by
  cases hd with
  | ended => exact h
  | finished ho => exact h.finish ho
  | yielded header samples ho hc hr =>
      have he := h.error_eq_none ho
      refine ⟨nofun, fun _ => Nat.succ_pos _, failed_iff_of_error_eq_none he nofun, ?_, ?_⟩
      · intro cut hcut
        cases he.symm.trans hcut
      · intro cap hcap
        rw [atCap, show walk.cap = some cap from hcap] at hc
        exact Nat.lt_of_not_le (of_decide_eq_false hc)
  | cut cut ho hi hc =>
      have hready : Phase.failed ≠ .ready := by decide
      have hactive : Phase.failed ≠ .active := by decide
      refine ⟨fun hp => absurd hp hready, fun hp => absurd hp hactive,
        ⟨fun _ => ⟨cut, rfl⟩, fun _ => rfl⟩, ?_, h.cap⟩
      intro other hother
      cases hother
      exact ⟨hi, hc⟩
  | refused failure ho hf =>
      refine ⟨h.ready, h.active, h.failed, ?_, h.cap⟩
      intro cut hcut
      cases (h.error_eq_none ho).symm.trans hcut

theorem consistent_start {layout : Layout} {options : Options}
    (hstart : start layout options = .ok walk) : walk.Consistent := by
  obtain ⟨coding, decoder, -, -, -, -, rfl⟩ := start_eq_ok_iff.mp hstart
  exact ⟨fun _ => rfl, nofun, failed_iff_of_error_eq_none rfl nofun, nofun,
    fun _ _ => Nat.zero_le _⟩

end Walk

end SeisLog
