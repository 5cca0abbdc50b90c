import SeisLog.Proofs.Call
import SeisLog.Proofs.Summary

/-!
# Walks that only a cut can stop

A walk is unhindered where its tape grants every part of a trace, the counts in its headers are
integers of four bytes at most, and the size of a header can be written. A call of such a walk
fails at a cut only, and so do its runs; the traces of its region always have a summary.
-/

namespace SeisLog

namespace Walk

structure Unhindered (walk : Walk) (tape : Tape) : Prop where
  flowing : tape.Flowing
  size_pos : 0 < walk.decoder.layout.readSize
  grants : tape.Grants walk.decoder.layout.readSize
  printable : Numeral.isPrintable walk.decoder.layout.readSize.toNat = true
  count : ∀ block : Bytes, ∃ count < 1 <<< 32,
    walk.rule.count (walk.decoder.header block) = .ok count

/-- The step gave an answer or met a cut, and it went on along the tape. -/
structure Step.Orderly (step : Step Tape) (tape : Tape) : Prop where
  failure : ∀ failure, step.answer = .error failure → ∃ cut, failure = .trace cut
  tape : ∃ passed, step.tape = tape.ahead passed

variable {walk : Walk} {tape : Tape}

theorem Does.keeps {read : Nat} {answer : Except Failure (Option Trace)} {after : Walk}
    (hd : walk.Does read answer after) : after.decoder = walk.decoder ∧ after.rule = walk.rule := by
  cases hd <;> exact ⟨rfl, rfl⟩

theorem Unhindered.of_ahead {after : Walk} (h : walk.Unhindered tape)
    (hdecoder : after.decoder = walk.decoder) (hrule : after.rule = walk.rule) (passed : Nat) :
    after.Unhindered (tape.ahead passed) := by
  refine ⟨h.flowing.ahead passed, ?_, ?_, ?_, ?_⟩
  · rw [hdecoder]
    exact h.size_pos
  · rw [hdecoder]
    exact h.grants.ahead passed
  · rw [hdecoder]
    exact h.printable
  · rw [hdecoder, hrule]
    exact h.count

/-- The cut of a part whose size can be written ends the walk. -/
theorem orderly_fail {cut : TraceCut} (hp : Numeral.isPrintable cut.expected = true)
    (walk : Walk) {tape after : Tape} {passed : Nat} (ht : after = tape.ahead passed) :
    (walk.fail cut after).Orderly tape := by
  rw [fail_eq, Failure.told_trace, if_pos hp]
  refine ⟨?_, passed, ht⟩
  intro failure h
  cases h
  exact ⟨cut, rfl⟩

theorem orderly_ok (answer : Option Trace) (walk : Walk) {tape after : Tape} {passed : Nat}
    (ht : after = tape.ahead passed) : (Step.mk (.ok answer) walk after).Orderly tape :=
  ⟨(fun _ h => by cases h), passed, ht⟩

theorem samples_lt {count : Nat} (hcount : count < 1 <<< 32) (coding : SampleCoding) :
    count * coding.width < 1 <<< 34 := by
  have hw : coding.width ≤ 4 := by cases coding <;> decide
  have hm : count * coding.width ≤ count * 4 := Nat.mul_le_mul_left _ hw
  omega

theorem orderly_readSamples (ht : tape.Flowing) {size : Int} (hg : tape.Grants size)
    (hs : 0 < size) (walk : Walk) (header : Header) {count : Nat} (hcount : count < 1 <<< 32) :
    (walk.readSamples header count tape).Orderly tape := by
  have hlt := samples_lt hcount walk.coding
  have hceiling : (1 <<< 34 : Nat) ≤ Tape.fileCeiling := by decide
  have hgrants : tape.Grants (count * walk.coding.width : Nat) :=
    Tape.grants_of_isOpen (hg.isOpen hs) (by omega)
  unfold readSamples
  dsimp only
  rw [Reading.take_of_flowing ht hgrants]
  dsimp only
  rw [Int.toNat_natCast, ofSamples_eq (List.length_take_le _ _)]
  dsimp only
  split
  · exact orderly_fail (Numeral.isPrintable_of_lt (Nat.lt_trans hlt (by decide))) _ rfl
  · exact orderly_ok _ _ rfl

theorem Unhindered.orderly_ofHeader (h : walk.Unhindered tape) {block : Bytes} {passed : Nat}
    (hblock : block.length ≤ walk.decoder.layout.readSize.toNat) :
    (walk.ofHeader walk.decoder.layout.readSize.toNat block (tape.ahead passed)).Orderly tape := by
  obtain ⟨count, hlt, hcount⟩ := h.count block
  unfold ofHeader
  dsimp only
  by_cases hs : block.length < walk.decoder.layout.readSize.toNat
  · rw [if_pos hs]
    refine orderly_fail ?_ _ rfl
    exact h.printable
  · have hlength : block.length = walk.decoder.layout.readSize.toNat := by omega
    have hdecode : (walk.advance block).decoder.decode block =
        .ok (walk.decoder.header block) := Decoder.decode_eq_header hlength
    have hrule : (walk.advance block).rule.count (walk.decoder.header block) = .ok count := hcount
    rw [if_neg hs, hdecode]
    dsimp only
    rw [hrule]
    have hread := orderly_readSamples (h.flowing.ahead passed) (h.grants.ahead passed) h.size_pos
      (walk.advance block) (walk.decoder.header block) hlt
    obtain ⟨more, hmore⟩ := hread.tape
    exact ⟨hread.failure, passed + more, by rw [hmore, Tape.ahead_ahead]⟩

theorem Unhindered.orderly_next (h : walk.Unhindered tape) : (walk.next tape).Orderly tape := by
  let size := walk.decoder.layout.readSize
  unfold next
  by_cases hover : walk.isOver = true
  · rw [if_pos hover]
    exact orderly_ok none walk tape.ahead_zero.symm
  · rw [if_neg hover]
    by_cases hcap : walk.atCap = true
    · rw [if_pos hcap]
      exact orderly_ok none _ tape.ahead_zero.symm
    · rw [if_neg hcap]
      dsimp only
      rw [Reading.take_of_flowing h.flowing h.grants]
      cases hblock : tape.unread.take walk.decoder.layout.readSize.toNat with
      | nil => exact orderly_ok none _ rfl
      | cons byte rest =>
          refine h.orderly_ofHeader ?_
          rw [← hblock, List.length_take]
          exact Nat.min_le_left _ _

theorem Unhindered.next (h : walk.Unhindered tape) :
    (walk.next tape).walk.Unhindered (walk.next tape).tape := by
  obtain ⟨read, -, hdoes⟩ := next_does walk tape
  obtain ⟨hdecoder, hrule⟩ := hdoes.keeps
  obtain ⟨passed, hpassed⟩ := h.orderly_next.tape
  rw [hpassed]
  exact h.of_ahead hdecoder hrule passed

theorem Unhindered.failure_run (h : walk.Unhindered tape) (wanted : Option Nat) {failure : Failure}
    (hf : (walk.run wanted tape).failure? = some failure) : ∃ cut, failure = .trace cut := by
  induction wanted, walk, tape using run_induct with
  | stopped => cases hf
  | failed wanted walk tape other hw ha =>
      cases hf
      exact h.orderly_next.failure _ ha
  | ended => cases hf
  | yielded wanted walk tape trace hw ha rest ih => exact ih h.next hf

theorem Unhindered.summary_run (h : walk.Unhindered tape) :
    ∃ summary, (walk.run none tape).summary = .ok summary := by
  unfold Run.summary Run.interruption?
  cases hf : (walk.run none tape).failure? with
  | none => exact ⟨_, rfl⟩
  | some failure =>
      obtain ⟨cut, rfl⟩ := h.failure_run none hf
      exact ⟨_, rfl⟩

end Walk

end SeisLog
