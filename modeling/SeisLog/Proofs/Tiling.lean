import SeisLog.Proofs.Call
import SeisLog.Proofs.Header
import SeisLog.Proofs.Reach
import SeisLog.Proofs.Region.RoundTrip
import SeisLog.Proofs.Region.Unhindered

/-!
# Where traces start

A trace covers the bytes that its call took, its header in front. It starts at the end of the trace
before it unless a call in between took bytes for nothing; such a call ends the walk if it failed at
a cut, and only then (`calls_tile`).
-/

namespace SeisLog

namespace Tape

theorem access_pull (size : Nat) (tape : Tape) : (tape.pull size).2.access = tape.access := by
  unfold pull
  split
  · rfl
  · split <;> rfl

theorem access_gather (size : Nat) (tape : Tape) :
    (tape.gather size).2.access = tape.access := by
  induction size, tape using gather_induct with
  | done => rfl
  | dry size tape => exact access_pull size tape
  | more size tape hs hp rest ih => exact ih.trans (access_pull size tape)

end Tape

namespace Reading

variable {tape after : Tape}

/-- Only an open tape gives bytes, and it stays open. -/
theorem isOpen_of_take {size : Int} {bytes : Bytes} (h : take size tape = (.ok bytes, after))
    (hb : bytes ≠ []) : after.isOpen = true := by
  rw [take_tape] at h
  split at h
  · cases h
    exact absurd rfl hb
  · unfold ofStep at h
    split at h
    · cases h
    · rename_i hr
      cases h
      rw [Tape.isOpen, Tape.access_gather]
      unfold refusal? at hr
      cases ha : tape.access with
      | closed =>
          rw [ha] at hr
          cases hr
      | file => rfl
      | stream => rfl

theorem exists_request_of_take {size : Int} {failure : Failure} (hopen : tape.isOpen = true)
    (h : take size tape = (.error failure, after)) : ∃ wanted, failure = .request wanted := by
  rw [take_tape] at h
  split at h
  · cases h
  · unfold ofStep at h
    split at h
    · rename_i refused hr
      cases h
      unfold refusal? at hr
      cases ha : tape.access with
      | closed =>
          rw [Tape.isOpen, ha] at hopen
          cases hopen
      | file =>
          rw [ha] at hr
          dsimp only at hr
          split at hr
          · cases hr
            exact ⟨_, rfl⟩
          · cases hr
      | stream =>
          rw [ha] at hr
          cases hr
    · cases h

end Reading

namespace Walk

/-- A failure within a trace that is not a cut. -/
inductive Slip : Failure → Prop
  | integer (fault : Value.IntegerFault) : Slip (.integer fault)
  | request (wanted : Nat) : Slip (.request wanted)
  | unprintable : Slip .unprintable

/-- What the answer of a call has to do with the `read` bytes that it took, the first of `bytes`. -/
inductive Takes (walk : Walk) (bytes : Bytes) : Nat → Except Failure (Option Trace) → Prop
  | nothing {answer : Except Failure (Option Trace)} :
      (∀ trace, answer ≠ .ok (some trace)) → Takes walk bytes 0 answer
  | cut {read : Nat} (cut : TraceCut) : Takes walk bytes read (.error (.trace cut))
  | slip {read : Nat} {failure : Failure} : Slip failure → Takes walk bytes read (.error failure)
  | trace {read : Nat} (header : Header) :
      walk.decoder.layout.readSize.toNat ≤ read →
      walk.decoder.decode (bytes.take walk.decoder.layout.readSize.toNat) = .ok header →
      Takes walk bytes read (.ok (some {
        index := walk.traces
        header
        samples := walk.coding.decode
          ((bytes.take read).drop walk.decoder.layout.readSize.toNat)
        consumed := (walk.consumed + read : Nat) }))

/-- Bytes taken for nothing were lost to a failure. -/
theorem Takes.failure {walk : Walk} {bytes : Bytes} {read : Nat}
    {answer : Except Failure (Option Trace)} (h : walk.Takes bytes read answer)
    (hn : ∀ trace, answer ≠ .ok (some trace)) (hr : 0 < read) :
    ∃ failure, answer = .error failure ∧ ((∃ cut, failure = .trace cut) ∨ Slip failure) := by
  cases h with
  | nothing => omega
  | cut cut => exact ⟨_, rfl, .inl ⟨cut, rfl⟩⟩
  | slip hslip => exact ⟨_, rfl, .inr hslip⟩
  | trace => exact absurd rfl (hn _)

/-- What a call with bytes in front of it leaves: the bytes after those it took, and a walk that has
counted them. -/
def Step.Accounts (step : Step Tape) (walk : Walk) (bytes : Bytes) : Prop :=
  ∃ read, step.tape.unread = bytes.drop read ∧ step.walk.consumed = walk.consumed + read ∧
    walk.Takes bytes read step.answer

variable {walk : Walk} {tape : Tape}

theorem accounts_fail {bytes : Bytes} {after : Walk} {read : Nat} (cut : TraceCut)
    (hunread : tape.unread = bytes.drop read) (hconsumed : after.consumed = walk.consumed + read) :
    (after.fail cut tape).Accounts walk bytes := by
  unfold fail
  split
  · exact ⟨read, hunread, hconsumed, .cut cut⟩
  · exact ⟨read, hunread, hconsumed, .slip .unprintable⟩

theorem accounts_readSamples {block : Bytes} {header : Header} (hopen : tape.isOpen = true)
    (hblock : block.length = walk.decoder.layout.readSize.toNat)
    (hheader : walk.decoder.decode block = .ok header) (count : Nat) :
    ((walk.advance block).readSamples header count tape).Accounts walk (block ++ tape.unread) := by
  unfold readSamples
  dsimp only
  cases htake : Reading.take (count * (walk.advance block).coding.width : Nat) tape with
  | mk answer after =>
      cases answer with
      | error failure =>
          obtain ⟨rfl, -⟩ := Reading.take_error htake
          obtain ⟨wanted, rfl⟩ := Reading.exists_request_of_take hopen htake
          exact ⟨block.length, by rw [List.drop_left], rfl, .slip (.request wanted)⟩
      | ok samples =>
          obtain ⟨happend, hle⟩ := Reading.take_append htake
          have hunread : after.unread =
              (block ++ tape.unread).drop (block.length + samples.length) := by
            rw [← happend, ← List.append_assoc, ← List.length_append, List.drop_left]
          have hconsumed : ((walk.advance block).advance samples).consumed =
              walk.consumed + (block.length + samples.length) := Nat.add_assoc _ _ _
          dsimp only
          rw [ofSamples_eq hle]
          dsimp only
          split
          · exact accounts_fail _ hunread hconsumed
          · refine ⟨block.length + samples.length, hunread, hconsumed, ?_⟩
            have hsamples : ((block ++ tape.unread).take (block.length + samples.length)).drop
                walk.decoder.layout.readSize.toNat = samples := by
              rw [← happend, ← List.append_assoc, ← List.length_append, List.take_left, ← hblock,
                List.drop_left]
            have hfront : walk.decoder.decode ((block ++ tape.unread).take
                walk.decoder.layout.readSize.toNat) = .ok header := by
              rw [← hblock, List.take_left, hheader]
            have htrace := @Takes.trace walk (block ++ tape.unread)
              (block.length + samples.length) header (by omega) hfront
            rw [hsamples] at htrace
            rwa [hconsumed]

theorem accounts_ofHeader (hopen : tape.isOpen = true) {block : Bytes}
    (hblock : block.length ≤ walk.decoder.layout.readSize.toNat) :
    (walk.ofHeader walk.decoder.layout.readSize.toNat block tape).Accounts walk
      (block ++ tape.unread) := by
  have hunread : tape.unread = (block ++ tape.unread).drop block.length := by rw [List.drop_left]
  unfold ofHeader
  dsimp only
  split
  · exact accounts_fail _ hunread rfl
  · rename_i hfull
    have hlength : block.length = walk.decoder.layout.readSize.toNat := by omega
    have hheader := Decoder.decode_eq_header hlength
    have hdecode : (walk.advance block).decoder.decode block =
        .ok (walk.decoder.header block) := hheader
    rw [hdecode]
    dsimp only
    split
    · rename_i fault hfault
      exact ⟨block.length, hunread, rfl, .slip (.integer fault)⟩
    · rename_i count hcount
      exact accounts_readSamples hopen hlength hheader count

/-- What a call answers fits the bytes that it takes. -/
theorem accounts_next (walk : Walk) (tape : Tape) :
    (walk.next tape).Accounts walk tape.unread := by
  unfold next
  split
  · exact ⟨0, rfl, rfl, .nothing nofun⟩
  · split
    · exact ⟨0, rfl, rfl, .nothing nofun⟩
    · dsimp only
      split
      · rename_i failure after htake
        obtain ⟨rfl, -⟩ := Reading.take_error htake
        exact ⟨0, rfl, rfl, .nothing nofun⟩
      · rename_i after htake
        obtain ⟨happend, -⟩ := Reading.take_append htake
        exact ⟨0, happend, rfl, .nothing nofun⟩
      · rename_i block after hblock htake
        have hnil : block ≠ [] := fun he => hblock (he ▸ rfl)
        obtain ⟨happend, hle⟩ := Reading.take_append htake
        have hpos := List.length_pos_iff.mpr hnil
        rw [← happend]
        exact accounts_ofHeader (Reading.isOpen_of_take htake hnil) hle

theorem isOver_of_cut {cut : TraceCut} (h : (walk.next tape).answer = .error (.trace cut)) :
    (walk.next tape).walk.isOver = true := by
  obtain ⟨read, -, hdoes⟩ := next_does walk tape
  generalize walk.next tape = step at h hdoes
  obtain ⟨answer, after, left⟩ := step
  dsimp only at h hdoes ⊢
  subst h
  cases hdoes with
  | cut => rfl
  | refused _ _ hcut => cases hcut

theorem Does.coding {read : Nat} {answer : Except Failure (Option Trace)} {after : Walk}
    (hd : walk.Does read answer after) : after.coding = walk.coding := by
  cases hd <;> rfl

/-- One call of a walk: how many bytes the walk had taken before, and what the call gave. -/
structure Call where
  start : Nat
  step : Step Tape

namespace Call

def trace? (call : Call) : Option Trace := call.step.answer.toOption.join

def stop (call : Call) : Nat := call.step.walk.consumed

/-- The call took bytes and gave no trace for them. -/
def Strands (call : Call) : Prop := call.trace? = none ∧ call.start < call.stop

theorem trace?_eq_some {call : Call} {trace : Trace} :
    call.trace? = some trace ↔ call.step.answer = .ok (some trace) := by
  unfold trace?
  cases call.step.answer with
  | error failure => simp [Except.toOption]
  | ok answer => cases answer <;> simp [Except.toOption]

end Call

/-- The calls of a walk, each made whatever the ones before it gave. -/
def calls : Nat → Walk → Tape → List Call
  | 0, _, _ => []
  | count + 1, walk, tape =>
      let step := walk.next tape
      ⟨walk.consumed, step⟩ :: calls count step.walk step.tape

/-- The end of the last trace that the calls gave, zero before the first one. -/
def lastEnd (calls : List Call) : Int :=
  ((calls.filterMap Call.trace?).getLast?.map Trace.consumed).getD 0

/-- The calls after the last one that gave a trace, the latest first. -/
def sinceTrace (calls : List Call) : List Call := calls.reverse.takeWhile (·.trace?.isNone)

section

variable {done : List Call} {call : Call}

@[simp] theorem lastEnd_nil : lastEnd [] = 0 := rfl

@[simp] theorem sinceTrace_nil : sinceTrace [] = [] := rfl

theorem lastEnd_of_trace {trace : Trace} (h : call.trace? = some trace) :
    lastEnd (done ++ [call]) = trace.consumed := by
  simp [lastEnd, h]

theorem lastEnd_of_none (h : call.trace? = none) : lastEnd (done ++ [call]) = lastEnd done := by
  simp [lastEnd, h]

theorem sinceTrace_of_trace {trace : Trace} (h : call.trace? = some trace) :
    sinceTrace (done ++ [call]) = [] := by
  simp [sinceTrace, h]

theorem sinceTrace_of_none (h : call.trace? = none) :
    sinceTrace (done ++ [call]) = call :: sinceTrace done := by
  simp [sinceTrace, h]

end

/-- What calls that took the first `consumed` bytes have to show for them: the bytes behind the last
trace were lost to failures. -/
structure Ledger (done : List Call) (consumed : Nat) : Prop where
  lastEnd : lastEnd done ≤ consumed
  settled : consumed = Walk.lastEnd done ↔ ∀ call ∈ sinceTrace done, ¬ call.Strands
  failure : ∀ call ∈ done, call.Strands → ∃ failure, call.step.answer = .error failure ∧
    ((∃ cut, failure = .trace cut) ∨ Slip failure)

theorem ledger_nil : Ledger [] 0 := ⟨by simp, by simp, by simp⟩

theorem Ledger.add {done : List Call} {call : Call} {bytes : Bytes} {read : Nat}
    (h : Ledger done walk.consumed) (hstart : call.start = walk.consumed)
    (hstop : call.stop = walk.consumed + read)
    (htakes : walk.Takes bytes read call.step.answer) : Ledger (done ++ [call]) call.stop := by
  have hend := h.lastEnd
  have hfailure : (call.Strands → ∃ failure, call.step.answer = .error failure ∧
      ((∃ cut, failure = .trace cut) ∨ Slip failure)) →
      ∀ other ∈ done ++ [call], other.Strands → ∃ failure, other.step.answer = .error failure ∧
        ((∃ cut, failure = .trace cut) ∨ Slip failure) := by
    intro hcall other hother
    rcases List.mem_append.mp hother with hother | hother
    · exact h.failure other hother
    · rwa [List.mem_singleton.mp hother]
  cases htrace : call.trace? with
  | some trace =>
      have hends : trace.consumed = call.stop := by
        rw [Call.trace?_eq_some.mp htrace] at htakes
        cases htakes with
        | nothing hn => exact absurd rfl (hn _)
        | trace => rw [hstop]
      refine ⟨?_, ?_, hfailure fun hstrands => ?_⟩
      · exact Int.le_of_eq ((lastEnd_of_trace htrace).trans hends)
      · rw [lastEnd_of_trace htrace, sinceTrace_of_trace htrace, hends]
        simp
      · rw [Call.Strands, htrace] at hstrands
        cases hstrands.1
  | none =>
      have hn : ∀ trace, call.step.answer ≠ .ok (some trace) := by
        intro trace ha
        rw [Call.trace?_eq_some.mpr ha] at htrace
        cases htrace
      have hstrands : call.Strands ↔ 0 < read := by
        simp [Call.Strands, htrace, hstart, hstop]
      refine ⟨?_, ?_, hfailure fun hs => htakes.failure hn (hstrands.mp hs)⟩
      · rw [lastEnd_of_none htrace, hstop]
        omega
      · rw [lastEnd_of_none htrace, sinceTrace_of_none htrace, List.forall_mem_cons, hstrands,
          ← h.settled, hstop]
        omega

/-- A walk after the calls `done`, all of them on the tape that it started on. -/
structure Behind (walk : Walk) (tape : Tape) (done : List Call) (now : Walk) (left : Tape) :
    Prop where
  decoder : now.decoder = walk.decoder
  coding : now.coding = walk.coding
  unread : left.unread = tape.unread.drop now.consumed
  ledger : Ledger done now.consumed
  isOver : ∀ call ∈ done, ∀ cut, call.step.answer = .error (.trace cut) → now.isOver = true

theorem behind_start (walk : Walk) (tape : Tape) (h : walk.consumed = 0) :
    Behind walk tape [] walk tape where
  decoder := rfl
  coding := rfl
  unread := by rw [h, List.drop_zero]
  ledger := h ▸ ledger_nil
  isOver := by simp

theorem Behind.next {done : List Call} {now : Walk} {left : Tape}
    (h : Behind walk tape done now left) :
    Behind walk tape (done ++ [⟨now.consumed, now.next left⟩]) (now.next left).walk
      (now.next left).tape := by
  obtain ⟨read, hunread, hconsumed, htakes⟩ := accounts_next now left
  obtain ⟨_, -, hdoes⟩ := next_does now left
  refine ⟨hdoes.keeps.1.trans h.decoder, hdoes.coding.trans h.coding, ?_,
    h.ledger.add rfl hconsumed htakes, ?_⟩
  · rw [hunread, h.unread, List.drop_drop, hconsumed]
  · intro call hcall cut ha
    rcases List.mem_append.mp hcall with hcall | hcall
    · have hover := h.isOver call hcall cut ha
      rw [next_of_isOver hover]
      exact hover
    · rw [List.mem_singleton.mp hcall] at ha
      exact isOver_of_cut ha

/-- Every call is made on a walk that has the calls before it behind it. -/
theorem Behind.calls {done earlier later : List Call} {now : Walk} {left : Tape} {count : Nat}
    {call : Call} (h : Behind walk tape done now left)
    (hcalls : now.calls count left = earlier ++ call :: later) :
    ∃ before rest, Behind walk tape (done ++ earlier) before rest ∧
      call = ⟨before.consumed, before.next rest⟩ := by
  induction count generalizing done earlier now left with
  | zero => simp [Walk.calls] at hcalls
  | succ count ih =>
      cases earlier with
      | nil =>
          simp only [Walk.calls, List.nil_append, List.cons.injEq] at hcalls
          rw [List.append_nil]
          exact ⟨now, left, h, hcalls.1.symm⟩
      | cons first earlier =>
          simp only [Walk.calls, List.cons_append, List.cons.injEq] at hcalls
          obtain ⟨rfl, hrest⟩ := hcalls
          have hlast := ih h.next hrest
          rwa [List.append_assoc] at hlast

/-- A trace that a call gives fills the bytes that the call took, and they start at the end of the
last trace exactly if no call in between took bytes for nothing. Such a call failed at the count or
the samples behind a header; none failed at a cut. -/
theorem calls_tile {layout : Layout} {options : Options} {walk : Walk}
    (hstart : start layout options = .ok walk) (tape : Tape) {count : Nat}
    {earlier later : List Call} {call : Call} {trace : Trace}
    (hcalls : walk.calls count tape = earlier ++ call :: later)
    (htrace : call.trace? = some trace) :
    let size := layout.readSize.toNat
    let bytes := tape.unread.drop call.start
    layout.decode options.charset (bytes.take size) = .ok trace.header ∧
    trace.samples = walk.coding.decode ((bytes.take (call.stop - call.start)).drop size) ∧
    call.start + size ≤ call.stop ∧ trace.consumed = call.stop ∧
    ((call.start : Int) = lastEnd earlier ↔ ∀ other ∈ sinceTrace earlier, ¬ other.Strands) ∧
    (∀ other ∈ earlier, other.Strands →
      ∃ failure, other.step.answer = .error failure ∧ Slip failure) ∧
    (∀ other ∈ earlier, ∀ cut, other.step.answer ≠ .error (.trace cut)) := by
  obtain ⟨coding, decoder, -, -, -, hdecoder, hwalk⟩ := start_eq_ok_iff.mp hstart
  have hfresh : walk.consumed = 0 := by
    rw [hwalk]
    rfl
  have hlayout : walk.decoder.layout = layout := by
    rw [hwalk]
    exact Decoder.layout_of_make hdecoder
  obtain ⟨before, rest, h, rfl⟩ := (behind_start walk tape hfresh).calls hcalls
  rw [List.nil_append] at h
  have hanswer := Call.trace?_eq_some.mp htrace
  have hopen : ∀ other ∈ earlier, ∀ cut, other.step.answer ≠ .error (.trace cut) := by
    intro other hother cut ha
    have hover := h.isOver other hother cut ha
    rw [next_of_isOver hover] at hanswer
    cases hanswer
  obtain ⟨read, -, hconsumed, htakes⟩ := accounts_next before rest
  intro size bytes
  dsimp only at hanswer
  rw [hanswer] at htakes
  have hstop : (Call.mk before.consumed (before.next rest)).stop = before.consumed + read :=
    hconsumed
  cases htakes with
  | nothing hn => exact absurd rfl (hn _)
  | trace header hsize hheader =>
      rw [h.decoder, hlayout] at hsize
      rw [h.decoder, h.unread, hlayout] at hheader
      refine ⟨?_, ?_, ?_, ?_, h.ledger.settled, ?_, hopen⟩
      · rw [Layout.decode, hdecoder]
        rw [hwalk] at hheader
        exact hheader
      · rw [hstop, h.decoder, h.coding, h.unread, hlayout, Nat.add_sub_cancel_left]
      · rw [hstop]
        exact Nat.add_le_add_left hsize _
      · rw [hstop]
      · intro other hother hstrands
        obtain ⟨failure, ha, hfailure⟩ := h.ledger.failure other hother hstrands
        rcases hfailure with ⟨cut, rfl⟩ | hslip
        · exact absurd ha (hopen other hother cut)
        · exact ⟨failure, ha, hslip⟩

theorem calls_tile_secondTrace :
    let tape := Tape.ofBytes (RawTrace.region oneSampleThenNone) none []
    ∃ first second, textWalk.calls 2 tape = [first, second] ∧ second.start = 7 ∧
      ∃ trace, second.trace? = some trace ∧
        countAndText.decode (some "us_ascii") [255, 255, 65, 200, 9] = .ok trace.header ∧
        (second.start : Int) = lastEnd [first] := by
  intro tape
  let first : Call := ⟨0, textWalk.next tape⟩
  let second : Call := ⟨first.stop, first.step.walk.next first.step.tape⟩
  have hcalls : textWalk.calls 2 tape = [first] ++ second :: [] := rfl
  have hstart : second.start = 7 := by decide +kernel
  have hyields : second.trace?.isSome = true := by decide +kernel
  obtain ⟨trace, htrace⟩ := Option.isSome_iff_exists.mp hyields
  obtain ⟨hheader, -, -, -, hends, -, -⟩ :=
    calls_tile (show start countAndText textOptions = .ok textWalk by rfl) tape hcalls htrace
  have hsince : sinceTrace [first] = [] := by decide +kernel
  refine ⟨first, second, hcalls, hstart, trace, htrace, ?_, hends.mpr (by simp [hsince])⟩
  rwa [hstart] at hheader

def writtenCount : Options where
  format := .integer1
  countField := "text"
  charset := some "us_ascii"

/-- A count that is no number fails the first call behind its header. The second call reads the
bytes after that header as another header, and gives a trace. -/
theorem calls_tile_of_writtenCount :
    let tape := Tape.ofBytes [0, 1, 65, 66, 0, 0, 0, 48, 48, 0] none []
    ∃ walk first second, start countAndText writtenCount = .ok walk ∧
      walk.calls 2 tape = [first, second] ∧
      (∃ fault, first.step.answer = .error (.integer fault)) ∧
      (∃ trace, second.trace? = some trace ∧ trace.consumed = 10) ∧
      second.start = 5 ∧ lastEnd [first] = 0 := by
  intro tape
  let walk := writtenCount.fresh .int8 ⟨countAndText, .usAscii⟩
  let first : Call := ⟨0, walk.next tape⟩
  let second : Call := ⟨first.stop, first.step.walk.next first.step.tape⟩
  refine ⟨walk, first, second, rfl, rfl, ?_, ?_, by decide +kernel, by decide +kernel⟩
  · have hsome : (Failure.integerFault? first.step.answer).isSome = true := by decide +kernel
    obtain ⟨fault, hfault⟩ := Option.isSome_iff_exists.mp hsome
    exact ⟨fault, Failure.eq_of_integerFault? hfault⟩
  · have htrace : second.trace?.map Trace.consumed = some 10 := by decide +kernel
    exact Option.map_eq_some_iff.mp htrace

end Walk

end SeisLog
