import SeisLog.Tape.Reading
import SeisLog.Trace

/-!
# Walks over a trace region

A walk reads one trace after another: a header block, then as many samples as the header, or the
walk's own rule, says. It ends at a clean end of the tape, at its cap, or at a cut; an ended walk
yields nothing and reads nothing. Every trace leaves less to be read (`left_lt_of_next`), so a walk
is finite.
-/

namespace SeisLog

/-- How many samples follow a trace header. -/
inductive CountRule
  | fixed (count : Nat)
  | named (field : String) (fallback : Option Nat)
deriving DecidableEq, Repr

namespace CountRule

/-- A count below zero is zero, and zero gives way to the fallback. -/
def count (rule : CountRule) (header : Header) : Except Value.IntegerFault Nat :=
  match rule with
  | .fixed count => .ok count
  | .named field fallback => do
      let number ← ((header.get? field).getD (.integer 0)).toInteger
      return if number ≤ 0 then fallback.getD 0 else number.toNat

end CountRule

inductive Phase
  | ready
  | active
  | exhausted
  | failed
deriving DecidableEq, Repr

namespace Phase

def label : Phase → String
  | .ready => "READY"
  | .active => "ACTIVE"
  | .exhausted => "EXHAUSTED"
  | .failed => "FAILED"

def tag : Phase → String
  | .ready => "ready"
  | .active => "active"
  | .exhausted => "exhausted"
  | .failed => "failed"

def isOver : Phase → Bool
  | .ready | .active => false
  | .exhausted | .failed => true

end Phase

structure Walk where
  decoder : Decoder
  coding : SampleCoding
  rule : CountRule
  cap : Option Nat
  ownsTape : Bool
  phase : Phase
  error : Option TraceCut
  traces : Nat
  consumed : Nat

namespace Walk

structure Options where
  format : SampleFormat := .ibmFloat
  countField : String := "number_of_samples"
  fallback : Option Int := none
  fixed : Option Int := none
  charset : Option String := none
  ownsTape : Bool := false
  cap : Option Int := none

/-- A walk at the start of a region; nothing is read yet. -/
def start (layout : Layout) (options : Options) : Except Failure Walk := do
  let some coding := options.format.coding? | throw (.sampleFormat options.format)
  let rule ←
    match options.fixed with
    | some count => pure (.fixed count.toNat)
    | none =>
        if layout.contains options.countField then
          pure (.named options.countField (options.fallback.map Int.toNat))
        else throw (.countField layout.name options.countField)
  if options.cap.any (· < 0) then throw .negativeCap
  let decoder ← Decoder.make layout options.charset
  return {
    decoder, coding, rule
    cap := options.cap.map Int.toNat
    ownsTape := options.ownsTape
    phase := .ready
    error := none
    traces := 0
    consumed := 0 }

def isOver (walk : Walk) : Bool := walk.phase.isOver

def atCap (walk : Walk) : Bool := walk.cap.any (· ≤ walk.traces)

def finish (walk : Walk) : Walk := { walk with phase := .exhausted }

def advance (walk : Walk) (bytes : Bytes) : Walk :=
  { walk with consumed := walk.consumed + bytes.length }

/-- The cut after `actual` of the `expected` bytes of a part of the next trace. -/
def cutAt (walk : Walk) (part : TracePart) (expected actual : Nat) : TraceCut :=
  ⟨walk.traces, part, expected, actual, walk.consumed⟩

def yield (walk : Walk) : Walk :=
  { walk with phase := .active, traces := walk.traces + 1 }

/-- What one call of a walk gives, with the walk and the tape after it. -/
structure Step (σ : Type) where
  answer : Except Failure (Option Trace)
  walk : Walk
  tape : σ

section

variable {σ : Type}

/-- Ends the walk at a cut. A cut whose message cannot be written leaves the phase as it was. -/
def fail (walk : Walk) (cut : TraceCut) (tape : σ) : Step σ :=
  if (Failure.trace cut).isTellable then
    ⟨.error (.trace cut), { walk with phase := .failed, error := some cut }, tape⟩
  else ⟨.error .unprintable, walk, tape⟩

/-- The outcome of a sample block, of which `size` bytes were wanted. -/
def ofSamples (walk : Walk) (header : Header) (size : Nat) (block : Bytes) (tape : σ) : Step σ :=
  let walk := walk.advance block
  if block.length < size then walk.fail (walk.cutAt .samples size block.length) tape
  else
    match walk.coding.unpack block with
    | .error fault => ⟨.error (.samples fault), walk, tape⟩
    | .ok samples =>
        ⟨.ok (some ⟨walk.traces, header, samples, walk.consumed⟩), walk.yield, tape⟩

@[simp] theorem tape_fail (walk : Walk) (cut : TraceCut) (tape : σ) :
    (walk.fail cut tape).tape = tape := by
  unfold fail
  split <;> rfl

@[simp] theorem tape_ofSamples (walk : Walk) (header : Header) (size : Nat) (block : Bytes)
    (tape : σ) : (walk.ofSamples header size block tape).tape = tape := by
  unfold ofSamples
  dsimp only
  split
  · exact tape_fail _ _ _
  · split <;> rfl

/-- A block that is not longer than the samples asked for is cut, or it holds them whole. -/
theorem ofSamples_eq {walk : Walk} {count : Nat} {block : Bytes}
    (h : block.length ≤ count * walk.coding.width) (header : Header) (tape : σ) :
    walk.ofSamples header (count * walk.coding.width) block tape =
      let after := walk.advance block
      let size := count * walk.coding.width
      if block.length < size then after.fail (after.cutAt .samples size block.length) tape
      else
        ⟨.ok (some ⟨walk.traces, header, walk.coding.decode block, after.consumed⟩), after.yield,
          tape⟩ := by
  unfold ofSamples
  dsimp only
  split
  · rfl
  · rename_i hfull
    have hlength : block.length = count * walk.coding.width := by omega
    have hunpack : (walk.advance block).coding.unpack block = .ok (walk.coding.decode block) :=
      SampleCoding.unpack_of_dvd (hlength ▸ Nat.dvd_mul_left _ _)
    rw [hunpack]
    rfl

variable [Medium σ]

def readSamples (walk : Walk) (header : Header) (count : Nat) (tape : σ) : Step σ :=
  let size := count * walk.coding.width
  match Reading.take size tape with
  | (.error failure, tape) => ⟨.error failure, walk, tape⟩
  | (.ok block, tape) => walk.ofSamples header size block tape

/-- The outcome of a nonempty header block, of which `size` bytes were wanted. A header whose count
stands for no integer leaves the phase as it was, its bytes consumed. -/
def ofHeader (walk : Walk) (size : Nat) (block : Bytes) (tape : σ) : Step σ :=
  let walk := walk.advance block
  if block.length < size then walk.fail (walk.cutAt .header size block.length) tape
  else
    match walk.decoder.decode block with
    | .error failure => ⟨.error failure, walk, tape⟩
    | .ok header =>
        match walk.rule.count header with
        | .error fault => ⟨.error (.integer fault), walk, tape⟩
        | .ok count => walk.readSamples header count tape

/-- The next trace, or nothing at the end of the walk. -/
def next (walk : Walk) (tape : σ) : Step σ :=
  if walk.isOver then ⟨.ok none, walk, tape⟩
  else if walk.atCap then ⟨.ok none, walk.finish, tape⟩
  else
    let size := walk.decoder.layout.readSize
    match Reading.take size tape with
    | (.error failure, tape) => ⟨.error failure, walk, tape⟩
    | (.ok [], tape) => ⟨.ok none, walk.finish, tape⟩
    | (.ok block, tape) => walk.ofHeader size.toNat block tape

/-- Gives the walk up; a walk that owns its tape closes it. -/
def close (walk : Walk) (tape : σ) : Walk × σ :=
  (if walk.isOver then walk else walk.finish, if walk.ownsTape then Medium.close tape else tape)

theorem left_readSamples_le (walk : Walk) (header : Header) (count : Nat) (tape : σ) :
    Medium.left (walk.readSamples header count tape).tape ≤ Medium.left tape := by
  have hl := Medium.left_take_le ((count * walk.coding.width : Nat) : Int) tape
  unfold readSamples Reading.take
  dsimp only
  split
  · rename_i h
    rwa [h] at hl
  · rename_i h
    rw [h] at hl
    simpa using hl

theorem left_ofHeader_le (walk : Walk) (size : Nat) (block : Bytes) (tape : σ) :
    Medium.left (walk.ofHeader size block tape).tape ≤ Medium.left tape := by
  unfold ofHeader
  dsimp only
  split
  · simp
  · split
    · exact Nat.le_refl _
    · split
      · exact Nat.le_refl _
      · exact left_readSamples_le _ _ _ _

theorem left_lt_of_next {walk : Walk} {tape : σ} {trace : Trace}
    (h : (walk.next tape).answer = .ok (some trace)) :
    Medium.left (walk.next tape).tape < Medium.left tape := by
  unfold next at h ⊢
  dsimp only at h ⊢
  split at h
  · simp at h
  split at h
  · simp at h
  rename_i hOver hCap
  rw [if_neg hOver, if_neg hCap]
  split at h
  · simp at h
  · simp at h
  · rename_i block after hb hr
    have hl := Medium.length_take hr
    have hle := left_ofHeader_le walk walk.decoder.layout.readSize.toNat block after
    cases block with
    | nil => exact (hb rfl).elim
    | cons byte rest =>
        simp only [List.length_cons] at hl
        omega

end

end Walk

end SeisLog
