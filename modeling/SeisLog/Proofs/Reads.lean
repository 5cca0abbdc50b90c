import SeisLog.Proofs.Matching
import SeisLog.Proofs.Playing
import SeisLog.Proofs.Tiling

/-!
# How many reads are made

A recorded tape keeps the reads that are made of it. No operation can tell it from the tape itself
(`Recorded.matching_erases`), so what reads one reads the other, and the record counts the reads.

A loop stops at its first empty read, so all its reads but one bring bytes, however short or
stalled. A trace is read in two loops, and its header takes a byte at least. So the reads of
whatever goes through a tape are bounded by the bytes (`Walk.spends_run`, `Segy.spends_extract`).
-/

namespace SeisLog

/-- A tape, and the reads that were made of it: how many bytes each was for, and what it brought. -/
abbrev Recorded : Type := Tape × List (Nat × Bytes)

namespace Recorded

open Reading

def ofTape (tape : Tape) : Recorded := (tape, [])

def source : Source Recorded := Tape.source.recorded

def ofStep {α : Type} (size : Nat) (step : Recorded → α × Recorded) : Reading Recorded α :=
  fun s =>
    match refusal? size s.1 with
    | some failure => (.error failure, s)
    | none => (.ok (step s).1, (step s).2)

def read (size : Int) : Reading Recorded Bytes :=
  if size ≤ 0 then pure [] else ofStep size.toNat (source.gather size.toNat)

/-- The bytes up to an empty read, which comes at once if it is for nothing. -/
def drain (chunk : Nat) (s : Recorded) : Bytes × Recorded :=
  if hc : 0 < chunk then source.drain hc s else source.pull chunk s

/-! ### Erasure -/

def Erases (s : Recorded) (tape : Tape) : Prop := s.1 = tape

variable {s : Recorded}

theorem collect_eq (ask : Nat → Nat) (wanted : Nat) (s : Recorded) :
    (source.collect ask wanted s).1 = (Tape.source.collect ask wanted s.1).1 ∧
      (source.collect ask wanted s).2.1 = (Tape.source.collect ask wanted s.1).2 := by
  induction wanted, s using Source.collect_induct source ask with
  | done s =>
      rw [Source.collect_zero]
      exact ⟨rfl, rfl⟩
  | dry wanted s hw hp =>
      rw [Source.collect_of_nil hw (show (Tape.source.pull (ask wanted) s.1).1 = [] from hp)]
      exact ⟨rfl, rfl⟩
  | more wanted s hw hp rest ih =>
      rw [Source.collect_of_ne_nil hw (show (Tape.source.pull (ask wanted) s.1).1 ≠ [] from hp)]
      exact ⟨congrArg (_ :: ·) ih.1, ih.2⟩

theorem gather_eq (size : Nat) (s : Recorded) :
    (source.gather size s).1 = (s.1.gather size).1 ∧
      (source.gather size s).2.1 = (s.1.gather size).2 := by
  rw [Tape.gather_eq_source]
  obtain ⟨hbytes, htape⟩ := collect_eq id size s
  exact ⟨congrArg List.flatten hbytes, htape⟩

theorem pass_eq (chunk size : Nat) (s : Recorded) :
    (source.pass chunk size s).1 = (s.1.pass chunk size).1 ∧
      (source.pass chunk size s).2.1 = (s.1.pass chunk size).2 := by
  rw [Tape.pass_eq_source]
  obtain ⟨hbytes, htape⟩ := collect_eq (min chunk) size s
  exact ⟨congrArg (fun chunks => chunks.flatten.length) hbytes, htape⟩

theorem collectAll_eq {chunk : Nat} (hc : 0 < chunk) (s : Recorded) :
    (source.collectAll hc s).1 = (Tape.source.collectAll hc s.1).1 ∧
      (source.collectAll hc s).2.1 = (Tape.source.collectAll hc s.1).2 := by
  induction s using Source.collectAll_induct hc source with
  | dry s hp =>
      rw [Source.collectAll_of_nil hc (show (Tape.source.pull chunk s.1).1 = [] from hp)]
      exact ⟨rfl, rfl⟩
  | more s hp rest ih =>
      rw [Source.collectAll_of_ne_nil hc (show (Tape.source.pull chunk s.1).1 ≠ [] from hp)]
      exact ⟨congrArg (_ :: ·) ih.1, ih.2⟩

theorem drain_eq (chunk : Nat) (s : Recorded) :
    (drain chunk s).1 = (s.1.drain chunk).1 ∧ (drain chunk s).2.1 = (s.1.drain chunk).2 := by
  unfold drain
  split
  · rename_i hc
    rw [Tape.drain_eq_source hc]
    obtain ⟨hbytes, htape⟩ := collectAll_eq hc s
    exact ⟨congrArg List.flatten hbytes, htape⟩
  · rename_i hc
    obtain rfl := Nat.eq_zero_of_not_pos hc
    rw [Tape.drain_zero, ← Tape.pull_zero]
    exact ⟨rfl, rfl⟩

theorem agree_ofStep {α : Type} {size : Nat} {step : Recorded → α × Recorded}
    {plain : Tape → α × Tape}
    (h : ∀ s, (step s).1 = (plain s.1).1 ∧ (step s).2.1 = (plain s.1).2) :
    Agree Erases (ofStep size step) (Reading.ofStep size plain) := by
  rintro s tape rfl
  unfold ofStep Reading.ofStep
  cases refusal? size s.1 with
  | some failure => exact ⟨rfl, rfl⟩
  | none => exact ⟨congrArg Except.ok (h s).1, (h s).2⟩

theorem agree_read (size : Int) : Agree Erases (read size) (Tape.read size) := by
  unfold read Tape.read
  split
  · exact agree_pure []
  · exact agree_ofStep (gather_eq _)

theorem read_eq {size : Int} {answer : Except Failure Bytes} {after : Recorded}
    (h : read size s = (answer, after)) : Tape.read size s.1 = (answer, after.1) := by
  obtain ⟨hanswer, htape⟩ := agree_read size (rfl : Erases s s.1)
  rw [h] at hanswer htape
  exact Prod.ext hanswer.symm htape.symm

instance : Medium Recorded where
  take := read
  takeRest chunk := ofStep chunk (drain chunk)
  skip size chunk :=
    if size ≤ 0 then pure 0 else ofStep (min chunk size.toNat) (source.pass chunk size.toNat)
  close s := (s.1.close, s.2)
  left s := s.1.unread.length
  length_take h := Tape.length_read (read_eq h)
  left_take_le size s := by
    rw [show (read size s).2.1 = (Tape.read size s.1).2 from (agree_read size rfl).2]
    exact Tape.unread_read_le size s.1

/-- Whatever reads a recorded tape reads the tape. -/
theorem matching_erases : Medium.Matching Erases where
  take := agree_read
  takeRest chunk := agree_ofStep (drain_eq chunk)
  skip size chunk := by
    show Agree Erases (Reading.skip size chunk) (Reading.skip size chunk)
    rw [skip_tape]
    unfold Reading.skip Medium.skip instMedium
    dsimp only
    split
    · exact agree_pure 0
    · exact agree_ofStep (pass_eq chunk _)
  close h := congrArg Tape.close h

/-! ### The reads of a loop -/

/-- Only reads lead from one recorded tape to the other, at most `perByte` of them for each byte
that was taken, and `spare` more. -/
structure Spends (perByte spare : Nat) (s after : Recorded) : Prop where
  access : after.1.access = s.1.access
  unread_le : after.1.unread.length ≤ s.1.unread.length
  reads_le : after.2.length + perByte * after.1.unread.length ≤
    s.2.length + perByte * s.1.unread.length + spare

variable {middle after : Recorded} {perByte spare more : Nat}

theorem spends_refl (perByte spare : Nat) (s : Recorded) : Spends perByte spare s s :=
  ⟨rfl, Nat.le_refl _, Nat.le_add_right _ _⟩

theorem Spends.mono {richer : Nat} (h : Spends perByte spare s after) (hp : perByte ≤ richer)
    (hs : spare ≤ more) : Spends richer more s after := by
  have hreads := h.reads_le
  have hunread := Nat.mul_le_mul_left (richer - perByte) h.unread_le
  have hsplit : richer = perByte + (richer - perByte) := by omega
  refine ⟨h.access, h.unread_le, ?_⟩
  rw [hsplit, Nat.add_mul, Nat.add_mul]
  omega

theorem Spends.trans (h : Spends perByte spare s middle)
    (hl : Spends perByte more middle after) : Spends perByte (more + spare) s after := by
  have hfirst := h.reads_le
  have hlater := hl.reads_le
  exact ⟨hl.access.trans h.access, Nat.le_trans hl.unread_le h.unread_le, by omega⟩

/-- A read takes what it brings. -/
theorem spends_pull (size : Nat) (s : Recorded) :
    Spends 1 1 s (source.pull size s).2 ∧
      ((source.pull size s).1 ≠ [] → Spends 1 0 s (source.pull size s).2) := by
  have hlength : (source.pull size s).1.length + (source.pull size s).2.1.unread.length =
      s.1.unread.length := Tape.length_pull size s.1
  have hreads : (source.pull size s).2.2.length = s.2.length + 1 := List.length_append
  have haccess : (source.pull size s).2.1.access = s.1.access := Tape.access_pull size s.1
  refine ⟨⟨haccess, by omega, by omega⟩, fun hp => ⟨haccess, by omega, ?_⟩⟩
  have hpos := List.length_pos_iff.mpr hp
  omega

theorem spends_collect (ask : Nat → Nat) (wanted : Nat) (s : Recorded) :
    Spends 1 1 s (source.collect ask wanted s).2 := by
  induction wanted, s using Source.collect_induct source ask with
  | done s => exact spends_refl 1 1 s
  | dry wanted s hw hp => exact (spends_pull _ s).1
  | more wanted s hw hp rest ih => exact ((spends_pull _ s).2 hp).trans ih

theorem spends_drain (chunk : Nat) (s : Recorded) : Spends 1 1 s (drain chunk s).2 := by
  unfold drain
  split
  · rename_i hc
    show Spends 1 1 s (source.collectAll hc s).2
    induction s using Source.collectAll_induct hc source with
    | dry s hp => exact (spends_pull _ s).1
    | more s hp rest ih => exact ((spends_pull _ s).2 hp).trans ih
  · exact (spends_pull chunk s).1

end Recorded

/-! ### The reads of a reading -/

namespace Reading

def Spends {α : Type} (perByte spare : Nat) (reading : Reading Recorded α) : Prop :=
  ∀ s : Recorded, s.Spends perByte spare (reading s).2

variable {α β : Type} {perByte spare more : Nat}

theorem spends_pure (perByte spare : Nat) (answer : α) :
    Spends perByte spare (pure answer : Reading Recorded α) :=
  fun s => Recorded.spends_refl _ _ s

theorem spends_fail (perByte spare : Nat) (failure : Failure) :
    Spends perByte spare (fail failure : Reading Recorded α) :=
  fun s => Recorded.spends_refl _ _ s

theorem spends_ofExcept (perByte spare : Nat) (answer : Except Failure α) :
    Spends perByte spare (ofExcept answer) := fun s => Recorded.spends_refl _ _ s

theorem Spends.bind {reading : Reading Recorded α} {next : α → Reading Recorded β}
    (h : reading.Spends perByte spare) (hn : ∀ answer, (next answer).Spends perByte more) :
    (reading >>= next).Spends perByte (more + spare) := by
  intro s
  have hfirst := h s
  cases hr : reading s with
  | mk answer after =>
      rw [hr] at hfirst
      cases answer with
      | error failure =>
          rw [bind_of_error next hr]
          exact hfirst.mono (Nat.le_refl perByte) (Nat.le_add_left spare more)
      | ok answer =>
          rw [bind_of_ok next hr]
          exact hfirst.trans (hn answer after)

theorem Spends.map {reading : Reading Recorded α} (h : reading.Spends perByte spare) (f : α → β) :
    (do return f (← reading) : Reading Recorded β).Spends perByte spare := by
  have hmap := h.bind fun answer => spends_pure perByte 0 (f answer)
  rwa [Nat.zero_add] at hmap

/-- What spends reads only neither closes the tape nor opens it. -/
theorem Spends.access {reading : Reading Recorded α} {plain : Reading Tape α}
    (h : reading.Spends perByte spare) (ha : Agree Recorded.Erases reading plain) (tape : Tape) :
    (plain tape).2.access = tape.access := by
  have herases := (ha (rfl : Recorded.Erases (.ofTape tape) tape)).2
  rw [← show (reading (.ofTape tape)).2.1 = (plain tape).2 from herases]
  exact (h _).access

theorem spends_ofStep {size : Nat} {step : Recorded → α × Recorded}
    (h : ∀ s : Recorded, s.Spends 1 1 (step s).2) :
    (Recorded.ofStep size step).Spends (perByte + 1) 1 := by
  intro s
  unfold Recorded.ofStep
  cases refusal? size s.1 with
  | some failure => exact Recorded.spends_refl _ _ s
  | none => exact (h s).mono (Nat.le_add_left _ _) (Nat.le_refl 1)

theorem spends_take (size : Int) : Spends (perByte + 1) 1 (take size) := by
  show Spends (perByte + 1) 1 (Recorded.read size)
  unfold Recorded.read
  split
  · exact spends_pure _ _ []
  · exact spends_ofStep (Recorded.spends_collect id _)

theorem spends_takeRest (chunk : Nat) : Spends (perByte + 1) 1 (takeRest chunk) :=
  spends_ofStep (Recorded.spends_drain chunk)

theorem spends_skip (size : Int) (chunk : Nat) : Spends (perByte + 1) 1 (skip size chunk) := by
  unfold skip Medium.skip Recorded.instMedium
  dsimp only
  split
  · exact spends_pure _ _ 0
  · exact spends_ofStep (Recorded.spends_collect (min chunk) _)

theorem spends_textRest (charset : String) : Spends (perByte + 1) 1 (textRest charset) :=
  (spends_ofExcept _ 0 _).bind fun _ => (spends_takeRest _).map _

theorem spends_textBlock (size : Int) (charset : String) (strict : Bool) :
    Spends (perByte + 1) 1 (textBlock size charset strict) := by
  refine (spends_ofExcept _ 0 _).bind fun _ => (spends_take size).bind fun bytes => ?_
  split
  · exact spends_fail _ _ _
  · exact spends_pure _ _ _

theorem spends_text (charset : String) (size? : Option Int) :
    Spends (perByte + 1) 1 (text charset size?) := by
  cases size? with
  | none => exact spends_textRest charset
  | some size => exact spends_textBlock size charset true

theorem spends_header (layout : Layout) (charset? : Option String) :
    Spends (perByte + 1) 1 (header layout charset?) := by
  refine (spends_ofExcept _ 0 _).bind fun _ => (spends_take _).bind fun block => ?_
  split
  · exact spends_fail _ _ _
  · exact spends_ofExcept _ _ _

end Reading

namespace Walk

variable {walk : Walk} {s : Recorded}

theorem spends_readSamples (walk : Walk) (header : Header) (count : Nat) (s : Recorded) :
    s.Spends 1 1 (walk.readSamples header count s).tape := by
  have htake : s.Spends 1 1 (Reading.take (count * walk.coding.width : Nat) s).2 :=
    Reading.spends_take _ s
  unfold readSamples
  dsimp only
  split
  · rename_i hr
    rwa [hr] at htake
  · rename_i hr
    rw [tape_ofSamples]
    rwa [hr] at htake

theorem spends_ofHeader (walk : Walk) (size : Nat) (block : Bytes) (s : Recorded) :
    s.Spends 1 1 (walk.ofHeader size block s).tape := by
  unfold ofHeader
  dsimp only
  split
  · rw [tape_fail]
    exact Recorded.spends_refl 1 1 s
  · split
    · exact Recorded.spends_refl 1 1 s
    · split
      · exact Recorded.spends_refl 1 1 s
      · exact spends_readSamples _ _ _ _

/-- A call makes two loops at most: one for a header and one for samples. -/
theorem spends_next (walk : Walk) (s : Recorded) : s.Spends 1 2 (walk.next s).tape := by
  have htake : s.Spends 1 1 (Reading.take walk.decoder.layout.readSize s).2 :=
    Reading.spends_take _ s
  unfold next
  split
  · exact Recorded.spends_refl 1 2 s
  · split
    · exact Recorded.spends_refl 1 2 s
    · dsimp only
      split
      · rename_i hr
        rw [hr] at htake
        exact htake.mono (Nat.le_refl 1) (Nat.le_succ 1)
      · rename_i hr
        rw [hr] at htake
        exact htake.mono (Nat.le_refl 1) (Nat.le_succ 1)
      · rename_i hr
        rw [hr] at htake
        exact htake.trans (spends_ofHeader _ _ _ _)

/-- The two loops of a trace cost no more than two reads for a byte of its header. -/
theorem spends_of_trace {trace : Trace} (h : (walk.next s).answer = .ok (some trace)) :
    s.Spends 3 0 (walk.next s).tape := by
  have hspends := spends_next walk s
  have hreads := hspends.reads_le
  have hlt : (walk.next s).tape.1.unread.length < s.1.unread.length := left_lt_of_next h
  exact ⟨hspends.access, hspends.unread_le, by omega⟩

theorem spends_run (wanted : Option Nat) (walk : Walk) (s : Recorded) :
    s.Spends 3 2 (walk.run wanted s).tape := by
  induction wanted, walk, s using run_induct with
  | stopped walk s => exact Recorded.spends_refl 3 2 s
  | failed wanted walk s => exact (spends_next walk s).mono (by decide) (Nat.le_refl 2)
  | ended wanted walk s => exact (spends_next walk s).mono (by decide) (Nat.le_refl 2)
  | yielded wanted walk s trace hw ha rest ih => exact (spends_of_trace ha).trans ih

theorem agree_next_ofTape (walk : Walk) (tape : Tape) :
    (walk.next (Recorded.ofTape tape)).Agree Recorded.Erases (walk.next tape) :=
  agree_next Recorded.matching_erases rfl walk

theorem agree_run_ofTape (wanted : Option Nat) (walk : Walk) (tape : Tape) :
    (walk.run wanted (Recorded.ofTape tape)).Agree Recorded.Erases (walk.run wanted tape) :=
  agree_run Recorded.matching_erases rfl wanted walk

theorem access_next (walk : Walk) (tape : Tape) : (walk.next tape).tape.access = tape.access := by
  rw [← (agree_next_ofTape walk tape).tape]
  exact (spends_next walk _).access

theorem unread_next_le (walk : Walk) (tape : Tape) :
    (walk.next tape).tape.unread.length ≤ tape.unread.length := by
  rw [← (agree_next_ofTape walk tape).tape]
  exact (spends_next walk _).unread_le

theorem access_run (wanted : Option Nat) (walk : Walk) (tape : Tape) :
    (walk.run wanted tape).tape.access = tape.access := by
  rw [← (agree_run_ofTape wanted walk tape).tape]
  exact (spends_run wanted walk _).access

theorem ownsTape_next (walk : Walk) (tape : Tape) :
    (walk.next tape).walk.ownsTape = walk.ownsTape := by
  obtain ⟨_, -, hdoes⟩ := next_does walk tape
  exact hdoes.ownsTape

/-- Who closes the tape is settled when a walk starts. -/
theorem ownsTape_run (wanted : Option Nat) (walk : Walk) (tape : Tape) :
    (walk.run wanted tape).walk.ownsTape = walk.ownsTape := by
  induction wanted, walk, tape using run_induct with
  | stopped => rfl
  | failed wanted walk tape => exact ownsTape_next walk tape
  | ended wanted walk tape => exact ownsTape_next walk tape
  | yielded wanted walk tape trace hw ha rest ih => exact ih.trans (ownsTape_next walk tape)

end Walk

namespace Handling

/-- The handlings that give a walk up at last, whatever its calls gave. -/
def givesUp : Handling → Bool
  | .close => true
  | .within _ => true
  | _ => false

variable {handling : Handling}

/-- Every other handling only reads. -/
theorem spends_apply (h : handling.givesUp = false) (walk : Walk) (s : Recorded) :
    s.Spends 3 2 (handling.apply walk s).2.2 := by
  cases handling with
  | next => exact (walk.spends_next s).mono (by decide) (Nat.le_refl 2)
  | iterate wanted => exact walk.spends_run wanted s
  | within count => cases h
  | close => cases h
  | summarize =>
      rw [apply, Walk.summarize_eq]
      exact walk.spends_run none s
  | tabulate limit =>
      rw [apply, Walk.tabulate_eq]
      exact walk.spends_run _ s

theorem agree_apply_ofTape (handling : Handling) (walk : Walk) (tape : Tape) :
    let recorded := handling.apply walk (Recorded.ofTape tape)
    let plain := handling.apply walk tape
    recorded.1 = plain.1 ∧ recorded.2.1 = plain.2.1 ∧ recorded.2.2.1 = plain.2.2 :=
  agree_apply Recorded.matching_erases rfl handling walk

theorem access_apply (h : handling.givesUp = false) (walk : Walk) (tape : Tape) :
    (handling.apply walk tape).2.2.access = tape.access := by
  obtain ⟨-, -, hleft⟩ := handling.agree_apply_ofTape walk tape
  rw [← hleft]
  exact (spends_apply h walk (.ofTape tape)).access

end Handling

/-- A summary of traces by a walk that does not own the tape. -/
theorem Reading.spends_summary (layout : Layout) {options : Walk.Options}
    (h : options.ownsTape = false) : Spends 3 2 (summary layout options) := by
  intro s
  unfold summary
  cases hs : Walk.start layout options with
  | error failure => exact Recorded.spends_refl 3 _ s
  | ok walk =>
      have hrun := Walk.agree_run Recorded.matching_erases (rfl : Recorded.Erases s s.1) none walk
      have howns : (walk.run none s).walk.ownsTape = false := by
        rw [hrun.walk, Walk.ownsTape_run, (Walk.fresh_start hs).ownsTape, h]
      dsimp only
      rw [Walk.summarize_eq]
      dsimp only
      rw [Walk.close, howns]
      exact Walk.spends_run none walk s

namespace Segy

open Reading

theorem spends_binaryHeader (config : Config) : Spends 3 1 (binaryHeader config) := by
  unfold binaryHeader
  split
  · exact spends_header _ _
  · refine (spends_header _ _).bind fun header => ?_
    exact (spends_ofExcept _ _ _).map _

theorem spends_walkRegion (config : Config) (header : Header) (format : SampleFormat) :
    Spends 3 2 (walkRegion config header format) := by
  unfold walkRegion
  refine (spends_ofExcept 3 0 _).bind fun flag => (spends_ofExcept 3 0 _).bind fun count => ?_
  exact (spends_summary _ rfl).map _

theorem spends_survey (config : Config) (header : Header) (format : SampleFormat) :
    Spends 3 3 (survey config header format) := by
  unfold survey
  split
  · exact spends_pure 3 3 _
  · refine (spends_ofExcept 3 0 _).bind fun extended => ?_
    split
    · exact spends_pure 3 3 _
    · dsimp only
      refine (spends_skip _ _).bind fun passed => ?_
      split
      · split
        · exact spends_pure 3 2 _
        · exact spends_fail 3 2 _
      · exact spends_walkRegion config header format

/-- An extraction makes a bounded number of reads, also where it fails. -/
theorem spends_extract (config : Config) : Spends 3 5 (extract config) := by
  unfold extract
  refine (spends_ofExcept 3 0 _).bind fun _ => (spends_ofExcept 3 0 _).bind fun _ => ?_
  refine (spends_text _ _).bind fun text => ?_
  refine (spends_binaryHeader config).bind fun header => ?_
  refine (spends_ofExcept 3 0 _).bind fun code => ?_
  dsimp only
  split
  · exact (spends_survey config header _).map _
  · exact (spends_pure 3 3 _).map _

end Segy

end SeisLog
