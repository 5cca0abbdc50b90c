import SeisLog.Proofs.Source
import SeisLog.Proofs.Steady

/-!
# Sources that play a tape

The stalls of such a source have places, whatever is asked for and however the bytes come. So where
a loop ends depends on the bytes that it wants only, and bytes are passed over as they would be read
(`Plays.collect`). A tape is such a source, and the readings of a tape are the loops over it
(`Reading.take_eq_source`). What holds of the loops over any source is in `Source.loops_exact`.
-/

namespace SeisLog

namespace Source

variable {σ : Type} {source : Source σ} {ask : Nat → Nat} {wanted : Nat} {s : σ}

/-- The source plays a tape. At the end and at a stall a read is empty, and the stall is used up;
elsewhere a read brings at least one byte, but none beyond the stall. How many they are is left to
the source; whether it stalls is not, so one whose stalls depend on the reads before plays no tape.
Nothing is said of a tape whose limit is zero, as its reads are all empty. -/
structure Plays (source : Source σ) (tape : σ → Tape) : Prop where
  dry : ∀ {size : Nat} {s : σ}, (tape s).limit ≠ some 0 → 0 < size → (tape s).reach = 0 →
    (source.pull size s).1 = [] ∧ tape (source.pull size s).2 = (tape s).halt
  wet : ∀ {size : Nat} {s : σ}, (tape s).limit ≠ some 0 → 0 < size → 0 < (tape s).reach →
    ∃ count, 0 < count ∧ count ≤ size ∧ count ≤ (tape s).reach ∧
      (source.pull size s).1 = (tape s).unread.take count ∧
      tape (source.pull size s).2 = (tape s).ahead count

variable {tape : σ → Tape}

theorem Plays.reach_eq_zero (h : source.Plays tape) (hl : (tape s).limit ≠ some 0) {size : Nat}
    (hs : 0 < size) (hp : (source.pull size s).1 = []) : (tape s).reach = 0 := by
  rcases Nat.eq_zero_or_pos (tape s).reach with hzero | hreach
  · exact hzero
  · obtain ⟨count, hcount, -, hle, hbytes, -⟩ := h.wet hl hs hreach
    have hlength := congrArg List.length (hbytes.symm.trans hp)
    have hbound := (tape s).reach_le
    rw [List.length_take, List.length_nil] at hlength
    omega

/-- Where a loop over a tape ends depends on the bytes that are wanted only. -/
theorem Plays.collect (h : source.Plays tape) (hask : Modest ask)
    (hl : (tape s).limit ≠ some 0) (wanted : Nat) :
    (source.collect ask wanted s).1.flatten =
        (tape s).unread.take (min wanted (tape s).reach) ∧
      tape (source.collect ask wanted s).2 = (tape s).onward wanted := by
  induction wanted, s using collect_induct source ask with
  | done s => simp
  | dry wanted s hw hp =>
      have hpos := (hask wanted hw).1
      have hzero := h.reach_eq_zero hl hpos hp
      rw [(h.dry hl hpos hzero).2, hzero, Nat.min_zero, Tape.onward, hzero, if_neg (by omega),
        Tape.ahead_zero]
      exact ⟨rfl, rfl⟩
  | more wanted s hw hp rest ih =>
      obtain ⟨hpos, hasked⟩ := hask wanted hw
      have hreach : 0 < (tape s).reach :=
        Nat.pos_of_ne_zero fun hzero => hp (h.dry hl hpos hzero).1
      obtain ⟨count, -, hsize, hle, hbytes, htape⟩ := h.wet hl hpos hreach
      have hbound := (tape s).reach_le
      have hlength : (source.pull (ask wanted) s).1.length = count := by
        rw [hbytes, List.length_take]
        omega
      have hlimit : (tape (source.pull (ask wanted) s).2).limit ≠ some 0 := by
        rw [htape]
        exact hl
      obtain ⟨hrest, hlast⟩ := ih hlimit
      have hmin : min wanted (tape s).reach =
          count + min (wanted - count) ((tape s).reach - count) := by omega
      rw [htape, hlength] at hrest hlast
      refine ⟨?_, ?_⟩
      · rw [List.flatten_cons, hrest, hbytes, Tape.reach_ahead hle, Tape.unread_ahead, hmin,
          List.take_add]
      · rw [hlast, Tape.onward_ahead (Nat.le_trans hsize hasked) hle]

end Source

/-! ### Tapes as sources -/

namespace Tape

def source : Source Tape where
  unread := unread
  pull := pull
  pull_append tape _ := fst_pull_append _ tape
  length_pull_le tape _ := length_pull_le _ tape

theorem plays_source : source.Plays id where
  dry _ _ hr := ⟨congrArg Prod.fst (pull_of_reach_eq_zero hr _),
    congrArg Prod.snd (pull_of_reach_eq_zero hr _)⟩
  wet hl hs hr := by
    obtain ⟨count, hcount, hsize, hle, hpull⟩ := exists_pull hl hs hr
    exact ⟨count, hcount, hsize, hle, congrArg Prod.fst hpull, congrArg Prod.snd hpull⟩

theorem gather_eq_source (size : Nat) (tape : Tape) :
    tape.gather size = source.gather size tape := by
  induction size, tape using gather_induct with
  | done tape =>
      rw [Source.gather, Source.collect_zero]
      rfl
  | dry size tape hs hp =>
      rw [Source.gather, Source.collect_of_nil (Nat.pos_of_ne_zero hs) hp]
      rfl
  | more size tape hs hp rest ih =>
      rw [Source.gather, Source.collect_of_ne_nil (Nat.pos_of_ne_zero hs) hp, ih]
      rfl

theorem pass_of_nil {chunk size : Nat} {tape : Tape} (hs : 0 < size)
    (h : (tape.pull (min chunk size)).1 = []) :
    tape.pass chunk size = (0, (tape.pull (min chunk size)).2) := by
  rw [pass, passFrom, if_neg (Nat.ne_of_gt hs)]
  split
  · rename_i after hp
    rw [hp]
  · rename_i byte bytes after hp
    rw [hp] at h
    cases h

theorem pass_of_ne_nil {chunk size : Nat} {tape : Tape} (hs : 0 < size)
    (h : (tape.pull (min chunk size)).1 ≠ []) :
    tape.pass chunk size =
      let read := tape.pull (min chunk size)
      let rest := pass chunk (size - read.1.length) read.2
      (read.1.length + rest.1, rest.2) := by
  rw [pass, passFrom, if_neg (Nat.ne_of_gt hs)]
  split
  · rename_i after hp
    rw [hp] at h
    exact absurd rfl h
  · rename_i byte bytes after hp
    rw [passFrom_eq, hp, Nat.zero_add]
    rfl

theorem pass_eq_source (chunk size : Nat) (tape : Tape) :
    tape.pass chunk size = source.pass chunk size tape := by
  have hloop : ((source.collect (min chunk) size tape).1.flatten.length,
      (source.collect (min chunk) size tape).2) = tape.pass chunk size := by
    induction size, tape using Source.collect_induct source (min chunk) with
    | done tape =>
        rw [pass, passFrom, if_pos rfl]
        rfl
    | dry size tape hs h => exact (pass_of_nil hs h).symm
    | more size tape hs h rest ih =>
        obtain ⟨hcount, hafter⟩ := Prod.ext_iff.mp ih
        rw [pass_of_ne_nil hs h, List.flatten_cons, List.length_append]
        exact Prod.ext (congrArg ((tape.pull (min chunk size)).1.length + ·) hcount) hafter
  exact hloop.symm

theorem drain_of_nil {chunk : Nat} {tape : Tape} (h : (tape.pull chunk).1 = []) :
    tape.drain chunk = ([], (tape.pull chunk).2) := by
  rw [drain, drainInto]
  split
  · rename_i after hp
    rw [hp]
    rfl
  · rename_i byte bytes after hp
    rw [hp] at h
    cases h

theorem drain_of_ne_nil {chunk : Nat} {tape : Tape} (h : (tape.pull chunk).1 ≠ []) :
    tape.drain chunk =
      let rest := drain chunk (tape.pull chunk).2
      ((tape.pull chunk).1 ++ rest.1, rest.2) := by
  rw [drain, drainInto]
  split
  · rename_i after hp
    rw [hp] at h
    exact absurd rfl h
  · rename_i byte bytes after hp
    rw [drainInto_append, hp, List.reverse_singleton, List.flatten_singleton]

theorem drain_eq_source {chunk : Nat} (hc : 0 < chunk) (tape : Tape) :
    tape.drain chunk = source.drain hc tape := by
  have hloop : ((source.collectAll hc tape).1.flatten, (source.collectAll hc tape).2) =
      tape.drain chunk := by
    induction tape using Source.collectAll_induct hc source with
    | dry tape h => exact (drain_of_nil h).symm
    | more tape h rest ih =>
        obtain ⟨hbytes, hafter⟩ := Prod.ext_iff.mp ih
        rw [drain_of_ne_nil h, List.flatten_cons]
        exact Prod.ext (congrArg ((tape.pull chunk).1 ++ ·) hbytes) hafter
  exact hloop.symm

theorem flowing_of_becomes {tape after : Tape} (h : source.Becomes tape after)
    (hf : tape.Flowing) : after.Flowing := by
  induction h with
  | refl => exact hf
  | @pull tape after size hs _ ih =>
      refine ih ?_
      show (tape.pull size).2.Flowing
      rw [pull, hf.stalls]
      exact hf.ahead _

theorem stallFree_source {tape : Tape} (h : tape.Flowing) : source.StallFree tape := by
  intro after hafter size hs hp
  have hflow := flowing_of_becomes hafter h
  have hzero : after.reach = 0 := plays_source.reach_eq_zero hflow.limit hs hp
  exact List.eq_nil_of_length_eq_zero (hflow.reach.symm.trans hzero)

end Tape

namespace Reading

open Tape

variable {tape : Tape} {size : Int} {chunk : Nat}

theorem take_eq_source (h : tape.Grants size) :
    take size tape =
      (.ok (source.gather size.toNat tape).1, (source.gather size.toNat tape).2) := by
  rw [← gather_eq_source]
  rw [take_tape]
  unfold Grants refused? at h
  split
  · rename_i hs
    rw [show size.toNat = 0 by omega, gather_zero]
    rfl
  · rename_i hs
    rw [if_neg hs] at h
    rw [ofStep, h]

theorem skip_eq_source (hc : 0 < chunk) (h : tape.Grants (min chunk size)) :
    skip size chunk tape =
      (.ok (source.pass chunk size.toNat tape).1, (source.pass chunk size.toNat tape).2) := by
  rw [← pass_eq_source]
  rw [skip_tape]
  unfold Grants refused? at h
  split
  · rename_i hs
    rw [show size.toNat = 0 by omega, Tape.pass, passFrom, if_pos rfl]
    rfl
  · rename_i hs
    rw [if_neg (by omega), show (min (chunk : Int) size).toNat = min chunk size.toNat by omega] at h
    rw [ofStep, h]

theorem takeRest_eq_source (hc : 0 < chunk) (h : tape.Grants chunk) :
    takeRest chunk tape = (.ok (source.drain hc tape).1, (source.drain hc tape).2) := by
  unfold Grants refused? at h
  rw [if_neg (by omega), Int.toNat_natCast] at h
  rw [← drain_eq_source, takeRest_tape, ofStep, h]

end Reading

namespace Source

variable {σ : Type} {s : σ}

/-- Bytes are passed over as they would be read, though the two ask for them differently. -/
theorem Plays.pass_eq_gather {τ : Type} {source : Source σ} {other : Source τ} {tape : σ → Tape}
    {image : τ → Tape} {t : τ} (h : source.Plays tape) (ho : other.Plays image)
    (heq : tape s = image t) (hl : (tape s).limit ≠ some 0) {chunk : Nat} (hc : 0 < chunk)
    (size : Nat) :
    (other.pass chunk size t).1 = (source.gather size s).1.length ∧
      image (other.pass chunk size t).2 = tape (source.gather size s).2 := by
  obtain ⟨hread, hafter⟩ := h.collect modest_id hl size
  obtain ⟨hpassed, hbehind⟩ := ho.collect (modest_min hc) (heq ▸ hl) size
  rw [← heq, ← hread] at hpassed
  rw [← heq, ← hafter] at hbehind
  exact ⟨congrArg List.length hpassed, hbehind⟩

/-- Whatever a source does with requests, a loop over it advances by what it brings: it asks for no
byte that it does not want, and it ends with the last byte that it wants or with an empty read.
Bytes are passed over as they would be read, if they fit into one chunk or if the stalls have places.
Without stalls nothing is missing before the end, and a request may be split anywhere. The readings
of a tape are these loops over it. -/
theorem loops_exact (source : Source σ) (s : σ) (size : Int) {chunk : Nat} (hc : 0 < chunk) :
    (∃ after reads, source.Served size.toNat s after reads ∧ (size ≤ 0 → reads = []) ∧
      source.gather size.toNat s = (brought reads, after) ∧
      source.recorded.gather size.toNat (s, []) = (brought reads, (after, reads))) ∧
    (∃ after reads, source.Served size.toNat s after reads ∧ (size ≤ 0 → reads = []) ∧
      source.pass chunk size.toNat s = ((brought reads).length, after) ∧
      source.recorded.pass chunk size.toNat (s, []) =
        ((brought reads).length, (after, reads))) ∧
    (∃ after reads, brought reads ++ source.unread after = source.unread s ∧
      (∀ read ∈ reads, read.1 = chunk ∧ read.2 ≠ []) ∧
      source.drain hc s = (brought reads, after) ∧
      source.recorded.drain hc (s, []) = (brought reads, (after, reads ++ [(chunk, [])]))) ∧
    (size ≤ chunk → source.pass chunk size.toNat s =
      ((source.gather size.toNat s).1.length, (source.gather size.toNat s).2)) ∧
    (∀ {τ : Type} {other : Source τ} {t : τ} {tape : σ → Tape} {image : τ → Tape},
      source.Plays tape → other.Plays image → tape s = image t → (tape s).limit ≠ some 0 →
      (other.pass chunk size.toNat t).1 = (source.gather size.toNat s).1.length ∧
      image (other.pass chunk size.toNat t).2 = tape (source.gather size.toNat s).2) ∧
    (source.StallFree s →
      (source.gather size.toNat s).1.length = min size.toNat (source.unread s).length ∧
      (source.pass chunk size.toNat s).1 = min size.toNat (source.unread s).length ∧
      (source.drain hc s).1 = source.unread s ∧
      ∀ more,
        let first := source.gather size.toNat s
        let second := source.gather more first.2
        let both := source.gather (size.toNat + more) s
        (first.1, second.1) = both.1.splitAt size.toNat ∧
          source.unread second.2 = source.unread both.2) ∧
    ∀ tape : Tape,
      (tape.Grants size → Reading.take size tape =
        (.ok (Tape.source.gather size.toNat tape).1, (Tape.source.gather size.toNat tape).2)) ∧
      (tape.Grants (min chunk size) → Reading.skip size chunk tape =
        (.ok (Tape.source.pass chunk size.toNat tape).1,
          (Tape.source.pass chunk size.toNat tape).2)) ∧
      (tape.Grants chunk → Reading.takeRest chunk tape =
        (.ok (Tape.source.drain hc tape).1, (Tape.source.drain hc tape).2)) := by
  have hnone : ∀ {after reads}, source.Served size.toNat s after reads →
      size ≤ 0 → reads = [] := by
    intro after reads hserved hs
    rw [Int.toNat_of_nonpos hs] at hserved
    exact hserved.eq_nil
  refine ⟨?gather, ?pass, ?drain, ?fits, ?plays, ?flows, fun tape =>
    ⟨Reading.take_eq_source, Reading.skip_eq_source hc, Reading.takeRest_eq_source hc⟩⟩
  case gather =>
    obtain ⟨after, reads, hserved, hloop⟩ := exists_gather source size.toNat s
    exact ⟨after, reads, hserved, hnone hserved, hloop⟩
  case pass =>
    obtain ⟨after, reads, hserved, hloop⟩ := exists_pass source hc size.toNat s
    exact ⟨after, reads, hserved, hnone hserved, hloop⟩
  case drain => exact exists_drain hc source s
  case fits => exact fun hs => pass_of_le (Int.toNat_le.mpr hs)
  case plays => exact fun h ho heq hl => h.pass_eq_gather ho heq hl hc size.toNat
  case flows =>
    intro h
    have hpass := length_collect_of_stallFree (modest_min hc) h size.toNat
    exact ⟨length_collect_of_stallFree modest_id h _, hpass, collectAll_of_stallFree hc h,
      gather_then_of_stallFree h size.toNat⟩

def fiveInTwos (stalls : List Nat) : Tape := .ofBytes [1, 2, 3, 4, 5] (some 2) stalls

/-- Without a stall, and with one before the fourth byte. -/
theorem loops_exact_fiveInTwos :
    (Tape.source.gather 4 (fiveInTwos [])).1.length = 4 ∧
    (Tape.source.pass 3 4 (fiveInTwos [])).1 = 4 ∧
    (Tape.source.drain (Nat.succ_pos 2) (fiveInTwos [])).1 = [1, 2, 3, 4, 5] ∧
    (Tape.source.pass 3 5 (fiveInTwos [3])).1 =
      (Tape.source.gather 5 (fiveInTwos [3])).1.length ∧
    (Reading.take 5 (fiveInTwos [3])).1 = .ok (Tape.source.gather 5 (fiveInTwos [3])).1 ∧
    (Reading.skip 5 3 (fiveInTwos [3])).1 = .ok (Tape.source.pass 3 5 (fiveInTwos [3])).1 := by
  have hflow : (fiveInTwos []).Flowing := ⟨rfl, by decide⟩
  obtain ⟨-, -, -, -, -, hflowing, -⟩ :=
    loops_exact Tape.source (fiveInTwos []) 4 (Nat.succ_pos 2)
  obtain ⟨hgather, hpass, hdrain, -⟩ := hflowing (Tape.stallFree_source hflow)
  obtain ⟨-, -, -, -, hplays, -, hreading⟩ :=
    loops_exact Tape.source (fiveInTwos [3]) 5 (Nat.succ_pos 2)
  obtain ⟨hagree, -⟩ := hplays Tape.plays_source Tape.plays_source rfl (by decide)
  obtain ⟨htake, hskip, -⟩ := hreading (fiveInTwos [3])
  exact ⟨hgather, hpass, hdrain, hagree, congrArg Prod.fst (htake rfl),
    congrArg Prod.fst (hskip rfl)⟩

/-- Some bytes, and the number of reads so far. The second read is empty, whatever it is for. -/
def secondEmpty : Source (Bytes × Nat) where
  unread := Prod.fst
  pull size s := if s.2 = 1 then ([], s.1, 2) else (s.1.take size, s.1.drop size, s.2 + 1)
  pull_append s _ := by split <;> simp
  length_pull_le s _ := by
    split
    · exact Nat.zero_le _
    · exact List.length_take_le _ _

theorem pull_secondEmpty_eq_nil {size : Nat} {s : Bytes × Nat} (hs : 0 < size)
    (h : (secondEmpty.pull size s).1 = []) : s.2 = 1 ∨ secondEmpty.unread s = [] := by
  by_cases hsecond : s.2 = 1
  · exact .inl hsecond
  · have htake : s.1.take size = [] := by simpa [secondEmpty, hsecond] using h
    exact .inr ((List.take_eq_nil_iff.mp htake).resolve_left (Nat.ne_of_gt hs))

variable {bytes : Bytes}

theorem gather_secondEmpty (hb : bytes ≠ []) :
    (secondEmpty.gather bytes.length (bytes, 0)).1 = bytes := by
  have hpull : secondEmpty.pull bytes.length (bytes, 0) = (bytes, [], 1) := by simp [secondEmpty]
  rw [gather, collect_of_ne_nil (List.length_pos_iff.mpr hb) (by simpa [hpull] using hb)]
  simp [hpull]

/-- Bytes that do not fit into one chunk take a second read. -/
theorem pass_secondEmpty {chunk : Nat} (hc : 0 < chunk) (h : chunk < bytes.length) :
    (secondEmpty.pass chunk bytes.length (bytes, 0)).1 = chunk := by
  have hmin : min chunk bytes.length = chunk := Nat.min_eq_left (Nat.le_of_lt h)
  have hpull : secondEmpty.pull chunk (bytes, 0) = (bytes.take chunk, bytes.drop chunk, 1) := rfl
  have hlength : (bytes.take chunk).length = chunk := List.length_take_of_le (Nat.le_of_lt h)
  have hfirst : (secondEmpty.pull (min chunk bytes.length) (bytes, 0)).1 ≠ [] := by
    rw [hmin, hpull]
    exact List.ne_nil_of_length_pos (hlength.symm ▸ hc)
  rw [pass, collect_of_ne_nil (Nat.lt_trans hc h) hfirst, hmin, hpull]
  dsimp only
  rw [collect_of_nil (by omega) rfl, List.flatten_singleton, hlength]

/-- Where a source stalls at its second read, 70000 bytes are read at once and passed over in two
chunks, of which the second one does not come. In chunks of no bytes none is passed over. -/
theorem loops_exact_of_secondEmpty :
    let bytes : Bytes := List.replicate 70000 0
    let pair := Tape.ofBytes [1, 2] none []
    (∀ size s, 0 < size → (secondEmpty.pull size s).1 = [] →
      s.2 = 1 ∨ secondEmpty.unread s = []) ∧
    (secondEmpty.gather 70000 (bytes, 0)).1 = bytes ∧
    (secondEmpty.pass Reading.usualChunk 70000 (bytes, 0)).1 = 65536 ∧
    (Reading.take 2 pair).1 = .ok [1, 2] ∧ (Reading.skip 2 0 pair).1 = .ok 0 := by
  intro bytes pair
  have hlength : bytes.length = 70000 := List.length_replicate
  have hchunk : Reading.usualChunk < bytes.length := by
    rw [hlength]
    decide
  have hread := gather_secondEmpty (List.ne_nil_of_length_pos (Nat.zero_lt_of_lt hchunk))
  have hpassed := pass_secondEmpty (show 0 < Reading.usualChunk by decide) hchunk
  rw [hlength] at hread hpassed
  have hflow : pair.Flowing := ⟨rfl, nofun⟩
  have htake := congrArg Prod.fst (Reading.take_of_flowing hflow (rfl : pair.Grants 2))
  have hskip : (Reading.skip 2 0 pair).1 = .ok (pair.pass 0 2).1 := rfl
  rw [Tape.pass_zero (Nat.succ_pos 1)] at hskip
  exact ⟨fun size s => pull_secondEmpty_eq_nil, hread, hpassed, htake, hskip⟩

end Source

end SeisLog
