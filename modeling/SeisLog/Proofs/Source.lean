import SeisLog.Bytes

/-!
# Sources

A source is asked for bytes and brings some of the next ones, as few as it likes and when it likes.
The loops over it neither lose bytes nor bring them twice, and they end with the byte that completes
the request or with the first empty read. The reads that they make are told by a source that records
them (`exists_served`). Without stalls they bring what one long read would bring
(`collect_of_stallFree`).
-/

namespace SeisLog

/-- Something that is asked for bytes. What it does with a request may depend on all that was asked
before. -/
structure Source (σ : Type) where
  unread : σ → Bytes
  pull : Nat → σ → Bytes × σ
  pull_append : ∀ {size : Nat} (s : σ), 0 < size →
    (pull size s).1 ++ unread (pull size s).2 = unread s
  length_pull_le : ∀ {size : Nat} (s : σ), 0 < size → (pull size s).1.length ≤ size

namespace Source

variable {σ : Type}

/-- The chunks of a loop for `wanted` bytes, up to an empty read. `ask` tells how many of the bytes
that are still wanted the next read is for. -/
def collect (source : Source σ) (ask : Nat → Nat) (wanted : Nat) (s : σ) : List Bytes × σ :=
  if wanted = 0 then ([], s)
  else
    match source.pull (ask wanted) s with
    | ([], after) => ([], after)
    | (byte :: bytes, after) =>
        let rest := source.collect ask (wanted - (bytes.length + 1)) after
        ((byte :: bytes) :: rest.1, rest.2)
termination_by wanted

/-- Reads until `size` bytes are in hand or a read is empty. -/
def gather (source : Source σ) (size : Nat) (s : σ) : Bytes × σ :=
  let (chunks, after) := source.collect id size s
  (chunks.flatten, after)

/-- Passes over bytes in reads of at most `chunk`, until `size` are behind or a read is empty. -/
def pass (source : Source σ) (chunk size : Nat) (s : σ) : Nat × σ :=
  let (chunks, after) := source.collect (min chunk) size s
  (chunks.flatten.length, after)

def collectAll (source : Source σ) {chunk : Nat} (hc : 0 < chunk) (s : σ) : List Bytes × σ :=
  match h : source.pull chunk s with
  | ([], after) => ([], after)
  | (byte :: bytes, after) =>
      have : (source.unread after).length < (source.unread s).length := by
        have := congrArg List.length (source.pull_append s hc)
        simp only [h, List.length_append, List.length_cons] at this
        omega
      let rest := source.collectAll hc after
      ((byte :: bytes) :: rest.1, rest.2)
termination_by (source.unread s).length

def drain (source : Source σ) {chunk : Nat} (hc : 0 < chunk) (s : σ) : Bytes × σ :=
  let (chunks, after) := source.collectAll hc s
  (chunks.flatten, after)

/-- The same source, with the reads that were made of it: how many bytes each was for, and what it
brought. -/
def recorded (source : Source σ) : Source (σ × List (Nat × Bytes)) where
  unread s := source.unread s.1
  pull size s :=
    let (bytes, after) := source.pull size s.1
    (bytes, after, s.2 ++ [(size, bytes)])
  pull_append s := source.pull_append s.1
  length_pull_le s := source.length_pull_le s.1

/-- Reads for as many bytes are for one at least, and for none that are not wanted. -/
def Modest (ask : Nat → Nat) : Prop := ∀ wanted, 0 < wanted → 0 < ask wanted ∧ ask wanted ≤ wanted

def brought (reads : List (Nat × Bytes)) : Bytes := (reads.map Prod.snd).flatten

/-- The reads of a loop for `wanted` bytes that led a source from one state to another. -/
structure Served (source : Source σ) (wanted : Nat) (s after : σ)
    (reads : List (Nat × Bytes)) : Prop where
  /-- What was brought are the bytes between the two states. -/
  advance : brought reads ++ source.unread after = source.unread s
  /-- A read comes only while bytes are wanted, and is for no more than these. -/
  asks : ∀ earlier read later, reads = earlier ++ read :: later →
    0 < read.1 ∧ (brought earlier).length + read.1 ≤ wanted
  length_le : (brought reads).length ≤ wanted
  /-- An empty read is the last one. -/
  ends : ∀ earlier read later, reads = earlier ++ read :: later → read.2 = [] → later = []
  /-- Bytes are missing only if the last read was empty. -/
  short : (brought reads).length < wanted → ∃ earlier asked, reads = earlier ++ [(asked, [])]

variable {source : Source σ} {ask : Nat → Nat} {wanted : Nat} {s after : σ}
  {reads : List (Nat × Bytes)}

theorem modest_id : Modest id := fun wanted hw => ⟨hw, Nat.le_refl wanted⟩

theorem modest_min {chunk : Nat} (hc : 0 < chunk) : Modest (min chunk) :=
  fun wanted hw => ⟨Nat.lt_min.mpr ⟨hc, hw⟩, Nat.min_le_right chunk wanted⟩

@[simp] theorem collect_zero (source : Source σ) (ask : Nat → Nat) (s : σ) :
    source.collect ask 0 s = ([], s) := by
  rw [collect, if_pos rfl]

theorem collect_of_nil (hw : 0 < wanted) (h : (source.pull (ask wanted) s).1 = []) :
    source.collect ask wanted s = ([], (source.pull (ask wanted) s).2) := by
  rw [collect, if_neg (Nat.ne_of_gt hw)]
  split
  · rename_i after hp
    rw [hp]
  · rename_i byte bytes after hp
    rw [hp] at h
    cases h

theorem collect_of_ne_nil (hw : 0 < wanted) (h : (source.pull (ask wanted) s).1 ≠ []) :
    source.collect ask wanted s =
      let read := source.pull (ask wanted) s
      let rest := source.collect ask (wanted - read.1.length) read.2
      (read.1 :: rest.1, rest.2) := by
  rw [collect, if_neg (Nat.ne_of_gt hw)]
  split
  · rename_i after hp
    rw [hp] at h
    exact absurd rfl h
  · rename_i byte bytes after hp
    rw [hp]
    rfl

/-- What holds of a loop holds because of its first read and of the rest of the loop. -/
@[elab_as_elim]
theorem collect_induct (source : Source σ) (ask : Nat → Nat)
    {motive : Nat → σ → List Bytes × σ → Prop}
    (done : ∀ s, motive 0 s ([], s))
    (dry : ∀ wanted s, 0 < wanted → (source.pull (ask wanted) s).1 = [] →
      motive wanted s ([], (source.pull (ask wanted) s).2))
    (more : ∀ wanted s, 0 < wanted → (source.pull (ask wanted) s).1 ≠ [] →
      ∀ rest : List Bytes × σ,
      motive (wanted - (source.pull (ask wanted) s).1.length) (source.pull (ask wanted) s).2 rest →
      motive wanted s ((source.pull (ask wanted) s).1 :: rest.1, rest.2))
    (wanted : Nat) (s : σ) : motive wanted s (source.collect ask wanted s) := by
  induction wanted using Nat.strongRecOn generalizing s with
  | _ wanted ih =>
      rcases Nat.eq_zero_or_pos wanted with rfl | hw
      · rw [collect_zero]
        exact done s
      · by_cases h : (source.pull (ask wanted) s).1 = []
        · rw [collect_of_nil hw h]
          exact dry wanted s hw h
        · have hpos := List.length_pos_iff.mpr h
          rw [collect_of_ne_nil hw h]
          exact more wanted s hw h _ (ih _ (by omega) _)

theorem collect_congr {other : Nat → Nat} (h : ∀ count ≤ wanted, ask count = other count) :
    source.collect ask wanted s = source.collect other wanted s := by
  induction wanted, s using collect_induct source ask with
  | done s => rw [collect_zero]
  | dry wanted s hw hp =>
      rw [h wanted (Nat.le_refl wanted)] at hp ⊢
      rw [collect_of_nil hw hp]
  | more wanted s hw hp rest ih =>
      have hrest := ih fun count hle => h count (Nat.le_trans hle (Nat.sub_le _ _))
      rw [h wanted (Nat.le_refl wanted)] at hp hrest ⊢
      rw [collect_of_ne_nil hw hp, hrest]

@[simp] theorem brought_nil : brought [] = [] := rfl

@[simp] theorem brought_cons (read : Nat × Bytes) (reads : List (Nat × Bytes)) :
    brought (read :: reads) = read.2 ++ brought reads := rfl

theorem Served.eq_nil (h : source.Served 0 s after reads) : reads = [] := by
  cases reads with
  | nil => rfl
  | cons read later =>
      obtain ⟨hpos, hle⟩ := h.asks [] read later rfl
      omega

theorem served_done (source : Source σ) (s : σ) : source.Served 0 s s [] where
  advance := rfl
  asks earlier read later h := by simp at h
  length_le := Nat.le_refl 0
  ends earlier read later h := by simp at h
  short h := by simp at h

theorem served_dry {asked : Nat} (hpos : 0 < asked) (hle : asked ≤ wanted)
    (h : (source.pull asked s).1 = []) :
    source.Served wanted s (source.pull asked s).2 [(asked, [])] where
  advance := by
    have happend := source.pull_append s hpos
    rwa [h] at happend
  asks earlier read later heq := by
    obtain ⟨rfl, hread⟩ | ⟨rest, -, hrest⟩ := List.cons_eq_append_iff.mp heq
    · obtain ⟨rfl, -⟩ := List.cons.inj hread
      exact ⟨hpos, by simpa using hle⟩
    · simp at hrest
  length_le := Nat.zero_le wanted
  ends earlier read later heq _ := by
    obtain ⟨rfl, hread⟩ | ⟨rest, -, hrest⟩ := List.cons_eq_append_iff.mp heq
    · exact (List.cons.inj hread).2
    · simp at hrest
  short _ := ⟨[], asked, rfl⟩

/-- A read that brought bytes, in front of the rest of its loop. -/
theorem Served.cons {asked : Nat} (hpos : 0 < asked) (hle : asked ≤ wanted)
    (hne : (source.pull asked s).1 ≠ [])
    (h : source.Served (wanted - (source.pull asked s).1.length) (source.pull asked s).2 after
      reads) :
    source.Served wanted s after ((asked, (source.pull asked s).1) :: reads) := by
  have hbound := source.length_pull_le s hpos
  refine ⟨?_, ?_, ?_, ?_, ?_⟩
  · rw [brought_cons, List.append_assoc, h.advance, source.pull_append s hpos]
  · intro earlier read later heq
    obtain ⟨rfl, hread⟩ | ⟨rest, rfl, hrest⟩ := List.cons_eq_append_iff.mp heq
    · obtain ⟨rfl, -⟩ := List.cons.inj hread
      exact ⟨hpos, by simpa using hle⟩
    · obtain ⟨hread, hwanted⟩ := h.asks rest read later hrest
      refine ⟨hread, ?_⟩
      rw [brought_cons, List.length_append]
      dsimp only
      omega
  · have hrest := h.length_le
    rw [brought_cons, List.length_append]
    dsimp only
    omega
  · intro earlier read later heq hempty
    obtain ⟨rfl, hread⟩ | ⟨rest, rfl, hrest⟩ := List.cons_eq_append_iff.mp heq
    · obtain ⟨rfl, -⟩ := List.cons.inj hread
      exact absurd hempty hne
    · exact h.ends rest read later hrest hempty
  · intro hlt
    rw [brought_cons, List.length_append] at hlt
    dsimp only at hlt
    obtain ⟨earlier, last, rfl⟩ := h.short (by omega)
    exact ⟨_ :: earlier, last, rfl⟩

/-- A recorded loop is the loop, with its reads behind those of before. -/
theorem exists_served (source : Source σ) (hask : Modest ask) (wanted : Nat) (s : σ)
    (earlier : List (Nat × Bytes)) :
    ∃ reads, brought reads = (source.collect ask wanted s).1.flatten ∧
      source.recorded.collect ask wanted (s, earlier) =
        ((source.collect ask wanted s).1, ((source.collect ask wanted s).2, earlier ++ reads)) ∧
      source.Served wanted s (source.collect ask wanted s).2 reads := by
  -- by induction on the loop, behind any reads that were recorded before it
  induction wanted, s using collect_induct source ask generalizing earlier with
  | done s => exact ⟨[], rfl, by simp, served_done source s⟩
  | dry wanted s hw h =>
      obtain ⟨hpos, hle⟩ := hask wanted hw
      refine ⟨[(ask wanted, [])], rfl, ?_, served_dry hpos hle h⟩
      rw [collect_of_nil hw (show (source.recorded.pull _ (s, earlier)).1 = [] from h)]
      exact congrArg (fun bytes => ([], (_, earlier ++ [(ask wanted, bytes)]))) h
  | more wanted s hw h rest ih =>
      obtain ⟨hpos, hle⟩ := hask wanted hw
      obtain ⟨reads, hbrought, hrecorded, hserved⟩ :=
        ih (earlier ++ [(ask wanted, (source.pull (ask wanted) s).1)])
      refine ⟨(ask wanted, (source.pull (ask wanted) s).1) :: reads, ?_, ?_,
        hserved.cons hpos hle h⟩
      · rw [brought_cons, hbrought, List.flatten_cons]
      · rw [collect_of_ne_nil hw (show (source.recorded.pull _ (s, earlier)).1 ≠ [] from h)]
        dsimp only [recorded] at hrecorded ⊢
        rw [hrecorded, List.append_assoc]
        rfl

theorem exists_gather (source : Source σ) (size : Nat) (s : σ) :
    ∃ after reads, source.Served size s after reads ∧
      source.gather size s = (brought reads, after) ∧
      source.recorded.gather size (s, []) = (brought reads, (after, reads)) := by
  obtain ⟨reads, hbrought, hrecorded, hserved⟩ := exists_served source modest_id size s []
  rw [List.nil_append] at hrecorded
  refine ⟨_, reads, hserved, ?_, ?_⟩
  · rw [hbrought]
    rfl
  · rw [gather, hrecorded, hbrought]

theorem exists_pass (source : Source σ) {chunk : Nat} (hc : 0 < chunk) (size : Nat) (s : σ) :
    ∃ after reads, source.Served size s after reads ∧
      source.pass chunk size s = ((brought reads).length, after) ∧
      source.recorded.pass chunk size (s, []) = ((brought reads).length, (after, reads)) := by
  obtain ⟨reads, hbrought, hrecorded, hserved⟩ :=
    exists_served source (modest_min hc) size s []
  rw [List.nil_append] at hrecorded
  refine ⟨_, reads, hserved, ?_, ?_⟩
  · rw [hbrought]
    rfl
  · rw [pass, hrecorded, hbrought]

/-- A request that fits into one chunk is passed over in the reads that it would be read in. -/
theorem pass_of_le {chunk size : Nat} (h : size ≤ chunk) :
    source.pass chunk size s =
      ((source.gather size s).1.length, (source.gather size s).2) := by
  have hask : ∀ count ≤ size, min chunk count = id count :=
    fun count hle => Nat.min_eq_right (Nat.le_trans hle h)
  rw [pass, collect_congr hask]
  rfl

/-! ### Draining -/

section

variable {chunk : Nat} (hc : 0 < chunk)

theorem collectAll_of_nil (h : (source.pull chunk s).1 = []) :
    source.collectAll hc s = ([], (source.pull chunk s).2) := by
  rw [collectAll]
  split
  · rename_i after hp
    rw [hp]
  · rename_i byte bytes after hp
    rw [hp] at h
    cases h

theorem collectAll_of_ne_nil (h : (source.pull chunk s).1 ≠ []) :
    source.collectAll hc s =
      let rest := source.collectAll hc (source.pull chunk s).2
      ((source.pull chunk s).1 :: rest.1, rest.2) := by
  rw [collectAll]
  split
  · rename_i after hp
    rw [hp] at h
    exact absurd rfl h
  · rename_i byte bytes after hp
    simp only [hp]

/-- What holds of a draining holds because of its first read and of the rest. -/
@[elab_as_elim]
theorem collectAll_induct (source : Source σ) {motive : σ → List Bytes × σ → Prop}
    (dry : ∀ s, (source.pull chunk s).1 = [] → motive s ([], (source.pull chunk s).2))
    (more : ∀ s, (source.pull chunk s).1 ≠ [] → ∀ rest : List Bytes × σ,
      motive (source.pull chunk s).2 rest →
      motive s ((source.pull chunk s).1 :: rest.1, rest.2))
    (s : σ) : motive s (source.collectAll hc s) := by
  induction hn : (source.unread s).length using Nat.strongRecOn generalizing s with
  | _ n ih =>
      by_cases h : (source.pull chunk s).1 = []
      · rw [collectAll_of_nil hc h]
        exact dry s h
      · have hpos := List.length_pos_iff.mpr h
        have hlength := congrArg List.length (source.pull_append s hc)
        rw [List.length_append] at hlength
        rw [collectAll_of_ne_nil hc h]
        exact more s h _ (ih _ (by omega) _ rfl)

/-- The reads of a draining: the last one is empty, and only that one. -/
theorem exists_drained (source : Source σ) (s : σ) (earlier : List (Nat × Bytes)) :
    ∃ reads, brought reads = (source.collectAll hc s).1.flatten ∧
      source.recorded.collectAll hc (s, earlier) = ((source.collectAll hc s).1,
        ((source.collectAll hc s).2, earlier ++ (reads ++ [(chunk, [])]))) ∧
      brought reads ++ source.unread (source.collectAll hc s).2 = source.unread s ∧
      ∀ read ∈ reads, read.1 = chunk ∧ read.2 ≠ [] := by
  induction s using collectAll_induct hc source generalizing earlier with
  | dry s h =>
      have happend := source.pull_append s hc
      rw [h] at happend
      refine ⟨[], rfl, ?_, happend, by simp⟩
      rw [collectAll_of_nil hc (show (source.recorded.pull _ (s, earlier)).1 = [] from h)]
      exact congrArg (fun bytes => ([], (_, earlier ++ [(chunk, bytes)]))) h
  | more s h rest ih =>
      obtain ⟨reads, hbrought, hrecorded, hadvance, hreads⟩ :=
        ih (earlier ++ [(chunk, (source.pull chunk s).1)])
      refine ⟨(chunk, (source.pull chunk s).1) :: reads, ?_, ?_, ?_,
        List.forall_mem_cons.mpr ⟨⟨rfl, h⟩, hreads⟩⟩
      · rw [brought_cons, hbrought, List.flatten_cons]
      · rw [collectAll_of_ne_nil hc (show (source.recorded.pull _ (s, earlier)).1 ≠ [] from h)]
        dsimp only [recorded] at hrecorded ⊢
        rw [hrecorded, List.append_assoc]
        rfl
      · rw [brought_cons, List.append_assoc, hadvance, source.pull_append s hc]

theorem exists_drain (source : Source σ) (s : σ) :
    ∃ after reads, brought reads ++ source.unread after = source.unread s ∧
      (∀ read ∈ reads, read.1 = chunk ∧ read.2 ≠ []) ∧
      source.drain hc s = (brought reads, after) ∧
      source.recorded.drain hc (s, []) = (brought reads, (after, reads ++ [(chunk, [])])) := by
  obtain ⟨reads, hbrought, hrecorded, hadvance, hreads⟩ := exists_drained hc source s []
  rw [List.nil_append] at hrecorded
  refine ⟨_, reads, hadvance, hreads, ?_, ?_⟩
  · rw [hbrought]
    rfl
  · rw [drain, hrecorded, hbrought]

end

/-! ### Sources without stalls -/

/-- What reads make of a source. -/
inductive Becomes (source : Source σ) : σ → σ → Prop
  | refl (s : σ) : Becomes source s s
  | pull {s after : σ} (size : Nat) : 0 < size → Becomes source (source.pull size s).2 after →
      Becomes source s after

/-- A read is empty only at the end, whatever was read before. -/
def StallFree (source : Source σ) (s : σ) : Prop :=
  ∀ after, source.Becomes s after → ∀ size, 0 < size →
    (source.pull size after).1 = [] → source.unread after = []

theorem StallFree.pull (h : source.StallFree s) {size : Nat} (hs : 0 < size) :
    source.StallFree (source.pull size s).2 :=
  fun after hafter => h after (.pull size hs hafter)

theorem StallFree.eq_nil (h : source.StallFree s) {size : Nat} (hs : 0 < size)
    (hp : (source.pull size s).1 = []) : source.unread s = [] := h s (.refl s) size hs hp

theorem stallFree_collect (hask : Modest ask) (h : source.StallFree s) (wanted : Nat) :
    source.StallFree (source.collect ask wanted s).2 := by
  induction wanted, s using collect_induct source ask with
  | done => exact h
  | dry wanted s hw => exact h.pull (hask wanted hw).1
  | more wanted s hw hp rest ih => exact ih (h.pull (hask wanted hw).1)

/-- Without stalls a loop brings what is wanted, or all that is left. -/
theorem collect_of_stallFree (hask : Modest ask) (h : source.StallFree s) (wanted : Nat) :
    (source.collect ask wanted s).1.flatten = (source.unread s).take wanted ∧
      source.unread (source.collect ask wanted s).2 = (source.unread s).drop wanted := by
  induction wanted, s using collect_induct source ask with
  | done s => exact ⟨rfl, rfl⟩
  | dry wanted s hw hp =>
      have hpos := (hask wanted hw).1
      have happend := source.pull_append s hpos
      rw [hp, List.nil_append, h.eq_nil hpos hp] at happend
      rw [happend, h.eq_nil hpos hp, List.take_nil, List.drop_nil]
      exact ⟨rfl, rfl⟩
  | more wanted s hw hp rest ih =>
      obtain ⟨hpos, hle⟩ := hask wanted hw
      have hbound := Nat.le_trans (source.length_pull_le s hpos) hle
      obtain ⟨htake, hdrop⟩ := ih (h.pull hpos)
      rw [List.flatten_cons, htake, hdrop, ← source.pull_append s hpos, List.take_append,
        List.drop_append, List.take_of_length_le hbound, List.drop_of_length_le hbound,
        List.nil_append]
      exact ⟨rfl, rfl⟩

theorem length_collect_of_stallFree (hask : Modest ask) (h : source.StallFree s) (wanted : Nat) :
    (source.collect ask wanted s).1.flatten.length = min wanted (source.unread s).length := by
  rw [(collect_of_stallFree hask h wanted).1, List.length_take]

/-- Two loops one behind the other split what one loop for both would bring. -/
theorem gather_then_of_stallFree (h : source.StallFree s) (size more : Nat) :
    let first := source.gather size s
    let second := source.gather more first.2
    let both := source.gather (size + more) s
    (first.1, second.1) = both.1.splitAt size ∧
      source.unread second.2 = source.unread both.2 := by
  intro first second both
  obtain ⟨hfirst, hrest⟩ := collect_of_stallFree modest_id h size
  obtain ⟨hsecond, hend⟩ :=
    collect_of_stallFree modest_id (stallFree_collect modest_id h size) more
  obtain ⟨hboth, hlast⟩ := collect_of_stallFree modest_id h (size + more)
  have hread : both.1 = (source.unread s).take (size + more) := hboth
  rw [hrest] at hsecond hend
  rw [List.splitAt_eq, hread, List.take_take, Nat.min_eq_left (Nat.le_add_right size more),
    List.drop_take, Nat.add_sub_cancel_left]
  rw [List.drop_drop] at hend
  exact ⟨Prod.ext hfirst hsecond, hend.trans hlast.symm⟩

theorem collectAll_of_stallFree {chunk : Nat} (hc : 0 < chunk) (h : source.StallFree s) :
    (source.collectAll hc s).1.flatten = source.unread s := by
  induction s using collectAll_induct hc source with
  | dry s hp => exact (h.eq_nil hc hp).symm
  | more s hp rest ih =>
      rw [List.flatten_cons, ih (h.pull hc), source.pull_append s hc]

end Source

end SeisLog
