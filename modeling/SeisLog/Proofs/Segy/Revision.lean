import SeisLog.Proofs.Segy.Headings

/-!
# The binary layout by revision

A configuration without a binary layout takes the one of the revision word. To be told that layout
beforehand makes no difference, save for the name in the failure of a block that a stall cut short:
a block of the first revision is read by the layout of the second (`extract_told`).
-/

namespace SeisLog.Segy

def Config.told (config : Config) (block : Bytes) : Config :=
  { config with binaryLayout := some (binaryForRevision (revision block)) }

theorem check_told (config : Config) (block : Bytes) : (config.told block).check = .ok () := by
  unfold Config.told binaryForRevision
  by_cases hr : (revision block : Int) = 0
  · rw [if_pos hr]
    rfl
  · rw [if_neg hr]
    rfl

theorem readSize_binaryForRevision (revision : Int) :
    (binaryForRevision revision).readSize = 400 := by
  unfold binaryForRevision
  split
  · rfl
  · rfl

/-- Both revisions are told from the same 302 bytes, and the first one has no field behind them. -/
theorem headerOf_congr {block other : Bytes} (hr : revision block = 0)
    (h : block.take 302 = other.take 302) : headerOf block = headerOf other := by
  have hrevision : revision other = 0 := by
    rw [← hr, revision, revision, Bytes.slice_congr (Nat.le_refl 302) h]
  have hsize : (Decoder.of binaryRev0 .usAscii).layout.requiredSize ≤ 302 := by decide
  rw [headerOf_eq block .usAscii, headerOf_eq other .usAscii, hr, hrevision]
  exact Decoder.header_congr _ hsize h

variable {config : Config} {charset : Charset} {tape : Tape}

/-- What the two configurations make of the binary header on any tape that holds the block. -/
theorem binaryHeader_told (hb : config.binaryLayout = none)
    (hc : Charset.named? config.charset = some charset) {block : Bytes}
    (hblock : tape.unread.take 400 = block) :
    let told := config.told block
    binaryHeader told tape = binaryHeader config tape ∨
      ∃ actual after, actual < 400 ∧
        binaryHeader config tape =
          (.error (.header ⟨.stream binaryRev1.name, 400, actual⟩), after) ∧
        binaryHeader told tape =
          (.error (.header ⟨.stream (binaryForRevision (revision block)).name, 400, actual⟩),
            after) := by
  intro told
  have hsize : config.probe.readSize = 400 := readSize_probe_of_none hb
  have hsizeTold : told.probe.readSize = 400 := readSize_binaryForRevision _
  have hread := Reading.header_eq (Decoder.make_of_named hc config.probe) tape
  have hknown : Charset.named? told.charset = some charset := hc
  have hreadTold := Reading.header_eq (Decoder.make_of_named hknown told.probe) tape
  rw [hsize] at hread
  rw [hsizeTold] at hreadTold
  cases htake : Reading.take 400 tape with
  | mk answer after =>
      rw [htake] at hread hreadTold
      cases answer with
      | error failure =>
          refine .inl ?_
          rw [binaryHeader_of_error hread, binaryHeader_of_error hreadTold]
      | ok bytes =>
          by_cases hl : (bytes.length : Int) < 400
          · simp only [if_pos hl] at hread hreadTold
            have hsmall : (400 : Int).natAbs < 1 <<< 64 := by decide
            rw [Failure.told_header_of_lt hsmall] at hread hreadTold
            refine .inr ⟨bytes.length, after, by omega, ?_, ?_⟩
            · rw [binaryHeader_of_error hread, probe_of_none hb]
            · exact binaryHeader_of_error hreadTold
          · simp only [if_neg hl] at hread hreadTold
            obtain ⟨happend, hle⟩ := Reading.take_append htake
            have hbytes : bytes = block := by
              have hlength : bytes.length = 400 := by omega
              rw [← hblock, ← happend, ← hlength, List.take_left]
            subst hbytes
            refine .inl ?_
            rw [binaryHeader_of_ok hread, binaryHeader_of_ok hreadTold,
              Config.headerOf_of_none hb, headerOf_eq bytes charset]
            rfl

/-- The textual header is read alike, and leaves the block next on the tape. -/
theorem headings_told (hb : config.binaryLayout = none)
    (hc : Charset.named? config.charset = some charset) {block : Bytes}
    (hblock : (tape.unread.drop config.textHeaderSize.toNat).take 400 = block) :
    let told := config.told block
    headings told tape = headings config tape ∨
      ∃ actual after, actual < 400 ∧
        headings config tape =
          (.error (.header ⟨.stream binaryRev1.name, 400, actual⟩), after) ∧
        headings told tape =
          (.error (.header ⟨.stream (binaryForRevision (revision block)).name, 400, actual⟩),
            after) := by
  intro told
  have hread := headings_eq (check_of_none hb) hc tape
  have hreadTold := headings_eq (show told.check = .ok () from check_told config block) hc tape
  rw [hread, hreadTold]
  cases htext : Reading.text config.charset (some config.textHeaderSize) tape with
  | mk answer after =>
      cases answer with
      | error failure =>
          refine .inl ?_
          rw [Reading.bind_of_error _ htext, Reading.bind_of_error _ (show
            Reading.text told.charset (some told.textHeaderSize) tape = _ from htext)]
      | ok text =>
          have hunread := Reading.unread_of_text hc htext
          rw [Reading.bind_of_ok _ htext, Reading.bind_of_ok _ (show
            Reading.text told.charset (some told.textHeaderSize) tape = _ from htext)]
          have hnext : after.unread.take 400 = block := hunread ▸ hblock
          rcases binaryHeader_told hb hc hnext with
            hsame | ⟨actual, left, hactual, hcut, hcutTold⟩
          · refine .inl ?_
            simp only [bind]
            rw [hsame]
          · exact .inr ⟨actual, left, hactual, Reading.bind_of_error _ hcut,
              Reading.bind_of_error _ hcutTold⟩

/-- Where the headings lie within the reach, no block is short. -/
theorem headings_told_of_reach (hb : config.binaryLayout = none)
    (hc : Charset.named? config.charset = some charset) (hl : tape.limit ≠ some 0)
    (hr : config.textHeaderSize.toNat + 400 ≤ tape.reach) {block : Bytes}
    (hblock : (tape.unread.drop config.textHeaderSize.toNat).take 400 = block) :
    headings (config.told block) tape = headings config tape := by
  let told := config.told block
  have hsizeTold : told.probe.readSize = 400 := readSize_binaryForRevision _
  have hcheck : told.check = .ok () := check_told config block
  have hread := headings_of_reach hcheck hc (by omega) hl (by rwa [Config.headingsSize, hsizeTold])
  have hheader : told.headerOf charset block = headerOf block := (headerOf_eq block charset).symm
  unfold Config.headingsSize Config.blockIn at hread
  rw [hsizeTold, show (400 : Int).toNat = 400 from rfl,
    show told.textHeaderSize = config.textHeaderSize from rfl, hblock, hheader] at hread
  rw [hread, headings_of_none hc hb hl hr, hblock]

theorem headings_of_words (hb : config.binaryLayout = none)
    (hc : Charset.named? config.charset = some charset) (hl : tape.limit ≠ some 0)
    (hr : config.textHeaderSize.toNat + 400 ≤ tape.reach)
    (hrevision : revision ((tape.unread.drop config.textHeaderSize.toNat).take 400) = 0)
    {bytes : Bytes} (hlength : bytes.length = tape.unread.length)
    (hfront : bytes.take (config.textHeaderSize.toNat + 302) =
      tape.unread.take (config.textHeaderSize.toNat + 302))
    (hback : bytes.drop (config.textHeaderSize.toNat + 306) =
      tape.unread.drop (config.textHeaderSize.toNat + 306)) :
    let other : Tape := { tape with unread := bytes }
    (∃ failure after rest, headings config tape = (.error failure, after) ∧
      headings config other = (.error failure, rest) ∧ rest.position = after.position) ∨
      ∃ found after, headings config tape = (.ok found, after) ∧
        headings config other = (.ok found, after) := by
  intro other
  let size := config.textHeaderSize.toNat
  have hreach : other.reach = tape.reach := by
    unfold Tape.reach
    rw [hlength]
  have htext : bytes.take size = tape.unread.take size := by
    have h := congrArg (List.take size) hfront
    rwa [List.take_take, List.take_take, Nat.min_eq_left (Nat.le_add_right _ _)] at h
  have hheader : headerOf ((bytes.drop size).take 400) =
      headerOf ((tape.unread.drop size).take 400) := by
    refine (headerOf_congr hrevision ?_).symm
    have h := congrArg (List.drop size) hfront
    rw [List.drop_take, List.drop_take, Nat.add_sub_cancel_left] at h
    rw [List.take_take, List.take_take]
    exact h.symm
  have hahead : other.ahead (size + 400) = tape.ahead (size + 400) := by
    have h := congrArg (List.drop 94) hback
    rw [List.drop_drop, List.drop_drop] at h
    exact Tape.ahead_congr hlength h
  have hrefused : ∀ size, Reading.refused? size other = Reading.refused? size tape :=
    Reading.refused?_congr rfl
  rw [headings_of_none hc hb hl hr,
    headings_of_none hc hb (show other.limit ≠ some 0 from hl) (hreach.symm ▸ hr), hrefused,
    hrefused]
  cases Reading.refused? config.textHeaderSize tape with
  | some failure => exact .inl ⟨failure, tape, other, rfl, rfl, rfl⟩
  | none =>
      cases Reading.refused? 400 tape with
      | some failure =>
          refine .inl ⟨failure, _, _, rfl, rfl, ?_⟩
          rw [Tape.position_ahead, Tape.position_ahead, hlength]
      | none =>
          refine .inr ⟨_, _, rfl, ?_⟩
          rw [← hahead, ← htext, ← hheader]

theorem surveyed_told (config : Config) (block : Bytes) :
    surveyed (config.told block) = surveyed config := rfl

theorem headings_told_of_unknown (hb : config.binaryLayout = none)
    (hc : Charset.named? config.charset = none) (block : Bytes) (tape : Tape) :
    headings (config.told block) tape = headings config tape := by
  have hcheck : (config.told block).check = .ok () := check_told config block
  rw [headings_of_unknown (check_of_none hb) hc, headings_of_unknown hcheck hc]
  rfl

theorem project_decode (charset? : Option String) {block : Bytes} (hl : 400 ≤ block.length) :
    (binaryRev1.decode charset? block).map (project · binaryRev0) =
      binaryRev0.decode charset? block := by
  have hwide : binaryRev1.requiredSize ≤ block.length :=
    Nat.le_trans (by decide) hl
  have hnarrow : binaryRev0.requiredSize ≤ block.length :=
    Nat.le_trans (by decide) hl
  have hdecode : ∀ layout : Layout, layout.hasText = false →
      layout.requiredSize ≤ block.length →
      layout.decode charset? block = .ok (Decoder.header ⟨layout, .usAscii⟩ block) := by
    intro layout htext hle
    have hmake : Decoder.make layout charset? = .ok ⟨layout, .usAscii⟩ := by
      unfold Decoder.make
      rw [htext]
      rfl
    rw [Layout.decode, hmake]
    exact Decoder.decode_of_le hle
  rw [hdecode binaryRev1 (by decide) hwide, hdecode binaryRev0 (by decide) hnarrow]
  exact congrArg Except.ok (project_header mem_binaryRev1 .usAscii block)

theorem extract_eq_of_headings {told : Config} (hsurveyed : surveyed told = surveyed config)
    (h : headings told tape = headings config tape) : extract told tape = extract config tape := by
  rw [extract_eq, extract_eq, hsurveyed]
  simp only [bind]
  rw [h]

/-- In the first revision the flag and the number of extended headers play no part. -/
theorem extract_of_words (hb : config.binaryLayout = none) (hl : tape.limit ≠ some 0)
    (hr : config.textHeaderSize.toNat + 400 ≤ tape.reach)
    (hrevision : revision ((tape.unread.drop config.textHeaderSize.toNat).take 400) = 0)
    {bytes : Bytes} (hlength : bytes.length = tape.unread.length)
    (hfront : bytes.take (config.textHeaderSize.toNat + 302) =
      tape.unread.take (config.textHeaderSize.toNat + 302))
    (hback : bytes.drop (config.textHeaderSize.toNat + 306) =
      tape.unread.drop (config.textHeaderSize.toNat + 306)) :
    (extract config { tape with unread := bytes }).1 = (extract config tape).1 ∧
      (extract config { tape with unread := bytes }).2.position =
        (extract config tape).2.position := by
  rw [extract_eq]
  cases hc : Charset.named? config.charset with
  | none =>
      have hread := headings_of_unknown (check_of_none hb) hc
      rw [Reading.bind_of_error _ (hread _), Reading.bind_of_error _ (hread _)]
      exact ⟨rfl, rfl⟩
  | some charset =>
      rcases headings_of_words hb hc hl hr hrevision hlength hfront hback with
        ⟨failure, after, rest, hfail, hother, hposition⟩ | ⟨found, after, hok, hother⟩
      · rw [Reading.bind_of_error _ hfail, Reading.bind_of_error _ hother]
        exact ⟨rfl, hposition⟩
      · rw [Reading.bind_of_ok _ hok, Reading.bind_of_ok _ hother]
        exact ⟨rfl, rfl⟩

theorem extract_told_of_reach (hb : config.binaryLayout = none) (hl : tape.limit ≠ some 0)
    (hr : config.textHeaderSize.toNat + 400 ≤ tape.reach) {block : Bytes}
    (hblock : (tape.unread.drop config.textHeaderSize.toNat).take 400 = block) :
    extract (config.told block) tape = extract config tape := by
  refine extract_eq_of_headings (surveyed_told config block) ?_
  cases hc : Charset.named? config.charset with
  | none => exact headings_told_of_unknown hb hc block tape
  | some charset => exact headings_told_of_reach hb hc hl hr hblock

/-- Wherever the stalls are, the tape is left alike, and only the name in a cut may differ. -/
theorem extract_told_or_cut (hb : config.binaryLayout = none) {block : Bytes}
    (hblock : (tape.unread.drop config.textHeaderSize.toNat).take 400 = block) :
    let told := config.told block
    (extract told tape).2 = (extract config tape).2 ∧
      ((extract told tape).1 = (extract config tape).1 ∨
        revision block = 0 ∧ ∃ actual < 400,
          (extract config tape).1 = .error (.header ⟨.stream binaryRev1.name, 400, actual⟩) ∧
          (extract told tape).1 = .error (.header ⟨.stream binaryRev0.name, 400, actual⟩)) := by
  intro told
  have hsame : headings told tape = headings config tape →
      extract told tape = extract config tape :=
    extract_eq_of_headings (surveyed_told config block)
  cases hc : Charset.named? config.charset with
  | none =>
      have heq := hsame (headings_told_of_unknown hb hc block tape)
      exact ⟨congrArg Prod.snd heq, .inl (congrArg Prod.fst heq)⟩
  | some charset =>
      rcases headings_told hb hc hblock with heq | ⟨actual, after, hactual, hcut, hcutTold⟩
      · exact ⟨congrArg Prod.snd (hsame heq), .inl (congrArg Prod.fst (hsame heq))⟩
      · rw [extract_eq told, extract_eq config, Reading.bind_of_error _ hcut,
          Reading.bind_of_error _ hcutTold]
        refine ⟨rfl, ?_⟩
        by_cases hr : revision block = 0
        · refine .inr ⟨hr, actual, hactual, rfl, ?_⟩
          rw [show revision _ = 0 from hr]
          rfl
        · refine .inl ?_
          rw [binaryForRevision, if_neg (fun hz => hr (Int.natCast_eq_zero.mp hz))]

/-- To be told the layout of the revision word makes no difference to what a stream yields or to
where it is left. Only a block that a stall cuts short, and that is of the first revision, is
called by the name of the other layout in the failure. -/
theorem extract_told (hb : config.binaryLayout = none)
    (hl : config.textHeaderSize.toNat + 400 ≤ tape.unread.length) :
    let block := (tape.unread.drop config.textHeaderSize.toNat).take 400
    let told := config.told block
    (extract told tape).2 = (extract config tape).2 ∧
      ((extract told tape).1 = (extract config tape).1 ∨
        revision block = 0 ∧ ∃ actual < 400,
          (extract config tape).1 =
            .error (.header ⟨.stream "segy_binary_header_rev1", 400, actual⟩) ∧
          (extract told tape).1 =
            .error (.header ⟨.stream "segy_binary_header_rev0", 400, actual⟩)) ∧
      (tape.limit ≠ some 0 → config.textHeaderSize.toNat + 400 ≤ tape.reach →
        (extract told tape).1 = (extract config tape).1) ∧
      (binaryRev1.decode (some config.charset) block).map (project · binaryRev0) =
        binaryRev0.decode (some config.charset) block ∧
      (revision block = 0 → tape.limit ≠ some 0 →
        config.textHeaderSize.toNat + 400 ≤ tape.reach →
        ∀ bytes : Bytes, bytes.length = tape.unread.length →
          bytes.take (config.textHeaderSize.toNat + 302) =
            tape.unread.take (config.textHeaderSize.toNat + 302) →
          bytes.drop (config.textHeaderSize.toNat + 306) =
            tape.unread.drop (config.textHeaderSize.toNat + 306) →
          (extract config { tape with unread := bytes }).1 = (extract config tape).1 ∧
            (extract config { tape with unread := bytes }).2.position =
              (extract config tape).2.position) := by
  intro block told
  have hlength : 400 ≤ block.length := by
    rw [List.length_take, List.length_drop]
    omega
  obtain ⟨hleft, hanswer⟩ := extract_told_or_cut hb (show _ = block from rfl)
  refine ⟨hleft, hanswer, ?_, project_decode _ hlength, ?_⟩
  · intro hlimit hreach
    exact congrArg Prod.fst (extract_told_of_reach hb hlimit hreach rfl)
  · intro hr hlimit hreach bytes hsize hfront hback
    exact extract_of_words hb hlimit hreach hr hsize hfront hback

/-- One letter, a binary header of the first revision with one-byte samples, and a trace of two. -/
def firstRevision : Tape :=
  .ofBytes ([0xE3] ++ List.replicate 24 0 ++ [0, 8] ++ List.replicate 374 0 ++
    List.replicate 114 0 ++ [0, 2] ++ List.replicate 124 0 ++ [7, 9]) (some 5) []

def firstLetter : Config where
  textHeaderSize := 1
  summarizes := true

theorem extract_told_firstRevision :
    firstLetter.binaryLayout = none ∧
      firstLetter.textHeaderSize.toNat + 400 ≤ firstRevision.unread.length ∧
      revision ((firstRevision.unread.drop 1).take 400) = 0 ∧
      extract { firstLetter with binaryLayout := some binaryRev0 } firstRevision =
        extract firstLetter firstRevision := by
  have hb : firstLetter.binaryLayout = none := rfl
  have hl : firstLetter.textHeaderSize.toNat + 400 ≤ firstRevision.unread.length := by
    decide +kernel
  have hr : revision ((firstRevision.unread.drop 1).take 400) = 0 := by decide +kernel
  obtain ⟨hleft, -, hwithin, -, -⟩ := extract_told hb hl
  have htold : firstLetter.told ((firstRevision.unread.drop 1).take 400) =
      { firstLetter with binaryLayout := some binaryRev0 } := by
    rw [Config.told, hr]
    rfl
  rw [show firstLetter.textHeaderSize.toNat = 1 from rfl, htold] at hleft hwithin
  exact ⟨hb, hl, hr, Prod.ext (hwithin (by decide) hl) hleft⟩

def noLetter : Config where
  textHeaderSize := 0

/-- A whole binary header behind a stall. -/
def stalledBlock : Tape := .ofBytes (List.replicate 400 0) none [0]

/-- A stall in front of the block gives away which layout reads it. -/
theorem extract_told_of_stall :
    noLetter.binaryLayout = none ∧
      noLetter.textHeaderSize.toNat + 400 ≤ stalledBlock.unread.length ∧
      binaryForRevision (revision ((stalledBlock.unread.drop 0).take 400)) = binaryRev0 ∧
      (extract noLetter stalledBlock).1 =
        .error (.header ⟨.stream "segy_binary_header_rev1", 400, 0⟩) ∧
      (extract { noLetter with binaryLayout := some binaryRev0 } stalledBlock).1 ≠
        (extract noLetter stalledBlock).1 := by
  have hsmall : (400 : Int).natAbs < 1 <<< 64 := by decide
  have hc : Charset.named? noLetter.charset = some .ibm1047 := by decide +kernel
  have htext : Reading.text noLetter.charset (some 0) stalledBlock = (.ok "", stalledBlock) := by
    with_unfolding_all rfl
  have htake : (Reading.take 400 stalledBlock) = (.ok [], { stalledBlock with stalls := [] }) := by
    with_unfolding_all rfl
  have hnone : (extract noLetter stalledBlock).1 =
      .error (.header ⟨.stream "segy_binary_header_rev1", 400, 0⟩) := by
    have h := extract_of_short (check_of_none rfl) hc htext htake (by decide)
    rw [probe_of_none rfl, show binaryRev1.readSize = 400 from rfl,
      Failure.told_header_of_lt hsmall] at h
    rw [h]
    rfl
  have htold : (extract { noLetter with binaryLayout := some binaryRev0 } stalledBlock).1 =
      .error (.header ⟨.stream "segy_binary_header_rev0", 400, 0⟩) := by
    have h := @extract_of_short { noLetter with binaryLayout := some binaryRev0 } _ _ rfl hc _ _ _ _
      htext htake (by decide)
    rw [show Config.probe _ = binaryRev0 from rfl, show binaryRev0.readSize = 400 from rfl,
      Failure.told_header_of_lt hsmall] at h
    rw [h]
    rfl
  refine ⟨rfl, by decide +kernel, by decide +kernel, hnone, ?_⟩
  rw [hnone, htold]
  intro h
  injection h with hfailure
  injection hfailure with hcut
  exact absurd hcut (by decide)

end SeisLog.Segy
