import SeisLog.Proofs.Region.Walk

/-!
# The frame of a fresh walk

A fresh walk reads the layout and the options it was started with: its block size is the layout's,
and its sample count is the fixed one, else the one in the header block, else the fallback where
that is zero (`Options.countAfter`).
-/

namespace SeisLog.Walk

namespace Options

def rule (options : Options) : CountRule :=
  match options.fixed with
  | some count => .fixed count.toNat
  | none => .named options.countField (options.fallback.map Int.toNat)

def fresh (options : Options) (coding : SampleCoding) (decoder : Decoder) : Walk where
  decoder := decoder
  coding := coding
  rule := options.rule
  cap := options.cap.map Int.toNat
  ownsTape := options.ownsTape
  phase := .ready
  error := none
  traces := 0
  consumed := 0

def countAfter (options : Options) (layout : Layout) (block : Bytes) : Nat :=
  match options.fixed with
  | some count => count.toNat
  | none =>
      let count := (layout.numberAt options.countField block).toNat
      if count = 0 then (options.fallback.getD 0).toNat else count

/-- A count that is taken from the headers stands in an integer field. -/
def CountsIntegers (options : Options) (layout : Layout) : Prop :=
  options.fixed = none → layout.HasInteger options.countField

/-- How the traces of the options lie in a region. -/
def frame (options : Options) (coding : SampleCoding) (decoder : Decoder) : Frame where
  blockSize := decoder.layout.readSize.toNat
  header := decoder.header
  count := options.countAfter decoder.layout
  coding := coding

end Options

theorem start_eq_ok_iff {layout : Layout} {options : Options} {walk : Walk} :
    start layout options = .ok walk ↔
      ∃ coding decoder, options.format.coding? = some coding ∧
        (options.fixed = none → layout.contains options.countField = true) ∧
        options.cap.any (· < 0) = false ∧ Decoder.make layout options.charset = .ok decoder ∧
        walk = options.fresh coding decoder := by
  unfold start
  cases hc : options.format.coding? with
  | none => simp [throw, throwThe, MonadExceptOf.throw]
  | some coding =>
      -- the count field is looked for only where no count is fixed; all else is the same
      cases hd : Decoder.make layout options.charset <;>
        cases hn : options.cap.any (· < 0) <;> cases hf : options.fixed <;>
        by_cases hk : layout.contains options.countField = true <;>
        simp [hk, bind, Except.bind, pure, Except.pure, throw, throwThe, MonadExceptOf.throw,
          Options.fresh, Options.rule, hf, eq_comm]

/-- A walk of the layout that nothing was done with since it started under the options. -/
structure Fresh (walk : Walk) (layout : Layout) (options : Options) : Prop where
  layout : walk.decoder.layout = layout
  cap : walk.cap = options.cap.map Int.toNat
  ownsTape : walk.ownsTape = options.ownsTape
  phase : walk.phase = .ready
  error : walk.error = none
  traces : walk.traces = 0
  consumed : walk.consumed = 0

theorem fresh_start {layout : Layout} {options : Options} {walk : Walk}
    (h : start layout options = .ok walk) : walk.Fresh layout options := by
  obtain ⟨_, _, -, -, -, hdecoder, rfl⟩ := start_eq_ok_iff.mp h
  exact ⟨Decoder.layout_of_make hdecoder, rfl, rfl, rfl, rfl, rfl, rfl⟩

theorem Fresh.isOver {layout : Layout} {options : Options} {walk : Walk}
    (h : walk.Fresh layout options) : walk.isOver = false := by
  rw [Walk.isOver, h.phase]
  rfl

theorem count_rule {options : Options} {decoder : Decoder}
    (h : options.CountsIntegers decoder.layout) (block : Bytes) :
    options.rule.count (decoder.header block) = .ok (options.countAfter decoder.layout block) := by
  unfold Options.rule Options.countAfter
  cases hf : options.fixed with
  | some count => rfl
  | none =>
      have hz : ∀ number : Int, number ≤ 0 ↔ number.toNat = 0 := by
        intro number
        omega
      have hm : (options.fallback.map Int.toNat).getD 0 = (options.fallback.getD 0).toNat := by
        cases options.fallback <;> rfl
      simp only [CountRule.count, Decoder.toInteger_header (h hf), hz, hm]
      rfl

/-- A fresh walk without a cap follows the frame of its options. -/
theorem follows_fresh {options : Options} {coding : SampleCoding} {decoder : Decoder}
    (hp : 0 < decoder.layout.readSize) (hi : options.CountsIntegers decoder.layout)
    (hc : options.cap = none) :
    (options.fresh coding decoder).Follows (options.frame coding decoder) where
  blockSize_pos := by
    show 0 < decoder.layout.readSize.toNat
    omega
  readSize := by
    show decoder.layout.readSize = (decoder.layout.readSize.toNat : Int)
    omega
  decode block hb := Decoder.decode_eq_header hb
  count block _ := count_rule hi block
  coding := rfl
  cap := by simp [Options.fresh, hc]

theorem follows_of_start {layout : Layout} {options : Options} {walk : Walk}
    {coding : SampleCoding} (hstart : start layout options = .ok walk)
    (hformat : options.format.coding? = some coding) (hcap : options.cap = none)
    (hsize : 0 < layout.readSize) (hcount : options.CountsIntegers layout) :
    ∃ decoder, Decoder.make layout options.charset = .ok decoder ∧ decoder.layout = layout ∧
      walk = options.fresh coding decoder ∧
        (options.fresh coding decoder).Follows (options.frame coding decoder) := by
  obtain ⟨coding', decoder, hc, -, -, hdecoder, rfl⟩ := start_eq_ok_iff.mp hstart
  obtain rfl : coding = coding' := Option.some.inj (hformat.symm.trans hc)
  have hlayout := Decoder.layout_of_make hdecoder
  subst hlayout
  exact ⟨decoder, hdecoder, rfl, rfl, follows_fresh hsize hcount hcap⟩

end SeisLog.Walk
