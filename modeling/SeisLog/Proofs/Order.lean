import Mathlib.Algebra.Order.Field.Power
import Mathlib.Algebra.Order.Ring.Rat
import Mathlib.Order.WithBot
import SeisLog.Proofs.Exactness
import SeisLog.Trace

/-!
# The order of doubles

Doubles other than NaN are compared as the numbers that they denote, the infinities at either end
(`Binary64.lt_iff_number`). A choice that is made double by double along a list ends at a member
that is no further from the extreme than any other member (`Chooses.rank_le`). What a NaN does to
it depends on the choice: one that gives up at any NaN, and one that never gives up the NaN that it
began with.
-/

namespace SeisLog

/-- The numbers below the first one with a given shift are less than it. -/
theorem Grid.units_lt {bits shift rank : ℕ} (h : rank < 1 <<< bits + shift <<< bits) :
    units bits rank < 1 <<< bits <<< shift := by
  have hexponent : rank / 1 <<< bits < shift + 1 := by
    refine Nat.div_lt_of_lt_mul (Nat.lt_of_lt_of_eq h ?_)
    rw [Nat.one_shiftLeft, Nat.shiftLeft_eq, Nat.mul_add, Nat.mul_one, Nat.mul_comm, Nat.add_comm]
  rw [units, Nat.shiftLeft_eq, Nat.shiftLeft_eq _ shift]
  cases shift with
  | zero =>
      have hzero : rank / 1 <<< bits = 0 := Nat.lt_one_iff.mp hexponent
      rw [significand, if_pos hzero, hzero, Nat.one_shiftLeft]
      simpa using Nat.mod_lt rank (Nat.two_pow_pos bits)
  | succ shift =>
      have hle : rank / 1 <<< bits - 1 ≤ shift := Nat.sub_le_of_le_add (Nat.le_of_lt_succ hexponent)
      have hsignificand : significand bits rank < 1 <<< bits * 2 := by
        rw [Nat.one_shiftLeft, ← Nat.pow_succ, ← Nat.one_shiftLeft]
        exact significand_lt bits rank
      calc significand bits rank * 2 ^ (rank / 1 <<< bits - 1)
          ≤ significand bits rank * 2 ^ shift :=
            Nat.mul_le_mul_left _ (Nat.pow_le_pow_right (by decide) hle)
        _ < 1 <<< bits * 2 * 2 ^ shift :=
            Nat.mul_lt_mul_of_pos_right hsignificand (Nat.two_pow_pos _)
        _ = 1 <<< bits * 2 ^ (shift + 1) := by rw [Nat.pow_succ', Nat.mul_assoc]

namespace Binary64

variable {x y : Binary64}

/-- The number of a double that is not NaN, with an infinity at either end. -/
def number (x : Binary64) : WithBot (WithTop ℚ) :=
  if x.isInfinite then if x.isNegative then ⊥ else ((⊤ : WithTop ℚ) : WithBot (WithTop ℚ))
  else ((x.value : WithTop ℚ) : WithBot (WithTop ℚ))

/-- The units that an infinity counts as. -/
def infinityUnits : ℕ := Grid.units 52 infinityMagnitude

theorem infinityUnits_eq : infinityUnits = 1 <<< 52 <<< 2046 := by
  have hmagnitude : infinityMagnitude = 1 <<< 52 + 2046 <<< 52 := by decide
  rw [infinityUnits, hmagnitude]
  exact Grid.units_add (by decide) (.inr (Nat.le_refl _))

theorem infinityUnits_pos : 0 < infinityUnits := by
  have hmagnitude : infinityMagnitude ≠ 0 := by decide
  exact Nat.pos_of_ne_zero fun hzero => hmagnitude (Grid.units_eq_zero_iff.mp hzero)

theorem units_of_isInfinite (h : x.isInfinite = true) : x.units = infinityUnits := by
  have hmagnitude : x.magnitude = infinityMagnitude := of_decide_eq_true h
  rw [units_eq, hmagnitude, infinityUnits]

theorem units_lt_of_isFinite (h : x.isFinite = true) : x.units < infinityUnits := by
  have hmagnitude : x.magnitude < infinityMagnitude := of_decide_eq_true h
  rw [units_eq, infinityUnits_eq]
  exact Grid.units_lt hmagnitude

theorem isFinite_of_not (hnan : x.isNaN = false) (hinfinite : x.isInfinite = false) :
    x.isFinite = true := by
  have hle : ¬ infinityMagnitude < x.magnitude := of_decide_eq_false hnan
  have hne : ¬ x.magnitude = infinityMagnitude := of_decide_eq_false hinfinite
  exact decide_eq_true (by omega)

theorem value_eq_signedUnits (x : Binary64) : x.value = x.signedUnits * 2 ^ (-1074 : ℤ) := by
  rw [value_eq, signedUnits]
  cases x.isNegative with
  | false => simp
  | true => simp

theorem value_lt_iff : x.value < y.value ↔ x.signedUnits < y.signedUnits := by
  have hpos : (0 : ℚ) < 2 ^ (-1074 : ℤ) := zpow_pos two_pos _
  rw [value_eq_signedUnits, value_eq_signedUnits, mul_lt_mul_iff_left₀ hpos, Int.cast_lt]

theorem number_of_isInfinite (h : x.isInfinite = true) :
    x.number = if x.isNegative then ⊥ else ((⊤ : WithTop ℚ) : WithBot (WithTop ℚ)) := if_pos h

theorem number_of_not (h : x.isInfinite = false) :
    x.number = ((x.value : WithTop ℚ) : WithBot (WithTop ℚ)) := if_neg (Bool.eq_false_iff.mp h)

theorem signedUnits_of_isInfinite (h : x.isInfinite = true) :
    x.signedUnits = if x.isNegative then -(infinityUnits : ℤ) else infinityUnits := by
  rw [signedUnits, units_of_isInfinite h]

theorem signedUnits_of_isFinite (h : x.isFinite = true) :
    -(infinityUnits : ℤ) < x.signedUnits ∧ x.signedUnits < infinityUnits := by
  have hunits := units_lt_of_isFinite h
  rw [signedUnits]
  split <;> omega

/-- Doubles other than NaN are compared as numbers. -/
theorem lt_iff_number (hx : x.isNaN = false) (hy : y.isNaN = false) :
    x.lt y = true ↔ x.number < y.number := by
  have hlt : x.lt y = true ↔ x.signedUnits < y.signedUnits := by
    rw [lt, hx, hy]
    simp
  have hspan : -(infinityUnits : ℤ) < infinityUnits := by
    have hpos := infinityUnits_pos
    omega
  have htop : ∀ q : ℚ, ((q : WithTop ℚ) : WithBot (WithTop ℚ)) < ((⊤ : WithTop ℚ) : WithBot _) :=
    fun q => WithBot.coe_lt_coe.mpr (WithTop.coe_lt_top q)
  rw [hlt]
  -- infinities are told by their signs, and two finite numbers by their units
  cases hxi : x.isInfinite with
  | true =>
      rw [signedUnits_of_isInfinite hxi, number_of_isInfinite hxi]
      cases hyi : y.isInfinite with
      | true =>
          rw [signedUnits_of_isInfinite hyi, number_of_isInfinite hyi]
          cases x.isNegative with
          | true =>
              rw [if_pos rfl, if_pos rfl]
              cases y.isNegative with
              | true => exact iff_of_false (lt_irrefl _) (lt_irrefl _)
              | false => exact iff_of_true hspan (WithBot.bot_lt_coe _)
          | false =>
              rw [if_neg Bool.false_ne_true, if_neg Bool.false_ne_true]
              cases y.isNegative with
              | true => exact iff_of_false (not_lt_of_gt hspan) not_lt_bot
              | false => exact iff_of_false (lt_irrefl _) (lt_irrefl _)
      | false =>
          obtain ⟨hlow, hhigh⟩ := signedUnits_of_isFinite (isFinite_of_not hy hyi)
          rw [number_of_not hyi]
          cases x.isNegative with
          | true => exact iff_of_true hlow (WithBot.bot_lt_coe _)
          | false => exact iff_of_false (not_lt_of_gt hhigh) (not_lt_of_gt (htop _))
  | false =>
      obtain ⟨hlow, hhigh⟩ := signedUnits_of_isFinite (isFinite_of_not hx hxi)
      rw [number_of_not hxi]
      cases hyi : y.isInfinite with
      | true =>
          rw [signedUnits_of_isInfinite hyi, number_of_isInfinite hyi]
          cases y.isNegative with
          | true => exact iff_of_false (not_lt_of_gt hlow) not_lt_bot
          | false => exact iff_of_true hhigh (htop _)
      | false =>
          rw [number_of_not hyi, WithBot.coe_lt_coe, WithTop.coe_lt_coe, value_lt_iff]

/-- `rank` puts the doubles other than NaN in the order of `beyond`, the furthest ones first. -/
structure Ranks {α : Type} [LinearOrder α] (beyond : Binary64 → Binary64 → Bool)
    (rank : Binary64 → α) : Prop where
  iff_lt : ∀ x y, beyond x y = true ↔ x.isNaN = false ∧ y.isNaN = false ∧ rank x < rank y

theorem ranks_lt : Ranks lt number where
  iff_lt x y := by
    constructor
    · intro h
      have hnan := h
      simp only [lt, Bool.and_eq_true, Bool.not_eq_true'] at hnan
      exact ⟨hnan.1.1, hnan.1.2, (lt_iff_number hnan.1.1 hnan.1.2).mp h⟩
    · rintro ⟨hx, hy, h⟩
      exact (lt_iff_number hx hy).mpr h

theorem ranks_gt : Ranks (fun x y => y.lt x) (OrderDual.toDual ∘ number) where
  iff_lt x y := by
    rw [ranks_lt.iff_lt]
    exact and_left_comm

/-- A choice between two doubles: at worst the first one is kept, a NaN in its place stays, and no
number comes out that lies behind another. -/
structure Chooses {α : Type} [LinearOrder α] (rank : Binary64 → α)
    (choose : Binary64 → Binary64 → Binary64) : Prop where
  eq_or_eq : ∀ x y, choose x y = x ∨ choose x y = y
  isNaN_left : ∀ x y, (choose x y).isNaN = false → x.isNaN = false
  rank_left : ∀ x y, (choose x y).isNaN = false → rank (choose x y) ≤ rank x
  rank_right : ∀ x y, (choose x y).isNaN = false → y.isNaN = false → rank (choose x y) ≤ rank y

section

variable {α : Type} [LinearOrder α] {rank : Binary64 → α} {beyond : Binary64 → Binary64 → Bool}
  {choose : Binary64 → Binary64 → Binary64}

/-- The double that a list leads to from a first one. -/
theorem Chooses.foldl (h : Chooses rank choose) (x : Binary64) (rest : List Binary64) :
    let last := rest.foldl choose x
    last ∈ x :: rest ∧ (last.isNaN = false → x.isNaN = false) ∧
      (last.isNaN = false → ∀ y ∈ x :: rest, y.isNaN = false → rank last ≤ rank y) := by
  induction rest generalizing x with
  | nil =>
      refine ⟨List.mem_cons_self, id, ?_⟩
      rintro - y hy -
      rw [List.mem_singleton.mp hy]
      exact le_refl _
  | cons y rest ih =>
      obtain ⟨hmem, hnan, hrank⟩ := ih (choose x y)
      rw [List.foldl_cons]
      refine ⟨?_, fun hlast => h.isNaN_left x y (hnan hlast), ?_⟩
      · rcases List.mem_cons.mp hmem with hlast | hlast
        · rw [hlast]
          rcases h.eq_or_eq x y with hchoice | hchoice
          · rw [hchoice]
            exact List.mem_cons_self
          · rw [hchoice]
            exact List.mem_cons_of_mem _ List.mem_cons_self
        · exact List.mem_cons_of_mem _ (List.mem_cons_of_mem _ hlast)
      · intro hlast z hz hnumber
        have hfirst := hrank hlast _ List.mem_cons_self (hnan hlast)
        rcases List.mem_cons.mp hz with rfl | hz
        · exact hfirst.trans (h.rank_left z y (hnan hlast))
        · rcases List.mem_cons.mp hz with rfl | hz
          · exact hfirst.trans (h.rank_right x z (hnan hlast) hnumber)
          · exact hrank hlast z (List.mem_cons_of_mem _ hz) hnumber

theorem extreme?_eq_none_iff {samples : List Binary64} :
    extreme? choose samples = none ↔ samples = [] := by
  cases samples with
  | nil => exact iff_of_true rfl rfl
  | cons x rest => exact iff_of_false nofun nofun

theorem Chooses.mem (h : Chooses rank choose) {samples : List Binary64} {last : Binary64}
    (hlast : extreme? choose samples = some last) : last ∈ samples := by
  cases samples with
  | nil => cases hlast
  | cons x rest =>
      cases hlast
      exact (h.foldl x rest).1

/-- No number of the list lies beyond the one that is chosen. -/
theorem Chooses.rank_le (h : Chooses rank choose) {samples : List Binary64} {last : Binary64}
    (hlast : extreme? choose samples = some last) (hnan : last.isNaN = false) :
    ∀ x ∈ samples, x.isNaN = false → rank last ≤ rank x := by
  cases samples with
  | nil => cases hlast
  | cons x rest =>
      cases hlast
      exact (h.foldl x rest).2.2 hnan

/-- The choice within a trace: NaN is taken as soon as it is met, and of two equals the later. -/
def pick (beyond : Binary64 → Binary64 → Bool) (x y : Binary64) : Binary64 :=
  if x.isNaN || beyond x y then x else y

theorem lesser_eq_pick : lesser = pick lt := rfl

theorem greater_eq_pick : greater = pick fun x y => y.lt x := rfl

/-- The choice between traces: only what is strictly beyond is taken. -/
def keep (beyond : Binary64 → Binary64 → Bool) (x y : Binary64) : Binary64 :=
  if beyond y x then y else x

theorem isNaN_pick (h : Ranks beyond rank) (x y : Binary64) :
    (pick beyond x y).isNaN = (x.isNaN || y.isNaN) := by
  unfold pick
  cases hx : x.isNaN with
  | true => simp [hx]
  | false =>
      cases hb : beyond x y with
      | true =>
          have hy := ((h.iff_lt x y).mp hb).2.1
          simp [hx, hy]
      | false => simp

theorem isNaN_keep (h : Ranks beyond rank) (x y : Binary64) :
    (keep beyond x y).isNaN = x.isNaN := by
  unfold keep
  split
  · rename_i hb
    obtain ⟨hy, hx, -⟩ := (h.iff_lt y x).mp hb
    rw [hx, hy]
  · rfl

theorem Ranks.rank_le (h : Ranks beyond rank) {x y : Binary64} (hx : x.isNaN = false)
    (hy : y.isNaN = false) (hb : ¬ beyond y x = true) : rank x ≤ rank y :=
  le_of_not_gt fun hlt => hb ((h.iff_lt y x).mpr ⟨hy, hx, hlt⟩)

theorem chooses_pick (h : Ranks beyond rank) : Chooses rank (pick beyond) := by
  have hnumbers : ∀ {x y}, (pick beyond x y).isNaN = false → x.isNaN = false ∧ y.isNaN = false := by
    intro x y hn
    rwa [isNaN_pick h, Bool.or_eq_false_iff] at hn
  have hchoice : ∀ {x y}, x.isNaN = false → pick beyond x y = if beyond x y then x else y := by
    intro x y hx
    rw [pick, hx, Bool.false_or]
  refine ⟨?_, fun x y hn => (hnumbers hn).1, ?_, ?_⟩
  · intro x y
    unfold pick
    split
    · exact .inl rfl
    · exact .inr rfl
  · intro x y hn
    obtain ⟨hx, hy⟩ := hnumbers hn
    rw [hchoice hx]
    split
    · exact le_refl _
    · rename_i hb
      exact h.rank_le hy hx hb
  · intro x y hn hy
    rw [hchoice (hnumbers hn).1]
    split
    · rename_i hb
      exact le_of_lt ((h.iff_lt x y).mp hb).2.2
    · exact le_refl _

theorem chooses_keep (h : Ranks beyond rank) : Chooses rank (keep beyond) := by
  have hnumber : ∀ {x y}, (keep beyond x y).isNaN = false → x.isNaN = false := by
    intro x y hn
    rwa [isNaN_keep h] at hn
  refine ⟨?_, fun x y => hnumber, ?_, ?_⟩
  · intro x y
    unfold keep
    split
    · exact .inr rfl
    · exact .inl rfl
  · intro x y hn
    unfold keep
    split
    · rename_i hb
      exact le_of_lt ((h.iff_lt y x).mp hb).2.2
    · exact le_refl _
  · intro x y hn hy
    have hx := hnumber hn
    unfold keep
    split
    · exact le_refl _
    · rename_i hb
      exact h.rank_le hx hy hb

/-- One NaN is enough to be chosen within a trace. -/
theorem isNaN_of_extreme?_pick (h : Ranks beyond rank) {samples : List Binary64} {last : Binary64}
    (hlast : extreme? (pick beyond) samples = some last) : last.isNaN = samples.any isNaN := by
  cases samples with
  | nil => cases hlast
  | cons x rest =>
      cases hlast
      induction rest generalizing x with
      | nil => simp
      | cons y rest ih =>
          rw [List.foldl_cons, ih, List.any_cons, isNaN_pick h, List.any_cons, List.any_cons,
            Bool.or_assoc]

/-- Between traces the first one decides whether NaN is chosen. -/
theorem isNaN_of_extreme?_keep (h : Ranks beyond rank) {tops : List Binary64} {last : Binary64}
    (hlast : extreme? (keep beyond) tops = some last) :
    ∃ first, tops.head? = some first ∧ last.isNaN = first.isNaN := by
  cases tops with
  | nil => cases hlast
  | cons x rest =>
      cases hlast
      refine ⟨x, rfl, ?_⟩
      induction rest generalizing x with
      | nil => rfl
      | cons y rest ih => rw [List.foldl_cons, ih, isNaN_keep h]

theorem keep_assoc (h : Ranks beyond rank) {x y z : Binary64} (hx : x.isNaN = false)
    (hy : y.isNaN = false) (hz : z.isNaN = false) :
    keep beyond (keep beyond x y) z = keep beyond x (keep beyond y z) := by
  by_cases hyx : beyond y x = true
  · have hfirst : keep beyond x y = y := if_pos hyx
    have hnan : (keep beyond y z).isNaN = false := by rw [isNaN_keep h, hy]
    have hrank : rank (keep beyond y z) < rank x :=
      lt_of_le_of_lt ((chooses_keep h).rank_left y z hnan) ((h.iff_lt y x).mp hyx).2.2
    rw [hfirst]
    exact (if_pos ((h.iff_lt _ x).mpr ⟨hnan, hx, hrank⟩)).symm
  · have hfirst : keep beyond x y = x := if_neg hyx
    rw [hfirst]
    by_cases hzy : beyond z y = true
    · rw [show keep beyond y z = z from if_pos hzy]
    · have hrank : rank x ≤ rank z := (h.rank_le hx hy hyx).trans (h.rank_le hy hz hzy)
      rw [show keep beyond y z = y from if_neg hzy, hfirst]
      exact if_neg fun hzx => not_lt_of_ge hrank ((h.iff_lt z x).mp hzx).2.2

theorem foldl_keep (h : Ranks beyond rank) {x y : Binary64} {rest : List Binary64}
    (hx : x.isNaN = false) (hy : y.isNaN = false) (hrest : ∀ z ∈ rest, z.isNaN = false) :
    rest.foldl (keep beyond) (keep beyond x y) = keep beyond x (rest.foldl (keep beyond) y) := by
  induction rest generalizing y with
  | nil => rfl
  | cons z rest ih =>
      obtain ⟨hz, hrest⟩ := List.forall_mem_cons.mp hrest
      rw [List.foldl_cons, List.foldl_cons, keep_assoc h hx hy hz,
        ih (by rw [isNaN_keep h, hy]) hrest]

end

end Binary64

end SeisLog
