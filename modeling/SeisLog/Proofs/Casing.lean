import SeisLog.Proofs.Charset
import SeisLog.Text.Basic
import SeisLog.Text.Upper

/-!
# Upper case and trimmed text

No character of a text in upper case has an upper case of its own: the runs and the expansions lead
nowhere else (`upper_upper`). A letter whose upper case names a section is that capital or its lower
case, and no other character (`upperChar_eq_singleton_iff`). Trimmed text has no blank at either
end.
-/

namespace SeisLog.Text

namespace CaseRun

def codes (run : CaseRun) : List Nat :=
  (List.range ((run.last - run.first) / run.step + 1)).map (run.first + · * run.step)

def target (run : CaseRun) (code : Nat) : Nat := (code + run.shift).toNat

variable {run : CaseRun} {c : Char}

theorem le_of_contains (h : run.contains c = true) : run.first ≤ c.toNat ∧ c.toNat ≤ run.last := by
  simp only [contains, Bool.and_eq_true, decide_eq_true_eq] at h
  exact h.1

theorem mem_codes (h : run.contains c = true) : c.toNat ∈ run.codes := by
  obtain ⟨hfirst, hlast⟩ := le_of_contains h
  simp only [contains, Bool.and_eq_true, beq_iff_eq] at h
  have hdvd : (c.toNat - run.first) / run.step * run.step = c.toNat - run.first :=
    Nat.div_mul_cancel (Nat.dvd_of_mod_eq_zero h.2)
  refine List.mem_map.mpr ⟨(c.toNat - run.first) / run.step, List.mem_range.mpr ?_, ?_⟩
  · exact Nat.lt_succ_of_le (Nat.div_le_div_right (by omega))
  · omega

theorem target_le {code other : Nat} (h : code ≤ other) : run.target code ≤ run.target other := by
  unfold target
  omega

end CaseRun

/-- A code point that is no character's stands for the first one. -/
theorem toNat_ofNat_cases (code : Nat) :
    (Char.ofNat code).toNat = code ∨ Char.ofNat code = Char.ofNat 0 := by
  by_cases hvalid : code.isValidChar
  · refine .inl ?_
    rw [Char.ofNat, dif_pos hvalid]
    rfl
  · refine .inr ?_
    rw [Char.ofNat, dif_neg hvalid]
    rfl

/-- Some run leads from a character to its partner, or it is its own. -/
theorem partnerIn_cases (runs : List CaseRun) (c : Char) :
    (∃ run ∈ runs, run.contains c = true ∧ partnerIn runs c = .ofNat (run.target c.toNat)) ∨
      partnerIn runs c = c := by
  unfold partnerIn
  cases hfind : runs.find? (·.contains c) with
  | none => exact .inr rfl
  | some run =>
      have hcontains := List.find?_some hfind
      exact .inl ⟨run, List.mem_of_find?_eq_some hfind, hcontains, rfl⟩

theorem mem_of_lookup {code : Nat} {codes : List Nat}
    (h : upperExpansions.lookup code = some codes) : (code, codes) ∈ upperExpansions := by
  obtain ⟨_, _, hsplit, -⟩ := List.lookup_eq_some_iff.mp h
  rw [hsplit]
  exact List.mem_append_right _ List.mem_cons_self

/-- The code points that runs and expansions start from. -/
def changed : List Nat := upperRuns.flatMap CaseRun.codes ++ upperExpansions.map Prod.fst

/-- The code points that they lead to. -/
def reached : List Nat :=
  (upperRuns.flatMap fun run => run.codes.map run.target) ++ upperExpansions.flatMap Prod.snd

theorem not_mem_changed {code : Nat} (h : code ∈ reached) : code ∉ changed := by
  have hdisjoint : mask changed &&& mask reached = 0 := by decide +kernel
  intro hchanged
  have hbit := congrArg (Nat.testBit · code) hdisjoint
  rw [Nat.testBit_and, testBit_mask.mpr hchanged, testBit_mask.mpr h, Nat.zero_testBit] at hbit
  cases hbit

theorem upperChar_eq_self {c : Char} (h : c.toNat ∉ changed) : upperChar c = [c] := by
  have hruns : ∀ run ∈ upperRuns, run.contains c = true → False := fun run hrun hcontains =>
    h (List.mem_append_left _ (List.mem_flatMap.mpr ⟨run, hrun, CaseRun.mem_codes hcontains⟩))
  unfold upperChar
  split
  · have hkept : ¬ ('a'.val ≤ c.val ∧ c.val ≤ 'z'.val) := by
      rintro ⟨ha, hz⟩
      have hlow : 97 ≤ c.toNat := UInt32.le_iff_toNat_le.mp ha
      have hhigh : c.toNat ≤ 122 := UInt32.le_iff_toNat_le.mp hz
      refine hruns ⟨97, 122, 1, -32⟩ List.mem_cons_self ?_
      simp [CaseRun.contains, hlow, hhigh, Nat.mod_one]
    have hupper : c.toUpper = c := dif_neg hkept
    rw [hupper]
  · cases hlookup : upperExpansions.lookup c.toNat with
    | some codes =>
        exact absurd (List.mem_append_right _ (List.mem_map_of_mem (mem_of_lookup hlookup))) h
    | none =>
        rcases partnerIn_cases upperRuns c with ⟨run, hrun, hcontains, -⟩ | hself
        · exact (hruns run hrun hcontains).elim
        · dsimp only
          rw [hself]

theorem upperChar_of_reached {code : Nat} (h : code ∈ reached) :
    upperChar (.ofNat code) = [.ofNat code] := by
  rcases toNat_ofNat_cases code with hcode | hfirst
  · exact upperChar_eq_self (hcode.symm ▸ not_mem_changed h)
  · rw [hfirst]
    decide

/-- Upper case consists of characters that are their own upper case. -/
theorem upperChar_of_mem {c d : Char} (h : d ∈ upperChar c) : upperChar d = [d] := by
  unfold upperChar at h
  split at h
  · rename_i hascii
    have hall : ∀ code < 128, upperChar (Char.ofNat code).toUpper = [(Char.ofNat code).toUpper] := by
      decide +kernel
    have hupper := hall c.toNat hascii
    rw [Char.ofNat_toNat] at hupper
    rwa [List.mem_singleton.mp h]
  · rename_i hbeyond
    cases hlookup : upperExpansions.lookup c.toNat with
    | some codes =>
        rw [hlookup] at h
        obtain ⟨code, hcode, rfl⟩ := List.mem_map.mp h
        exact upperChar_of_reached (List.mem_append_right _
          (List.mem_flatMap.mpr ⟨_, mem_of_lookup hlookup, hcode⟩))
    | none =>
        rw [hlookup] at h
        have hd := List.mem_singleton.mp h
        rcases partnerIn_cases upperRuns c with ⟨run, hrun, hcontains, hpartner⟩ | hself
        · rw [hd, hpartner]
          exact upperChar_of_reached (List.mem_append_left _ (List.mem_flatMap.mpr
            ⟨run, hrun, List.mem_map_of_mem (CaseRun.mem_codes hcontains)⟩))
        · rw [hd, hself, upperChar, if_neg hbeyond, hlookup]
          dsimp only
          rw [hself]

theorem flatMap_upperChar {text : List Char} (h : ∀ c ∈ text, upperChar c = [c]) :
    text.flatMap upperChar = text := by
  induction text with
  | nil => rfl
  | cons c text ih =>
      obtain ⟨hc, htext⟩ := List.forall_mem_cons.mp h
      rw [List.flatMap_cons, hc, ih htext]
      rfl

theorem upper_upper (text : List Char) : upper (upper text) = upper text := by
  refine flatMap_upperChar fun d hd => ?_
  obtain ⟨c, -, hdc⟩ := List.mem_flatMap.mp hd
  exact upperChar_of_mem hdc

theorem upperChar_ne_nil (c : Char) : upperChar c ≠ [] := by
  have hall : ∀ expansion ∈ upperExpansions, expansion.2 ≠ [] := by decide
  unfold upperChar
  split
  · nofun
  · split
    · rename_i codes hlookup
      exact fun hnil => hall _ (mem_of_lookup hlookup) (List.map_eq_nil_iff.mp hnil)
    · nofun

theorem upper_eq_singleton_iff {text : List Char} {d : Char} :
    upper text = [d] ↔ ∃ c, text = [c] ∧ upperChar c = [d] := by
  constructor
  · intro h
    match text with
    | [] => cases h
    | [c] => exact ⟨c, rfl, by rwa [upper, List.flatMap_singleton] at h⟩
    | c :: other :: rest =>
        have hlength := congrArg List.length h
        have hfirst := List.length_pos_iff.mpr (upperChar_ne_nil c)
        have hsecond := List.length_pos_iff.mpr (upperChar_ne_nil other)
        simp only [upper, List.flatMap_cons, List.length_append, List.length_singleton] at hlength
        omega
  · rintro ⟨c, rfl, h⟩
    rw [upper, List.flatMap_singleton, h]

/-- The capitals that name the sections of a log. -/
def sectionCapitals : List Char := ['V', 'W', 'C', 'P']

theorem toNat_capital {d : Char} (hd : d ∈ sectionCapitals) :
    0 < d.toNat ∧ d.toNat < 128 ∧ d.toLower.toNat < 128 := by
  have hall : sectionCapitals.all (fun capital =>
      0 < capital.toNat && capital.toNat < 128 && capital.toLower.toNat < 128) = true := by decide
  simpa [and_assoc] using List.all_eq_true.mp hall d hd

/-- No run leads to one of these capitals, except from their own lower case. -/
theorem partnerIn_ne {c d : Char} (hc : 128 ≤ c.toNat) (hd : d ∈ sectionCapitals) :
    partnerIn upperRuns c ≠ d := by
  have hall : (upperRuns.all fun run => run.last < 128 || sectionCapitals.all fun capital =>
      run.target run.last < capital.toNat || capital.toNat < run.target run.first) = true := by
    decide +kernel
  have hcapital := toNat_capital hd
  rintro rfl
  rcases partnerIn_cases upperRuns c with ⟨run, hrun, hcontains, hpartner⟩ | hself
  · obtain ⟨hfirst, hlast⟩ := CaseRun.le_of_contains hcontains
    have hlow := @CaseRun.target_le run _ _ hfirst
    have hhigh := @CaseRun.target_le run _ _ hlast
    have hrun := List.all_eq_true.mp hall run hrun
    rw [Bool.or_eq_true, decide_eq_true_eq] at hrun
    rcases hrun with hbelow | hmisses
    · omega
    · have hmiss := List.all_eq_true.mp hmisses _ hd
      rw [Bool.or_eq_true, decide_eq_true_eq, decide_eq_true_eq, hpartner] at hmiss
      rw [hpartner] at hcapital
      rcases toNat_ofNat_cases (run.target c.toNat) with hcode | hnone
      · omega
      · rw [hnone] at hcapital
        exact absurd hcapital.1 (by decide)
  · rw [hself] at hcapital
    omega

/-- Only a section's letter and its lower case have that letter for their upper case. -/
theorem upperChar_eq_singleton_iff {c d : Char} (hd : d ∈ sectionCapitals) :
    upperChar c = [d] ↔ c = d ∨ c = d.toLower := by
  have hascii : ((List.range 128).all fun code => sectionCapitals.all fun capital =>
      (upperChar (.ofNat code) == [capital]) ==
        (Char.ofNat code == capital || Char.ofNat code == capital.toLower)) = true := by
    decide +kernel
  have hlong : ∀ expansion ∈ upperExpansions, 2 ≤ expansion.2.length := by decide
  have hcapital := toNat_capital hd
  by_cases hc : c.toNat < 128
  · have hcode := List.all_eq_true.mp hascii c.toNat (List.mem_range.mpr hc)
    have hsame := List.all_eq_true.mp hcode d hd
    rw [Char.ofNat_toNat, beq_iff_eq, Bool.eq_iff_iff, Bool.or_eq_true, beq_iff_eq, beq_iff_eq,
      beq_iff_eq] at hsame
    exact hsame
  · refine iff_of_false ?_ ?_
    · rw [upperChar, if_neg hc]
      cases hlookup : upperExpansions.lookup c.toNat with
      | none => exact fun h => partnerIn_ne (Nat.not_lt.mp hc) hd (List.singleton_inj.mp h)
      | some codes =>
          intro h
          have hlength := congrArg List.length h
          have htwo : 2 ≤ codes.length := hlong _ (mem_of_lookup hlookup)
          rw [List.length_map, List.length_singleton] at hlength
          omega
    · rintro (rfl | rfl) <;> omega

theorem isBlank_of_head?_dropWhile {text : List Char} {c : Char}
    (h : (text.dropWhile isBlank).head? = some c) : isBlank c = false := by
  have hhead := List.head?_dropWhile_not isBlank text
  rwa [h] at hhead

/-- Trimmed text has no blank at either end. -/
theorem isBlank_trim {text : List Char} {c : Char}
    (h : (trim text).head? = some c ∨ (trim text).getLast? = some c) : isBlank c = false := by
  unfold trim trimRight at h
  rcases h with hhead | hlast
  · -- what is cut off at the end leaves the first character in its place
    have hsplit : trimLeft text = ((trimLeft text).reverse.dropWhile isBlank).reverse ++
        ((trimLeft text).reverse.takeWhile isBlank).reverse := by
      rw [← List.reverse_append, List.takeWhile_append_dropWhile, List.reverse_reverse]
    refine @isBlank_of_head?_dropWhile text c ?_
    show (trimLeft text).head? = some c
    rw [hsplit, List.head?_append, hhead]
    rfl
  · rw [List.getLast?_reverse] at hlast
    exact isBlank_of_head?_dropWhile hlast

end SeisLog.Text
