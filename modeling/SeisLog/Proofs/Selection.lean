import SeisLog.Las.Header
import SeisLog.Proofs.Casing

/-!
# Selections of log items

A selection goes through its letters in order: each of them puts the items of its section among the
fields, or leaves a warning. So the selection for two tuples of letters, one behind the other, is
the first one updated with the second (`Selection.ofText_append`).
-/

namespace SeisLog.Las

/-- The letters that name a section, in either case. -/
def sectionLetters : List String := ["V", "v", "W", "w", "C", "c", "P", "p"]

def sectionName (letter : String) : String := String.ofList (Text.upper letter.toList)

theorem sectionName_eq_iff {letter : String} {capital : Char} (h : capital ∈ Text.sectionCapitals) :
    sectionName letter = String.ofList [capital] ↔
      letter = String.ofList [capital] ∨ letter = String.ofList [capital.toLower] := by
  have hlist : ∀ {chars : List Char}, letter.toList = chars ↔ letter = String.ofList chars := by
    intro chars
    rw [← String.toList_inj, String.toList_ofList]
  rw [sectionName, String.ofList_inj, Text.upper_eq_singleton_iff, ← hlist, ← hlist]
  constructor
  · rintro ⟨c, hletter, hc⟩
    rcases (Text.upperChar_eq_singleton_iff h).mp hc with rfl | rfl
    · exact .inl hletter
    · exact .inr hletter
  · rintro (hletter | hletter)
    · exact ⟨_, hletter, (Text.upperChar_eq_singleton_iff h).mpr (.inl rfl)⟩
    · exact ⟨_, hletter, (Text.upperChar_eq_singleton_iff h).mpr (.inr rfl)⟩

theorem sectionName_mem_iff {letter : String} :
    sectionName letter ∈ ["V", "W", "C", "P"] ↔ letter ∈ sectionLetters := by
  have hversion : sectionName letter = "V" ↔ letter = "V" ∨ letter = "v" :=
    @sectionName_eq_iff letter 'V' (by decide)
  have hwell : sectionName letter = "W" ↔ letter = "W" ∨ letter = "w" :=
    @sectionName_eq_iff letter 'W' (by decide)
  have hcurves : sectionName letter = "C" ↔ letter = "C" ∨ letter = "c" :=
    @sectionName_eq_iff letter 'C' (by decide)
  have hparameters : sectionName letter = "P" ↔ letter = "P" ∨ letter = "p" :=
    @sectionName_eq_iff letter 'P' (by decide)
  simp only [sectionLetters, List.mem_cons, List.not_mem_nil, or_false, hversion, hwell, hcurves,
    hparameters, or_assoc]

/-- A letter has items unless it names no section. -/
theorem Header.items?_sectionName_eq_none_iff (header : Header) {letter : String} :
    header.items? (sectionName letter) = none ↔ letter ∉ sectionLetters := by
  rw [← sectionName_mem_iff]
  generalize sectionName letter = name
  unfold items?
  split
  case h_5 hversion hwell hcurves hparameters =>
    simp only [List.mem_cons, List.not_mem_nil, or_false, true_iff, not_or]
    exact ⟨hversion, hwell, hcurves, hparameters⟩
  all_goals simp

namespace Selection

variable (header : Header)

/-- The fields that the letters ask for, in order and with repetitions. -/
def updates (letters : List String) : Fields String :=
  letters.flatMap fun letter => ((header.items? (sectionName letter)).getD []).map field

/-- One warning for each letter that names no section. -/
def remarks (letters : List String) : List String :=
  (letters.filter (· ∉ sectionLetters)).map ("unknown LAS section ~" ++ ·)

theorem updates_append (first second : List String) :
    updates header (first ++ second) = updates header first ++ updates header second :=
  List.flatMap_append

theorem remarks_append (first second : List String) :
    remarks (first ++ second) = remarks first ++ remarks second := by
  rw [remarks, List.filter_append, List.map_append]
  rfl

section

variable {letter : String} {items : List Item}
  (hitems : header.items? (sectionName letter) = some items)

include hitems

theorem updates_of_items : updates header [letter] = items.map field := by
  rw [updates, List.flatMap_singleton, hitems]
  rfl

theorem remarks_of_items : remarks [letter] = [] := by
  have hknown : letter ∈ sectionLetters := by
    refine Decidable.of_not_not fun hn => ?_
    rw [header.items?_sectionName_eq_none_iff.mpr hn] at hitems
    cases hitems
  rw [remarks, List.filter_cons_of_neg (by simpa using hknown)]
  rfl

end

/-- A letter gives fields or a warning, never both. -/
theorem add_eq (selection : Selection) (letter : String) :
    add header selection letter =
      ⟨selection.fields.setAll (updates header [letter]),
        selection.warnings ++ remarks [letter]⟩ := by
  have hname : String.ofList (Text.upper letter.toList) = sectionName letter := rfl
  unfold add
  rw [hname]
  cases hitems : header.items? (sectionName letter) with
  | some items =>
      rw [updates_of_items header hitems, remarks_of_items header hitems, List.append_nil]
  | none =>
      have hunknown := header.items?_sectionName_eq_none_iff.mp hitems
      rw [updates, List.flatMap_singleton, hitems, remarks,
        List.filter_cons_of_pos (by simpa using hunknown)]
      rfl

theorem foldl_add (letters : List String) (selection : Selection) :
    letters.foldl (add header) selection =
      ⟨selection.fields.setAll (updates header letters),
        selection.warnings ++ remarks letters⟩ := by
  induction letters generalizing selection with
  | nil => exact (congrArg (Selection.mk selection.fields) (List.append_nil _)).symm
  | cons letter letters ih =>
      have hsplit : letter :: letters = [letter] ++ letters := rfl
      rw [List.foldl_cons, ih, add_eq, hsplit, updates_append, remarks_append,
        Fields.setAll_append, List.append_assoc]

theorem ofHeader_eq (letters : List String) :
    ofHeader header letters = ⟨Fields.setAll [] (updates header letters), remarks letters⟩ := by
  rw [ofHeader, foldl_add, List.nil_append]

theorem nodup_names (letters : List String) : (ofHeader header letters).fields.names.Nodup := by
  rw [ofHeader_eq]
  exact Fields.nodup_names_setAll List.Pairwise.nil

/-- Letters behind others update the fields and add their warnings. -/
theorem ofHeader_append (first second : List String) :
    let front := ofHeader header first
    let rest := ofHeader header second
    ofHeader header (first ++ second) =
      ⟨front.fields.setAll rest.fields, front.warnings ++ rest.warnings⟩ := by
  intro front rest
  have hfront : front = _ := ofHeader_eq header first
  have hrest : rest = _ := ofHeader_eq header second
  rw [ofHeader_eq, updates_append, remarks_append, Fields.setAll_append, hrest,
    Fields.setAll_gathered, hfront]

theorem updates_filter (letters : List String) :
    updates header (letters.filter (· ∈ sectionLetters)) = updates header letters := by
  induction letters with
  | nil => rfl
  | cons letter letters ih =>
      by_cases hknown : letter ∈ sectionLetters
      · rw [List.filter_cons_of_pos (by simpa using hknown), updates, List.flatMap_cons,
          ← updates, ih]
        rfl
      · have hnone := header.items?_sectionName_eq_none_iff.mpr hknown
        rw [List.filter_cons_of_neg (by simpa using hknown), ih, updates, updates,
          List.flatMap_cons, hnone]
        rfl

theorem remarks_filter (letters : List String) :
    remarks (letters.filter (· ∈ sectionLetters)) = [] := by
  rw [remarks, List.filter_filter]
  simp

/-- A field of the selection: the name of an item in upper case, and its value without blanks at
either end. -/
structure Selects (letters : List String) (name value : String) : Prop where
  item : ∃ letter ∈ letters, ∃ items, header.items? (sectionName letter) = some items ∧
    ∃ item ∈ items, (name, value) = field item
  upper : String.ofList (Text.upper name.toList) = name
  trimmed : ∀ c, value.toList.head? = some c ∨ value.toList.getLast? = some c →
    Text.isBlank c = false

theorem selects_of_mem {letters : List String} {name value : String}
    (h : (name, value) ∈ (ofHeader header letters).fields) :
    Selects header letters name value := by
  rw [ofHeader_eq] at h
  have hupdate : (name, value) ∈ updates header letters :=
    (Fields.mem_of_mem_setAll h).resolve_left List.not_mem_nil
  obtain ⟨letter, hletter, hfield⟩ := List.mem_flatMap.mp hupdate
  obtain ⟨item, hitem, hname⟩ := List.mem_map.mp hfield
  obtain ⟨items, hitems, hmem⟩ : ∃ items, header.items? (sectionName letter) = some items ∧
      item ∈ items := by
    cases hitems : header.items? (sectionName letter) with
    | none =>
        rw [hitems] at hitem
        cases hitem
    | some items =>
        rw [hitems] at hitem
        exact ⟨items, rfl, hitem⟩
  obtain ⟨rfl, rfl⟩ := Prod.mk.inj hname
  refine ⟨⟨letter, hletter, items, hitems, item, hmem, rfl⟩, ?_, fun c hc => ?_⟩
  · rw [String.toList_ofList, Text.upper_upper]
  · rw [String.toList_ofList] at hc
    exact Text.isBlank_trim hc

theorem ofText_of_header {text : String} {header : Header}
    (hblank : text.toList.all Text.isBlank = false) (hread : Header.ofText text = .ok header)
    (letters : List String) : ofText text letters = .ok (ofHeader header letters) := by
  rw [ofText, hblank, hread]
  rfl

/-- The selection for letters behind others is the one for these, updated: a name that is there
keeps its place and takes the later value, and a new one goes to the end. The warnings are one for
each letter that names no section. The fields are those of the sections named, in upper case and
trimmed, and to ask for them twice changes nothing. -/
theorem ofText_append {text : String} {header : Header}
    (hblank : text.toList.all Text.isBlank = false) (hread : Header.ofText text = .ok header)
    (first second : List String) :
    ∃ front rest both,
      ofText text first = .ok front ∧ ofText text second = .ok rest ∧
      ofText text (first ++ second) = .ok both ∧
      both.warnings = front.warnings ++ rest.warnings ∧
      both.fields = front.fields.setAll rest.fields ∧
      both.fields.names =
        front.fields.names ++ rest.fields.names.filter (· ∉ front.fields.names) ∧
      (∀ name, both.fields.get? name = (rest.fields.get? name).or (front.fields.get? name)) ∧
      front.warnings = remarks first ∧
      ofText text (first.filter (· ∈ sectionLetters)) = .ok ⟨front.fields, []⟩ ∧
      (∀ name value, (name, value) ∈ front.fields → Selects header first name value) ∧
      (∀ letter items, header.items? (sectionName letter) = some items →
        ofText text [letter] = .ok ⟨Fields.setAll [] (items.map field), []⟩) ∧
      ∃ twice, ofText text (first ++ first) = .ok twice ∧ twice.fields = front.fields := by
  have hselects := ofText_of_header hblank hread
  refine ⟨_, _, _, hselects first, hselects second, hselects (first ++ second), ?_⟩
  have hrest := nodup_names header second
  refine ⟨?_, ?_, ?_, fun name => ?_, ?_, ?_, fun name value => selects_of_mem header, ?_, ?_⟩
  · rw [ofHeader_append]
  · rw [ofHeader_append]
  · rw [ofHeader_append]
    exact Fields.names_setAll hrest
  · rw [ofHeader_append]
    exact Fields.get?_setAll hrest
  · rw [ofHeader_eq]
  · rw [hselects, ofHeader_eq, ofHeader_eq, updates_filter, remarks_filter]
  · intro letter items hitems
    rw [hselects, ofHeader_eq, updates_of_items header hitems, remarks_of_items header hitems]
  · refine ⟨_, hselects (first ++ first), ?_⟩
    rw [ofHeader_append]
    exact Fields.setAll_self (nodup_names header first)

def wrapTwice : String := "~V\nWRAP. NO : a\n~W\nwrap.  YES : b\nCOMP. X : c"

theorem ofText_append_wrapTwice :
    wrapTwice.toList.all Text.isBlank = false ∧
      (∃ header, Header.ofText wrapTwice = .ok header) ∧
      ∃ front both, ofText wrapTwice ["v", "?"] = .ok front ∧
        ofText wrapTwice (["v", "?"] ++ ["W"]) = .ok both ∧
        front.fields = [("WRAP", "NO")] ∧ both.fields = [("WRAP", "YES"), ("COMP", "X")] ∧
        both.warnings = ["unknown LAS section ~?"] := by
  have hblank : wrapTwice.toList.all Text.isBlank = false := by decide +kernel
  have hisSome : (Header.ofText wrapTwice).toOption.isSome = true := by decide +kernel
  have hread : ∃ header, Header.ofText wrapTwice = .ok header := by
    cases hheader : Header.ofText wrapTwice with
    | ok header => exact ⟨header, rfl⟩
    | error fault =>
        rw [hheader] at hisSome
        cases hisSome
  obtain ⟨header, hheader⟩ := hread
  obtain ⟨front, rest, both, hfront, hrest, hboth, hwarnings, hfields, -⟩ :=
    ofText_append hblank hheader ["v", "?"] ["W"]
  have hversion : (ofText wrapTwice ["v", "?"]).toOption =
      some ⟨[("WRAP", "NO")], ["unknown LAS section ~?"]⟩ := by decide +kernel
  have hwell : (ofText wrapTwice ["W"]).toOption =
      some ⟨[("WRAP", "YES"), ("COMP", "X")], []⟩ := by decide +kernel
  rw [hfront] at hversion
  rw [hrest] at hwell
  cases hversion
  cases hwell
  exact ⟨hblank, ⟨header, hheader⟩, _, both, hfront, hboth, rfl, hfields, hwarnings⟩

end Selection

end SeisLog.Las
