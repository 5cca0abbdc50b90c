import SeisLog.Las.Extract
import SeisLog.Proofs.Stages

/-!
# What a log header costs a record

The content of a record is the text up to the end of the tape, whatever header sections are wanted.
A line that cannot be read costs the record its fields, but a header that is refused as a whole
costs the record itself (`extract_content`); so it is for every text without a section title.
-/

namespace SeisLog

namespace Tape

theorem refusal?_usualChunk {tape : Tape} (h : tape.isOpen = true) :
    Reading.refusal? Reading.usualChunk tape = none := by
  unfold Reading.refusal?
  cases ha : tape.access with
  | closed =>
      rw [isOpen, ha] at h
      cases h
  | file => exact if_neg (by decide)
  | stream => rfl

end Tape

/-- The rest of an open tape is read up to its end, or up to the next stall. -/
theorem Reading.textRest_of_open {name : String} {charset : Charset} {tape : Tape}
    (hopen : tape.isOpen = true) (hl : tape.limit ≠ some 0)
    (hc : Charset.named? name = some charset) :
    textRest name tape =
      (.ok (charset.decode (tape.unread.take tape.reach)), (tape.ahead tape.reach).halt) := by
  have hrest : takeRest usualChunk tape =
      (.ok (tape.unread.take tape.reach), (tape.ahead tape.reach).halt) := by
    rw [takeRest_tape, ofStep, Tape.refusal?_usualChunk hopen, Tape.drain_eq hl (by decide)]
  rw [textRest, bind_of_ok _ (require_of_named hc tape), bind_of_ok _ hrest]
  rfl

namespace Las

/-- A fault of a single line; the others concern the text as a whole. -/
def Fault.isLine : Fault → Bool
  | .unreadable .. => true
  | _ => false

namespace Section

def linesOf (text : List Char) : List (List Char) := (Text.splitAt '\n' text).map Text.trim

def isTitle (line : List Char) : Bool := line.head? == some '~'

theorem place_eq_nil_iff {sections : List Section} {line : Nat × List Char} :
    place sections line = [] ↔ sections = [] ∧ isTitle line.2 = false := by
  unfold place isTitle
  cases ht : line.2.head? == some '~' with
  | true => simp
  | false => cases sections <;> simp

theorem foldl_place_eq_nil_iff {sections : List Section} {lines : List (Nat × List Char)} :
    lines.foldl place sections = [] ↔
      sections = [] ∧ ∀ line ∈ lines, isTitle line.2 = false := by
  induction lines generalizing sections with
  | nil => simp
  | cons line lines ih =>
      rw [List.foldl_cons, ih, place_eq_nil_iff, List.forall_mem_cons, and_assoc]

/-- A text has sections exactly if one of its lines is a title. -/
theorem ofText_eq_nil_iff {text : List Char} :
    ofText text = [] ↔ ∀ line ∈ linesOf text, isTitle line = false := by
  have hsnd : ∀ lines : List (List Char),
      ((List.range' 1 lines.length).zip lines).map Prod.snd = lines := by
    intro lines
    exact List.map_snd_zip (by simp)
  unfold ofText
  rw [List.map_eq_nil_iff, List.reverse_eq_nil_iff, foldl_place_eq_nil_iff, linesOf]
  constructor
  · intro h line hline
    rw [← hsnd (List.map Text.trim _)] at hline
    obtain ⟨numbered, hn, rfl⟩ := List.mem_map.mp hline
    exact h.2 numbered hn
  · intro h
    refine ⟨rfl, fun numbered hn => h numbered.2 ?_⟩
    rw [← hsnd (List.map Text.trim _)]
    exact List.mem_map_of_mem hn

end Section

def Header.Refused (text : String) : Prop :=
  ∃ fault : Fault, fault.isLine = false ∧ Header.ofText text = .error fault

theorem Header.refused_of_untitled {text : String}
    (h : ∀ line ∈ Section.linesOf text.toList, Section.isTitle line = false) :
    Header.Refused text := by
  unfold Header.Refused Header.ofText
  by_cases hp : Section.starts "LASF" text = true
  · exact ⟨.pointCloud, rfl, by rw [if_pos hp]; rfl⟩
  · refine ⟨.noSections, rfl, ?_⟩
    rw [if_neg hp, Section.ofText_eq_nil_iff.mpr h]
    rfl

/-- The header of the text is read: some sections are wanted, and the text is not blank. -/
def Reads (config : Config) (text : String) : Prop :=
  config.sections ≠ [] ∧ text.toList.all Text.isBlank = false

instance (config : Config) (text : String) : Decidable (Reads config text) :=
  inferInstanceAs (Decidable (_ ∧ _))

def recordOf (text : String) (selection : Selection) : Record where
  mediaType := mediaType
  dcmiType := dcmiType
  content := text
  fields := selection.fields.map fun (name, value) => (name, .text value)
  warnings := selection.warnings

section

variable {config : Config} {text : String}

theorem select_of_not_reads (h : ¬ Reads config text) :
    select text config.sections = .ok ⟨[], []⟩ := by
  unfold select
  by_cases hs : config.sections = []
  · rw [hs]
    rfl
  · have hn : config.sections.isEmpty = false := by simpa using hs
    cases hb : text.toList.all Text.isBlank with
    | true =>
        rw [hn, Selection.ofText, hb]
        rfl
    | false => exact absurd ⟨hs, hb⟩ h

theorem select_of_reads (h : Reads config text) :
    select text config.sections = (Selection.ofText text config.sections).mapError .log := by
  have hn : config.sections.isEmpty = false := by simpa using h.1
  rw [select, hn]
  rfl

theorem select_of_ok (h : Reads config text) {header : Header}
    (hh : Header.ofText text = .ok header) :
    select text config.sections = .ok (Selection.ofHeader header config.sections) := by
  rw [select_of_reads h, Selection.ofText, h.2, hh]
  rfl

theorem select_of_isLine (h : Reads config text) {fault : Fault}
    (hh : Header.ofText text = .error fault) (hf : fault.isLine = true) :
    select text config.sections =
      .ok ⟨[], ["LAS header not readable: " ++ fault.message]⟩ := by
  rw [select_of_reads h, Selection.ofText, h.2, hh]
  cases fault <;> first | rfl | cases hf

theorem select_of_not_isLine (h : Reads config text) {fault : Fault}
    (hh : Header.ofText text = .error fault) (hf : fault.isLine = false) :
    select text config.sections = .error (.log fault) := by
  rw [select_of_reads h, Selection.ofText, h.2, hh]
  cases fault <;> first | rfl | cases hf

/-- Only a header that is read and refused as a whole keeps a selection from giving something. -/
theorem select_eq_error {failure : Failure} (hs : select text config.sections = .error failure) :
    ∃ fault, failure = .log fault ∧ fault.isLine = false ∧ Reads config text ∧
      Header.ofText text = .error fault := by
  by_cases hr : Reads config text
  · cases hh : Header.ofText text with
    | ok header =>
        rw [select_of_ok hr hh] at hs
        cases hs
    | error fault =>
        cases hf : fault.isLine with
        | true =>
            rw [select_of_isLine hr hh hf] at hs
            cases hs
        | false =>
            rw [select_of_not_isLine hr hh hf] at hs
            cases hs
            exact ⟨fault, rfl, hf, hr, rfl⟩
  · rw [select_of_not_reads hr] at hs
    cases hs

theorem exists_select_iff : (∃ selection, select text config.sections = .ok selection) ↔
    ¬ (Reads config text ∧ Header.Refused text) := by
  constructor
  · rintro ⟨selection, hs⟩ ⟨hr, fault, hf, hh⟩
    rw [select_of_not_isLine hr hh hf] at hs
    cases hs
  · intro hread
    cases hs : select text config.sections with
    | ok selection => exact ⟨selection, rfl⟩
    | error failure =>
        obtain ⟨fault, -, hf, hr, hh⟩ := select_eq_error hs
        exact absurd ⟨hr, fault, hf, hh⟩ hread

theorem empty_of_fault {selection : Selection} {fault : Fault}
    (hs : select text config.sections = .ok selection) (hr : Reads config text)
    (hh : Header.ofText text = .error fault) :
    selection.fields = [] ∧ ∃ warning, selection.warnings = [warning] := by
  cases hf : fault.isLine with
  | true =>
      rw [select_of_isLine hr hh hf] at hs
      cases hs
      exact ⟨rfl, _, rfl⟩
  | false =>
      rw [select_of_not_isLine hr hh hf] at hs
      cases hs

end

section

variable {config : Config} {charset : Charset} {tape : Tape} (hopen : tape.isOpen = true)
  (hl : tape.limit ≠ some 0) (hc : Charset.named? config.charset = some charset)

include hopen hl hc

theorem extract_eq_select :
    let text := charset.decode (tape.unread.take tape.reach)
    extract config tape =
      ((select text config.sections).map (recordOf text), (tape.ahead tape.reach).halt) := by
  have htext := Reading.textRest_of_open hopen hl hc
  dsimp only
  rw [extract, Reading.text, Reading.bind_of_ok _ htext]
  cases hs : select (charset.decode (tape.unread.take tape.reach)) config.sections with
  | error failure => rfl
  | ok selection => rfl

/-- An extraction reads the text up to the end of the tape, and gives a record of it unless the
header is to be read and is refused as a whole. The content of the record is the text, and a header
with a line that cannot be read gives no fields and one warning. -/
theorem extract_content :
    let text := charset.decode (tape.unread.take tape.reach)
    let after := (tape.ahead tape.reach).halt
    (tape.stalls = [] → text = charset.decode tape.unread) ∧
    ((∃ record, extract config tape = (.ok record, after)) ↔
      ¬ (Reads config text ∧ Header.Refused text)) ∧
    (∀ failure left, extract config tape = (.error failure, left) →
      left = after ∧ ∃ fault, failure = .log fault ∧ fault.isLine = false ∧
        Reads config text ∧ Header.ofText text = .error fault) ∧
    (∀ record left, extract config tape = (.ok record, left) →
      left = after ∧ record.content = text ∧
      (∀ fault, Reads config text → Header.ofText text = .error fault →
        record.fields = [] ∧ ∃ warning, record.warnings = [warning])) ∧
    ((∀ line ∈ Section.linesOf text.toList, Section.isTitle line = false) →
      Header.Refused text) := by
  intro text after
  have hextract : extract config tape =
      ((select text config.sections).map (recordOf text), after) :=
    extract_eq_select hopen hl hc
  refine ⟨?_, ?_, ?_, ?_, Header.refused_of_untitled⟩
  · intro hstalls
    show charset.decode (tape.unread.take tape.reach) = charset.decode tape.unread
    rw [Tape.reach_of_nil hstalls, List.take_length]
  · rw [← exists_select_iff, hextract]
    constructor
    · rintro ⟨record, hrecord⟩
      cases hs : select text config.sections with
      | ok selection => exact ⟨selection, rfl⟩
      | error failure =>
          rw [hs] at hrecord
          cases hrecord
    · rintro ⟨selection, hs⟩
      rw [hs]
      exact ⟨_, rfl⟩
  · intro failure left hfailed
    rw [hextract] at hfailed
    cases hs : select text config.sections with
    | ok selection =>
        rw [hs] at hfailed
        cases hfailed
    | error other =>
        rw [hs] at hfailed
        cases hfailed
        exact ⟨rfl, select_eq_error hs⟩
  · intro record left hrecord
    rw [hextract] at hrecord
    cases hs : select text config.sections with
    | error failure =>
        rw [hs] at hrecord
        cases hrecord
    | ok selection =>
        rw [hs] at hrecord
        cases hrecord
        refine ⟨rfl, rfl, fun fault hr hh => ?_⟩
        obtain ⟨hfields, hwarning⟩ := empty_of_fault hs hr hh
        exact ⟨by rw [recordOf, hfields]; rfl, hwarning⟩

end

set_option maxRecDepth 20000 in
/-- A line without a point under a title: the record keeps the text and says so in one warning. -/
theorem extract_content_unreadableLine :
    let tape := Tape.ofBytes [126, 86, 10, 65] none []
    tape.isOpen = true ∧ tape.limit ≠ some 0 ∧
      ∃ record warning, extract {} tape = (.ok record, (tape.ahead 4).halt) ∧
        record.content = "~V\nA" ∧ record.fields = [] ∧ record.warnings = [warning] := by
  intro tape
  have hcharset : Charset.named? ({} : Config).charset = some .usAscii := by decide +kernel
  obtain ⟨-, hrecord, -, hkept, -⟩ :=
    @extract_content {} .usAscii tape (by decide) (by decide) hcharset
  have htext : Charset.usAscii.decode (tape.unread.take tape.reach) = "~V\nA" := by
    decide +kernel
  rw [htext] at hrecord hkept
  have hheader : Header.ofText "~V\nA" = .error (.unreadable 2 "~V" "A") := by rfl
  have hread : ¬ (Reads {} "~V\nA" ∧ Header.Refused "~V\nA") := by
    rintro ⟨-, fault, hf, hfault⟩
    rw [hheader] at hfault
    cases hfault
    cases hf
  obtain ⟨record, hextract⟩ := hrecord.mpr hread
  obtain ⟨-, hcontent, hfault⟩ := hkept record _ hextract
  obtain ⟨hfields, warning, hwarning⟩ := hfault _ (by decide) hheader
  exact ⟨by decide, by decide, record, warning, hextract, hcontent, hfields, hwarning⟩

/-- A text without titles, by default settings: no record at all, though the text was read. -/
theorem extract_content_of_untitled :
    let tape := Tape.ofBytes [104, 101, 108, 108, 111] none []
    extract {} tape = (.error (.log .noSections), tape.ahead 5) ∧ (tape.ahead 5).unread = [] := by
  intro tape
  have hcharset : Charset.named? ({} : Config).charset = some .usAscii := by decide +kernel
  have hextract := @extract_eq_select {} .usAscii tape (by decide) (by decide) hcharset
  have htext : Charset.usAscii.decode (tape.unread.take tape.reach) = "hello" := by
    decide +kernel
  have hheader : Header.ofText "hello" = .error .noSections := by rfl
  have hselect : select "hello" ({} : Config).sections = .error (.log .noSections) :=
    @select_of_not_isLine {} _ (by decide) _ hheader rfl
  dsimp only at hextract
  rw [htext, hselect] at hextract
  exact ⟨hextract, rfl⟩

end Las

end SeisLog
