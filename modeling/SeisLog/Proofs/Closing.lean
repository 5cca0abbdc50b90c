import SeisLog.Proofs.Reads
import SeisLog.Proofs.Run

/-!
# Who closes the tape

A tape is closed by the walks that own it, and by nothing else: when one of them is given up, in
whatever phase it is and whatever happened before (`Deck.isOpen_behind`). On a closed tape a walk
that is over goes on answering that it is, and any other fails at its next read as it stands.
-/

namespace SeisLog

/-- Whether the walk that starts under the options owns the tape; nothing if none starts. -/
def Walk.Options.owner? (options : Options) (layout : Layout) : Option Bool :=
  match start layout options with
  | .ok _ => some options.ownsTape
  | .error _ => none

/-- The requests that start a walk, go through its traces and give it up: they close the tape if
the walk starts, and owns it. -/
inductive Request.Closes (tape : Tape) : Request → Prop
  | summary {layout : Layout} {options : Walk.Options} :
      options.owner? layout = some true → Closes tape (.summary layout options)
  | overview {layout traceLayout : Layout} {charset? : Option String} {options : Walk.Options}
      {header : Header} {after : Tape} :
      Reading.header layout charset? tape = (.ok header, after) →
      options.owner? traceLayout = some true →
      Closes tape (.overview layout traceLayout charset? options)

namespace Command

def owner? : Command → Option Bool
  | .start layout options => options.owner? layout
  | _ => none

/-- The commands that close a tape, where `owners` tells which of the walks own it. -/
inductive Closes (owners : List Bool) (tape : Tape) : Command → Prop
  | read {request : Request} : request.Closes tape → Closes owners tape (.read request)
  | handle {index : Nat} {handling : Handling} :
      owners[index]? = some true → handling.givesUp = true →
      Closes owners tape (.handle index handling)

end Command

namespace Tape

/-- Afterwards the tape is closed if the condition holds, and otherwise answers as before. -/
structure ClosedIf (closes : Prop) (tape after : Tape) : Prop where
  closed : closes → after.access = .closed
  kept : ¬ closes → after.access = tape.access

variable {tape after : Tape} {closes other : Prop}

theorem isOpen_eq_false : tape.isOpen = false ↔ tape.access = .closed := by
  simp [isOpen]

theorem closedIf_of_access (h : after.access = tape.access) (hc : ¬ closes) :
    ClosedIf closes tape after :=
  ⟨fun hcloses => absurd hcloses hc, fun _ => h⟩

theorem ClosedIf.congr (h : ClosedIf closes tape after) (hiff : closes ↔ other) :
    ClosedIf other tape after :=
  ⟨fun ho => h.closed (hiff.mpr ho), fun hn => h.kept fun hc => hn (hiff.mp hc)⟩

/-- What happened before does not matter if it left the access alone. -/
theorem ClosedIf.of_access {middle : Tape} (h : ClosedIf closes middle after)
    (hm : middle.access = tape.access) : ClosedIf closes tape after :=
  ⟨h.closed, fun hn => (h.kept hn).trans hm⟩

theorem ClosedIf.isOpen_eq_false_iff (h : ClosedIf closes tape after)
    (hopen : tape.isOpen = true) : after.isOpen = false ↔ closes := by
  rw [Tape.isOpen_eq_false]
  refine ⟨fun hclosed => ?_, h.closed⟩
  refine Classical.byContradiction fun hn => ?_
  have hstill : tape.isOpen = false := Tape.isOpen_eq_false.mpr ((h.kept hn).symm.trans hclosed)
  rw [hopen] at hstill
  cases hstill

theorem ClosedIf.isOpen_eq_false_of_closed (h : ClosedIf closes tape after)
    (hclosed : tape.isOpen = false) : after.isOpen = false := by
  rw [Tape.isOpen_eq_false] at hclosed ⊢
  by_cases hc : closes
  · exact h.closed hc
  · exact (h.kept hc).trans hclosed

end Tape

namespace Walk

variable {walk : Walk} {tape : Tape}

theorem closedIf_close (walk : Walk) (tape : Tape) :
    tape.ClosedIf (walk.ownsTape = true) (walk.close tape).2 := by
  refine ⟨fun h => ?_, fun h => ?_⟩
  · rw [close, h]
    rfl
  · rw [close, eq_false_of_ne_true h]
    rfl

theorem ownsTape_close (walk : Walk) (tape : Tape) :
    (walk.close tape).1.ownsTape = walk.ownsTape := by
  rw [walk_close]
  split <;> rfl

/-- Calls that are made until one fails leave the access alone, and the owner. -/
theorem callsInto_keeps (done : List (Option Trace)) (count : Nat) (walk : Walk) (tape : Tape) :
    let (_, _, after, left) := callsInto done count walk tape
    after.ownsTape = walk.ownsTape ∧ left.access = tape.access := by
  induction count generalizing done walk tape with
  | zero => exact ⟨rfl, rfl⟩
  | succ count ih =>
      have howns := ownsTape_next walk tape
      have haccess := access_next walk tape
      rw [callsInto]
      dsimp only
      split
      · exact ⟨howns, haccess⟩
      · rename_i trace? _
        obtain ⟨hrest, hleft⟩ := ih (trace? :: done) (walk.next tape).walk (walk.next tape).tape
        exact ⟨hrest.trans howns, hleft.trans haccess⟩

/-- Leaving a walk gives it up, whatever the calls in it gave. -/
theorem within_keeps (count : Nat) (walk : Walk) (tape : Tape) :
    let (_, _, after, left) := walk.within count tape
    after.ownsTape = walk.ownsTape ∧ tape.ClosedIf (walk.ownsTape = true) left := by
  have hcalls := callsInto_keeps [] count walk tape
  unfold within
  generalize callsInto [] count walk tape = calls at hcalls ⊢
  obtain ⟨answers, failure?, after, left⟩ := calls
  obtain ⟨howns, haccess⟩ := hcalls
  have hclosed := (closedIf_close after left).of_access haccess
  rw [howns] at hclosed
  exact ⟨(ownsTape_close after left).trans howns, hclosed⟩

/-- A walk that has yet to read fails on a closed tape, and stays as it is. -/
theorem next_of_closed (hover : walk.isOver = false) (hcap : walk.atCap = false)
    (hsize : 0 < walk.decoder.layout.readSize) (hclosed : tape.isOpen = false) :
    walk.next tape = ⟨.error .closed, walk, tape⟩ := by
  have haccess := Tape.isOpen_eq_false.mp hclosed
  have htake : Reading.take walk.decoder.layout.readSize tape = (.error .closed, tape) := by
    rw [Reading.take_tape, if_neg (by omega), Reading.ofStep, Reading.refusal?, haccess]
  rw [next, hover, hcap]
  dsimp only
  rw [htake]
  rfl

end Walk

namespace Handling

theorem ownsTape_apply (handling : Handling) (walk : Walk) (tape : Tape) :
    (handling.apply walk tape).2.1.ownsTape = walk.ownsTape := by
  cases handling with
  | next => exact walk.ownsTape_next tape
  | iterate wanted => exact walk.ownsTape_run wanted tape
  | within count => exact (walk.within_keeps count tape).1
  | close => exact walk.ownsTape_close tape
  | summarize =>
      rw [apply, Walk.summarize_eq]
      exact walk.ownsTape_run none tape
  | tabulate limit =>
      rw [apply, Walk.tabulate_eq]
      exact walk.ownsTape_run _ tape

/-- A handling closes the tape if it gives up a walk that owns it. -/
theorem closedIf_apply (handling : Handling) (walk : Walk) (tape : Tape) :
    tape.ClosedIf (walk.ownsTape = true ∧ handling.givesUp = true)
      (handling.apply walk tape).2.2 := by
  have hkept (h : handling.givesUp = false) :
      tape.ClosedIf (walk.ownsTape = true ∧ handling.givesUp = true)
        (handling.apply walk tape).2.2 :=
    Tape.closedIf_of_access (access_apply h walk tape) fun hcloses => by
      rw [h] at hcloses
      cases hcloses.2
  cases handling with
  | next => exact hkept rfl
  | iterate wanted => exact hkept rfl
  | within count => exact (walk.within_keeps count tape).2.congr (and_iff_left rfl).symm
  | close => exact (walk.closedIf_close tape).congr (and_iff_left rfl).symm
  | summarize => exact hkept rfl
  | tabulate limit => exact hkept rfl

end Handling

namespace Reading

theorem tape_map {α β : Type} (reading : Reading Tape α) (f : α → β) (tape : Tape) :
    ((do return f (← reading) : Reading Tape β) tape).2 = (reading tape).2 := by
  cases hr : reading tape with
  | mk answer after =>
      cases answer with
      | error failure => rw [bind_of_error _ hr]
      | ok answer =>
          rw [bind_of_ok _ hr]
          rfl

theorem closedIf_summary (layout : Layout) (options : Walk.Options) (tape : Tape) :
    tape.ClosedIf (options.owner? layout = some true) (summary layout options tape).2 := by
  unfold summary Walk.Options.owner?
  cases hs : Walk.start layout options with
  | error failure => exact Tape.closedIf_of_access rfl nofun
  | ok walk =>
      have hclosed := ((walk.run none tape).walk.closedIf_close (walk.run none tape).tape).of_access
        (walk.access_run none tape)
      dsimp only
      rw [Walk.summarize_eq]
      rw [Walk.ownsTape_run, (Walk.fresh_start hs).ownsTape] at hclosed
      exact hclosed.congr Option.some_inj.symm

/-- An overview closes the tape as the summary behind its header does. -/
theorem closedIf_overview {layout : Layout} (traceLayout : Layout) {charset? : Option String}
    (options : Walk.Options) (tape : Tape) :
    tape.ClosedIf ((Request.overview layout traceLayout charset? options).Closes tape)
      (overview layout traceLayout charset? options tape).2 := by
  have hheader : Reading.Spends 1 1 (header layout charset?) := spends_header layout charset?
  have hkept := hheader.access (agree_header Recorded.matching_erases layout charset?) tape
  unfold overview
  cases hh : header layout charset? tape with
  | mk answer after =>
      rw [hh] at hkept
      cases answer with
      | error failure =>
          rw [bind_of_error _ hh]
          refine Tape.closedIf_of_access hkept ?_
          rintro (_ | ⟨hfound, -⟩)
          cases hh.symm.trans hfound
      | ok found =>
          have hsummary := (closedIf_summary traceLayout options after).of_access hkept
          rw [bind_of_ok _ hh, tape_map]
          refine hsummary.congr ⟨.overview hh, ?_⟩
          rintro (_ | ⟨-, howns⟩)
          exact howns

end Reading

theorem Las.spends_extract (config : Las.Config) : Reading.Spends 3 1 (Las.extract config) :=
  (Reading.spends_text _ _).bind fun _ => (Reading.spends_ofExcept 3 0 _).map _

theorem Request.closedIf_reading (request : Request) (tape : Tape) :
    tape.ClosedIf (request.Closes tape) (request.reading tape).2 := by
  have hkept {spare : Nat} : Reading.Spends 3 spare request.reading →
      ¬ request.Closes tape → tape.ClosedIf (request.Closes tape) (request.reading tape).2 :=
    fun hspends => Tape.closedIf_of_access
      (hspends.access (request.agree_reading Recorded.matching_erases) tape)
  cases request with
  | bytes size => exact hkept ((Reading.spends_take size).map _) nofun
  | rest chunk => exact hkept ((Reading.spends_takeRest chunk).map _) nofun
  | skip size chunk => exact hkept ((Reading.spends_skip size chunk).map _) nofun
  | textRest charset => exact hkept ((Reading.spends_textRest charset).map _) nofun
  | textBlock size charset strict =>
      exact hkept ((Reading.spends_textBlock size charset strict).map _) nofun
  | header layout charset? => exact hkept ((Reading.spends_header layout charset?).map _) nofun
  | las config => exact hkept ((Las.spends_extract config).map _) nofun
  | segy config => exact hkept ((Segy.spends_extract config).map _) nofun
  | summary layout options =>
      have hclosed := Reading.closedIf_summary layout options tape
      rw [← Reading.tape_map _ Reply.summary] at hclosed
      exact hclosed.congr ⟨.summary, fun | .summary h => h⟩
  | overview layout traceLayout charset? options =>
      have hclosed := @Reading.closedIf_overview layout traceLayout charset? options tape
      rwa [← Reading.tape_map _ fun found => Reply.overview found.1 found.2] at hclosed

namespace Deck

def behind (deck : Deck) : List Command → Deck
  | [] => deck
  | command :: later => (deck.perform command).2.behind later

theorem set_of_getElem? {α : Type} {items : List α} {index : Nat} {item : α}
    (h : items[index]? = some item) : items.set index item = items := by
  obtain ⟨hlt, rfl⟩ := List.getElem?_eq_some_iff.mp h
  exact List.set_getElem_self hlt

variable (deck : Deck)

/-- Which walks own the tape is settled by the commands that started them. -/
theorem owners_perform (command : Command) :
    (deck.perform command).2.walks.map Walk.ownsTape =
      deck.walks.map Walk.ownsTape ++ command.owner?.toList := by
  cases command with
  | read request => exact (List.append_nil _).symm
  | start layout options =>
      unfold perform Command.owner? Walk.Options.owner?
      dsimp only
      cases hs : Walk.start layout options with
      | error failure => exact (List.append_nil _).symm
      | ok walk => simp [(Walk.fresh_start hs).ownsTape]
  | handle index handling =>
      have hnone : (Command.handle index handling).owner?.toList = [] := rfl
      rw [hnone, List.append_nil]
      unfold perform
      dsimp only
      cases hw : deck.walks[index]? with
      | none => rfl
      | some walk =>
          dsimp only
          rw [List.map_set, handling.ownsTape_apply]
          refine set_of_getElem? ?_
          rw [List.getElem?_map, hw]
          rfl

theorem owners_behind (commands : List Command) :
    (deck.behind commands).walks.map Walk.ownsTape =
      deck.walks.map Walk.ownsTape ++ commands.filterMap Command.owner? := by
  induction commands generalizing deck with
  | nil => exact (List.append_nil _).symm
  | cons command later ih =>
      rw [behind, ih, owners_perform, List.append_assoc]
      cases h : command.owner? <;> simp [h]

/-- What was played before does not change, and the deck that it left is played on. -/
theorem play_append (earlier later : List Command) :
    deck.play (earlier ++ later) = deck.play earlier ++ (deck.behind earlier).play later := by
  induction earlier generalizing deck with
  | nil => rfl
  | cons command earlier ih =>
      rw [List.cons_append, behind]
      exact congrArg (deck.perform command :: ·) (ih _)

theorem closedIf_perform (command : Command) :
    deck.tape.ClosedIf (command.Closes (deck.walks.map Walk.ownsTape) deck.tape)
      (deck.perform command).2.tape := by
  cases command with
  | read request =>
      exact (request.closedIf_reading deck.tape).congr ⟨.read, fun | .read h => h⟩
  | start layout options =>
      refine Tape.closedIf_of_access ?_ nofun
      unfold perform
      dsimp only
      cases Walk.start layout options <;> rfl
  | handle index handling =>
      have howner : (deck.walks.map Walk.ownsTape)[index]? =
          deck.walks[index]?.map Walk.ownsTape := List.getElem?_map
      cases hw : deck.walks[index]? with
      | none =>
          rw [hw] at howner
          rw [perform, hw]
          refine Tape.closedIf_of_access rfl ?_
          rintro (_ | ⟨howns, -⟩)
          cases howner.symm.trans howns
      | some walk =>
          rw [hw] at howner
          have hperform : (deck.perform (.handle index handling)).2.tape =
              (handling.apply walk deck.tape).2.2 := by rw [perform, hw]
          rw [hperform]
          refine (handling.closedIf_apply walk deck.tape).congr ⟨?_, ?_⟩
          · rintro ⟨howns, hgives⟩
            exact .handle (howner.trans (congrArg some howns)) hgives
          · rintro (_ | ⟨howns, hgives⟩)
            exact ⟨Option.some.inj (howner.symm.trans howns), hgives⟩

theorem perform_next {index : Nat} {walk : Walk} {answer : Except Failure (Option Trace)}
    (hw : deck.walks[index]? = some walk)
    (hn : walk.next deck.tape = ⟨answer, walk, deck.tape⟩) :
    deck.perform (.handle index .next) = (.ofAnswer (answer.map .trace), deck) := by
  have happly : Handling.next.apply walk deck.tape =
      (.ofAnswer (answer.map .trace), walk, deck.tape) := by
    unfold Handling.apply
    dsimp only
    rw [hn]
  rw [perform, hw]
  dsimp only
  rw [happly]
  dsimp only
  rw [set_of_getElem? hw]

/-- After any commands, the next one closes an open tape exactly if it gives up a walk that was
started as an owner of the tape: in whatever phase the walk is, and whatever its calls gave. A
closed tape stays closed. On it a walk that is over says so again, and one that has yet to read
fails because the tape is closed; neither changes. -/
theorem isOpen_behind (tape : Tape) (earlier : List Command) (command : Command) :
    let before := (ofTape tape).behind earlier
    let after := (before.perform command).2
    (ofTape tape).play (earlier ++ [command]) =
      (ofTape tape).play earlier ++ [before.perform command] ∧
    (before.tape.isOpen = true → (after.tape.isOpen = false ↔
      command.Closes (earlier.filterMap Command.owner?) before.tape)) ∧
    (before.tape.isOpen = false → after.tape.isOpen = false ∧
      ∀ index walk, before.walks[index]? = some walk →
        (walk.isOver = true →
          before.perform (.handle index .next) = (.ofAnswer (.ok (.trace none)), before)) ∧
        (walk.isOver = false → walk.atCap = false → 0 < walk.decoder.layout.readSize →
          before.perform (.handle index .next) = (.ofAnswer (.error .closed), before))) := by
  intro before after
  have howners : before.walks.map Walk.ownsTape = earlier.filterMap Command.owner? :=
    (owners_behind (ofTape tape) earlier).trans (List.nil_append _)
  have hclosed : before.tape.ClosedIf
      (command.Closes (earlier.filterMap Command.owner?) before.tape) after.tape :=
    howners ▸ closedIf_perform before command
  refine ⟨play_append (ofTape tape) earlier [command], hclosed.isOpen_eq_false_iff,
    fun hbefore => ?_⟩
  refine ⟨hclosed.isOpen_eq_false_of_closed hbefore, fun index walk hw => ⟨?_, ?_⟩⟩
  · intro hover
    exact perform_next before hw (Walk.next_of_isOver hover _)
  · intro hover hcap hsize
    exact perform_next before hw (Walk.next_of_closed hover hcap hsize hbefore)

/-- Two walks of one tape, of which the second owns it. -/
def ownedCommands : List Command := [
  .start Walk.countAndText Walk.textOptions,
  .start Walk.countAndText { Walk.textOptions with ownsTape := true }]

/-- The calls within the owner fail at a cut, and the tape is closed all the same. The other walk
finds it closed. -/
theorem isOpen_behind_ownedCommands :
    let tape := Tape.ofBytes ((RawTrace.region Walk.oneSampleThenNone).take 9) (some 1) []
    let before := (ofTape tape).behind ownedCommands
    let after := (ofTape tape).behind (ownedCommands ++ [.handle 1 (.within 5)])
    before.tape.isOpen = true ∧ (before.perform (.handle 1 (.within 5))).1.answer.toBool = false ∧
      after.tape.isOpen = false ∧
      after.perform (.handle 0 .next) = (.ofAnswer (.error .closed), after) := by
  intro tape before after
  have hopen : before.tape.isOpen = true := by decide
  obtain ⟨-, hcloses, -⟩ := isOpen_behind tape ownedCommands (.handle 1 (.within 5))
  have hclosed : after.tape.isOpen = false := (hcloses hopen).mpr (.handle rfl rfl)
  obtain ⟨-, -, hnext⟩ :=
    isOpen_behind tape (ownedCommands ++ [.handle 1 (.within 5)]) (.handle 0 .next)
  have hfresh : after.walks[0]?.map
      (fun walk => (walk.isOver, walk.atCap, walk.decoder.layout.readSize)) =
      some (false, false, 5) := by decide +kernel
  obtain ⟨walk, hwalk, hfacts⟩ := Option.map_eq_some_iff.mp hfresh
  obtain ⟨hover, hcap, hsize⟩ : walk.isOver = false ∧ walk.atCap = false ∧
      walk.decoder.layout.readSize = 5 := by simpa using hfacts
  have hfails := ((hnext hclosed).2 0 walk hwalk).2 hover hcap (by omega)
  exact ⟨hopen, by decide +kernel, hclosed, hfails⟩

end Deck

end SeisLog
