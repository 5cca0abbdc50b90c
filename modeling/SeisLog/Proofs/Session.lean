import SeisLog.Proofs.Call
import SeisLog.Proofs.Run
import SeisLog.Proofs.Region.RoundTrip
import SeisLog.Summary

/-!
# Sessions with a walk

A session uses one walk again and again, in any order and between other readers of its tape. Every
use comes down to calls and closes (`leads_performAll`), so what a call and a close preserve holds
throughout: the counts of the walk are those of the traces returned and of the bytes taken, at most
one cut is raised, and an ended walk stays as it is.
-/

namespace SeisLog

/-- One thing done to a walk, or to its tape by another reader. -/
inductive Use
  | next
  | iterate (wanted : Option Nat)
  | summarize
  | table (limit : Option Int)
  | close
  | within (calls : Nat)
  | other (reader : Tape → Tape)

/-- A walk and its tape, the traces returned so far, the failures raised so far, and how far the
walk's own uses have moved the tape. -/
structure Session where
  walk : Walk
  tape : Tape
  traces : List Trace
  failures : List Failure
  moved : Int

def Walk.Step.run (step : Walk.Step Tape) : Run Tape :=
  match step.answer with
  | .error failure => ⟨[], some failure, step.walk, step.tape⟩
  | .ok trace? => ⟨trace?.toList, none, step.walk, step.tape⟩

namespace Session

def start (walk : Walk) (tape : Tape) : Session := ⟨walk, tape, [], [], 0⟩

def after (session : Session) (run : Run Tape) : Session where
  walk := run.walk
  tape := run.tape
  traces := session.traces ++ run.traces
  failures := session.failures ++ run.failure?.toList
  moved := session.moved + (run.tape.position - session.tape.position)

def perform (session : Session) : Use → Session
  | .next => session.after (session.walk.next session.tape).run
  | .iterate wanted => session.after (session.walk.run wanted session.tape)
  | .summarize => session.after (session.walk.run none session.tape)
  | .table limit => session.after (session.walk.run (limit.map Int.toNat) session.tape)
  | .close =>
      let (walk, tape) := session.walk.close session.tape
      session.after ⟨[], none, walk, tape⟩
  | .within calls =>
      let (answers, failure?, walk, tape) := session.walk.within calls session.tape
      session.after ⟨answers.filterMap id, failure?, walk, tape⟩
  | .other reader => { session with tape := reader session.tape }

def performAll (session : Session) (uses : List Use) : Session := uses.foldl perform session

/-- One session leads to another by calls, closes and what other readers do. -/
inductive Leads : Session → Session → Prop
  | refl (session : Session) : Leads session session
  | next {session last : Session} : Leads (session.perform .next) last → Leads session last
  | close {session last : Session} : Leads (session.perform .close) last → Leads session last
  | other {session last : Session} (reader : Tape → Tape) :
      Leads (session.perform (.other reader)) last → Leads session last

theorem Leads.trans {a b c : Session} (hab : a.Leads b) (hbc : b.Leads c) : a.Leads c := by
  induction hab with
  | refl => exact hbc
  | next _ ih => exact .next (ih hbc)
  | close _ ih => exact .close (ih hbc)
  | other reader _ ih => exact .other reader (ih hbc)

@[simp] theorem walk_next (session : Session) :
    (session.perform .next).walk = (session.walk.next session.tape).walk := by
  unfold perform Walk.Step.run
  dsimp only
  split <;> rfl

@[simp] theorem tape_next (session : Session) :
    (session.perform .next).tape = (session.walk.next session.tape).tape := by
  unfold perform Walk.Step.run
  dsimp only
  split <;> rfl

@[simp] theorem after_idle (session : Session) :
    session.after ⟨[], none, session.walk, session.tape⟩ = session := by
  simp [after]

/-- A run that goes on after a trace is the call that gave the trace and the rest of the run. -/
theorem after_cons (session : Session) (trace? : Option Trace) (rest : Run Tape)
    (h : (session.walk.next session.tape).answer = .ok trace?) :
    session.after { rest with traces := trace?.toList ++ rest.traces } =
      (session.perform .next).after rest := by
  simp only [perform, after, Walk.Step.run, h, Option.toList_none, List.append_nil,
    List.append_assoc, mk.injEq, true_and]
  omega

theorem leads_next (session : Session) :
    session.Leads (session.after (session.walk.next session.tape).run) := .next (.refl _)

theorem leads_run (session : Session) (wanted : Option Nat) :
    session.Leads (session.after (session.walk.run wanted session.tape)) := by
  generalize hwalk : session.walk = walk, htape : session.tape = tape
  induction wanted, walk, tape using Walk.run_induct generalizing session with
  | stopped walk tape =>
      rw [← hwalk, ← htape, after_idle]
      exact .refl session
  | failed wanted walk tape failure hw ha =>
      have hl := session.leads_next
      rwa [hwalk, htape, Walk.Step.run, ha] at hl
  | ended wanted walk tape hw ha =>
      have hl := session.leads_next
      rwa [hwalk, htape, Walk.Step.run, ha] at hl
  | yielded wanted walk tape trace hw ha rest ih =>
      have hrest := ih (session.perform .next) (by rw [walk_next, hwalk, htape])
        (by rw [tape_next, hwalk, htape])
      rw [← hwalk, ← htape] at ha
      rw [← after_cons session (some trace) rest ha] at hrest
      exact .next hrest

def ofCalls (calls : List (Option Trace) × Option Failure × Walk × Tape) : Run Tape :=
  ⟨calls.1.filterMap id, calls.2.1, calls.2.2.1, calls.2.2.2⟩

theorem leads_callsInto (session : Session) (count : Nat) :
    session.Leads (session.after (ofCalls (session.walk.callsInto [] count session.tape))) := by
  induction count generalizing session with
  | zero =>
      have hidle : session.after (ofCalls (session.walk.callsInto [] 0 session.tape)) = session :=
        session.after_idle
      rw [hidle]
      exact .refl session
  | succ count ih =>
      rw [Walk.callsInto]
      split
      · rename_i failure ha
        have hl := session.leads_next
        rwa [Walk.Step.run, ha] at hl
      · rename_i trace? ha
        have hrest := ih (session.perform .next)
        rw [← after_cons session trace? _ ha, walk_next, tape_next] at hrest
        have hcalls : ofCalls (Walk.callsInto [trace?] count (session.walk.next session.tape).walk
            (session.walk.next session.tape).tape) =
            let rest := ofCalls (Walk.callsInto [] count (session.walk.next session.tape).walk
              (session.walk.next session.tape).tape)
            { rest with traces := trace?.toList ++ rest.traces } := by
          rw [Walk.callsInto_eq, ofCalls]
          cases trace? <;> rfl
        rw [hcalls]
        exact .next hrest

theorem leads_perform (session : Session) (use : Use) : session.Leads (session.perform use) := by
  cases use with
  | next => exact session.leads_next
  | iterate wanted => exact session.leads_run wanted
  | summarize => exact session.leads_run none
  | table limit => exact session.leads_run (limit.map Int.toNat)
  | close => exact .close (.refl _)
  | within calls =>
      refine (session.leads_callsInto calls).trans (.close ?_)
      have hclose : (session.after (ofCalls (session.walk.callsInto [] calls session.tape))).perform
          .close = session.perform (.within calls) := by
        simp only [perform, after, ofCalls, Walk.within, Walk.position_close, Int.sub_self,
          Int.add_zero, List.append_nil, Option.toList_none]
      rw [hclose]
      exact .refl _
  | other reader => exact .other reader (.refl _)

/-- Whatever is done to a walk comes down to calls and closes. -/
theorem leads_performAll (session : Session) (uses : List Use) :
    session.Leads (session.performAll uses) := by
  induction uses generalizing session with
  | nil => exact .refl session
  | cons use uses ih => exact (session.leads_perform use).trans (ih (session.perform use))

/-- What was returned, raised and read so far fits what the walk says of itself. -/
structure Sound (session : Session) : Prop where
  walk : session.walk.Consistent
  indices : session.traces.map Trace.index = List.range session.walk.traces
  ends : session.traces.Pairwise (·.consumed < ·.consumed)
  behind : ∀ trace ∈ session.traces, trace.consumed ≤ session.walk.consumed
  raised : session.failures.filterMap Failure.cut? = session.walk.error.toList
  moved : session.moved = session.walk.consumed

theorem sound_start {layout : Layout} {options : Walk.Options} {walk : Walk}
    (hstart : Walk.start layout options = .ok walk) (tape : Tape) : (start walk tape).Sound := by
  have hwalk := Walk.consistent_start hstart
  obtain ⟨coding, decoder, -, -, -, -, rfl⟩ := Walk.start_eq_ok_iff.mp hstart
  exact ⟨hwalk, rfl, List.Pairwise.nil, nofun, rfl, rfl⟩

/-- A walk has raised the cut that it failed at, and no other. -/
theorem Sound.mem_failures {session : Session} (h : session.Sound) {cut : TraceCut} :
    .trace cut ∈ session.failures ↔ session.walk.error = some cut := by
  have hmem : .trace cut ∈ session.failures ↔ cut ∈ session.failures.filterMap Failure.cut? := by
    simp [Failure.cut?_eq_some]
  rw [hmem, h.raised, Option.mem_toList]

theorem Sound.raised_eq_nil {session : Session} (h : session.Sound)
    (ho : session.walk.isOver = false) : session.failures.filterMap Failure.cut? = [] := by
  rw [h.raised, h.walk.error_eq_none ho]
  rfl

/-- A run keeps a session sound if its walk counts the traces and the bytes that it adds, and keeps
the cut that it raises. -/
theorem Sound.after {session : Session} (h : session.Sound) {run : Run Tape} {read : Nat}
    (hwalk : run.walk.Consistent)
    (hnumber : run.walk.traces = session.walk.traces + run.traces.length)
    (hindices : run.traces.map Trace.index =
      (List.range run.traces.length).map (session.walk.traces + ·))
    (hends : run.traces.Pairwise (·.consumed < ·.consumed))
    (hbetween : ∀ trace ∈ run.traces,
      session.walk.consumed < trace.consumed ∧ trace.consumed ≤ run.walk.consumed)
    (hconsumed : run.walk.consumed = session.walk.consumed + read)
    (hposition : run.tape.position = session.tape.position + read)
    (hraised : session.failures.filterMap Failure.cut? ++
      run.failure?.toList.filterMap Failure.cut? = run.walk.error.toList) :
    (session.after run).Sound := by
  refine ⟨hwalk, ?_, ?_, ?_, ?_, ?_⟩
  · show (session.traces ++ run.traces).map Trace.index = List.range run.walk.traces
    rw [List.map_append, h.indices, hindices, hnumber, List.range_add]
  · refine List.pairwise_append.mpr ⟨h.ends, hends, ?_⟩
    intro earlier he later hl
    have hb := h.behind earlier he
    have hn := hbetween later hl
    omega
  · intro trace ht
    show trace.consumed ≤ run.walk.consumed
    rcases List.mem_append.mp ht with ht | ht
    · have hb := h.behind trace ht
      omega
    · exact (hbetween trace ht).2
  · show (session.failures ++ run.failure?.toList).filterMap Failure.cut? = _
    rw [List.filterMap_append, hraised]
    rfl
  · have hm := h.moved
    show session.moved + (run.tape.position - session.tape.position) = (run.walk.consumed : Int)
    omega

theorem Sound.next {session : Session} (h : session.Sound) : (session.perform .next).Sound := by
  obtain ⟨read, hp, hd⟩ := Walk.next_does session.walk session.tape
  have hwalk := hd.consistent h.walk
  unfold perform Walk.Step.run
  generalize session.walk.next session.tape = step at hp hd hwalk
  obtain ⟨answer, walk, tape⟩ := step
  dsimp only at hp hd hwalk ⊢
  cases hd with
  | ended ho =>
      refine h.after hwalk rfl rfl List.Pairwise.nil nofun rfl hp ?_
      simpa using h.raised
  | finished ho =>
      refine h.after hwalk rfl rfl List.Pairwise.nil nofun rfl hp ?_
      rw [h.raised_eq_nil ho, Walk.finish, h.walk.error_eq_none ho]
      rfl
  | yielded header samples ho hc hr =>
      refine h.after hwalk rfl rfl (List.pairwise_singleton _ _) ?_ rfl hp ?_
      · intro trace ht
        rw [List.mem_singleton.mp ht]
        dsimp only
        omega
      · rw [h.raised_eq_nil ho, h.walk.error_eq_none ho]
        rfl
  | cut cut ho hi hc =>
      refine h.after hwalk rfl rfl List.Pairwise.nil nofun rfl hp ?_
      rw [h.raised_eq_nil ho]
      rfl
  | refused failure ho hf =>
      refine h.after hwalk rfl rfl List.Pairwise.nil nofun rfl hp ?_
      simpa [hf] using h.raised

theorem Sound.close {session : Session} (h : session.Sound) : (session.perform .close).Sound := by
  have hw := Walk.walk_close session.walk session.tape
  have hp : (session.walk.close session.tape).2.position = session.tape.position + 0 :=
    Walk.position_close session.walk session.tape
  unfold perform
  generalize session.walk.close session.tape = closed at hw hp
  obtain ⟨walk, tape⟩ := closed
  dsimp only at hw hp ⊢
  cases ho : session.walk.isOver with
  | true =>
      rw [ho, if_pos rfl] at hw
      subst hw
      refine h.after h.walk rfl rfl List.Pairwise.nil nofun rfl hp ?_
      simpa using h.raised
  | false =>
      rw [ho, if_neg Bool.false_ne_true] at hw
      subst hw
      refine h.after (h.walk.finish ho) rfl rfl List.Pairwise.nil nofun rfl hp ?_
      rw [h.raised_eq_nil ho, Walk.finish, h.walk.error_eq_none ho]
      rfl

theorem Leads.sound {session last : Session} (hl : session.Leads last) (h : session.Sound) :
    last.Sound := by
  induction hl with
  | refl => exact h
  | next _ ih => exact ih h.next
  | close _ ih => exact ih h.close
  | other reader _ ih =>
      exact ih ⟨h.walk, h.indices, h.ends, h.behind, h.raised, h.moved⟩

/-- A run of a fresh walk is sound. -/
theorem sound_run {layout : Layout} {options : Walk.Options} {walk : Walk}
    (hstart : Walk.start layout options = .ok walk) (tape : Tape) (wanted : Option Nat) :
    ((start walk tape).after (walk.run wanted tape)).Sound :=
  ((start walk tape).leads_run wanted).sound (sound_start hstart tape)

theorem Leads.cap {session last : Session} (hl : session.Leads last) :
    last.walk.cap = session.walk.cap := by
  induction hl with
  | refl => rfl
  | @next session _ _ ih =>
      obtain ⟨read, -, hd⟩ := Walk.next_does session.walk session.tape
      rw [ih, walk_next, hd.cap]
  | @close session _ _ ih =>
      have hw : (session.perform .close).walk = (session.walk.close session.tape).1 := rfl
      rw [ih, hw, Walk.walk_close]
      split <;> rfl
  | other reader _ ih => exact ih

/-- Nothing that is done to an ended walk changes it, or what came of it. -/
theorem Leads.of_isOver {session last : Session} (hl : session.Leads last)
    (ho : session.walk.isOver = true) :
    last.walk = session.walk ∧ last.traces = session.traces ∧ last.failures = session.failures ∧
      last.moved = session.moved := by
  induction hl with
  | refl => exact ⟨rfl, rfl, rfl, rfl⟩
  | @next session _ _ ih =>
      have hidle : session.perform .next = session := by
        rw [perform, Walk.next_of_isOver ho, Walk.Step.run]
        exact session.after_idle
      rw [hidle] at ih
      exact ih ho
  | @close session _ _ ih =>
      have hw : (session.perform .close).walk = session.walk := by
        show (session.walk.close session.tape).1 = session.walk
        rw [Walk.walk_close, if_pos ho]
      obtain ⟨h₁, h₂, h₃, h₄⟩ := ih (hw ▸ ho)
      rw [h₁, h₂, h₃, h₄, hw]
      simp [perform, after]
  | other reader _ ih => exact ih ho

/-- At every point of every session the walk tells the truth about its traces, its bytes and its
end, and an end is final. -/
theorem performAll_invariant {layout : Layout} {options : Walk.Options} {walk : Walk}
    (hstart : Walk.start layout options = .ok walk) (tape : Tape) (uses : List Use) :
    let session := (start walk tape).performAll uses
    (session.walk.phase = .ready → session.walk.traces = 0) ∧
    (session.walk.phase = .active → 1 ≤ session.walk.traces) ∧
    (session.walk.phase = .failed ↔ ∃ cut, session.walk.error = some cut) ∧
    (∀ cut, session.walk.error = some cut ↔ .trace cut ∈ session.failures) ∧
    (∀ cut, session.walk.error = some cut →
      cut.index = session.walk.traces ∧ cut.consumed = session.walk.consumed) ∧
    (session.walk.phase = .exhausted ∨ session.walk.phase = .failed →
      (∀ other : Tape, session.walk.next other = ⟨.ok none, session.walk, other⟩) ∧
      (∀ other : Tape, (session.walk.close other).1 = session.walk) ∧
      ∀ more,
        let last := session.performAll more
        last.walk = session.walk ∧ last.traces = session.traces ∧
          last.failures = session.failures ∧ last.moved = session.moved) ∧
    (∀ cap, options.cap = some cap → (session.walk.traces : Int) ≤ cap) ∧
    (session.walk.consumed : Int) = session.moved ∧
    (session.failures.filterMap Failure.cut?).length ≤ 1 ∧
    session.traces.map Trace.index = List.range session.walk.traces ∧
    session.traces.Pairwise (·.consumed < ·.consumed) := by
  have hl := leads_performAll (start walk tape) uses
  have hcap := hl.cap
  have h := hl.sound (sound_start hstart tape)
  generalize (start walk tape).performAll uses = session at hcap h
  refine ⟨h.walk.ready, h.walk.active, h.walk.failed, fun cut => h.mem_failures.symm,
    h.walk.error, ?_, ?_, h.moved.symm, ?_, h.indices, h.ends⟩
  · intro hend
    have ho : session.walk.isOver = true := by
      rcases hend with hp | hp
      all_goals
        rw [Walk.isOver, hp]
        rfl
    refine ⟨Walk.next_of_isOver ho, ?_, ?_⟩
    · intro other
      rw [Walk.walk_close, if_pos ho]
    · intro more
      exact (leads_performAll session more).of_isOver ho
  · intro cap hc
    obtain ⟨coding, decoder, -, -, hn, -, rfl⟩ := Walk.start_eq_ok_iff.mp hstart
    have hle := h.walk.cap cap.toNat (by
      rw [hcap, start, Walk.Options.fresh, hc]
      rfl)
    rw [hc] at hn
    have hn : ¬ cap < 0 := of_decide_eq_false hn
    omega
  · rw [h.raised]
    cases session.walk.error with
    | none => exact Nat.zero_le _
    | some cut => exact Nat.le_refl _

/-- A stall after three bytes cuts the first header block, whatever comes behind it. -/
def stalledSession : Session :=
  (start Walk.textWalk (.ofBytes (RawTrace.region Walk.oneSampleThenNone) none [3])).performAll
    [.next, .other fun tape => (tape.advance 2).2, .iterate none, .summarize, .close]

theorem performAll_invariant_stalled :
    stalledSession.walk.phase = .failed ∧
      stalledSession.walk.error = some ⟨0, .header, 5, 3, 3⟩ ∧ stalledSession.moved = 3 ∧
      stalledSession.walk.traces = 0 ∧
      ∀ tape : Tape, stalledSession.walk.next tape = ⟨.ok none, stalledSession.walk, tape⟩ := by
  have hstart : Walk.start Walk.countAndText Walk.textOptions = .ok Walk.textWalk := rfl
  obtain ⟨-, -, hfailed, -, hcut, hover, -, hmoved, -⟩ :=
    performAll_invariant hstart (.ofBytes (RawTrace.region Walk.oneSampleThenNone) none [3])
      [.next, .other fun tape => (tape.advance 2).2, .iterate none, .summarize, .close]
  have he : stalledSession.walk.error = some ⟨0, .header, 5, 3, 3⟩ := by decide +kernel
  have hp : stalledSession.walk.phase = .failed := hfailed.mpr ⟨_, he⟩
  obtain ⟨hindex, hconsumed⟩ := hcut _ he
  refine ⟨hp, he, ?_, hindex.symm, (hover (.inr hp)).1⟩
  exact hmoved.symm.trans (congrArg Int.ofNat hconsumed.symm)

end Session

end SeisLog
