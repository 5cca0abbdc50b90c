import SeisLog.Las.Extract
import SeisLog.Segy.Extract
import SeisLog.Table

/-!
# Decks

A deck holds a tape and the walks that were started on it. A request reads from where the tape
stands. The other commands start a walk, or handle one that was started before; they may come in
any order, and a failure leaves the deck ready for the next one.
-/

namespace SeisLog

def Reading.overview {σ : Type} [Medium σ] (layout traceLayout : Layout) (charset? : Option String)
    (options : Walk.Options) : Reading σ (Header × Summary) := do
  let header ← Reading.header layout charset?
  let summary ← Reading.summary traceLayout options
  return (header, summary)

inductive Reply
  | done
  | bytes (bytes : Bytes)
  | count (count : Nat)
  | text (text : String)
  | header (header : Header)
  | summary (summary : Summary)
  | overview (header : Header) (summary : Summary)
  | record (record : Record)
  | trace (trace? : Option Trace)
  | traces (traces? : List (Option Trace))
  | table (table : Table)

/-- The answer to a command, with the traces that were given before a failure. -/
structure Outcome where
  answer : Except Failure Reply
  given : List (Option Trace)

namespace Outcome

def ofAnswer (answer : Except Failure Reply) : Outcome := ⟨answer, []⟩

def done : Outcome := ofAnswer (.ok .done)

def ofTraces (traces? : List (Option Trace)) (failure? : Option Failure) : Outcome :=
  match failure? with
  | none => ofAnswer (.ok (.traces traces?))
  | some failure => ⟨.error failure, traces?⟩

end Outcome

/-- Something to read that needs no walk from before. -/
inductive Request
  | bytes (size : Int)
  | rest (chunk : Nat)
  | skip (size : Int) (chunk : Nat)
  | textRest (charset : String)
  | textBlock (size : Int) (charset : String) (strict : Bool)
  | header (layout : Layout) (charset? : Option String)
  | summary (layout : Layout) (options : Walk.Options)
  | overview (layout traceLayout : Layout) (charset? : Option String) (options : Walk.Options)
  | segy (config : Segy.Config)
  | las (config : Las.Config)

def Request.reading {σ : Type} [Medium σ] : Request → Reading σ Reply
  | .bytes size => return .bytes (← Reading.take size)
  | .rest chunk => return .bytes (← Reading.takeRest chunk)
  | .skip size chunk => return .count (← Reading.skip size chunk)
  | .textRest charset => return .text (← Reading.textRest charset)
  | .textBlock size charset strict => return .text (← Reading.textBlock size charset strict)
  | .header layout charset? => return .header (← Reading.header layout charset?)
  | .summary layout options => return .summary (← Reading.summary layout options)
  | .overview layout traceLayout charset? options => do
      let found ← Reading.overview layout traceLayout charset? options
      return .overview found.1 found.2
  | .segy config => return .record (← Segy.extract config)
  | .las config => return .record (← Las.extract config)

inductive Handling
  | next
  | iterate (wanted : Option Nat)
  | within (calls : Nat)
  | close
  | summarize
  | tabulate (limit : Option Int)

def Handling.apply {σ : Type} [Medium σ] (handling : Handling) (walk : Walk) (tape : σ) :
    Outcome × Walk × σ :=
  match handling with
  | .next =>
      let step := walk.next tape
      (.ofAnswer (step.answer.map .trace), step.walk, step.tape)
  | .iterate wanted =>
      let run := walk.run wanted tape
      (.ofTraces (run.traces.map some) run.failure?, run.walk, run.tape)
  | .within calls =>
      let (traces?, failure?, walk, tape) := walk.within calls tape
      (.ofTraces traces? failure?, walk, tape)
  | .close =>
      let (walk, tape) := walk.close tape
      (.done, walk, tape)
  | .summarize =>
      let (answer, walk, tape) := walk.summarize tape
      (.ofAnswer (answer.map .summary), walk, tape)
  | .tabulate limit =>
      let (answer, walk, tape) := walk.tabulate limit tape
      (.ofAnswer (answer.map .table), walk, tape)

/-- Walks are numbered in the order in which they were started. -/
inductive Command
  | read (request : Request)
  | start (layout : Layout) (options : Walk.Options)
  | handle (walk : Nat) (handling : Handling)

structure Deck where
  tape : Tape
  walks : List Walk

namespace Deck

def ofTape (tape : Tape) : Deck := ⟨tape, []⟩

/-- The answer to a command, with the deck after it. A walk that was never started gives nothing. -/
def perform (deck : Deck) : Command → Outcome × Deck
  | .read request =>
      let (answer, tape) := request.reading deck.tape
      (.ofAnswer answer, { deck with tape })
  | .start layout options =>
      match Walk.start layout options with
      | .ok walk => (.done, ⟨deck.tape, deck.walks ++ [walk]⟩)
      | .error failure => (.ofAnswer (.error failure), deck)
  | .handle index handling =>
      match deck.walks[index]? with
      | none => (.done, deck)
      | some walk =>
          let (outcome, walk, tape) := handling.apply walk deck.tape
          (outcome, ⟨tape, deck.walks.set index walk⟩)

def play (deck : Deck) : List Command → List (Outcome × Deck)
  | [] => []
  | command :: later =>
      let (outcome, after) := deck.perform command
      (outcome, after) :: after.play later

end Deck

end SeisLog
