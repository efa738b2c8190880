import BoardDesign.Decimal.Shortest
import BoardDesign.Stage.Basic
import BoardDesign.Text.Basic
/-!
The summary of a run.
-/

namespace BoardDesign.Run

structure Report where
  board : String
  milliseconds : Nat
  /-- In the order in which the stages were run. -/
  results : List Stage.Result
  hits : Nat
  misses : Nat
deriving DecidableEq, Repr

namespace Report

/-- How a stage of the run went; none if it was not part of it. -/
def outcome? (r : Report) (s : Stage) : Option Stage.Outcome :=
  (r.results.find? fun x => x.stage == s).map (·.outcome)

/-- How wide the names of stages are written. -/
def titleWidth : Nat := 24

def padded (s : String) : String :=
  s ++ String.ofList (List.replicate (titleWidth - s.length) ' ')

def timing (r : Stage.Result) : String :=
  let ms := Decimal.natText r.milliseconds
  match r.outcome, r.exitCode with
  | .cached, _ => ""
  | _, some code => s!" (exit {Decimal.intText code}, {ms} ms)"
  | _, none => s!" ({ms} ms)"

def resultLines (r : Stage.Result) : List String :=
  (s!"  {padded r.stage.title} {r.outcome.text}" ++ timing r) ::
    ((r.log.map fun l => "      log: " ++ l).toList ++
      r.artifacts.map fun a => "      -> " ++ a)

def lines (r : Report) : List String :=
  ["=== Pipeline Report ===", "Board: " ++ r.board,
      s!"Duration: {Decimal.natText r.milliseconds} ms",
      s!"Cache: {Decimal.natText r.hits} hit(s), {Decimal.natText r.misses} miss(es)"] ++
    (if r.results.isEmpty then []
      else ["", "--- Stages (" ++ Decimal.natText r.results.length ++ ") ---"] ++
        r.results.flatMap resultLines)

def text (r : Report) : String := String.join (r.lines.map (· ++ "\n"))

end Report

end BoardDesign.Run
