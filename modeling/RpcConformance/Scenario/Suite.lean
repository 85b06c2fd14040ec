import RpcConformance.Config
import RpcConformance.Scenario.Library
/-!
Running scenarios. Each has a guard: a scenario that would wait longer is reported instead of waited
for. What comes of them does not depend on whether they run in turn or all at once.
-/
namespace RpcConformance

open Client

namespace Scenario

def guardSpan : Duration := .ofSeconds 30

variable {T : Type u}

/-- Runs a scenario from a time on; the time it ends at comes with what came of it. -/
def runFrom (scenario : Scenario T) (transport : T) (span : Duration) (now : Nat) : Result × Nat :=
  let (result, ended) := (scenario.run transport).run { span, limit := now + span.ticks } |>.run.run now
  ({ name := scenario.name
     elapsed := .ofMillis (ended - now)
     failure := match result with
       | .ok () => none
       | .error failure => some failure }, ended)

/-- What comes of a scenario that panics before it does anything. -/
def panicked (text : String) (scenario : Scenario T) : Result :=
  { name := scenario.name, elapsed := ⟨0⟩, failure := some (.panic text) }

/-- Whether a scenario is one of those named; without names, every one is. -/
def isNamed (names : Option (List String)) (scenario : Scenario T) : Bool :=
  match names with
  | some names => names.contains scenario.name
  | none => true

end Scenario

/-- Scenarios, how they are run, and how long each may last. -/
structure Suite (T : Type u) where
  scenarios : List (Scenario T)
  execution : Execution := .sequential
  guardSpan : Duration := Scenario.guardSpan

namespace Suite

open Scenario (Result Report)

variable {T : Type u}

/-- Runs scenarios in turn, each from the time the one before it ended. -/
def inTurn (transport : T) (span : Duration) : List (Scenario T) → Nat → List Result
  | [], _ => []
  | scenario :: rest, now =>
    let (result, ended) := scenario.runFrom transport span now
    result :: inTurn transport span rest ended

def run (suite : Suite T) (transport : T) : Report :=
  match suite.execution with
  | .sequential => ⟨inTurn transport suite.guardSpan suite.scenarios 0⟩
  | .concurrent =>
    ⟨suite.scenarios.map fun scenario => (scenario.runFrom transport suite.guardSpan 0).1⟩

/-- The report on a transport that panics whenever it is used. -/
def panicked (suite : Suite T) (text : String) : Report :=
  ⟨suite.scenarios.map (·.panicked text)⟩

end Suite
end RpcConformance
