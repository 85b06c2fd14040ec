import RpcConformance.Duration
import RpcConformance.Status.Basic
/-!
What came of running scenarios: for each whether it passed, how long it took, and why it failed.
-/
namespace RpcConformance.Scenario

inductive Failure
  | mismatch (what expected observed : String)
  | rpc (what : String) (status : Status)
  | panic (text : String)
  | timedOut (after : Duration)
deriving DecidableEq, Repr

def Failure.message : Failure → String
  | .mismatch what expected observed => what ++ ": expected " ++ expected ++ ", observed " ++ observed
  | .rpc what status => what ++ ": unexpected error " ++ status.render
  | .panic text => "panicked: " ++ text
  | .timedOut after => "did not finish within " ++ after.render

structure Result where
  name : String
  elapsed : Duration
  failure : Option Failure
deriving DecidableEq, Repr

def Result.passed (result : Result) : Bool := result.failure.isNone

def Result.line (result : Result) : String :=
  match result.failure with
  | none => "  PASS  " ++ result.name ++ " (" ++ result.elapsed.render ++ ")\n"
  | some failure => "  FAIL  " ++ result.name ++ ": " ++ failure.message ++ "\n"

structure Report where
  results : List Result
deriving DecidableEq, Repr

namespace Report

def passed (report : Report) : Nat := (report.results.filter Result.passed).length

def total (report : Report) : Nat := report.results.length

def isSuccess (report : Report) : Bool := report.passed == report.total

def failures (report : Report) : List Result := report.results.filter (!·.passed)

def render (report : Report) : String :=
  String.join (report.results.map Result.line) ++ "\n" ++ Text.Decimal.render report.passed ++ "/"
    ++ Text.Decimal.render report.total ++ " passed"

end Report
end RpcConformance.Scenario
