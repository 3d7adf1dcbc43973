import SagaEngine.Numeral
import SagaEngine.Text.Blank
import SagaEngine.Toml.Quoted

/-! What can be set: the implicit scope and the slice budget of the engine, the filter and the colours
of the log. -/

namespace SagaEngine

structure EngineSettings where
  implicitScopeId : String := "main"
  sliceBudget : Nat := 64
deriving DecidableEq, Repr, Inhabited

structure LoggingSettings where
  filter : String := "info"
  ansi : Bool := true
deriving DecidableEq, Repr, Inhabited

structure Settings where
  engine : EngineSettings := {}
  logging : LoggingSettings := {}
deriving DecidableEq, Repr, Inhabited

namespace Settings

def toToml? (s : Settings) : Option String :=
  if (s.engine.sliceBudget : Int) ≤ Numeral.maxInt64 then
    some <| String.intercalate "\n" [
      "[engine]",
      "implicit_scope_id = " ++ Toml.writeText s.engine.implicitScopeId,
      "slice_budget = " ++ toString s.engine.sliceBudget,
      "",
      "[logging]",
      "filter = " ++ Toml.writeText s.logging.filter,
      "ansi = " ++ (if s.logging.ansi then "true" else "false"),
      ""]
  else none

end Settings

end SagaEngine
