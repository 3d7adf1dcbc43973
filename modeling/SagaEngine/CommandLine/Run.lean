import SagaEngine.Checkout
import SagaEngine.CommandLine.Arguments
import SagaEngine.CommandLine.LogFilter
import SagaEngine.Json.Writer
import SagaEngine.Script
import SagaEngine.Settings.Load

/-! What the commands do: show the settings, or run the checkout program in a session of its own and
report on it. -/

namespace SagaEngine.CommandLine

open Settings (Surroundings)

structure Report where
  lines : List String := []
  error : Option String := none

def Report.exitCode (r : Report) : Nat := if r.error.isSome then 1 else 0

def Report.errorText (r : Report) : String :=
  match r.error with
  | some e => "Error: " ++ e
  | none => ""

def filterVariable : String := "RUST_LOG"

def checkLogging (s : Surroundings) (settings : Settings) : Except String Unit :=
  let fromEnvironment := (s.environment.get? filterVariable).any fun f => (checkFilter f).toBool
  if fromEnvironment then .ok ()
  else match checkFilter settings.logging.filter with
    | .ok () => .ok ()
    | .error e =>
      .error ("Invalid log filter '" ++ settings.logging.filter ++ "': " ++ e.message)

def outcomeText : Outcome → String
  | .completed => "completed"
  | .killed f => "killed (" ++ f.text ++ ")"
  | .escalated f => "escalated (" ++ f.text ++ ")"
  | .failed f => "failed (" ++ f.text ++ ")"

def logLines (d : Data) : List String :=
  match d.get? "log" with
  | some (.arr entries) => entries.map fun v => "  " ++ v.render
  | _ => []

def pendingLines (scope : Scope Installed) : List String :=
  [Checkout.checkoutScope, Checkout.reserveScope].filterMap fun name =>
    if scope.hasCompensation name then some ("Pending compensation: " ++ name) else none

def rootContext : ContextId := 0

def runCheckout? (settings : EngineSettings) (session : String) (decline : Bool) :
    Option (World × Outcome) := do
  let program := Checkout.program decline
  let (s, w) := World.openSession {} session
  let (_, w) := w.addRoot "root" s settings.implicitScopeId settings.sliceBudget (some program)
  let w ← (w.start rootContext).settle (64 * (program.weight + 1))
  match w.loops with
  | [(_, l)] => (World.outcome? l).map (w, ·)
  | _ => none

def sagaReport (session : String) (w : World) (outcome : Outcome) : Report :=
  let scope := w.nearestScope? rootContext
  { lines := ["Session: " ++ session, "Outcome: " ++ outcomeText outcome, "", "Log:"] ++
      logLines (w.data rootContext) ++ (scope.map pendingLines).getD []
    error := match scope, outcome.fault with
      | none, _ => some "Root scope missing"
      | some _, some f => some ("Session ended with fault " ++ f.text)
      | some _, none => none }

def runSaga (s : Surroundings) (settings : Settings) (session : String) (decline : Bool) : Report :=
  match checkLogging s settings with
  | .error e => { error := some e }
  | .ok () => match runCheckout? settings.engine session decline with
    | some (w, outcome) => sagaReport session w outcome
    | none => { error := some "Session task panicked" }

def showSettings (settings : Settings) : Report :=
  match settings.toToml? with
  | some text => { lines := (Text.split '\n' text.toList).map String.ofList }
  | none => { error := some "Failed to render configuration: out-of-range value for u64 type" }

def Invocation.run (i : Invocation) (s : Surroundings) (session : String) : Report :=
  match Settings.load s { path := i.config } with
  | .error e => { error := some ("Failed to load configuration: " ++ e.message ++ ": " ++ e.cause) }
  | .ok settings => match i.command with
    | .config => showSettings settings
    | .saga decline => runSaga s settings session decline

end SagaEngine.CommandLine
