import SagaEngine.CommandLine.Run
import SagaEngine.CommandLine.Usage
import SagaEngine.Text.Split
import SagaEngine.Uuid

/-! The program as it is called: reads the environment and the files that may hold settings, does what
the arguments ask for, and prints the report. -/

namespace SagaEngine.CommandLine

def readEnvironment : IO Dotenv.Variables := do
  let text ← IO.FS.readFile "/proc/self/environ"
  let entries := (Text.split '\x00' text.toList).filter (·.contains '=')
  return Table.ofList <| entries.map fun entry =>
    (String.ofList (entry.takeWhile (· != '=')), String.ofList ((entry.dropWhile (· != '=')).drop 1))

def readFiles (paths : List String) : IO (Table String) := do
  let read := fun path => do
    try return [(path, ← IO.FS.readFile path)] catch _ => return []
  return Table.ofList (← paths.mapM read).flatten

def readSurroundings (path : Option String) : IO Settings.Surroundings := do
  let env ← readEnvironment
  let files ← readFiles [Settings.variablesFile]
  let named := path.or ((Settings.Surroundings.mk files env).environment.get? Settings.pathVariable)
  let sources ← readFiles (Settings.candidates (named.getD Settings.standardFile))
  return ⟨files.merge sources, env⟩

def randomUuid : IO Uuid := do
  let bytes ← IO.getRandomBytes 16
  return .ofRandom (.ofNat 128 (bytes.toList.foldl (fun n b => 256 * n + b.toNat) 0))

def Invocation.execute (i : Invocation) : IO UInt32 := do
  let report := i.run (← readSurroundings i.config) (← randomUuid).text
  report.lines.forM IO.println
  if report.error.isSome then IO.eprintln report.errorText
  return report.exitCode.toUInt32

end SagaEngine.CommandLine

def main (args : List String) : IO UInt32 := do
  match SagaEngine.CommandLine.read args with
  | .ok i => i.execute
  | .error r =>
    if r = .help then IO.println r.message else IO.eprintln r.message
    return r.exitCode.toUInt32
