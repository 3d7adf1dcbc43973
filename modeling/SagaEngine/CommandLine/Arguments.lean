/-! The arguments of the command line: a command, which says what to do, and options in front of it or
behind it. -/

namespace SagaEngine.CommandLine

inductive Command where
  /-- Show the settings. -/
  | config
  /-- Run the checkout program. -/
  | saga (decline : Bool)
deriving DecidableEq, Repr

structure Invocation where
  config : Option String
  command : Command
deriving DecidableEq, Repr

inductive Refusal where
  | help
  | nothingGiven
  | missingCommand
  | unknownCommand
  | unknownArgument
  | missingValue
  | surplusValue
  | repeated
deriving DecidableEq, Repr

def Refusal.exitCode (r : Refusal) : Nat := if r = .help then 0 else 2

inductive Shape where
  | dashes
  | long (name : String) (value : Option String)
  | short (letters : List Char)
  | word
deriving DecidableEq, Repr

def shape (arg : String) : Shape :=
  match arg.toList with
  | ['-', '-'] => .dashes
  | '-' :: '-' :: cs =>
    let name := String.ofList (cs.takeWhile (· != '='))
    match cs.dropWhile (· != '=') with
    | [] => .long name none
    | _ :: value => .long name (some (String.ofList value))
  | '-' :: c :: cs => .short (c :: cs)
  | _ => .word

/-- What the options on one side of the command have said; `waiting` is not recorded yet. -/
structure Options where
  config : Option String := none
  waiting : Option (Option String) := none
  mayDecline : Bool := false
  decline : Bool := false
  closed : Bool := false

namespace Options

def record (o : Options) (path : String) : Except Refusal Options :=
  if o.config.isSome then .error .repeated else .ok { o with config := some path }

def settle (o : Options) : Except Refusal Options :=
  match o.waiting with
  | none => .ok o
  | some none => .error .missingValue
  | some (some path) => { o with waiting := none }.record path

def wantsValue (o : Options) : Bool := o.waiting == some none

def markDeclined (o : Options) : Except Refusal Options :=
  if o.decline then .error .repeated else .ok { o with decline := true }

def take (o : Options) : Shape → Except Refusal Options
  | .long "config" none => do return { ← o.settle with waiting := some none }
  | .long "config" (some path) => do (← o.settle).record path
  | .long "help" none | .short ('h' :: _) => do
    let _ ← o.settle
    .error .help
  | .long "help" (some _) => .error .surplusValue
  | .long "decline" value =>
    if !o.mayDecline then .error .unknownArgument
    else if value.isSome then .error .surplusValue
    else do (← o.settle).markDeclined
  | _ => .error .unknownArgument

def read (o : Options) : List String → Except Refusal Options
  | [] => o.settle
  | arg :: rest =>
    if o.closed then .error .unknownArgument
    else match shape arg with
      | .dashes => { o with closed := true }.read rest
      | .word =>
        if o.wantsValue then { o with waiting := some (some arg) }.read rest
        else .error .unknownArgument
      | option => do (← o.take option).read rest

end Options

def commandNames : List String := ["config", "saga", "help"]

def helpOn : List String → Refusal
  | [] => .help
  | [name] => if commandNames.contains name then .help else .unknownCommand
  | _ => .unknownCommand

def invoke (front behind : Options) (command : Options → Command) (rest : List String) :
    Except Refusal Invocation := do
  let behind ← behind.read rest
  let front ← front.settle
  return ⟨behind.config.or front.config, command behind⟩

def readFrom (o : Options) : List String → Except Refusal Invocation
  | [] => do throw (if (← o.settle).config.isSome then .missingCommand else .nothingGiven)
  | arg :: rest =>
    if o.closed then
      .error (if commandNames.contains arg then .unknownArgument else .unknownCommand)
    else match shape arg with
      | .dashes => readFrom { o with closed := true } rest
      | .word =>
        if o.wantsValue then readFrom { o with waiting := some (some arg) } rest
        else match arg with
          | "config" => invoke o {} (fun _ => .config) rest
          | "saga" => invoke o { mayDecline := true } (fun o => .saga o.decline) rest
          | "help" => .error (helpOn rest)
          | _ => .error .unknownCommand
      | option => do readFrom (← o.take option) rest

def read (args : List String) : Except Refusal Invocation := readFrom {} args

end SagaEngine.CommandLine
