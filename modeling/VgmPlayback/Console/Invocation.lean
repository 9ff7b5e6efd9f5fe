import VgmPlayback.Console.Jukebox

/-!
# Invocations

The command line of the program: `info FILE`, `dump FILE` or `play DIR`, with options among the arguments.  An
option is given as `--name value` or `--name=value`, once at most; after `--` every argument is an operand.
-/

namespace VgmPlayback

/-- What the program is asked to do. -/
inductive Invocation where
  | info (path : String)
  /-- Dump a file, going through it a number of times. -/
  | dump (path : String) (loops : UInt32)
  | play (path : String) (options : JukeboxOptions)
  | help
  | version
deriving DecidableEq, Repr

/-- Why the arguments are not understood. -/
inductive UsageError where
  | missingCommand
  | unknownCommand (name : String)
  | unexpected (argument : String)
  | missingValue (option : String)
  | repeated (option : String)
  | invalidValue (option value : String)
  | missingOperand
deriving DecidableEq, Repr

def UsageError.message : UsageError → String
  | missingCommand => "a command is required"
  | unknownCommand name => s!"unrecognized command '{name}'"
  | unexpected argument => s!"unexpected argument '{argument}' found"
  | missingValue option => s!"a value is required for '--{option}'"
  | repeated option => s!"the option '--{option}' cannot be used several times"
  | invalidValue option value => s!"invalid value '{value}' for '--{option}'"
  | missingOperand => "a path is required"

namespace Invocation

/-- The options of a command: the names of those with a value and of those without. -/
structure OptionTable where
  valued : List String := []
  flags : List String := []

/-- Sorted arguments: the options with their values, empty for flags, and the operands. -/
structure Arguments where
  options : List (String × String) := []
  operands : List String := []
deriving DecidableEq, Repr

/-- The argument looks like an option. -/
def isDashed (argument : String) : Bool :=
  match argument.toList with
  | '-' :: _ :: _ => true
  | _ => false

/-- The name in a long option, and the value behind the equals sign if there is one. -/
def longOption? (argument : String) : Option (String × Option String) :=
  match argument.toList with
  | '-' :: '-' :: cs =>
    let name := String.ofList (cs.takeWhile (· ≠ '='))
    match cs.dropWhile (· ≠ '=') with
    | [] => some (name, none)
    | _ :: value => some (name, some (String.ofList value))
  | _ => none

/-- Adds an option that is not there yet. -/
def Arguments.addOption (a : Arguments) (name value : String) : Except UsageError Arguments :=
  if a.options.any fun o => o.1 == name then .error (.repeated name)
  else .ok { a with options := a.options ++ [(name, value)] }

/-- Sorts the arguments of a command into options and operands. -/
def sort (t : OptionTable) (a : Arguments) : List String → Except UsageError Arguments
  | [] => .ok a
  | "--" :: rest => .ok { a with operands := a.operands ++ rest }
  | argument :: rest =>
    match longOption? argument with
    | none =>
      if isDashed argument then .error (.unexpected argument)
      else sort t { a with operands := a.operands ++ [argument] } rest
    | some (name, value?) =>
      if t.flags.contains name then
        match value? with
        | some _ => .error (.unexpected argument)
        | none =>
          match a.addOption name "" with
          | .error e => .error e
          | .ok a => sort t a rest
      else if t.valued.contains name then
        match value?, rest with
        | some value, rest =>
          match a.addOption name value with
          | .error e => .error e
          | .ok a => sort t a rest
        | none, [] => .error (.missingValue name)
        | none, value :: rest =>
          if isDashed value then .error (.missingValue name)
          else
            match a.addOption name value with
            | .error e => .error e
            | .ok a => sort t a rest
      else .error (.unexpected argument)

/-- The only operand, which is a path. -/
def Arguments.path (a : Arguments) : Except UsageError String :=
  match a.operands with
  | [] | [""] => .error .missingOperand
  | [path] => .ok path
  | _ :: extra :: _ => .error (.unexpected extra)

/-- The word given for an option, or else the usual one.  A minus sign before zero is let pass. -/
def Arguments.word (a : Arguments) (name : String) (usual : UInt32) : Except UsageError UInt32 :=
  match a.options.lookup name with
  | none => .ok usual
  | some value =>
    match Text.signedDecimal? value with
    | some n =>
      if 0 ≤ n ∧ n < UInt32.size then .ok (UInt32.ofNat n.toNat) else .error (.invalidValue name value)
    | none => .error (.invalidValue name value)

/-- The size given for an option, or else the usual one. -/
def Arguments.size (a : Arguments) (name : String) (usual : Nat) : Except UsageError Nat :=
  match a.options.lookup name with
  | none => .ok usual
  | some value =>
    match Text.decimal? value with
    | some n => if n < UInt64.size then .ok n else .error (.invalidValue name value)
    | none => .error (.invalidValue name value)

/-- The play mode given for an option, or else the usual one. -/
def Arguments.mode (a : Arguments) (name : String) : Except UsageError PlayMode :=
  match a.options.lookup name with
  | none => .ok default
  | some "loop" => .ok .loop
  | some "shuffle" => .ok .shuffle
  | some "in-order" => .ok .inOrder
  | some value => .error (.invalidValue name value)

def dumpOptions : OptionTable where
  valued := ["loops"]

def playOptions : OptionTable where
  valued := ["mode", "max-loops", "buffer", "loop-cache", "rate", "request"]
  flags := ["echo"]

/-- The settings of the player that the options give. -/
def Arguments.jukebox (a : Arguments) : Except UsageError JukeboxOptions := do
  let usual : PlayerConfig := {}
  let mode ← a.mode "mode"
  let maxLoops ← a.word "max-loops" usual.maxLoops
  let bufferCapacity ← a.size "buffer" usual.bufferCapacity
  let loopHeadLength ← a.size "loop-cache" usual.loopHeadLength
  let sampleRate ← a.word "rate" usual.sampleRate
  return {
    config := { bufferCapacity, loopHeadLength, mode, maxLoops, sampleRate }
    request? := a.options.lookup "request"
    echo := (a.options.lookup "echo").isSome }

/-- What the arguments of the program ask for. -/
def parse : List String → Except UsageError Invocation
  | [] => .error .missingCommand
  | "info" :: rest => do
    let a ← sort {} {} rest
    return .info (← a.path)
  | "dump" :: rest => do
    let a ← sort dumpOptions {} rest
    let loops ← a.word "loops" 1
    return .dump (← a.path) loops
  | "play" :: rest => do
    let a ← sort playOptions {} rest
    return .play (← a.path) (← a.jukebox)
  | "help" :: _ | "--help" :: _ => .ok .help
  | "--version" :: _ => .ok .version
  | name :: _ =>
    match name.toList with
    | '-' :: 'h' :: _ => .ok .help
    | '-' :: 'V' :: _ => .ok .version
    | _ => if isDashed name then .error (.unexpected name) else .error (.unknownCommand name)

end Invocation

end VgmPlayback
