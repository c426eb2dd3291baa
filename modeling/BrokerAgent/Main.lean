import BrokerAgent.Program

/-!
# The command

The thin layer between the program and the system: arguments, environment variables and the one
file that the options name go in, two texts and an exit code come out.
-/

namespace BrokerAgent.Command

/-- The environment variables of the program. -/
def environment : IO Environment := do
  return {
    config := ← IO.getEnv "AGENT_CONFIG"
    protocols := ← IO.getEnv "AGENT_PROTOCOLS"
    addresses := ← IO.getEnv "AGENT_ADDRESSES"
    level := ← IO.getEnv "AGENT_LOG_LEVEL" }

/-- The fault of a number by which the system names an error, with the system's text for it. -/
def faultOfNumber (number : UInt32) (text : String) : FileFault :=
  if number = 2 then .missing
  else if number = 20 then .notDirectory
  else if number = 21 then .isDirectory
  else if number = 22 then .nulInName
  else if number = 36 then .nameTooLong
  else .other (text ++ " (os error " ++ toString number.toNat ++ ")")

/-- The fault behind an error of the system. -/
def faultOf : IO.Error → FileFault
  | .noFileOrDirectory _ number text | .interrupted _ number text
  | .alreadyExists _ number text | .inappropriateType _ number text
  | .invalidArgument _ number text | .noSuchThing _ number text
  | .permissionDenied _ number text | .resourceExhausted _ number text
  | .hardwareFault number text | .illegalOperation number text
  | .otherError number text | .protocolError number text
  | .resourceBusy number text | .resourceVanished number text
  | .timeExpired number text | .unsatisfiedConstraints number text
  | .unsupportedOperation number text => faultOfNumber number text
  | .unexpectedEof => .other "unexpected end of file"
  | .userError text => .other text

/-- Reads the file of a path. -/
def readFile (path : String) : IO (Except FileFault (List UInt8)) := do
  try
    return .ok (← IO.FS.readBinFile path).toList
  catch e =>
    return .error (faultOf e)

end BrokerAgent.Command

open BrokerAgent in
/-- Runs the program on the arguments of the command line. A request for help and a refused line end
it before anything is done. What a user reads then, the help and the complaint, is left out: only
the exit codes are this program's own. -/
def main (arguments : List String) : IO UInt32 := do
  let env ← Command.environment
  match Options.ofArguments arguments env with
  | .error .help => return 0
  | .error _ => return 2
  | .ok o =>
    let content ← Command.readFile (o.config.getD "")
    let outcome := Program.runWith (fun _ => content) o
    IO.print outcome.output
    IO.eprint outcome.errors
    return UInt32.ofNat outcome.exit
