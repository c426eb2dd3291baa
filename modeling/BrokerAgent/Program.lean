import BrokerAgent.Json.Writer
import BrokerAgent.Options.CommandLine
import BrokerAgent.Startup

/-!
# The program

One start of the agent from beginning to end: arguments and environment in, an exit code and two
texts out.
-/

namespace BrokerAgent.Program

/-- What a run leaves behind. -/
structure Outcome where
  exit : Nat
  output : String
  errors : String
deriving DecidableEq, Repr

/-- The lines of a text, each but the first behind a margin. -/
def hang (margin : String) (text : String) : String :=
  String.ofList (text.toList.flatMap fun c => if c = '\n' then '\n' :: margin.toList else [c])

/-- One cause of several: its number in five columns, and its lines in the columns after it. -/
def numberedCause (number : Nat) (text : String) : String :=
  let digits := toString number
  String.ofList (List.replicate (5 - digits.length) ' ') ++ digits ++ ": " ++
    hang "       " text ++ "\n"

/-- The causes of a failure: a single one without a number, more of them numbered from zero. -/
def causes : List String → String
  | [] => ""
  | [cause] => "\nCaused by:\n    " ++ hang "    " cause ++ "\n"
  | causes =>
    "\nCaused by:\n" ++
      String.join (causes.zipIdx.map fun (text, number) => numberedCause number text)

/-- The report of a failure. -/
def report (f : Startup.Failure) : String :=
  "Error: " ++ f.headline ++ "\n" ++ causes f.chain.tail

/-- The record as it is printed in the end, if it is asked for. -/
def printed (o : Options) (record : Settings) : String :=
  if o.print then record.masked.toJson .pretty ++ "\n" else ""

/-- What a run with given options reports, its failure included. -/
def events (files : Files) (o : Options) : List Event :=
  let step := Startup.start files o {}
  match step.result with
  | .error failure => step.events ++ [.failed failure.message]
  | .ok _ => step.events

/-- A run with given options, from an empty record on. -/
def runWith (files : Files) (o : Options) : Outcome :=
  let log := o.level.log (events files o)
  match (Startup.start files o {}).result with
  | .error failure => ⟨1, log, report failure⟩
  | .ok record => ⟨0, log ++ printed o record, ""⟩

/-- A whole run. A command line that is refused ends it before anything is done. -/
def run (arguments : List String) (env : Environment) (files : Files) : Except Usage Outcome :=
  (Options.ofArguments arguments env).map (runWith files)

end BrokerAgent.Program
