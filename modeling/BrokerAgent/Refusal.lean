import BrokerAgent.Json.Fault
import BrokerAgent.Toml.Report

/-!
# Refusals

Why a configuration is refused: its record breaks a rule, or its file gives no record.
`Refusal.message` is the wording; a refusal that comes from a file has a text of its own inside,
`Refusal.inner?`.
-/

namespace BrokerAgent

/-- Why a file could not be read. An error of the system that has no case of its own carries its
text. -/
inductive FileFault
  | missing
  | notDirectory
  | isDirectory
  | nameTooLong
  | notText
  | nulInName
  | other (text : String)
deriving DecidableEq, Repr

/-- What a message says about an unreadable file. -/
def FileFault.text : FileFault → String
  | missing => "No such file or directory (os error 2)"
  | notDirectory => "Not a directory (os error 20)"
  | isDirectory => "Is a directory (os error 21)"
  | nameTooLong => "File name too long (os error 36)"
  | notText => "stream did not contain valid UTF-8"
  | nulInName => "file name contained an unexpected NUL byte"
  | other text => text

/-- Why a configuration is refused. -/
inductive Refusal
  | invalidProtocol (name : String)
  | tooManyAddresses (count limit : Nat)
  | fieldTooLong (field : Field) (limit : Nat)
  | unreadable (fault : FileFault)
  | json (report : Json.Report)
  | toml (report : Toml.Report)
deriving DecidableEq, Repr

namespace Refusal

/-- The text that a refusal took over from the reading of a file. -/
def inner? : Refusal → Option String
  | unreadable fault => some fault.text
  | json report => some report.text
  | toml report => some report.text
  | _ => none

/-- The wording of a refusal. -/
def message : Refusal → String
  | invalidProtocol name => "Invalid protocol: " ++ name
  | tooManyAddresses count limit =>
    "Too many addresses: " ++ toString count ++ " (max " ++ toString limit ++ ")"
  | fieldTooLong field limit =>
    "Field `" ++ field.name ++ "` exceeds " ++ toString limit ++ " characters"
  | unreadable fault => "I/O error: " ++ fault.text
  | json report => "JSON parse error: " ++ report.text
  | toml report => "TOML parse error: " ++ report.text

end Refusal
end BrokerAgent
