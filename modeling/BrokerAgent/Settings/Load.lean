import BrokerAgent.FileTree
import BrokerAgent.Json.Settings
import BrokerAgent.Toml.Settings

/-!
# Loading a record

A record is loaded from a file: JSON if the name says so, TOML otherwise. Loading does not check
the rules.
-/

namespace BrokerAgent.Settings

/-- The record that the bytes of a file give. -/
def ofBytes (isJson : Bool) (bytes : List UInt8) : Except Refusal Settings :=
  match Utf8.decode? bytes with
  | none => .error (.unreadable .notText)
  | some text =>
    if isJson then (ofJson text).mapError .json else (ofToml text).mapError .toml

/-- The record of a file. -/
def load (files : Files) (path : String) : Except Refusal Settings :=
  match files path with
  | .error fault => .error (.unreadable fault)
  | .ok bytes => ofBytes (Path.isJson path.toList) bytes

/-- The record of a file if one is named, the empty record otherwise. -/
def loadIfNamed (files : Files) : Option String → Except Refusal Settings
  | none => .ok {}
  | some path => load files path

end BrokerAgent.Settings
