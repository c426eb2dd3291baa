import BrokerAgent.Proofs.Options.CommandLine

/-!
# Variables and defaults

What a command line leaves open is taken from the variable of the setting, and from the default
where that is not set. Only a file name and a level can be refused there: every value is a list.
-/

namespace BrokerAgent

open CommandLine

namespace Environment

/-- The variable of a setting. -/
def get (env : Environment) : Setting → Option String
  | .config => env.config
  | .protocols => env.protocols
  | .addresses => env.addresses
  | .level => env.level

/-- The environment with the variable of a setting changed, set or unset. -/
def put (env : Environment) (s : Setting) (value : Option String) : Environment :=
  match s with
  | .config => { env with config := value }
  | .protocols => { env with protocols := value }
  | .addresses => { env with addresses := value }
  | .level => { env with level := value }

/-- Nothing but the variable of one setting. -/
def only (env : Environment) (s : Setting) : Environment :=
  put {} s (env.get s)

theorem put_get (env : Environment) (s : Setting) : env.put s (env.get s) = env := by
  cases s <;> rfl

/-- Of an environment cut down to one variable that variable is left. -/
theorem get_only_self (env : Environment) (s : Setting) : (env.only s).get s = env.get s := by
  cases s <;> rfl

theorem get_only_of_ne {env : Environment} {s t : Setting} (h : t ≠ s) :
    (env.only s).get t = none := by
  cases s <;> cases t <;> first | contradiction | rfl

end Environment

namespace CommandLine

/-- A list that is not given is read from the environment. -/
theorem fill_list (given : Option (List String)) (inEnvironment : Option String) :
    fill given inEnvironment (fun value => .ok (items value)) =
      .ok (given.or (inEnvironment.map items)) := by
  cases given with
  | some list => rfl
  | none => cases inEnvironment <;> rfl

/-- What the settings come to, with the two that may be refused first. -/
theorem complete_eq (c : Chosen) (env : Environment) :
    complete c env = (do
      let config ← fill c.config env.config configOf
      let level ← fill c.level env.level levelOf
      return {
        config := config
        protocols := (c.protocols.or (env.protocols.map items)).getD ["udp", "tcp"]
        addresses := (c.addresses.or (env.addresses.map items)).getD []
        level := level.getD .info
        print := c.print }) := by
  simp only [complete, fill_list]
  rfl

end CommandLine
end BrokerAgent
