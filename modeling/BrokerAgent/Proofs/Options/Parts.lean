import BrokerAgent.Options.CommandLine
import BrokerAgent.Proofs.Except

/-!
# One setting at a time

What is chosen so far is a record with a place for each setting, of different types. Here a setting
is a parameter: what it is made of, what is chosen for it, how a further value of it is taken. An
option with a value looks at its own setting and at no other (`Chosen.set_eq`).
-/

namespace BrokerAgent

open CommandLine

namespace CommandLine

/-! ## What belongs to a setting -/

/-- What a setting is made of. -/
abbrev Content : Setting → Type
  | .config => String
  | .protocols | .addresses => List String
  | .level => Level

/-- Reads a value of a setting. -/
def read : (s : Setting) → String → Except Usage (Content s)
  | .config => configOf
  | .protocols | .addresses => fun value => .ok (items value)
  | .level => levelOf

/-- Takes the value of a setting that is given once. -/
def takeOnce {α : Type} (read : String → Except Usage α) (given : Option α) (value : String) :
    Except Usage (Option α) :=
  if given.isSome then .error .repeatedOption else (read value).map some

/-- Takes a further value of a setting. -/
def take : (s : Setting) → Option (Content s) → String → Except Usage (Option (Content s))
  | .config => takeOnce configOf
  | .protocols | .addresses => fun list value => .ok (some (list.getD [] ++ items value))
  | .level => takeOnce levelOf

/-- A value that is taken is there afterwards. -/
theorem isSome_of_take {s : Setting} {x y : Option (Content s)} {value : String}
    (h : take s x value = .ok y) : y.isSome := by
  have honce : ∀ {α : Type} {read : String → Except Usage α} {x y : Option α},
      takeOnce read x value = .ok y → y.isSome := by
    intro α read x y h
    unfold takeOnce at h
    split at h
    · cases h
    · obtain ⟨a, -, rfl⟩ := map_eq_ok.1 h
      rfl
  cases s with
  | config | level => exact honce h
  | protocols | addresses =>
    cases h
    rfl

/-- What is taken for a setting that nothing gives. -/
def preset : (s : Setting) → Option (Content s)
  | .config => none
  | .protocols => some ["udp", "tcp"]
  | .addresses => some []
  | .level => some .info

end CommandLine

/-- What is settled for a setting in the end. -/
def Options.get (o : Options) : (s : Setting) → Option (Content s)
  | .config => o.config
  | .protocols => some o.protocols
  | .addresses => some o.addresses
  | .level => some o.level

namespace CommandLine

namespace Chosen

/-- What is chosen for a setting. -/
def get (c : Chosen) : (s : Setting) → Option (Content s)
  | .config => c.config
  | .protocols => c.protocols
  | .addresses => c.addresses
  | .level => c.level

/-- The choice with another one for a setting. -/
def put (c : Chosen) : (s : Setting) → Option (Content s) → Chosen
  | .config, path => { c with config := path }
  | .protocols, list => { c with protocols := list }
  | .addresses, list => { c with addresses := list }
  | .level, level => { c with level := level }

variable (c : Chosen)

/-- Choices are the same if all their parts are. -/
theorem ext_get {c c' : Chosen} (h : ∀ s, c.get s = c'.get s) (hprint : c.print = c'.print) :
    c = c' := by
  obtain ⟨config, protocols, addresses, level, print⟩ := c
  obtain ⟨config', protocols', addresses', level', print'⟩ := c'
  obtain rfl : config = config' := h .config
  obtain rfl : protocols = protocols' := h .protocols
  obtain rfl : addresses = addresses' := h .addresses
  obtain rfl : level = level' := h .level
  obtain rfl : print = print' := hprint
  rfl

@[simp] theorem get_put_self (s : Setting) (x : Option (Content s)) : (c.put s x).get s = x := by
  cases s <;> rfl

theorem get_put_of_ne {s t : Setting} (h : t ≠ s) (x : Option (Content s)) :
    (c.put s x).get t = c.get t := by
  cases s <;> cases t <;> first | contradiction | rfl

@[simp] theorem print_put (s : Setting) (x : Option (Content s)) :
    (c.put s x).print = c.print := by
  cases s <;> rfl

/-- An option that may be given once is refused if it was given. -/
theorem map_takeOnce {α β : Type} (read : String → Except Usage α) (given : Option α)
    (value : String) (f : Option α → β) :
    (takeOnce read given value).map f =
      if given.isSome then .error .repeatedOption else (read value).map fun a => f (some a) := by
  unfold takeOnce
  split
  · rfl
  · cases read value <;> rfl

/-- An option with a value looks at its own setting and changes nothing else. -/
theorem set_eq (s : Setting) (value : String) :
    c.set s value = (take s (c.get s) value).map (c.put s) := by
  cases s with
  | protocols | addresses => rfl
  | config =>
    exact (map_takeOnce configOf c.config value fun path => { c with config := path }).symm
  | level =>
    exact (map_takeOnce levelOf c.level value fun level => { c with level := level }).symm

theorem put_comm {s t : Setting} (h : s ≠ t) (x : Option (Content s)) (y : Option (Content t)) :
    (c.put s x).put t y = (c.put t y).put s x := by
  cases s <;> cases t <;> first | contradiction | rfl

/-- An option with a value goes through whatever is chosen for another setting. -/
theorem set_put_of_ne {s t : Setting} (h : s ≠ t) (x : Option (Content t)) (value : String) :
    (c.put t x).set s value = (c.set s value).map fun c => c.put t x := by
  rw [set_eq, set_eq, get_put_of_ne c h]
  cases take s (c.get s) value with
  | error usage => rfl
  | ok y => exact congrArg Except.ok (c.put_comm (Ne.symm h) x y)

end Chosen
end CommandLine
end BrokerAgent
