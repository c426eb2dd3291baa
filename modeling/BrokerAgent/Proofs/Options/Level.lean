import BrokerAgent.Proofs.Options.Environment
import BrokerAgent.Proofs.Options.Line
import BrokerAgent.Proofs.Options.Parts

/-!
# A level in front of a line

Once a level is chosen it does not matter any more which one it is. Another level is refused, and
every other option goes by it (`Chosen.set_atLevel`). So a line with a level in front of it comes to
the same options with any other level in front of it, but for the level (`ofArguments_level`).
-/

namespace BrokerAgent

open CommandLine

namespace CommandLine

/-! ## One step of a line -/

/-- The choice with a level in place of what was chosen for it. -/
def Chosen.atLevel (level : Level) (c : Chosen) : Chosen :=
  c.put .level (some level)

/-- A level that is chosen stays chosen. -/
theorem kept_level : Kept fun c => c.level.isSome = true where
  set := by
    intro c c' s value hc h
    rw [Chosen.set_eq, map_eq_ok] at h
    obtain ⟨x, hx, rfl⟩ := h
    cases s with
    | config | protocols | addresses => exact hc
    | level => exact isSome_of_take hx
  print := id

variable {level : Level} {c : Chosen} {pending : Option Pending}

theorem Chosen.print_atLevel : (c.atLevel level).print = c.print :=
  rfl

/-- Setting an option comes to the same at any level that has been given. -/
theorem Chosen.set_atLevel (hc : c.level.isSome = true) (s : Setting) (value : String) :
    (c.atLevel level).set s value = (c.set s value).map (atLevel level) := by
  by_cases hs : s = .level
  · subst hs
    simp only [set, hc, if_true]
    rfl
  · exact c.set_put_of_ne hs (some level) value

theorem settle_atLevel (hc : c.level.isSome = true) :
    settle pending (c.atLevel level) = (settle pending c).map (Chosen.atLevel level) := by
  unfold settle
  split
  · rfl
  · rfl
  · exact Chosen.set_atLevel hc _ _

theorem takeSwitch_atLevel (hc : c.level.isSome = true) (switch : Switch)
    (value : Option String) :
    takeSwitch switch value pending (c.atLevel level) =
      (takeSwitch switch value pending c).map (Prod.map id (Chosen.atLevel level)) := by
  have hsettle : settle pending (c.atLevel level) = _ := settle_atLevel hc
  cases hs : settle pending c with
  | error usage =>
    rw [hs] at hsettle
    cases switch <;> cases value <;> simp only [takeSwitch, hsettle, hs] <;> rfl
  | ok settled =>
    rw [hs] at hsettle
    cases switch with
    | setting s =>
      cases value with
      | none =>
        simp only [takeSwitch, hsettle, hs]
        rfl
      | some value =>
        have hset : (settled.atLevel level).set s value = _ :=
          Chosen.set_atLevel (kept_level.settle hc hs) s value
        simp only [takeSwitch, hsettle, hs, Except.map, bind, Except.bind]
        rw [hset]
        cases settled.set s value <;> rfl
    | print =>
      cases value with
      | none =>
        simp only [takeSwitch, hsettle, hs, Except.map, bind, Except.bind]
        rw [Chosen.print_atLevel]
        split <;> rfl
      | some value => rfl
    | help =>
      cases value with
      | none =>
        simp only [takeSwitch, hsettle, hs]
        rfl
      | some value => rfl

theorem takeArgument_atLevel (hc : c.level.isSome = true) (text : String) :
    takeArgument text pending (c.atLevel level) =
      (takeArgument text pending c).map (Prod.map id (Chosen.atLevel level)) := by
  unfold takeArgument
  split
  · split
    · exact takeSwitch_atLevel hc _ _
    · rfl
  · exact takeSwitch_atLevel hc _ _
  · rfl
  · split
    · rfl
    · rfl

/-! ## Whole lines -/

/-- A line is taken in the same way whatever level is chosen before it. -/
theorem takeAll_atLevel (hc : c.level.isSome = true) (texts : List String) :
    takeAll pending (c.atLevel level) texts =
      (takeAll pending c texts).map (Chosen.atLevel level) := by
  induction texts generalizing pending c with
  | nil => exact settle_atLevel hc
  | cons text texts ih =>
    by_cases htext : text = "--"
    · simp only [takeAll, if_pos htext]
      split
      · exact settle_atLevel hc
      · rfl
    · rw [takeAll_cons _ _ htext, takeAll_cons _ _ htext, takeArgument_atLevel hc]
      cases htake : takeArgument text pending c with
      | error usage => rfl
      | ok taken => exact ih (kept_level.takeArgument hc htake)

/-- The environment is not asked for a level that is chosen. -/
theorem complete_atLevel (hc : c.level.isSome = true) (env : Environment) :
    complete (c.atLevel level) env =
      (complete c env).map fun o => { o with level := level } := by
  obtain ⟨chosen, hchosen⟩ := Option.isSome_iff_exists.1 hc
  rw [complete_eq, complete_eq, hchosen]
  show (fill c.config env.config configOf >>= _) = _
  cases fill c.config env.config configOf <;> rfl

/-- The choice of a line with a level in front of it. -/
theorem takeAll_level {text : String} (h : Level.ofText? text = some level)
    (arguments : List String) :
    takeAll none {} (("--log-level=" ++ text) :: arguments) =
      takeAll none (Chosen.atLevel level {}) arguments := by
  have hread : Chosen.set {} .level text = .ok (Chosen.atLevel level {}) := by
    simp only [Chosen.set, levelOf, h]
    rfl
  have hname : "--log-level=" = "--" ++ Setting.level.name ++ "=" := by decide
  rw [hname, takeAll_cons _ _ (attached_ne .level text), takeArgument_attached]
  simp only [settle, hread, bind, Except.bind]
  rfl

end CommandLine

namespace Options

/-- A line with a level in front of it comes to the options that it comes to with any other level in
front of it, but for the level; and it is refused for the same reason. -/
theorem ofArguments_level {text text' : String} {level level' : Level}
    (h : Level.ofText? text = some level) (h' : Level.ofText? text' = some level')
    (arguments : List String) (env : Environment) :
    ofArguments (("--log-level=" ++ text') :: arguments) env =
      (ofArguments (("--log-level=" ++ text) :: arguments) env).map
        fun o => { o with level := level' } := by
  have hput : Chosen.atLevel level' {} = (Chosen.atLevel level {}).atLevel level' := rfl
  rw [ofArguments, ofArguments, takeAll_level h', takeAll_level h, hput, takeAll_atLevel rfl]
  cases htake : takeAll none (Chosen.atLevel level {}) arguments with
  | error usage => rfl
  | ok c => exact complete_atLevel (kept_level.takeAll rfl htake) env

/-- What a line with a level in front of it comes to has that level. -/
theorem level_of_ofArguments {text : String} {level : Level} {arguments : List String}
    {env : Environment} {o : Options} (h : Level.ofText? text = some level)
    (ho : ofArguments (("--log-level=" ++ text) :: arguments) env = .ok o) : o.level = level := by
  have hsame := ofArguments_level h h arguments env
  rw [ho] at hsame
  rw [Except.ok.inj hsame]

end Options
end BrokerAgent
