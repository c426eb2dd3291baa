import BrokerAgent.Proofs.Options.CommandLine
import Mathlib.Data.List.TakeWhile

/-!
# Command lines as they are written

A line of options as data: each setting with its value, in the same argument or in the next one,
and the switch that asks for the record. Taking the arguments of such a line is taking its options
one after the other (`takeAll_line`), whatever was waiting before.
-/

namespace BrokerAgent.CommandLine

/-! ## Options on a line -/

/-- The name of the option of a setting. -/
def Setting.name : Setting → String
  | config => "config"
  | protocols => "protocol"
  | addresses => "address"
  | level => "log-level"

/-- An option as it stands on a line: a setting with its value in the same argument or in the
next one, or the switch that asks for the record. -/
inductive Given
  | attached (s : Setting) (value : String)
  | apart (s : Setting) (value : String)
  | print
deriving DecidableEq, Repr

/-- The arguments of an option. -/
def Given.arguments : Given → List String
  | attached s value => ["--" ++ s.name ++ "=" ++ value]
  | apart s value => ["--" ++ s.name, value]
  | print => ["--print"]

/-- A value in an argument of its own begins with no dash, so that it is not taken for an
option. -/
def Given.Sound : Given → Prop
  | apart _ value => value.toList.head? ≠ some '-'
  | _ => True

instance (g : Given) : Decidable g.Sound :=
  match g with
  | .apart _ value => inferInstanceAs (Decidable (value.toList.head? ≠ some '-'))
  | .attached .. => inferInstanceAs (Decidable True)
  | .print => inferInstanceAs (Decidable True)

/-- The arguments of a line. -/
def line (given : List Given) : List String :=
  given.flatMap Given.arguments

/-- Takes an option with nothing waiting. -/
def Chosen.give (c : Chosen) : Given → Except Usage Chosen
  | .attached s value | .apart s value => c.set s value
  | .print => if c.print then .error .repeatedOption else .ok { c with print := true }

/-! ## Values of a setting -/

/-- The value that an option has for a setting. -/
def Given.value? (s : Setting) : Given → Option String
  | attached t value | apart t value => if t = s then some value else none
  | print => none

/-- The values of a setting on a line, in their order. -/
def values (s : Setting) (given : List Given) : List String :=
  given.filterMap (Given.value? s)

/-! ## What an argument looks like -/

theorem ofName?_name (s : Setting) : Switch.ofName? s.name.toList = some (.setting s) := by
  cases s <;> decide

/-- The name of an option has characters, and no sign of equality among them. -/
theorem Setting.plain_name (s : Setting) : s.name.toList ≠ [] ∧ '=' ∉ s.name.toList := by
  cases s <;> decide

/-- Behind two dashes stands a name, with a value if there is a sign of equality. -/
theorem Argument.of_dashes {text : List Char} (h : text ≠ []) :
    Argument.of ('-' :: '-' :: text) =
      match text.dropWhile (· ≠ '=') with
      | [] => .long text none
      | _ :: value => .long (text.takeWhile (· ≠ '=')) (some value) := by
  cases text with
  | nil => contradiction
  | cons c text => rfl

theorem ne_equals {name : List Char} (h : '=' ∉ name) : ∀ c ∈ name, decide (c ≠ '=') = true :=
  fun _ hc => decide_eq_true fun hequals => h (hequals ▸ hc)

theorem Argument.of_attached {name : List Char} (hname : '=' ∉ name) (value : List Char) :
    Argument.of ('-' :: '-' :: (name ++ '=' :: value)) = .long name (some value) := by
  have hdrop : (name ++ '=' :: value).dropWhile (· ≠ '=') = '=' :: value :=
    List.dropWhile_append_of_pos (ne_equals hname)
  have htake : (name ++ '=' :: value).takeWhile (· ≠ '=') = name := by
    rw [List.takeWhile_append_of_pos (ne_equals hname)]
    exact List.append_nil name
  rw [of_dashes (by simp), hdrop, htake]

theorem Argument.of_name {name : List Char} (hne : name ≠ []) (hname : '=' ∉ name) :
    Argument.of ('-' :: '-' :: name) = .long name none := by
  have hdrop : name.dropWhile (· ≠ '=') = [] := List.dropWhile_eq_nil_iff.2 (ne_equals hname)
  rw [of_dashes hne, hdrop]

theorem Argument.of_value {value : List Char} (h : value.head? ≠ some '-') :
    Argument.of value = .plain := by
  unfold Argument.of
  split <;> simp_all

/-! ## Taking an argument -/

variable (pending : Option Pending) (c : Chosen)

/-- An option with its value attached is set at once. -/
theorem takeArgument_attached (s : Setting) (value : String) :
    takeArgument ("--" ++ s.name ++ "=" ++ value) pending c = (do
      let c ← settle pending c
      return (none, ← c.set s value)) := by
  have hargument : Argument.of ("--" ++ s.name ++ "=" ++ value).toList =
      .long s.name.toList (some value.toList) := by
    have htext : ("--" ++ s.name ++ "=" ++ value).toList =
        '-' :: '-' :: (s.name.toList ++ '=' :: value.toList) := by
      simp
    rw [htext, Argument.of_attached s.plain_name.2]
  simp only [takeArgument, hargument, ofName?_name, Option.map_some, String.ofList_toList,
    takeSwitch]

/-- An option that stands alone waits for its value. -/
theorem takeArgument_name (s : Setting) :
    takeArgument ("--" ++ s.name) pending c = (do
      let c ← settle pending c
      return (some ⟨s, none⟩, c)) := by
  have hargument : Argument.of ("--" ++ s.name).toList = .long s.name.toList none := by
    have htext : ("--" ++ s.name).toList = '-' :: '-' :: s.name.toList := by simp
    rw [htext, Argument.of_name s.plain_name.1 s.plain_name.2]
  simp only [takeArgument, hargument, ofName?_name, Option.map_none, takeSwitch]

/-- A value goes to the option that waits. -/
theorem takeArgument_value (s : Setting) {value : String} (h : value.toList.head? ≠ some '-') :
    takeArgument value (some ⟨s, none⟩) c = .ok (some ⟨s, some value⟩, c) := by
  simp only [takeArgument, Argument.of_value h]

/-- The wish to print has no value. -/
theorem takeArgument_print :
    takeArgument "--print" pending c = (do
      let c ← settle pending c
      return (none, ← c.give .print)) := by
  show takeSwitch .print none pending c = _
  simp only [takeSwitch, Chosen.give]
  cases settle pending c with
  | error usage => rfl
  | ok c =>
    show (if c.print then _ else _) = _
    cases hprint : c.print <;> simp [hprint, pure, Except.pure, bind, Except.bind]

/-! ## Taking a line -/

theorem takeAll_cons {text : String} (h : text ≠ "--") (texts : List String) :
    takeAll pending c (text :: texts) = (do
      let (pending, c) ← takeArgument text pending c
      takeAll pending c texts) := by
  rw [takeAll, if_neg h]
  cases takeArgument text pending c <;> rfl

theorem attached_ne (s : Setting) (value : String) : "--" ++ s.name ++ "=" ++ value ≠ "--" := by
  intro h
  have hlength := congrArg (fun text : String => text.toList.length) h
  simp at hlength

theorem name_ne (s : Setting) : "--" ++ s.name ≠ "--" := by
  cases s <;> decide

theorem value_ne {value : String} (h : value.toList.head? ≠ some '-') : value ≠ "--" := by
  rintro rfl
  exact h rfl

/-- Taking a line is taking its options in order, after settling what was waiting with its value. -/
theorem takeAll_line {given : List Given} (hgiven : ∀ g ∈ given, g.Sound)
    (hpending : ∀ s, pending ≠ some ⟨s, none⟩) :
    takeAll pending c (line given) = (do
      let c ← settle pending c
      given.foldlM Chosen.give c) := by
  induction given generalizing pending c with
  | nil =>
    show settle pending c = _
    simp
  | cons g given ih =>
    have hrest : ∀ g ∈ given, g.Sound := fun g hg => hgiven g (List.mem_cons_of_mem _ hg)
    -- with nothing waiting there is nothing to settle
    have hnone : ∀ c, takeAll none c (line given) = given.foldlM Chosen.give c := fun c =>
      ih none c hrest (by simp)
    cases g with
    | attached s value =>
      show takeAll pending c (("--" ++ s.name ++ "=" ++ value) :: line given) = _
      rw [takeAll_cons _ _ (attached_ne s value), takeArgument_attached]
      simp only [bind_assoc, pure_bind, hnone, List.foldlM_cons, Chosen.give]
    | apart s value =>
      have hvalue : value.toList.head? ≠ some '-' := hgiven (.apart s value) List.mem_cons_self
      have hwaiting : ∀ c, takeAll (some ⟨s, some value⟩) c (line given) =
          c.set s value >>= given.foldlM Chosen.give := fun c =>
        ih (some ⟨s, some value⟩) c hrest (by simp)
      have hrow : ∀ c, takeAll (some ⟨s, none⟩) c (value :: line given) =
          c.set s value >>= given.foldlM Chosen.give := by
        intro c
        rw [takeAll_cons _ _ (value_ne hvalue), takeArgument_value _ _ hvalue]
        exact hwaiting c
      show takeAll pending c (("--" ++ s.name) :: value :: line given) = _
      rw [takeAll_cons _ _ (name_ne s), takeArgument_name]
      simp only [bind_assoc, pure_bind, hrow, List.foldlM_cons, Chosen.give]
    | print =>
      show takeAll pending c ("--print" :: line given) = _
      rw [takeAll_cons _ _ (by decide), takeArgument_print]
      simp only [bind_assoc, pure_bind, hnone, List.foldlM_cons]

/-- The options of a line, once the environment has completed them. -/
theorem ofArguments_line {given : List Given} (hgiven : ∀ g ∈ given, g.Sound)
    (env : Environment) :
    Options.ofArguments (line given) env =
      (given.foldlM Chosen.give {} >>= fun c => complete c env) := by
  rw [Options.ofArguments, takeAll_line none {} hgiven (by simp)]
  rfl

end BrokerAgent.CommandLine
