import BrokerAgent.Proofs.Options.Environment
import BrokerAgent.Proofs.Options.Line
import BrokerAgent.Proofs.Options.Parts

/-!
# How a list can be spelled

Protocols and addresses are lists. A list may be given at once with commas, in groups over several
options, each with its value in the same argument or in the next one, or by a variable. It is the
same list every time, and the other options come to what they come to without it
(`list_spellings_agree`).
-/

namespace BrokerAgent

open CommandLine

/-- The settings that are lists. -/
inductive ListSetting
  | protocols
  | addresses
deriving DecidableEq, Repr

namespace ListSetting

/-- A list among the settings. -/
def setting : ListSetting → Setting
  | protocols => .protocols
  | addresses => .addresses

/-- The options with this list in place of theirs. -/
def put (l : ListSetting) (list : List String) (o : Options) : Options :=
  match l with
  | protocols => { o with protocols := list }
  | addresses => { o with addresses := list }

/-- What is taken for this list if nothing gives one. -/
def default : ListSetting → List String
  | protocols => ["udp", "tcp"]
  | addresses => []

/-- What is chosen, with this list in place of the one chosen for it. -/
def update (l : ListSetting) (list : Option (List String)) (c : Chosen) : Chosen :=
  match l with
  | protocols => { c with protocols := list }
  | addresses => { c with addresses := list }

/-- A line without the options of this list. -/
def without (l : ListSetting) (given : List Given) : List Given :=
  given.filter fun g => g.value? l.setting = none

/-! ## Items of a value -/

/-- Items without commas are read back from the text that joins them. -/
theorem items_intercalate {list : List String} (hne : list ≠ [])
    (hplain : ∀ item ∈ list, ',' ∉ item.toList) : items (",".intercalate list) = list := by
  unfold items
  rw [String.toList_intercalate]
  have hsplit : ([','].intercalate (list.map String.toList)).splitOn ',' = list.map String.toList :=
    List.splitOn_intercalate ',' (by simpa) (by simpa)
  have hcomma : ",".toList = [','] := rfl
  rw [hcomma, hsplit, List.map_map]
  simp

/-- The list chosen after further values: each value adds its items at the end. -/
def gathered (list : Option (List String)) (values : List String) : Option (List String) :=
  values.foldl (fun list value => some (list.getD [] ++ items value)) list

/-- Further values add their items to a list. -/
theorem gathered_some (list : List String) {groups : List (List String)}
    (hgroups : ∀ group ∈ groups, group ≠ [])
    (hplain : ∀ item ∈ groups.flatten, ',' ∉ item.toList) :
    gathered (some list) (groups.map fun group => ",".intercalate group) =
      some (list ++ groups.flatten) := by
  induction groups generalizing list with
  | nil => exact congrArg some (List.append_nil list).symm
  | cons group groups ih =>
    have hitems : items (",".intercalate group) = group :=
      items_intercalate (hgroups group List.mem_cons_self) fun item hitem =>
        hplain item (List.mem_append_left _ hitem)
    have hlater := ih (list ++ group) (fun g hg => hgroups g (List.mem_cons_of_mem _ hg))
      (fun item hitem => hplain item (List.mem_append_right _ hitem))
    rw [List.flatten_cons, ← List.append_assoc, ← hlater, List.map_cons]
    show gathered (some (list ++ items (",".intercalate group))) _ = _
    rw [hitems]

/-- Groups with commas between their items give the items of all groups. -/
theorem gathered_groups {groups : List (List String)} (hne : groups ≠ [])
    (hgroups : ∀ group ∈ groups, group ≠ [])
    (hplain : ∀ item ∈ groups.flatten, ',' ∉ item.toList) :
    gathered none (groups.map fun group => ",".intercalate group) = some groups.flatten := by
  -- the first value makes no difference between no list and an empty one
  have hempty : gathered none (groups.map fun group => ",".intercalate group) =
      gathered (some []) (groups.map fun group => ",".intercalate group) := by
    cases groups with
    | nil => contradiction
    | cons group groups => rfl
  rw [hempty, gathered_some [] hgroups hplain, List.nil_append]

/-! ## A list apart from the other options -/

variable (l : ListSetting)

theorem update_none : l.update none {} = {} := by
  cases l <;> rfl

/-- A further value of the list adds its items. -/
theorem set_update (list : Option (List String)) (c : Chosen) (value : String) :
    (l.update list c).set l.setting value =
      .ok (l.update (some (list.getD [] ++ items value)) c) := by
  cases l <;> rfl

/-- The list is one of the parts that the options have. -/
theorem update_eq_put (list : Option (List String)) :
    ∃ x : Option (Content l.setting), l.update list = fun c => c.put l.setting x := by
  cases l with
  | protocols | addresses => exact ⟨list, rfl⟩

/-- Another setting is taken as if the list were not there. -/
theorem set_update_of_ne {s : Setting} (h : s ≠ l.setting) (list : Option (List String))
    (c : Chosen) (value : String) :
    (l.update list c).set s value = (c.set s value).map (l.update list) := by
  obtain ⟨x, hx⟩ := l.update_eq_put list
  rw [hx]
  exact c.set_put_of_ne h x value

/-- What is given for other options leaves the list alone. -/
theorem give_update {g : Given} (h : g.value? l.setting = none) (list : Option (List String))
    (c : Chosen) : (l.update list c).give g = (c.give g).map (l.update list) := by
  cases g with
  | attached s value | apart s value =>
    have hs : s ≠ l.setting := by simpa [Given.value?] using h
    exact set_update_of_ne l hs list c value
  | print =>
    have hsame : (l.update list c).print = c.print := by cases l <;> rfl
    simp only [Chosen.give, hsame]
    split
    · rfl
    · cases l <;> rfl

/-- What is given for the list adds its items. -/
theorem give_update_of_value {g : Given} {value : String} (h : g.value? l.setting = some value)
    (list : Option (List String)) (c : Chosen) :
    (l.update list c).give g = .ok (l.update (some (list.getD [] ++ items value)) c) := by
  cases g with
  | attached s v | apart s v =>
    obtain ⟨rfl, rfl⟩ : s = l.setting ∧ v = value := by
      simpa [Given.value?, Option.ite_none_right_eq_some] using h
    exact set_update l list c v
  | print => cases h

/-- Taking a line takes the other options as if the list were not there, and gathers the list. -/
theorem foldlM_give (given : List Given) (list : Option (List String)) (c : Chosen) :
    given.foldlM Chosen.give (l.update list c) =
      ((l.without given).foldlM Chosen.give c).map
        (l.update (gathered list (values l.setting given))) := by
  induction given generalizing list c with
  | nil => rfl
  | cons g given ih =>
    cases hvalue : g.value? l.setting with
    | some value =>
      have hvalues : values l.setting (g :: given) = value :: values l.setting given :=
        List.filterMap_cons_some hvalue
      have hwithout : l.without (g :: given) = l.without given := by simp [without, hvalue]
      rw [List.foldlM_cons, give_update_of_value l hvalue, hvalues, hwithout]
      exact ih _ c
    | none =>
      have hvalues : values l.setting (g :: given) = values l.setting given :=
        List.filterMap_cons_none hvalue
      have hwithout : l.without (g :: given) = g :: l.without given := by simp [without, hvalue]
      rw [List.foldlM_cons, give_update l hvalue, hvalues, hwithout, List.foldlM_cons]
      cases c.give g with
      | error usage => rfl
      | ok c => exact ih list c

/-- The environment has a say in a list only if the line has none, and no say through it in
anything else. -/
theorem complete_update (list : Option (List String)) (c : Chosen) (env : Environment)
    (inEnvironment : Option String) :
    complete (l.update list c) (env.put l.setting inEnvironment) =
      (complete c env).map (l.put ((list.or (inEnvironment.map items)).getD l.default)) := by
  rw [complete_eq, complete_eq]
  cases l with
  | protocols | addresses =>
    simp only [update, setting, Environment.put]
    cases fill c.config env.config configOf with
    | error usage => rfl
    | ok config =>
      cases fill c.level env.level levelOf with
      | error usage => rfl
      | ok level => rfl

/-! ## Whole lines -/

theorem sound_without {given : List Given} (hgiven : ∀ g ∈ given, g.Sound) :
    ∀ g ∈ l.without given, g.Sound :=
  fun g hg => hgiven g (List.mem_filter.1 hg).1

/-- The values of a list on a line, or its variable, take the place of the list that the rest of
the line comes to. -/
theorem ofArguments_list {given : List Given} (hgiven : ∀ g ∈ given, g.Sound)
    (env : Environment) (inEnvironment : Option String) :
    Options.ofArguments (line given) (env.put l.setting inEnvironment) =
      (Options.ofArguments (line (l.without given)) env).map
        (l.put (((gathered none (values l.setting given)).or
          (inEnvironment.map items)).getD l.default)) := by
  rw [ofArguments_line hgiven, ofArguments_line (l.sound_without hgiven)]
  have htaken := l.foldlM_give given none {}
  rw [update_none] at htaken
  rw [htaken]
  cases (l.without given).foldlM Chosen.give {} with
  | error usage => rfl
  | ok c => exact l.complete_update _ c env inEnvironment

theorem values_without (given : List Given) : values l.setting (l.without given) = [] := by
  rw [values, List.filterMap_eq_nil_iff]
  intro g hg
  simpa [without] using (List.mem_filter.1 hg).2

theorem without_without (given : List Given) : l.without (l.without given) = l.without given := by
  simp only [without, List.filter_filter, Bool.and_self]

theorem without_cons_attached (value : String) (given : List Given) :
    l.without (.attached l.setting value :: given) = l.without given := by
  simp [without, Given.value?]

theorem values_cons_attached (value : String) (given : List Given) :
    values l.setting (.attached l.setting value :: given) = value :: values l.setting given := by
  simp [values, Given.value?]

end ListSetting

namespace Options

/-- A list comes to the same however it is spelled. Given in groups, in as many options with
whatever between them, given at once, or left to its variable, it takes the place of the list in
what the other options come to, and touches nothing else there. Where there are no others, and no
file and no level come from the environment, the line is accepted. -/
theorem list_spellings_agree (l : ListSetting) {list : List String} {groups : List (List String)}
    {given : List Given} (hne : list ≠ []) (hplain : ∀ item ∈ list, ',' ∉ item.toList)
    (hlist : groups.flatten = list) (hgroups : ∀ group ∈ groups, group ≠ [])
    (hgiven : ∀ g ∈ given, g.Sound)
    (hvalues : values l.setting given = groups.map fun group => ",".intercalate group)
    (env : Environment) :
    let whole := ",".intercalate list
    let others := ofArguments (line (l.without given)) env
    ofArguments (line given) env = others.map (l.put list) ∧
    ofArguments (line (.attached l.setting whole :: l.without given)) env =
      others.map (l.put list) ∧
    ofArguments (line (l.without given)) (env.put l.setting (some whole)) =
      others.map (l.put list) ∧
    (l.without given = [] → env.config = none → env.level = none → ∃ o, others = .ok o) := by
  intro whole others
  have hrest : ∀ g ∈ l.without given, g.Sound := l.sound_without hgiven
  have hwhole : items whole = list := ListSetting.items_intercalate hne hplain
  refine ⟨?_, ?_, ?_, ?_⟩
  · have hnone : groups ≠ [] := by
      rintro rfl
      exact hne hlist.symm
    have hgathered := ListSetting.gathered_groups hnone hgroups (by rwa [hlist])
    rw [← hvalues, hlist] at hgathered
    have h := l.ofArguments_list hgiven env (env.get l.setting)
    rw [Environment.put_get, hgathered] at h
    exact h
  · have hsound : ∀ g ∈ Given.attached l.setting whole :: l.without given, g.Sound := by
      intro g hg
      rcases List.mem_cons.1 hg with rfl | hg
      · trivial
      · exact hrest g hg
    have h := l.ofArguments_list hsound env (env.get l.setting)
    rw [Environment.put_get, l.values_cons_attached, l.values_without, l.without_cons_attached,
      l.without_without] at h
    have hone : ListSetting.gathered none [whole] = some list := congrArg some hwhole
    rw [hone] at h
    exact h
  · have h := l.ofArguments_list hrest env (some whole)
    rw [l.values_without, l.without_without] at h
    have hvariable : (ListSetting.gathered none []).or ((some whole).map items) = some list :=
      congrArg some hwhole
    rw [hvariable] at h
    exact h
  · intro halone hconfig hlevel
    show ∃ o, ofArguments (line (l.without given)) env = .ok o
    rw [halone, ofArguments_line (by simp), List.foldlM_nil, pure_bind, complete_eq,
      hconfig, hlevel]
    exact ⟨_, rfl⟩

/-- Two groups with an empty item and a dash in front, an address between them, and a variable
that nobody asks. -/
theorem list_spellings_agree_grouped :
    let given : List Given :=
      [.attached .protocols "udp,", .apart .addresses "a:1,b:2", .apart .protocols "udp", .print,
        .attached .protocols "-x,tcp"]
    let list := ["udp", "", "udp", "-x", "tcp"]
    (∀ item ∈ list, ',' ∉ item.toList) ∧ (∀ g ∈ given, g.Sound) ∧
      values .protocols given =
        [["udp", ""], ["udp"], ["-x", "tcp"]].map (fun group => ",".intercalate group) ∧
      ofArguments (line given) { protocols := some "quic" } =
        .ok { protocols := list, addresses := ["a:1", "b:2"], print := true } := by
  intro given list
  have hne : list ≠ [] := by decide
  have hplain : ∀ item ∈ list, ',' ∉ item.toList := by decide
  have hgiven : ∀ g ∈ given, g.Sound := by decide
  have hvalues : values .protocols given =
      [["udp", ""], ["udp"], ["-x", "tcp"]].map (fun group => ",".intercalate group) := by
    decide
  refine ⟨hplain, hgiven, hvalues, ?_⟩
  have h := (list_spellings_agree .protocols hne hplain rfl (by decide) hgiven
    hvalues { protocols := some "quic" }).1
  rw [h]
  decide

end Options
end BrokerAgent
