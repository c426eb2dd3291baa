import BrokerAgent.Proofs.Options.Environment
import BrokerAgent.Proofs.Options.Line
import BrokerAgent.Proofs.Options.Parts

/-!
# Command line before environment before default

No setting has a say in another one: what a line chooses for a setting comes of its own values
(`foldlM_give_eq_ok_iff`), and what is chosen, the variable and the default settle it together
(`get_of_complete`). So only the order within a list counts, a variable is asked only for what
the line does not give, and then it says the same as on an empty line
(`given_before_variable_before_default`).
-/

namespace BrokerAgent

open CommandLine

namespace CommandLine

/-! ## A line, setting by setting -/

/-- One more value of an option stands before the later ones, and no other option has one more. -/
theorem values_cons_of_value {g : Given} {s : Setting} {value : String}
    (h : ∀ t, g.value? t = if s = t then some value else none) (given : List Given) (t : Setting) :
    values t (g :: given) = if s = t then value :: values t given else values t given := by
  by_cases hst : s = t
  · rw [if_pos hst]
    exact List.filterMap_cons_some ((h t).trans (if_pos hst))
  · rw [if_neg hst]
    exact List.filterMap_cons_none ((h t).trans (if_neg hst))

/-- After an option with a value, the value is the first one of its setting. -/
theorem exists_set_iff {c c' : Chosen} {s : Setting} {value : String} (n : Nat)
    (rest : Setting → List String) :
    (∃ c₁, c.set s value = .ok c₁ ∧
        (∀ t, (rest t).foldlM (take t) (c₁.get t) = .ok (c'.get t)) ∧
        c₁.print.toNat + n = c'.print.toNat) ↔
      (∀ t, (if s = t then value :: rest t else rest t).foldlM (take t) (c.get t) =
        .ok (c'.get t)) ∧
        c.print.toNat + n = c'.print.toNat := by
  constructor
  · rintro ⟨c₁, hset, hrest, hprint⟩
    rw [Chosen.set_eq, map_eq_ok] at hset
    obtain ⟨x, hx, rfl⟩ := hset
    rw [Chosen.print_put] at hprint
    refine ⟨fun t => ?_, hprint⟩
    have ht := hrest t
    by_cases hst : s = t
    · subst hst
      rw [Chosen.get_put_self] at ht
      rw [if_pos rfl, List.foldlM_cons, hx]
      exact ht
    · rw [Chosen.get_put_of_ne c (Ne.symm hst)] at ht
      rwa [if_neg hst]
  · rintro ⟨hall, hprint⟩
    have hs := hall s
    rw [if_pos rfl, List.foldlM_cons, bind_eq_ok] at hs
    obtain ⟨x, hx, hs⟩ := hs
    refine ⟨c.put s x, ?_, fun t => ?_, ?_⟩
    · rw [Chosen.set_eq, hx]
      rfl
    · by_cases hst : s = t
      · subst hst
        rwa [Chosen.get_put_self]
      · rw [Chosen.get_put_of_ne c (Ne.symm hst)]
        have ht := hall t
        rwa [if_neg hst] at ht
    · rwa [Chosen.print_put]

/-- After the switch, which is not on yet. -/
theorem exists_print_iff {c c' : Chosen} (n : Nat) (rest : Setting → List String) :
    (∃ c₁, c.give .print = .ok c₁ ∧
        (∀ t, (rest t).foldlM (take t) (c₁.get t) = .ok (c'.get t)) ∧
        c₁.print.toNat + n = c'.print.toNat) ↔
      (∀ t, (rest t).foldlM (take t) (c.get t) = .ok (c'.get t)) ∧
        c.print.toNat + (n + 1) = c'.print.toNat := by
  have hle := c'.print.toNat_le
  cases hc : c.print with
  | true =>
    simp only [Chosen.give, hc, if_true, Bool.toNat_true]
    constructor
    · rintro ⟨c₁, hgive, -⟩
      cases hgive
    · rintro ⟨-, hprint⟩
      omega
  | false =>
    have hgive : c.give .print = .ok { c with print := true } := by
      rw [Chosen.give, hc]
      rfl
    -- turning the switch on leaves every setting as it is
    have hget : ∀ t, Chosen.get { c with print := true } t = c.get t := by
      intro t
      cases t <;> rfl
    simp only [hgive, Except.ok.injEq, exists_eq_left', hget, Bool.toNat_true, Bool.toNat_false,
      Nat.zero_add, Nat.add_comm 1 n]

/-- A line is taken if each setting takes its own values and the switch is there once at most. -/
theorem foldlM_give_eq_ok_iff {given : List Given} {c c' : Chosen} :
    given.foldlM Chosen.give c = .ok c' ↔
      (∀ s, (values s given).foldlM (take s) (c.get s) = .ok (c'.get s)) ∧
        c.print.toNat + given.count .print = c'.print.toNat := by
  induction given generalizing c with
  | nil =>
    constructor
    · intro h
      cases h
      exact ⟨fun s => rfl, rfl⟩
    · rintro ⟨hget, hprint⟩
      have hsame : ∀ a b : Bool, a.toNat + 0 = b.toNat → a = b := by decide
      rw [Chosen.ext_get (fun s => Except.ok.inj (hget s)) (hsame _ _ hprint)]
      rfl
  | cons g given ih =>
    rw [List.foldlM_cons, bind_eq_ok]
    simp only [ih]
    cases g with
    | attached s value =>
      have hvalues := values_cons_of_value (g := .attached s value) (fun _ => rfl) given
      simp only [hvalues]
      exact exists_set_iff _ fun t => values t given
    | apart s value =>
      have hvalues := values_cons_of_value (g := .apart s value) (fun _ => rfl) given
      simp only [hvalues]
      exact exists_set_iff _ fun t => values t given
    | print =>
      rw [List.count_cons_self]
      exact exists_print_iff _ fun t => values t given

/-! ## Values of one setting -/

/-- A setting with a value is chosen. -/
theorem isSome_of_foldlM_take {s : Setting} {values : List String} {x y : Option (Content s)}
    (h : values.foldlM (take s) x = .ok y) (hx : x.isSome ∨ values ≠ []) : y.isSome := by
  induction values generalizing x with
  | nil =>
    cases h
    exact hx.resolve_right (by simp)
  | cons value values ih =>
    rw [List.foldlM_cons, bind_eq_ok] at h
    obtain ⟨next, hnext, h⟩ := h
    exact ih h (.inl (isSome_of_take hnext))

/-- A setting that is given once has one value at most. -/
theorem length_le_one_of_foldlM_takeOnce {α : Type} {read : String → Except Usage α}
    {values : List String} {x y : Option α} (h : values.foldlM (takeOnce read) x = .ok y) :
    values.length + x.toList.length ≤ 1 := by
  induction values generalizing x with
  | nil => cases x <;> simp
  | cons value values ih =>
    rw [List.foldlM_cons, bind_eq_ok] at h
    obtain ⟨next, hnext, h⟩ := h
    unfold takeOnce at hnext
    split at hnext
    · cases hnext
    · rename_i hx
      obtain ⟨a, -, rfl⟩ := map_eq_ok.1 hnext
      have := ih h
      cases x with
      | some b => exact absurd rfl hx
      | none => simpa using this

/-- Where a setting has one value at most, the order of the line does not matter to it. -/
theorem values_eq_of_perm {given given' : List Given} (h : given'.Perm given) {s : Setting}
    (hone : (values s given).length ≤ 1) : values s given' = values s given := by
  have hperm : (values s given').Perm (values s given) := h.filterMap _
  match hvalues : values s given with
  | [] =>
    rw [hvalues] at hperm
    exact hperm.eq_nil
  | [value] =>
    rw [hvalues] at hperm
    exact List.perm_singleton.1 hperm
  | _ :: _ :: _ =>
    rw [hvalues] at hone
    simp at hone

/-- A line that is taken is taken in every order that keeps the order within the lists. -/
theorem foldlM_give_perm {given given' : List Given} (h : given'.Perm given)
    (hprotocols : values .protocols given' = values .protocols given)
    (haddresses : values .addresses given' = values .addresses given) {c : Chosen}
    (hc : given.foldlM Chosen.give {} = .ok c) : given'.foldlM Chosen.give {} = .ok c := by
  obtain ⟨hget, hprint⟩ := foldlM_give_eq_ok_iff.1 hc
  have hvalues : ∀ s, values s given' = values s given := by
    intro s
    cases s with
    | protocols => exact hprotocols
    | addresses => exact haddresses
    | config => exact values_eq_of_perm h (length_le_one_of_foldlM_takeOnce (hget .config))
    | level => exact values_eq_of_perm h (length_le_one_of_foldlM_takeOnce (hget .level))
  rw [foldlM_give_eq_ok_iff]
  refine ⟨fun s => ?_, ?_⟩
  · rw [hvalues]
    exact hget s
  · rw [h.count_eq]
    exact hprint

theorem print_eq_of_count {given : List Given} {on : Bool} (h : given.count .print = on.toNat) :
    on = decide (.print ∈ given) := by
  rw [Bool.eq_iff_iff, decide_eq_true_iff, ← List.count_pos_iff, h]
  cases on <;> decide

/-! ## Variables and defaults, setting by setting -/

/-- A part of the options is the given one, then that of the environment, then the preset one. -/
theorem get_of_complete {c : Chosen} {env : Environment} {o : Options}
    (h : complete c env = .ok o) (s : Setting) :
    ∃ x, fill (c.get s) (env.get s) (read s) = .ok x ∧ o.get s = x.or (preset s) := by
  simp only [complete, bind_eq_ok] at h
  obtain ⟨config, hconfig, protocols, hprotocols, addresses, haddresses, level, hlevel, h⟩ := h
  cases h
  cases s with
  | config => exact ⟨config, hconfig, by cases config <;> rfl⟩
  | protocols => exact ⟨protocols, hprotocols, by cases protocols <;> rfl⟩
  | addresses => exact ⟨addresses, haddresses, by cases addresses <;> rfl⟩
  | level => exact ⟨level, hlevel, by cases level <;> rfl⟩

/-- What is chosen for a setting is settled. -/
theorem get_of_complete_of_some {c : Chosen} {env : Environment} {o : Options}
    (h : complete c env = .ok o) {s : Setting} {a : Content s} (ha : c.get s = some a) :
    o.get s = some a := by
  obtain ⟨x, hx, ho⟩ := get_of_complete h s
  rw [ha] at hx
  simp only [fill, Except.ok.injEq] at hx
  rw [ho, ← hx, Option.some_or]

/-- Options are complete if every part can be filled in. -/
theorem exists_complete {c : Chosen} {env : Environment}
    (h : ∀ s, ∃ x, fill (c.get s) (env.get s) (read s) = .ok x) :
    ∃ o, complete c env = .ok o := by
  obtain ⟨config, hconfig⟩ := h .config
  obtain ⟨protocols, hprotocols⟩ := h .protocols
  obtain ⟨addresses, haddresses⟩ := h .addresses
  obtain ⟨level, hlevel⟩ := h .level
  simp only [complete, bind_eq_ok]
  exact ⟨_, config, hconfig, protocols, hprotocols, addresses, haddresses, level, hlevel, rfl⟩

/-- The variable of a setting that is chosen is not asked. -/
theorem complete_put {c : Chosen} {s : Setting} (h : (c.get s).isSome) (env : Environment)
    (inEnvironment : Option String) : complete c (env.put s inEnvironment) = complete c env := by
  obtain ⟨x, hx⟩ := Option.isSome_iff_exists.1 h
  cases s with
  | config =>
    have hconfig : c.config = some x := hx
    simp only [complete, Environment.put, hconfig, fill]
  | protocols =>
    have hprotocols : c.protocols = some x := hx
    simp only [complete, Environment.put, hprotocols, fill]
  | addresses =>
    have haddresses : c.addresses = some x := hx
    simp only [complete, Environment.put, haddresses, fill]
  | level =>
    have hlevel : c.level = some x := hx
    simp only [complete, Environment.put, hlevel, fill]

theorem get_empty (s : Setting) : Chosen.get {} s = none := by
  cases s <;> rfl

/-- A setting that is not chosen comes to what its variable gives where nothing else is said. -/
theorem exists_complete_only {c : Chosen} {env : Environment} {o : Options} {s : Setting}
    (h : complete c env = .ok o) (hs : c.get s = none) :
    (∃ alone, complete {} (env.only s) = .ok alone ∧ o.get s = alone.get s) ∧
      (env.get s = none → o.get s = preset s) := by
  obtain ⟨x, hx, ho⟩ := get_of_complete h s
  rw [hs] at hx
  have hfill : ∀ t, ∃ y, fill (Chosen.get {} t) ((env.only s).get t) (read t) = .ok y := by
    intro t
    rw [get_empty]
    by_cases hst : t = s
    · subst hst
      rw [Environment.get_only_self]
      exact ⟨x, hx⟩
    · rw [Environment.get_only_of_ne hst]
      exact ⟨none, rfl⟩
  obtain ⟨alone, halone⟩ := exists_complete hfill
  refine ⟨⟨alone, halone, ?_⟩, ?_⟩
  · obtain ⟨y, hy, hsame⟩ := get_of_complete halone s
    rw [get_empty, Environment.get_only_self, hx] at hy
    rw [ho, hsame, Except.ok.inj hy]
  · intro hunset
    rw [hunset] at hx
    rw [ho, ← Except.ok.inj hx]
    rfl

end CommandLine

namespace Options

/-- The command line counts before the environment, and the environment before the defaults,
setting by setting. A line that is accepted comes to the same in every order that keeps the order
within the two lists. The variable of a setting that is given may be anything. What a setting comes
to that is given, its own values alone decide; one that is not given comes to what its variable
would give on an empty line, and to the default if that is not set. -/
theorem given_before_variable_before_default {given : List Given}
    (hgiven : ∀ g ∈ given, g.Sound) :
    (∀ given' : List Given, given'.Perm given →
      values .protocols given' = values .protocols given →
      values .addresses given' = values .addresses given →
      (∃ env o, ofArguments (line given) env = .ok o) →
      ∀ env, ofArguments (line given') env = ofArguments (line given) env) ∧
    (∀ s, values s given ≠ [] → ∀ env inEnvironment,
      ofArguments (line given) (env.put s inEnvironment) = ofArguments (line given) env) ∧
    (∀ env o, ofArguments (line given) env = .ok o →
      o.print = decide (.print ∈ given) ∧
      (∀ s, values s given ≠ [] → (values s given).foldlM (take s) none = .ok (o.get s)) ∧
      ∀ s, values s given = [] →
        (∃ alone, ofArguments [] (env.only s) = .ok alone ∧ o.get s = alone.get s) ∧
          (env.get s = none → o.get s = preset s)) := by
  refine ⟨?_, ?_, ?_⟩
  · rintro given' hperm hprotocols haddresses ⟨env, o, ho⟩
    rw [ofArguments_line hgiven, bind_eq_ok] at ho
    obtain ⟨c, hc, -⟩ := ho
    have hgiven' : ∀ g ∈ given', g.Sound := fun g hg => hgiven g (hperm.mem_iff.1 hg)
    intro env
    rw [ofArguments_line hgiven, ofArguments_line hgiven', hc,
      foldlM_give_perm hperm hprotocols haddresses hc]
  · intro s hs env inEnvironment
    rw [ofArguments_line hgiven, ofArguments_line hgiven]
    cases hc : given.foldlM Chosen.give {} with
    | error usage => rfl
    | ok c =>
      have hget := (foldlM_give_eq_ok_iff.1 hc).1 s
      exact complete_put (isSome_of_foldlM_take hget (.inr hs)) env inEnvironment
  · intro env o ho
    rw [ofArguments_line hgiven, bind_eq_ok] at ho
    obtain ⟨c, hc, ho⟩ := ho
    obtain ⟨hget, hprint⟩ := foldlM_give_eq_ok_iff.1 hc
    simp only [get_empty] at hget
    refine ⟨?_, ?_, ?_⟩
    · rw [(complete_eq_ok ho).1]
      exact print_eq_of_count (by simpa using hprint)
    · intro s hs
      obtain ⟨a, ha⟩ := Option.isSome_iff_exists.1 (isSome_of_foldlM_take (hget s) (.inr hs))
      rw [hget s, get_of_complete_of_some ho ha, ha]
    · intro s hs
      have hnone : c.get s = none := by
        have hown := hget s
        rw [hs] at hown
        exact (Except.ok.inj hown).symm
      exact exists_complete_only ho hnone

/-- A shuffled line, and a variable that names no level. -/
theorem given_before_variable_before_default_shuffled :
    let given : List Given :=
      [.print, .attached .protocols "udp,", .attached .config "agent.json",
        .attached .protocols "tcp", .attached .level "debug"]
    let given' : List Given :=
      [.attached .level "debug", .attached .protocols "udp,", .attached .protocols "tcp", .print,
        .attached .config "agent.json"]
    let accepted : Options :=
      { config := some "agent.json", protocols := ["udp", "", "tcp"], addresses := ["a:1"],
        level := .debug, print := true }
    (∀ g ∈ given, g.Sound) ∧ given'.Perm given ∧
      values .protocols given' = values .protocols given ∧
      values .addresses given' = values .addresses given ∧
      ofArguments (line given) { addresses := some "a:1" } = .ok accepted ∧
      ofArguments (line given') { addresses := some "a:1", level := some "loud" } =
        .ok accepted := by
  intro given given' accepted
  have hgiven : ∀ g ∈ given, g.Sound := by decide
  have hperm : given'.Perm given := by decide
  have haccepted : ofArguments (line given) { addresses := some "a:1" } = .ok accepted := by
    decide
  obtain ⟨horder, hvariable, -⟩ := given_before_variable_before_default hgiven
  refine ⟨hgiven, hperm, rfl, rfl, haccepted, ?_⟩
  rw [horder given' hperm rfl rfl ⟨_, _, haccepted⟩, ← haccepted]
  exact hvariable .level (by decide) { addresses := some "a:1" } (some "loud")

end Options
end BrokerAgent
