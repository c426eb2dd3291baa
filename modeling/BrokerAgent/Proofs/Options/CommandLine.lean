import BrokerAgent.Proofs.Except
import BrokerAgent.Proofs.Options.Parts

/-!
# What a command line can and cannot choose

Arguments are taken one after the other, so what holds of the choice so far is shown once, for a
single option (`Kept`), and carried through all of them. Two facts come of it: a list of protocols
is never empty, and the switch that asks for the record is not lost.
-/

namespace BrokerAgent

namespace CommandLine

/-- A property of the options given so far that every further option keeps. -/
structure Kept (P : Chosen → Prop) : Prop where
  set : ∀ {c c' : Chosen} {s : Setting} {value : String},
    P c → c.set s value = .ok c' → P c'
  print : ∀ {c : Chosen}, P c → P { c with print := true }

/-! ## Options are taken one after the other -/

/-- Taking the switch leaves it on. -/
theorem print_takeSwitch {pending pending' : Option Pending} {c c' : Chosen}
    (h : takeSwitch .print none pending c = .ok (pending', c')) : c'.print = true := by
  simp only [takeSwitch, bind_eq_ok] at h
  obtain ⟨settled, -, h⟩ := h
  split at h
  · cases h
  · cases h
    rfl

section Kept

variable {P : Chosen → Prop} (hP : Kept P) {pending pending' : Option Pending} {c c' : Chosen}

include hP

theorem Kept.settle (hc : P c) (h : settle pending c = .ok c') : P c' := by
  unfold CommandLine.settle at h
  split at h
  · cases h
    exact hc
  · cases h
  · exact hP.set hc h

theorem Kept.takeSwitch {switch : Switch} {value : Option String} (hc : P c)
    (h : takeSwitch switch value pending c = .ok (pending', c')) : P c' := by
  unfold CommandLine.takeSwitch at h
  split at h
  -- a setting whose value comes later, or with it
  · simp only [bind_eq_ok] at h
    obtain ⟨settled, hs, h⟩ := h
    cases h
    exact hP.settle hc hs
  · simp only [bind_eq_ok] at h
    obtain ⟨settled, hs, next, hn, h⟩ := h
    cases h
    exact hP.set (hP.settle hc hs) hn
  · cases h
  · simp only [bind_eq_ok] at h
    obtain ⟨settled, hs, h⟩ := h
    split at h
    · cases h
    · cases h
      exact hP.print (hP.settle hc hs)
  · simp only [bind_eq_ok] at h
    obtain ⟨settled, hs, h⟩ := h
    cases h

/-- No argument breaks what is kept. -/
theorem Kept.takeArgument {text : String} (hc : P c)
    (h : takeArgument text pending c = .ok (pending', c')) : P c' := by
  unfold CommandLine.takeArgument at h
  split at h
  · split at h
    · exact hP.takeSwitch hc h
    · cases h
  · exact hP.takeSwitch hc h
  · cases h
  · split at h
    · cases h
      exact hc
    · cases h

/-- What each option keeps holds of the choice in the end. -/
theorem Kept.takeAll {texts : List String} (hc : P c) (h : takeAll pending c texts = .ok c') :
    P c' := by
  induction texts generalizing pending c with
  | nil => exact hP.settle hc h
  | cons text texts ih =>
    rw [CommandLine.takeAll] at h
    split at h
    · split at h
      · exact hP.settle hc h
      · cases h
    · split at h
      · cases h
      · rename_i ht
        exact ih (hP.takeArgument hc ht) h

end Kept

/-! ## Lists -/

/-- A value has an item at least, which may be empty. -/
theorem items_ne_nil (value : String) : items value ≠ [] := by
  unfold items
  rw [Ne, List.map_eq_nil_iff]
  exact List.splitOn_ne_nil ',' value.toList

/-- A list of protocols that was given has an entry. -/
def Chosen.NamesProtocol (c : Chosen) : Prop :=
  ∀ protocols, c.protocols = some protocols → protocols ≠ []

/-- A list of protocols that is given is never empty again. -/
theorem kept_namesProtocol : Kept Chosen.NamesProtocol where
  set := by
    intro c c' s value hc h
    rw [Chosen.set_eq, map_eq_ok] at h
    obtain ⟨x, hx, rfl⟩ := h
    cases s with
    | protocols =>
      cases hx
      rintro protocols ⟨⟩
      exact List.append_ne_nil_of_right_ne_nil _ (items_ne_nil value)
    | config | addresses | level => exact hc
  print := id

/-! ## The switch that asks for the record -/

theorem kept_print : Kept fun c => c.print = true where
  set := by
    intro c c' s value hc h
    rw [Chosen.set_eq, map_eq_ok] at h
    obtain ⟨x, -, rfl⟩ := h
    rw [Chosen.print_put, hc]
  print := fun _ => rfl

/-- The switch counts wherever it stands. -/
theorem print_takeAll {texts : List String} {pending : Option Pending} {c c' : Chosen}
    (h : takeAll pending c texts = .ok c') (hmem : "--print" ∈ texts) : c'.print = true := by
  induction texts generalizing pending c with
  | nil => cases hmem
  | cons text texts ih =>
    rw [takeAll] at h
    split at h
    · rename_i htext
      split at h
      · rename_i hnil
        rw [htext, hnil] at hmem
        exact absurd hmem (by decide)
      · cases h
    · split at h
      · cases h
      · rename_i pending' next ht
        rcases List.mem_cons.1 hmem with rfl | hmem
        · have hnext : takeSwitch .print none pending c = .ok (pending', next) := ht
          exact kept_print.takeAll (print_takeSwitch hnext) h
        · exact ih h hmem

/-! ## Environment and defaults -/

/-- A part that is filled in is the given one or one that is read. -/
theorem fill_eq_ok {α : Type} {given filled : Option α} {inEnvironment : Option String}
    {read : String → Except Usage α} (h : fill given inEnvironment read = .ok filled) :
    filled = given ∨ ∃ value a, read value = .ok a ∧ filled = some a := by
  unfold fill at h
  split at h
  · cases h
    exact .inl rfl
  · cases h
    exact .inl rfl
  · rename_i value
    obtain ⟨a, ha, rfl⟩ := map_eq_ok.1 h
    exact .inr ⟨value, a, ha, rfl⟩

/-- What completing the options leaves of the wish to print and of the protocols. -/
theorem complete_eq_ok {c : Chosen} {env : Environment} {o : Options}
    (h : complete c env = .ok o) :
    o.print = c.print ∧ ∃ protocols,
      fill c.protocols env.protocols (fun value => .ok (items value)) = .ok protocols ∧
      o.protocols = protocols.getD ["udp", "tcp"] := by
  simp only [complete, bind_eq_ok] at h
  obtain ⟨config, -, protocols, hp, addresses, -, level, -, h⟩ := h
  cases h
  exact ⟨rfl, protocols, hp, rfl⟩

end CommandLine

namespace Options

open CommandLine

/-- A start is always asked for at least one protocol: a list written with commas has an entry, and
so has the default. -/
theorem protocols_ne_nil {arguments : List String} {env : Environment} {o : Options}
    (h : ofArguments arguments env = .ok o) : o.protocols ≠ [] := by
  obtain ⟨c, hc, h⟩ := bind_eq_ok.1 h
  have hnames : c.NamesProtocol := kept_namesProtocol.takeAll (by rintro _ ⟨⟩) hc
  obtain ⟨-, protocols, hp, ho⟩ := complete_eq_ok h
  rw [ho]
  rcases fill_eq_ok hp with rfl | ⟨value, a, ha, rfl⟩
  · cases hgiven : c.protocols with
    | none => decide
    | some given => exact hnames given hgiven
  · cases ha
    exact items_ne_nil value

/-- A command line with the switch asks for the record. -/
theorem print_of_mem {arguments : List String} {env : Environment} {o : Options}
    (h : ofArguments arguments env = .ok o) (hmem : "--print" ∈ arguments) : o.print = true := by
  obtain ⟨c, hc, h⟩ := bind_eq_ok.1 h
  rw [(complete_eq_ok h).1]
  exact print_takeAll hc hmem

end Options
end BrokerAgent
