import BrokerAgent.Proofs.Except
import BrokerAgent.Proofs.Settings.Rules

/-!
# Two ways to go through the protocols

`checkProtocols` searches the protocols for one that is in no table of names. `chosenTransports`
reads one after the other and stops at the first that it cannot read. Both come to the same end:
`checkProtocols` is `chosenTransports` with the transports forgotten, and the protocol that either
reports is the first that names no transport.
-/

namespace BrokerAgent.Settings

/-! ## One protocol -/

/-- The table of names holds the names of the transports and nothing else. -/
theorem mem_names_iff {p : String} : p ∈ Transport.names ↔ ∃ t : Transport, t.name = p := by
  constructor
  · intro h
    simp only [Transport.names, List.mem_cons, List.not_mem_nil, or_false] at h
    rcases h with rfl | rfl
    · exact ⟨.udp, rfl⟩
    · exact ⟨.tcp, rfl⟩
  · rintro ⟨t, rfl⟩
    cases t <;> decide

/-- The name of a transport is accepted. -/
theorem transport_name (t : Transport) : transport t.name = .ok t := by
  unfold transport
  rw [Transport.ofName?_name]

/-- Any other text is refused as it stands. -/
theorem transport_of_not_mem {p : String} (h : p ∉ Transport.names) :
    transport p = .error (.invalidProtocol p) := by
  unfold transport
  cases ht : Transport.ofName? p with
  | none => rfl
  | some t => exact absurd (mem_names_iff.2 ⟨t, (Transport.ofName?_eq_some_iff.1 ht).symm⟩) h

/-! ## One protocol before others -/

/-- The record with other protocols. -/
def withProtocols (s : Settings) (protocols : List String) : Settings :=
  { s with protocols := protocols }

variable (s : Settings)

/-- The check goes on behind a known name. -/
theorem checkProtocols_cons_name (t : Transport) (ps : List String) :
    (s.withProtocols (t.name :: ps)).checkProtocols =
      (s.withProtocols ps).checkProtocols := by
  have ht : Transport.names.contains t.name = true := by cases t <;> decide
  simp only [checkProtocols, withProtocols, List.find?_cons, ht, not_true_eq_false, decide_false]

theorem checkProtocols_cons_of_not_mem {p : String} (h : p ∉ Transport.names)
    (ps : List String) :
    (s.withProtocols (p :: ps)).checkProtocols = .error (.invalidProtocol p) := by
  have hp : Transport.names.contains p = false := by simpa using h
  simp only [checkProtocols, withProtocols, List.find?_cons, hp, Bool.false_eq_true,
    not_false_eq_true, decide_true]

/-- The choice goes on behind a known name. -/
theorem chosenTransports_cons_name (t : Transport) (ps : List String) :
    (s.withProtocols (t.name :: ps)).chosenTransports =
      (s.withProtocols ps).chosenTransports.map (t :: ·) := by
  simp only [chosenTransports, withProtocols, List.mapM_cons, transport_name]
  rfl

theorem chosenTransports_cons_of_not_mem {p : String} (h : p ∉ Transport.names)
    (ps : List String) :
    (s.withProtocols (p :: ps)).chosenTransports = .error (.invalidProtocol p) := by
  simp only [chosenTransports, withProtocols, List.mapM_cons, transport_of_not_mem h]
  rfl

/-! ## All protocols -/

/-- The search and the reading give the same verdict. -/
theorem checkProtocols_eq_map (protocols : List String) :
    (s.withProtocols protocols).checkProtocols =
      (s.withProtocols protocols).chosenTransports.map fun _ => () := by
  induction protocols with
  | nil => rfl
  | cons p ps ih =>
    by_cases hp : p ∈ Transport.names
    · obtain ⟨t, rfl⟩ := mem_names_iff.1 hp
      rw [checkProtocols_cons_name, chosenTransports_cons_name, ih]
      cases (s.withProtocols ps).chosenTransports with
      | error cause => rfl
      | ok transports => rfl
    · rw [checkProtocols_cons_of_not_mem s hp, chosenTransports_cons_of_not_mem s hp]
      rfl

/-- The reading succeeds with the transports that spell the protocols, and with no others. -/
theorem chosenTransports_eq_ok_iff (protocols : List String) (transports : List Transport) :
    (s.withProtocols protocols).chosenTransports = .ok transports ↔
      transports.map Transport.name = protocols := by
  induction protocols generalizing transports with
  | nil =>
    show Except.ok [] = Except.ok transports ↔ _
    rw [Except.ok.injEq, List.map_eq_nil_iff, eq_comm]
  | cons p ps ih =>
    by_cases hp : p ∈ Transport.names
    · obtain ⟨t, rfl⟩ := mem_names_iff.1 hp
      rw [chosenTransports_cons_name, map_eq_ok]
      constructor
      · rintro ⟨later, hlater, rfl⟩
        rw [List.map_cons, (ih later).1 hlater]
      · intro h
        obtain ⟨first, later, rfl, hfirst, hlater⟩ := List.map_eq_cons_iff.1 h
        have hsame : first = t := by
          apply Option.some.inj
          rw [← Transport.ofName?_name, hfirst, Transport.ofName?_name]
        exact ⟨later, (ih later).2 hlater, by rw [hsame]⟩
    · rw [chosenTransports_cons_of_not_mem s hp]
      constructor
      · intro h
        cases h
      · intro h
        obtain ⟨first, later, -, hfirst, -⟩ := List.map_eq_cons_iff.1 h
        exact absurd (mem_names_iff.2 ⟨first, hfirst⟩) hp

/-! ## The first unknown protocol -/

/-- The first protocol of a list that names no transport, and its place. -/
def FirstUnknown (protocols : List String) (place : Nat) (p : String) : Prop :=
  protocols[place]? = some p ∧ p ∉ Transport.names ∧
    ∀ earlier < place, ∀ q, protocols[earlier]? = some q → q ∈ Transport.names

/-- What stands after the first unknown protocol does not matter. -/
theorem FirstUnknown.take_append {protocols : List String} {place : Nat} {p : String}
    (h : FirstUnknown protocols place p) (later : List String) :
    FirstUnknown (protocols.take (place + 1) ++ later) place p := by
  obtain ⟨hp, hunknown, hearlier⟩ := h
  obtain ⟨hplace, -⟩ := List.getElem?_eq_some_iff.1 hp
  -- up to the place the two lists are the same
  have hsame : ∀ i ≤ place, (protocols.take (place + 1) ++ later)[i]? = protocols[i]? := by
    intro i hi
    have hshort : i < (protocols.take (place + 1)).length := by
      rw [List.length_take]
      omega
    rw [List.getElem?_append_left hshort, List.getElem?_take_of_lt (by omega)]
  refine ⟨(hsame place (Nat.le_refl place)).trans hp, hunknown, ?_⟩
  intro earlier hlt q hq
  rw [hsame earlier (Nat.le_of_lt hlt)] at hq
  exact hearlier earlier hlt q hq

/-- The search finds the first unknown protocol. -/
theorem find?_eq_some_iff_firstUnknown {protocols : List String} {p : String} :
    (protocols.find? fun p => ¬ Transport.names.contains p) = some p ↔
      ∃ place, FirstUnknown protocols place p := by
  rw [List.find?_eq_some_iff_getElem]
  constructor
  · rintro ⟨hunknown, place, hplace, hp, hearlier⟩
    refine ⟨place, ?_, by simpa using hunknown, ?_⟩
    · rw [List.getElem?_eq_getElem hplace, hp]
    · intro earlier hlt q hq
      obtain ⟨hearlierLt, rfl⟩ := List.getElem?_eq_some_iff.1 hq
      simpa using hearlier earlier hlt
  · rintro ⟨place, hp, hunknown, hearlier⟩
    obtain ⟨hplace, hget⟩ := List.getElem?_eq_some_iff.1 hp
    refine ⟨by simpa using hunknown, place, hplace, hget, ?_⟩
    intro earlier hlt
    simpa using hearlier earlier hlt _ (List.getElem?_eq_getElem (Nat.lt_trans hlt hplace))

/-- A list that names something unknown has a first such name. -/
theorem exists_firstUnknown {protocols : List String} {q : String} (hq : q ∈ protocols)
    (hunknown : q ∉ Transport.names) : ∃ place p, FirstUnknown protocols place p := by
  cases hfind : protocols.find? fun p => ¬ Transport.names.contains p with
  | none => exact absurd (List.find?_eq_none.1 hfind q hq) (by simpa using hunknown)
  | some p =>
    obtain ⟨place, hfirst⟩ := find?_eq_some_iff_firstUnknown.1 hfind
    exact ⟨place, p, hfirst⟩

/-- The first unknown name is refused. -/
theorem checkProtocols_eq_error_iff {cause : Refusal} :
    s.checkProtocols = .error cause ↔
      ∃ place p, FirstUnknown s.protocols place p ∧ cause = .invalidProtocol p := by
  unfold checkProtocols
  cases h : s.protocols.find? fun p => ¬ Transport.names.contains p with
  | none =>
    constructor
    · intro hc
      cases hc
    · rintro ⟨place, p, hp, -⟩
      have hfound := find?_eq_some_iff_firstUnknown.2 ⟨place, hp⟩
      rw [h] at hfound
      cases hfound
  | some bad =>
    constructor
    · intro hc
      obtain ⟨place, hplace⟩ := find?_eq_some_iff_firstUnknown.1 h
      exact ⟨place, bad, hplace, (Except.error.inj hc).symm⟩
    · rintro ⟨place, p, hp, rfl⟩
      have hfound := find?_eq_some_iff_firstUnknown.2 ⟨place, hp⟩
      rw [h] at hfound
      rw [Option.some.inj hfound]

/-! ## Two lists of protocols, one after the other -/

/-- The transports of two lists are chosen one list after the other. -/
theorem chosenTransports_append (xs ys : List String) :
    (s.withProtocols (xs ++ ys)).chosenTransports = (do
      let first ← (s.withProtocols xs).chosenTransports
      let later ← (s.withProtocols ys).chosenTransports
      return first ++ later) :=
  List.mapM_append

theorem checkProtocols_append (xs ys : List String) :
    (s.withProtocols (xs ++ ys)).checkProtocols = (do
      (s.withProtocols xs).checkProtocols
      (s.withProtocols ys).checkProtocols) := by
  rw [checkProtocols_eq_map, checkProtocols_eq_map, checkProtocols_eq_map,
    chosenTransports_append]
  cases (s.withProtocols xs).chosenTransports with
  | error cause => rfl
  | ok first =>
    cases (s.withProtocols ys).chosenTransports with
    | error cause => rfl
    | ok later => rfl

/-! ## Agreement -/

/-- The search and the reading of the protocols succeed together and fail together, and then both
with the first protocol that names no transport, whatever follows it. On success the transports
spell the protocols, one for one. On two lists in a row either goes through the first list and,
if that succeeds, through the second; the transports are those of the one and then of the other. -/
theorem protocol_checks_agree (s : Settings) :
    (s.checkProtocols = .ok () ↔ ∃ transports, s.chosenTransports = .ok transports) ∧
    (∀ cause, s.checkProtocols = .error cause ↔ s.chosenTransports = .error cause) ∧
    (∀ cause, s.checkProtocols = .error cause ↔
      ∃ place p, FirstUnknown s.protocols place p ∧ cause = .invalidProtocol p) ∧
    (∀ place p later, FirstUnknown s.protocols place p →
      (s.withProtocols (s.protocols.take (place + 1) ++ later)).checkProtocols =
        .error (.invalidProtocol p)) ∧
    (∀ transports, s.chosenTransports = .ok transports ↔
      transports.map Transport.name = s.protocols) ∧
    (∀ xs ys, (s.withProtocols (xs ++ ys)).checkProtocols = (do
      (s.withProtocols xs).checkProtocols
      (s.withProtocols ys).checkProtocols)) ∧
    (∀ xs ys, (s.withProtocols (xs ++ ys)).chosenTransports = (do
      let first ← (s.withProtocols xs).chosenTransports
      let later ← (s.withProtocols ys).chosenTransports
      return first ++ later)) := by
  have hmap : s.checkProtocols = s.chosenTransports.map fun _ => () :=
    checkProtocols_eq_map s s.protocols
  refine ⟨?_, ?_, fun cause => checkProtocols_eq_error_iff s, ?_,
    chosenTransports_eq_ok_iff s s.protocols, checkProtocols_append s, chosenTransports_append s⟩
  · rw [hmap, map_eq_ok]
    simp only [and_true]
  · intro cause
    rw [hmap, map_eq_error]
  · intro place p later h
    exact (checkProtocols_eq_error_iff _).2 ⟨place, p, h.take_append later, rfl⟩

/-- An unknown protocol between known ones, and another one after it that nobody hears of. -/
theorem protocol_checks_agree_between :
    let s : Settings := { protocols := ["tcp", "TCP", "udp", ""] }
    FirstUnknown s.protocols 1 "TCP" ∧
      (s.withProtocols (s.protocols.take 2 ++ ["http"])).checkProtocols =
        .error (.invalidProtocol "TCP") := by
  intro s
  have h : FirstUnknown s.protocols 1 "TCP" := by
    refine ⟨rfl, by decide, ?_⟩
    intro earlier hlt q hq
    obtain rfl : earlier = 0 := by omega
    obtain rfl : "tcp" = q := Option.some.inj hq
    decide
  exact ⟨h, (protocol_checks_agree s).2.2.2.1 1 "TCP" ["http"] h⟩

end BrokerAgent.Settings
