import BrokerAgent.Proofs.Settings.Transports

/-!
# The first broken rule

There is a rule for each field of the record, and they are checked in the record's order. Whatever
else is broken, the refusal is that of the first field that breaks its rule
(`check_reports_first_broken`). The fallback address and the mask rewrite two of the fields that
have a limit, and change no verdict.
-/

namespace BrokerAgent.Settings

/-- A field keeps its rule. -/
def Keeps (s : Settings) : Field → Prop
  | .protocols => ∀ p ∈ s.protocols, p ∈ Transport.names
  | .addresses => s.addresses.length ≤ addressLimit
  | .id => s.id.toList.length ≤ idLimit
  | .secret => s.secret.toList.length ≤ secretLimit

/-- What is said of a field that breaks its rule. -/
def Reports (s : Settings) : Field → Refusal → Prop
  | .protocols, cause => ∃ place p, FirstUnknown s.protocols place p ∧ cause = .invalidProtocol p
  | .addresses, cause => cause = .tooManyAddresses s.addresses.length addressLimit
  | .id, cause => cause = .fieldTooLong .id idLimit
  | .secret, cause => cause = .fieldTooLong .secret secretLimit

/-- A field is the first to break its rule. -/
def FirstBroken (s : Settings) (field : Field) : Prop :=
  ¬ s.Keeps field ∧ ∀ earlier ∈ Field.all.takeWhile (· ≠ field), s.Keeps earlier

variable (s : Settings)

/-! ## The check -/

/-- All rules are kept exactly if the protocols are known and nothing is too long. -/
theorem keeps_all_iff :
    (∀ field, s.Keeps field) ↔
      (∀ p ∈ s.protocols, p ∈ Transport.names) ∧ s.addresses.length ≤ addressLimit ∧
        s.id.toList.length ≤ idLimit ∧ s.secret.toList.length ≤ secretLimit := by
  constructor
  · intro h
    exact ⟨h .protocols, h .addresses, h .id, h .secret⟩
  · rintro ⟨hprotocols, haddresses, hid, hsecret⟩ field
    cases field with
    | protocols => exact hprotocols
    | addresses => exact haddresses
    | id => exact hid
    | secret => exact hsecret

/-- The rule about protocols comes first. -/
theorem firstBroken_protocols : s.FirstBroken .protocols ↔ ¬ s.Keeps .protocols := by
  simp [FirstBroken, Field.all]

theorem firstBroken_addresses :
    s.FirstBroken .addresses ↔ s.Keeps .protocols ∧ ¬ s.Keeps .addresses := by
  simp [FirstBroken, Field.all, and_comm]

theorem firstBroken_id :
    s.FirstBroken .id ↔ s.Keeps .protocols ∧ s.Keeps .addresses ∧ ¬ s.Keeps .id := by
  simp [FirstBroken, Field.all, and_comm, and_assoc, and_left_comm]

theorem firstBroken_secret :
    s.FirstBroken .secret ↔
      s.Keeps .protocols ∧ s.Keeps .addresses ∧ s.Keeps .id ∧ ¬ s.Keeps .secret := by
  simp [FirstBroken, Field.all, and_comm, and_assoc, and_left_comm]

/-- An unknown protocol breaks the first rule. -/
theorem not_keeps_protocols {place : Nat} {p : String} (h : FirstUnknown s.protocols place p) :
    ¬ s.Keeps .protocols := fun hkeeps =>
  h.2.1 (hkeeps p (List.mem_of_getElem? h.1))

/-- The first of the three lengths that is too long is reported. -/
theorem checkLimits_eq_error_iff {cause : Refusal} :
    s.checkLimits = .error cause ↔
      (¬ s.Keeps .addresses ∧ s.Reports .addresses cause) ∨
      (s.Keeps .addresses ∧ ¬ s.Keeps .id ∧ s.Reports .id cause) ∨
      (s.Keeps .addresses ∧ s.Keeps .id ∧ ¬ s.Keeps .secret ∧ s.Reports .secret cause) := by
  simp only [Keeps, Reports, Nat.not_le]
  unfold checkLimits
  split
  · rename_i haddresses
    simp [haddresses, Nat.not_le.2 haddresses, eq_comm]
  · rename_i haddresses
    rw [Nat.not_lt] at haddresses
    split
    · rename_i hid
      simp [haddresses, Nat.not_lt.2 haddresses, hid, Nat.not_le.2 hid, eq_comm]
    · rename_i hid
      rw [Nat.not_lt] at hid
      split
      · rename_i hsecret
        simp [haddresses, Nat.not_lt.2 haddresses, hid, Nat.not_lt.2 hid, hsecret, eq_comm]
      · rename_i hsecret
        simp [haddresses, Nat.not_lt.2 haddresses, hid, Nat.not_lt.2 hid, hsecret]

/-- The check fails with what is said of the first field that breaks its rule. -/
theorem check_eq_error_iff {cause : Refusal} :
    s.check = .error cause ↔ ∃ field, s.FirstBroken field ∧ s.Reports field cause := by
  rw [check, bind_eq_error]
  constructor
  · rintro (h | ⟨⟨⟩, hok, h⟩)
    · obtain ⟨place, p, hp, rfl⟩ := (checkProtocols_eq_error_iff s).1 h
      have hbroken : ¬ s.Keeps .protocols := s.not_keeps_protocols hp
      exact ⟨.protocols, s.firstBroken_protocols.2 hbroken, place, p, hp, rfl⟩
    · have hprotocols : s.Keeps .protocols := (checkProtocols_eq_ok_iff s).1 hok
      rcases s.checkLimits_eq_error_iff.1 h with
        ⟨haddresses, hreports⟩ | ⟨haddresses, hid, hreports⟩ | ⟨haddresses, hid, hsecret, hreports⟩
      · exact ⟨.addresses, s.firstBroken_addresses.2 ⟨hprotocols, haddresses⟩, hreports⟩
      · exact ⟨.id, s.firstBroken_id.2 ⟨hprotocols, haddresses, hid⟩, hreports⟩
      · exact ⟨.secret, s.firstBroken_secret.2 ⟨hprotocols, haddresses, hid, hsecret⟩, hreports⟩
  · rintro ⟨field, hfirst, hreports⟩
    cases field with
    | protocols =>
      obtain ⟨place, p, hp, rfl⟩ := hreports
      exact .inl ((checkProtocols_eq_error_iff s).2 ⟨place, p, hp, rfl⟩)
    | addresses =>
      obtain ⟨hprotocols, haddresses⟩ := s.firstBroken_addresses.1 hfirst
      exact .inr ⟨(), (checkProtocols_eq_ok_iff s).2 hprotocols,
        s.checkLimits_eq_error_iff.2 (.inl ⟨haddresses, hreports⟩)⟩
    | id =>
      obtain ⟨hprotocols, haddresses, hid⟩ := s.firstBroken_id.1 hfirst
      exact .inr ⟨(), (checkProtocols_eq_ok_iff s).2 hprotocols,
        s.checkLimits_eq_error_iff.2 (.inr (.inl ⟨haddresses, hid, hreports⟩))⟩
    | secret =>
      obtain ⟨hprotocols, hlimits⟩ := s.firstBroken_secret.1 hfirst
      obtain ⟨haddresses, hid, hsecret⟩ := hlimits
      exact .inr ⟨(), (checkProtocols_eq_ok_iff s).2 hprotocols,
        s.checkLimits_eq_error_iff.2 (.inr (.inr ⟨haddresses, hid, hsecret, hreports⟩))⟩

/-- The first unknown protocol is what the check reports, whatever other rules are broken. -/
theorem check_of_firstUnknown {place : Nat} {p : String}
    (h : FirstUnknown s.protocols place p) : s.check = .error (.invalidProtocol p) :=
  s.check_eq_error_iff.2
    ⟨.protocols, s.firstBroken_protocols.2 (s.not_keeps_protocols h), place, p, h, rfl⟩

/-- A rule takes nothing over from a file. -/
theorem inner?_of_check_error {cause : Refusal} (h : s.check = .error cause) :
    cause.inner? = none := by
  obtain ⟨field, -, hreports⟩ := s.check_eq_error_iff.1 h
  cases field with
  | protocols =>
    obtain ⟨place, p, -, rfl⟩ := hreports
    rfl
  | addresses | id | secret =>
    obtain rfl := hreports
    rfl

/-! ## The fallback -/

/-- The fallback is put in once for all. -/
theorem withFallback_withFallback : s.withFallback.withFallback = s.withFallback := by
  have haddresses : s.withFallback.addresses ≠ [] := by
    rw [withFallback_addresses]
    split
    · exact List.cons_ne_nil _ _
    · assumption
  exact if_neg haddresses

/-- The fallback address alone is within the limit, and a list that is not empty stays as it is. -/
theorem checkLimits_withFallback : s.withFallback.checkLimits = s.checkLimits := by
  unfold withFallback
  split
  · rename_i hnone
    have hone : ¬ addressLimit < [fallbackAddress].length := by decide
    have hzero : ¬ addressLimit < s.addresses.length := by
      rw [hnone]
      decide
    simp only [checkLimits, if_neg hone, if_neg hzero]
  · rfl

theorem checkProtocols_withFallback : s.withFallback.checkProtocols = s.checkProtocols := by
  rw [checkProtocols, withFallback_protocols, checkProtocols]

theorem chosenTransports_withFallback : s.withFallback.chosenTransports = s.chosenTransports := by
  rw [chosenTransports, withFallback_protocols, chosenTransports]

/-- A record is accepted if and only if every field keeps its rule, and otherwise refused for the
first that does not: with the first unknown protocol, the number of addresses, or the name and
limit of a field that is too long. The fallback address changes an empty list only, once and for
all, and with it neither the verdict nor the transports; the mask keeps every rule that is kept. -/
theorem check_reports_first_broken (s : Settings) :
    (s.check = .ok () ↔ ∀ field, s.Keeps field) ∧
    (∀ cause, s.check = .error cause ↔
      ∃ field, s.FirstBroken field ∧ s.Reports field cause) ∧
    s.withFallback.withFallback = s.withFallback ∧
    (s.withFallback.protocols = s.protocols ∧ s.withFallback.id = s.id ∧
      s.withFallback.secret = s.secret) ∧
    s.withFallback.check = s.check ∧
    s.withFallback.chosenTransports = s.chosenTransports ∧
    (s.check = .ok () → s.masked.check = .ok ()) := by
  refine ⟨?_, fun cause => s.check_eq_error_iff, s.withFallback_withFallback, ?_, ?_,
    s.chosenTransports_withFallback, check_masked⟩
  · rw [check_eq_ok_iff, keeps_all_iff]
  · exact ⟨s.withFallback_protocols, s.withFallback_id, s.withFallback_secret⟩
  · rw [check, checkProtocols_withFallback, checkLimits_withFallback, check]

/-- An id and a secret that just keep their limits, in characters of several bytes. -/
theorem check_reports_first_broken_full :
    let s : Settings :=
      { protocols := ["tcp"], id := String.ofList (List.replicate 100 'é'),
        secret := String.ofList (List.replicate 1000 '→') }
    s.check = .ok () ∧ s.masked.check = .ok () := by
  intro s
  have hkeeps : ∀ field, s.Keeps field := by
    intro field
    cases field with
    | protocols =>
      have hall : ∀ p ∈ ["tcp"], p ∈ Transport.names := by decide
      exact hall
    | addresses => exact Nat.zero_le addressLimit
    | id =>
      show (String.ofList (List.replicate 100 'é')).toList.length ≤ idLimit
      rw [String.toList_ofList, List.length_replicate]
      exact Nat.le_refl 100
    | secret =>
      show (String.ofList (List.replicate 1000 '→')).toList.length ≤ secretLimit
      rw [String.toList_ofList, List.length_replicate]
      exact Nat.le_refl 1000
  obtain ⟨hok, -, -, -, -, -, hmasked⟩ := check_reports_first_broken s
  exact ⟨hok.2 hkeeps, hmasked (hok.2 hkeeps)⟩

end BrokerAgent.Settings
