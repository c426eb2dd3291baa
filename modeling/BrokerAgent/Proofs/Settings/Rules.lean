import BrokerAgent.Settings.Rules

/-!
# Which records keep the rules

The checks stop at the first broken rule; here the rules are stated side by side. A record that
keeps them still does with its secret masked: the mask looks at nothing else, and what it puts in
the secret's place is short.
-/

namespace BrokerAgent.Settings

/-! ## The rules -/

/-- The protocols are accepted exactly if all of them are known. -/
theorem checkProtocols_eq_ok_iff (s : Settings) :
    s.checkProtocols = .ok () ↔ ∀ p ∈ s.protocols, p ∈ Transport.names := by
  unfold checkProtocols
  split
  · rename_i bad h
    have hbad : bad ∉ Transport.names := by simpa using List.find?_some h
    have hmem : bad ∈ s.protocols := List.mem_of_find?_eq_some h
    simp only [reduceCtorEq, false_iff]
    exact fun hall => hbad (hall bad hmem)
  · rename_i h
    simpa using h

/-- The lengths are accepted exactly if none is too large. -/
theorem checkLimits_eq_ok_iff (s : Settings) :
    s.checkLimits = .ok () ↔
      s.addresses.length ≤ addressLimit ∧ s.id.toList.length ≤ idLimit ∧
        s.secret.toList.length ≤ secretLimit := by
  simp only [← Nat.not_lt]
  unfold checkLimits
  split
  · simp_all
  split
  · simp_all
  split
  · simp_all
  · simp_all

/-- All rules together. -/
theorem check_eq_ok_iff (s : Settings) :
    s.check = .ok () ↔
      (∀ p ∈ s.protocols, p ∈ Transport.names) ∧ s.addresses.length ≤ addressLimit ∧
        s.id.toList.length ≤ idLimit ∧ s.secret.toList.length ≤ secretLimit := by
  rw [← checkProtocols_eq_ok_iff, ← checkLimits_eq_ok_iff, check]
  cases s.checkProtocols with
  | error cause => simp [bind, Except.bind]
  | ok _ => simp [bind, Except.bind]

/-! ## The mask -/

@[simp] theorem masked_protocols (s : Settings) : s.masked.protocols = s.protocols := by
  unfold masked
  split <;> rfl

@[simp] theorem masked_addresses (s : Settings) : s.masked.addresses = s.addresses := by
  unfold masked
  split <;> rfl

@[simp] theorem masked_id (s : Settings) : s.masked.id = s.id := by
  unfold masked
  split <;> rfl

/-- A mask leaves no secret, or the sign that there is one. -/
theorem masked_secret (s : Settings) : s.masked.secret = "" ∨ s.masked.secret = hiddenSecret := by
  unfold masked
  split
  · exact .inl ‹_›
  · exact .inr rfl

/-- The mask breaks no rule. -/
theorem check_masked {s : Settings} (h : s.check = .ok ()) : s.masked.check = .ok () := by
  obtain ⟨hprotocols, haddresses, hid, -⟩ := (check_eq_ok_iff s).1 h
  have hsecret : s.masked.secret.toList.length ≤ secretLimit := by
    rcases masked_secret s with hs | hs <;> rw [hs] <;> decide
  rw [check_eq_ok_iff, masked_protocols, masked_addresses, masked_id]
  exact ⟨hprotocols, haddresses, hid, hsecret⟩

end BrokerAgent.Settings
