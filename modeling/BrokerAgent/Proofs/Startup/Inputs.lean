import BrokerAgent.Proofs.Json.RoundTrip
import BrokerAgent.Proofs.Startup.Outcome

/-!
# What a start depends on

A start that loads a file owes nothing to the record it finds, and of the loaded record only id
and secret count, and the addresses where the options ask for none. A start without a file owes
the same parts to the record it finds. `AgreeFor` says that two records are alike in these parts,
and `sameEnd_iff` that a start tells them apart otherwise. The record that a start leaves is one
that it settles on again, so to start once more changes nothing.
-/

namespace BrokerAgent.Startup

/-! ## Records that a start cannot tell apart -/

/-- Two records agree in all that a start with these options takes from a record. An empty list of
addresses counts as the default address. -/
structure AgreeFor (o : Options) (r₁ r₂ : Settings) : Prop where
  id : r₁.id = r₂.id
  secret : r₁.secret = r₂.secret
  addresses : o.addresses = [] → addressesOrFallback r₁ = addressesOrFallback r₂

/-- A start settles on the same record from two records only if they agree. -/
theorem settled_eq_settled_iff {o : Options} {r₁ r₂ : Settings} :
    settled o r₁ = settled o r₂ ↔ AgreeFor o r₁ r₂ := by
  rw [settled_eq, settled_eq, Settings.mk.injEq]
  constructor
  · rintro ⟨-, haddresses, hid, hsecret⟩
    refine ⟨hid, hsecret, ?_⟩
    intro ho
    rwa [if_neg (not_not.2 ho), if_neg (not_not.2 ho)] at haddresses
  · rintro ⟨hid, hsecret, haddresses⟩
    refine ⟨rfl, ?_, hid, hsecret⟩
    by_cases ho : o.addresses = []
    · rw [if_neg (not_not.2 ho), if_neg (not_not.2 ho), haddresses ho]
    · rw [if_pos ho, if_pos ho]

/-- The record that a start has settled on is settled. -/
theorem settled_settled (o : Options) (record : Settings) :
    settled o (settled o record) = settled o record := by
  rw [settled_eq_settled_iff, settled_eq]
  refine ⟨rfl, rfl, ?_⟩
  intro ho
  rw [if_neg (not_not.2 ho)]
  exact addressesOrFallback_of_ne_nil (addressesOrFallback_ne_nil record)

/-! ## The same end -/

/-- Two steps give the same and leave the same record. -/
def SameEnd {α : Type} (x y : Step α) : Prop :=
  x.result = y.result ∧ x.shared.record = y.shared.record

/-- Two starts with the same options, from a record each, end alike exactly if the records agree. -/
theorem sameEnd_iff {files₁ files₂ : Files} {o : Options} {shared₁ shared₂ : SharedRecord}
    {base₁ base₂ : Settings} (h₁ : startingRecord files₁ o shared₁.record = .ok base₁)
    (h₂ : startingRecord files₂ o shared₂.record = .ok base₂) :
    SameEnd (start files₁ o shared₁) (start files₂ o shared₂) ↔ AgreeFor o base₁ base₂ := by
  obtain ⟨hresult₁, hshared₁⟩ := start_eq h₁
  obtain ⟨hresult₂, hshared₂⟩ := start_eq h₂
  rw [SameEnd, hresult₁, hresult₂, hshared₁, hshared₂, SharedRecord.record_put,
    SharedRecord.record_put, ← settled_eq_settled_iff]
  constructor
  · rintro ⟨-, hrecord⟩
    exact hrecord
  · intro hrecord
    exact ⟨congrArg verdict hrecord, hrecord⟩

/-! ## Starting again -/

/-- A start that follows another one with the same options goes on from a record that settles into
the one it finds. -/
theorem startingRecord_settled {files : Files} {o : Options} {found base : Settings}
    (h : startingRecord files o found = .ok base) :
    ∃ again, startingRecord files o (settled o base) = .ok again ∧
      settled o again = settled o base := by
  unfold startingRecord at h ⊢
  cases hc : o.config with
  | none => exact ⟨settled o base, rfl, settled_settled o base⟩
  | some path =>
    rw [hc] at h
    exact ⟨base, h, rfl⟩

/-- A start right after another one with the same options and files gives the same and changes
nothing, however the first one ended. -/
theorem start_again (files : Files) (o : Options) (shared : SharedRecord) :
    (start files o (start files o shared).shared).result = (start files o shared).result ∧
      (start files o (start files o shared).shared).shared = (start files o shared).shared := by
  cases hs : startingRecord files o shared.record with
  | error cause =>
    obtain ⟨path, hc, hl⟩ := load_error_of_startingRecord hs
    rw [start_of_load_error hc hl, start_of_load_error hc hl]
    exact ⟨rfl, rfl⟩
  | ok base =>
    obtain ⟨hresult, hshared⟩ := start_eq hs
    obtain ⟨again, hagain, hsettled⟩ := startingRecord_settled hs
    have hfound : (shared.put (settled o base)).record = settled o base := rfl
    rw [← hfound] at hagain
    obtain ⟨hresult', hshared'⟩ := start_eq hagain
    rw [hshared, hresult, hresult', hshared', hsettled, SharedRecord.put_put]
    exact ⟨rfl, rfl⟩

/-! ## The inputs of a start -/

/-- Two starts that load a file each end alike exactly if the two loaded records agree on id and
secret, and on the addresses where the options ask for none; what they find and the protocols of
the files do not matter. Two starts without a file end alike exactly if the records they find
agree in this way, whatever files there are. And a second start right after the first gives the
same and leaves the shared record as it is. -/
theorem start_depends_on_agreed_parts (o : Options) :
    (∀ files₁ files₂ path loaded₁ loaded₂, o.config = some path →
      Settings.load files₁ path = .ok loaded₁ → Settings.load files₂ path = .ok loaded₂ →
      ∀ shared₁ shared₂, SameEnd (start files₁ o shared₁) (start files₂ o shared₂) ↔
        AgreeFor o loaded₁ loaded₂) ∧
    (o.config = none → ∀ files₁ files₂ shared₁ shared₂,
      SameEnd (start files₁ o shared₁) (start files₂ o shared₂) ↔
        AgreeFor o shared₁.record shared₂.record) ∧
    ∀ files shared,
      let first := start files o shared
      let second := start files o first.shared
      second.result = first.result ∧ second.shared = first.shared := by
  refine ⟨?_, ?_, fun files shared => start_again files o shared⟩
  · intro files₁ files₂ path loaded₁ loaded₂ hc h₁ h₂ shared₁ shared₂
    exact sameEnd_iff (startingRecord_of_load hc h₁ shared₁.record)
      (startingRecord_of_load hc h₂ shared₂.record)
  · intro hc files₁ files₂ shared₁ shared₂
    apply sameEnd_iff
    · simp only [startingRecord, hc]
    · simp only [startingRecord, hc]

/-- Two files with the same id and nothing else in common, loaded over different records by options
that ask for an address; and no file, over no address and over the default one. -/
theorem sameEnd_of_agreeing :
    SameEnd
        (start (Settings.holding fun _ => { protocols := ["http"], id := "a" })
          { config := some "agent.json", addresses := ["x:1"] } { record := { secret := "old" } })
        (start (Settings.holding fun _ => { addresses := ["y:2"], id := "a" })
          { config := some "agent.json", addresses := ["x:1"] } {}) ∧
      SameEnd (start (fun _ => .error .missing) {} {})
        (start (Settings.holding fun _ => {}) {}
          { record := { protocols := ["http"], addresses := [Settings.fallbackAddress] } }) := by
  have hpath : Path.isJson "agent.json".toList = true := by decide
  constructor
  · refine ((start_depends_on_agreed_parts _).1 _ _ "agent.json" _ _ rfl
      (Settings.load_holding _ hpath) (Settings.load_holding _ hpath) _ _).2 ⟨rfl, rfl, ?_⟩
    intro ho
    cases ho
  · exact ((start_depends_on_agreed_parts _).2.1 rfl _ _ _ _).2 ⟨rfl, rfl, fun _ => rfl⟩

end BrokerAgent.Startup
