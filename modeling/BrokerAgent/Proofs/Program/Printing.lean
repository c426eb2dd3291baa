import BrokerAgent.Proofs.Json.RoundTrip
import BrokerAgent.Proofs.Options.CommandLine
import BrokerAgent.Proofs.Settings.Rules
import BrokerAgent.Proofs.Startup.Outcome

/-!
# What is printed is what was accepted

A run that is asked for the record prints it exactly if the start succeeds. Every step hands on what
the next one needs: the command line names a protocol, the start settles on an address and keeps the
rules, the mask breaks none of them, and the printed text loads as the masked record.
-/

namespace BrokerAgent

/-- A record fit to be shown to whoever is to use it: it names transports and addresses, keeps all
rules, and hides its secret. -/
structure Settings.Presentable (s : Settings) : Prop where
  protocols_ne_nil : s.protocols ≠ []
  protocols_known : ∀ p ∈ s.protocols, p = "udp" ∨ p = "tcp"
  addresses_ne_nil : s.addresses ≠ []
  addresses_le : s.addresses.length ≤ Settings.addressLimit
  id_le : s.id.toList.length ≤ Settings.idLimit
  secret_hidden : s.secret = "" ∨ s.secret = "<redacted>"
  check : s.check = .ok ()

namespace Program

open Startup

/-! ## The record of a start -/

/-- A settled record has an address. -/
theorem settled_addresses_ne_nil (o : Options) (record : Settings) :
    (settled o record).addresses ≠ [] := by
  rw [settled_eq]
  by_cases ho : o.addresses = []
  · rw [if_neg (not_not.2 ho)]
    exact addressesOrFallback_ne_nil record
  · rw [if_pos ho]
    exact ho

/-- A record that a start gives is presentable once it is masked, provided that the options name a
protocol. -/
theorem presentable_masked {files : Files} {o : Options} {shared : SharedRecord} {record : Settings}
    (ho : o.protocols ≠ []) (h : (start files o shared).result = .ok record) :
    record.masked.Presentable := by
  obtain ⟨hcheck, base, hbase⟩ := start_eq_ok h
  have hprotocols : record.protocols = o.protocols := by rw [hbase, settled_eq]
  have hmasked := Settings.check_masked hcheck
  obtain ⟨hknown, haddresses, hid, -⟩ := (Settings.check_eq_ok_iff _).1 hmasked
  exact
    { protocols_ne_nil := by
        rw [Settings.masked_protocols, hprotocols]
        exact ho
      protocols_known := by
        intro p hp
        simpa [Transport.names] using hknown p hp
      addresses_ne_nil := by
        rw [Settings.masked_addresses, hbase]
        exact settled_addresses_ne_nil o base
      addresses_le := haddresses
      id_le := hid
      secret_hidden := record.masked_secret
      check := hmasked }

/-! ## The whole run -/

/-- A failed run says why. -/
theorem report_ne_empty (failure : Failure) : report failure ≠ "" := by
  intro h
  have hlength := congrArg String.length h
  simp [report] at hlength

/-- A run that starts logs and prints the masked record. -/
theorem runWith_of_ok {files : Files} {o : Options} {record : Settings} (hprint : o.print = true)
    (h : (start files o {}).result = .ok record) :
    runWith files o =
      ⟨0, o.level.log (events files o) ++ (record.masked.toJson .pretty ++ "\n"), ""⟩ := by
  simp only [runWith, h, printed, hprint, if_true]

/-- A run that does not start logs and reports why. -/
theorem runWith_of_error {files : Files} {o : Options} {failure : Failure}
    (h : (start files o {}).result = .error failure) :
    runWith files o = ⟨1, o.level.log (events files o), report failure⟩ := by
  simp only [runWith, h]

/-- A run whose command line is well formed and asks for the record ends with 0 or 1, and with 0
exactly if the start succeeds on a new shared record. Then its output is the log, one document and a
line feed; the document, stored in a file that is taken for JSON, loads as the masked copy of the
record that the start gave, and that copy is presentable. Otherwise its output is nothing but the
log, and there is a report. -/
theorem run_prints_what_it_accepts (arguments : List String) (env : Environment) (files : Files)
    (o : Options) (ho : Options.ofArguments arguments env = .ok o)
    (hprint : "--print" ∈ arguments) :
    ∃ outcome, run arguments env files = .ok outcome ∧
      (outcome.exit = 0 ∨ outcome.exit = 1) ∧
      (outcome.exit = 0 ↔ ∃ record, (start files o {}).result = .ok record) ∧
      (outcome.exit = 0 → ∃ record document,
        (start files o {}).result = .ok record ∧
        outcome.output = o.level.log (events files o) ++ document ++ "\n" ∧
        (∀ (stored : Files) (path : String), Path.isJson path.toList = true →
          stored path = .ok (Utf8.encode document.toList) →
            Settings.loadIfNamed stored (some path) = .ok record.masked) ∧
        record.masked.Presentable) ∧
      (outcome.exit = 1 →
        outcome.output = o.level.log (events files o) ∧ outcome.errors ≠ "") := by
  have hrun : run arguments env files = .ok (runWith files o) := by
    rw [run, ho]
    rfl
  refine ⟨_, hrun, ?_⟩
  cases hstart : (start files o {}).result with
  | error failure =>
    rw [runWith_of_error hstart]
    refine ⟨.inr rfl, ?_, ?_, fun _ => ⟨rfl, report_ne_empty failure⟩⟩
    · simp
    · simp
  | ok record =>
    rw [runWith_of_ok (Options.print_of_mem ho hprint) hstart]
    refine ⟨.inl rfl, by simp, fun _ => ?_, by simp⟩
    refine ⟨record, _, rfl, String.append_assoc.symm, ?_,
      presentable_masked (Options.protocols_ne_nil ho) hstart⟩
    intro stored path hpath hstored
    rw [← List.append_nil (record.masked.toJson .pretty).toList] at hstored
    exact Settings.load_toJson Json.Layout.pretty_sound Json.Blank.nil hpath hstored

/-- A record with a protocol that is not known, no address, and a secret. -/
def unfinished : Settings :=
  { protocols := ["http"], id := "device", secret := "apple" }

/-- The unfinished record as every file has it. -/
def unfinishedFiles : Files :=
  fun _ => .ok (Utf8.encode (unfinished.toJson .compact).toList)

/-- Protocols and address are filled in before anything is checked, and the secret is hidden in what
is printed. -/
theorem run_prints_unfinished :
    ∃ outcome document, run ["--config=a.json", "--print"] {} unfinishedFiles = .ok outcome ∧
      outcome.exit = 0 ∧
      outcome.output =
        Level.log .info (events unfinishedFiles { config := some "a.json", print := true }) ++
          document ++ "\n" ∧
      Settings.loadIfNamed (fun _ => .ok (Utf8.encode document.toList)) (some "b.JSON") =
        .ok { protocols := ["udp", "tcp"], addresses := ["broker.example.com:9443"], id := "device",
              secret := "<redacted>" } := by
  have hload : Settings.load unfinishedFiles "a.json" = .ok unfinished := by
    apply Settings.load_toJson Json.Layout.compact_sound Json.Blank.nil (by decide)
    rw [List.append_nil]
    rfl
  have hstart :
      (start unfinishedFiles { config := some "a.json", print := true } {}).result =
        .ok { protocols := ["udp", "tcp"], addresses := ["broker.example.com:9443"], id := "device",
              secret := "apple" } := by
    simp only [start, load, hload]
    rfl
  obtain ⟨outcome, hrun, -, hexit, hok, -⟩ :=
    run_prints_what_it_accepts ["--config=a.json", "--print"] {} unfinishedFiles
      { config := some "a.json", print := true } (by rfl) (by decide)
  have hzero := hexit.2 ⟨_, hstart⟩
  obtain ⟨record, document, hrecord, houtput, hdocument, -⟩ := hok hzero
  obtain rfl := Except.ok.inj (hrecord.symm.trans hstart)
  exact ⟨outcome, document, hrun, hzero, houtput, hdocument _ "b.JSON" (by decide) rfl⟩

end Program
end BrokerAgent
