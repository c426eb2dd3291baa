import BrokerAgent.Proofs.Program.Secrecy
import BrokerAgent.Proofs.Startup.Events
import BrokerAgent.Proofs.Text.Quoted

/-!
# What is shown tells records apart

A record is shown in two layouts, and both are quoted texts with fixed signs between them. So
neither has a control character that comes from the record, and what is shown fixes all that is
shown of it: the protocols, the addresses and the id (`inspect_eq_iff`, `inspectLines_eq_iff`). The
same holds of the event that ends a successful start. The main result is `shown_is_unambiguous`.
-/

namespace BrokerAgent

open Text

/-! ## The record -/

namespace Settings

theorem toList_injective (s t : String) (h : s.toList = t.toList) : s = t :=
  String.toList_inj.1 h

/-- A quoted text ends where it ends. -/
theorem unambiguous_quoteText : Unambiguous fun s : String => quoted s.toList :=
  unambiguous_quoted.comp toList_injective

theorem unambiguous_quoteTexts :
    Unambiguous fun items : List String => quotedList (items.map String.toList) :=
  unambiguous_quotedList.comp fun _ _ => (List.map_inj_right toList_injective).1

/-- The lines of a list, each with a text, and the bracket behind them. -/
theorem unambiguous_textLines :
    Unambiguous fun items : List String =>
      items.flatMap (fun item => "        ".toList ++ quoted item.toList ++ ",\n".toList) ++
        "    ]".toList :=
  -- the bracket stands further to the left than the texts
  (unambiguous_quoteText.between _ _).row fun _ _ _ h => by simp at h

theorem unambiguous_listLines : Unambiguous listLines := by
  intro as bs rest rest' hab
  unfold listLines at hab
  split at hab <;> split at hab
  · rename_i ha hb
    rw [List.isEmpty_iff.1 ha, List.isEmpty_iff.1 hb]
    exact ⟨rfl, List.append_cancel_left hab⟩
  -- a bracket that closes at once, and one at the end of its line
  · simp at hab
  · simp at hab
  · simp only [List.append_assoc] at hab
    refine unambiguous_textLines as bs rest rest' ?_
    simpa only [List.append_assoc] using List.append_cancel_left hab

/-- Records that differ in the secret only agree in the other three fields. -/
theorem sameButSecret_iff {a b : Settings} :
    a.SameButSecret b ↔ a.protocols = b.protocols ∧ a.addresses = b.addresses ∧ a.id = b.id :=
  ⟨fun h => ⟨h.protocols, h.addresses, h.id⟩, fun h => ⟨h.1, h.2.1, h.2.2⟩⟩

/-- The layout for inspection has no control characters. -/
theorem noControl_inspect (s : Settings) : NoControl s.inspect.toList := by
  have htext : s.inspect.toList = _ := String.toList_ofList
  rw [htext]
  simp only [noControl_append, noControl_quoted, noControl_quotedList, and_true]
  decide +kernel

/-- One line shows as much of a record as all but its secret. -/
theorem inspect_eq_iff {a b : Settings} : a.inspect = b.inspect ↔ a.SameButSecret b := by
  constructor
  · intro h
    have htexts := String.ofList_injective h
    simp only [List.append_assoc] at htexts
    obtain ⟨hprotocols, h⟩ := unambiguous_quoteTexts _ _ _ _ (List.append_cancel_left htexts)
    obtain ⟨haddresses, h⟩ := unambiguous_quoteTexts _ _ _ _ (List.append_cancel_left h)
    obtain ⟨hid, -⟩ := unambiguous_quoteText _ _ _ _ (List.append_cancel_left h)
    exact ⟨hprotocols, haddresses, hid⟩
  · exact SameButSecret.inspect_eq

/-- Several lines show just as much. -/
theorem inspectLines_eq_iff {a b : Settings} :
    a.inspectLines = b.inspectLines ↔ a.SameButSecret b := by
  constructor
  · intro h
    have htexts := String.ofList_injective h
    simp only [List.append_assoc] at htexts
    obtain ⟨hprotocols, h⟩ := unambiguous_listLines _ _ _ _ (List.append_cancel_left htexts)
    obtain ⟨haddresses, h⟩ := unambiguous_listLines _ _ _ _ (List.append_cancel_left h)
    obtain ⟨hid, -⟩ := unambiguous_quoteText _ _ _ _ (List.append_cancel_left h)
    exact ⟨hprotocols, haddresses, hid⟩
  · exact SameButSecret.inspectLines_eq

end Settings

/-! ## The event of a successful start -/

/-- What stands before the text of an event: its level and the thread, in as many columns for every
level. -/
def Level.columns (level : Level) : List Char :=
  (String.ofList (List.replicate (5 - level.name.length) ' ') ++ level.name ++
    " ThreadId(01) ").toList

/-- The columns of all levels are equally wide. -/
theorem Level.length_columns (level : Level) : level.columns.length = 19 := by
  cases level <;> decide +kernel

/-- A level is told by its columns. -/
theorem Level.columns_injective {a b : Level} (h : a.columns = b.columns) : a = b := by
  cases a <;> cases b <;> first | rfl | exact absurd h (by decide +kernel)

theorem Level.noControl_columns (level : Level) : NoControl level.columns := by
  cases level <;> decide +kernel

namespace Event

/-- A line without the sign that ends it. -/
def body (e : Event) : List Char :=
  e.level.columns ++ e.text.toList

theorem toList_line (e : Event) : e.line.toList = e.body ++ ['\n'] := by
  rw [line, String.toList_append, String.toList_append]
  rfl

/-- The text of the confirmation and the two lists in it. -/
theorem toList_text_ready (protocols addresses : List String) :
    (ready protocols addresses).text.toList =
      "agent configuration ready protocols=".toList ++
        (quotedList (protocols.map String.toList) ++
          (" addresses=".toList ++ quotedList (addresses.map String.toList))) := by
  have hlist : ∀ items, (quoteAll items).toList = quotedList (items.map String.toList) :=
    fun _ => String.toList_ofList
  have happend : ∀ a b c d : String,
      (a ++ b ++ c ++ d).toList = a.toList ++ (b.toList ++ (c.toList ++ d.toList)) := by
    simp only [String.toList_append, List.append_assoc, implies_true]
  rw [← hlist protocols, ← hlist addresses]
  exact happend _ _ _ _

/-- The confirmation is a single line. -/
theorem noControl_body_ready (protocols addresses : List String) :
    NoControl (ready protocols addresses).body := by
  rw [body, toList_text_ready]
  simp only [noControl_append, noControl_quotedList, Level.noControl_columns, and_true, true_and]
  decide +kernel

/-- No other event has the line of a ready agent, nor has the same event with other lists. -/
theorem eq_ready_of_line_eq {e : Event} {protocols addresses : List String}
    (h : e.line = (ready protocols addresses).line) : e = ready protocols addresses := by
  have hline := congrArg String.toList h
  rw [toList_line, toList_line] at hline
  have hbody := List.append_cancel_right hline
  have hlength : e.level.columns.length = (ready protocols addresses).level.columns.length := by
    rw [Level.length_columns, Level.length_columns]
  obtain ⟨hcolumns, htext⟩ := List.append_inj hbody hlength
  have hlevel := Level.columns_injective hcolumns
  cases e with
  | ready protocols' addresses' =>
    rw [toList_text_ready, toList_text_ready] at htext
    obtain ⟨rfl, hmore⟩ :=
      Settings.unambiguous_quoteTexts _ _ _ _ (List.append_cancel_left htext)
    rw [Settings.unambiguous_quoteTexts.injective (List.append_cancel_left hmore)]
  -- the other events have other levels
  | fileLoaded | recordCreated | fallbackUsed | failed => cases hlevel

end Event

namespace Startup

/-- The last thing that a successful start reports is that the agent is ready, with the lists of the
record. -/
theorem events_of_result_ok {files : Files} {o : Options} {shared : SharedRecord}
    {record : Settings} (h : (start files o shared).result = .ok record) :
    ∃ earlier, (start files o shared).events =
      earlier ++ [.ready record.protocols record.addresses] := by
  cases hs : startingRecord files o shared.record with
  | error cause =>
    obtain ⟨path, hc, hl⟩ := load_error_of_startingRecord hs
    rw [start_of_load_error hc hl] at h
    cases h
  | ok base =>
    rw [events_start hs, h]
    exact ⟨_, rfl⟩

/-- Neither layout of a record can be forged by the texts in it: one line has no control character,
and both show two records alike only if they agree in all but their secrets. A successful start ends
with an event that has a line to itself, and no other event, and no other lists, have that line. -/
theorem shown_is_unambiguous :
    (∀ s : Settings, NoControl s.inspect.toList) ∧
    (∀ a b : Settings, a.inspect = b.inspect ↔
      a.protocols = b.protocols ∧ a.addresses = b.addresses ∧ a.id = b.id) ∧
    (∀ a b : Settings, a.inspectLines = b.inspectLines ↔
      a.protocols = b.protocols ∧ a.addresses = b.addresses ∧ a.id = b.id) ∧
    ∀ (files : Files) (o : Options) (shared : SharedRecord) (record : Settings),
      (start files o shared).result = .ok record →
        ∃ earlier body,
          (start files o shared).events =
            earlier ++ [.ready record.protocols record.addresses] ∧
          (Event.ready record.protocols record.addresses).line.toList = body ++ ['\n'] ∧
          NoControl body ∧
          ∀ e : Event, e.line = (Event.ready record.protocols record.addresses).line →
            e = .ready record.protocols record.addresses := by
  refine ⟨Settings.noControl_inspect, ?_, ?_, ?_⟩
  · intro a b
    rw [Settings.inspect_eq_iff, Settings.sameButSecret_iff]
  · intro a b
    rw [Settings.inspectLines_eq_iff, Settings.sameButSecret_iff]
  · intro files o shared record h
    obtain ⟨earlier, hevents⟩ := events_of_result_ok h
    exact ⟨earlier, _, hevents, Event.toList_line _, Event.noControl_body_ready _ _,
      fun _ => Event.eq_ready_of_line_eq⟩

/-- Addresses that look like two, like the end of a list, or like a line of their own. -/
def forgedAddresses : List String :=
  ["a\", \"b", "c\"]\n INFO ThreadId(01) agent configuration ready", "\x1b[2K\\"]

/-- A start with such addresses reports them on one line. -/
theorem shown_is_unambiguous_forged :
    let o : Options := { addresses := forgedAddresses }
    ∃ earlier body,
      (start (fun _ => .error .missing) o {}).events =
        earlier ++ [.ready ["udp", "tcp"] forgedAddresses] ∧
      (Event.ready ["udp", "tcp"] forgedAddresses).line.toList = body ++ ['\n'] ∧
      NoControl body ∧
      ∀ e : Event, e.line = (Event.ready ["udp", "tcp"] forgedAddresses).line →
        e = .ready ["udp", "tcp"] forgedAddresses := by
  intro o
  exact shown_is_unambiguous.2.2.2 (fun _ => .error .missing) o {}
    { protocols := ["udp", "tcp"], addresses := forgedAddresses } rfl

end Startup

end BrokerAgent
