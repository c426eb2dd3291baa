import BrokerAgent.Proofs.Json.RoundTrip
import BrokerAgent.Proofs.Json.Truncation
import BrokerAgent.Proofs.Startup.Outcome

/-!
# A written record that is cut short is not accepted

A file may hold only the front part of the text of a record, since a copy was broken off or a disk
ran full. Every field has a default, so a part of the text could pass for a record with fewer
fields. It does not: the text is an object that is closed by its last character, and the refusal
says what is the matter, a text that ended or bytes that are no text.
-/

namespace BrokerAgent

namespace Json

/-- The members that a record is written with are known. -/
theorem known_of_mem_members {s : Settings} {m : List Char × Value} (h : m ∈ s.members) :
    Known m := by
  obtain ⟨field, -, rfl⟩ := List.mem_map.1 h
  exact ⟨field, by rw [String.ofList_toList, Field.ofName?_name]⟩

/-- The front part of a written record is a text that ended. -/
theorem ofJson_cut {layout : Layout} (hl : layout.Sound) {s : Settings} {p q : List Char}
    (hpq : p ++ q = writeSettings layout s) (hq : q ≠ []) :
    ∃ report, Settings.ofJson p = .error report ∧ report.cause.category = .endFault := by
  have hread := settings_cut Blank.nil (written_settings hl s) (fun _ => known_of_mem_members)
    (gather_members s) hpq hq
  obtain ⟨fault, hf, hc⟩ := hread
  refine ⟨fault.report p, ?_, hc⟩
  rw [Settings.ofJson, hf]
  rfl

end Json

namespace Settings

open Json

/-- The bytes of a file that are no text. -/
theorem load_of_decode?_none {files : Files} {path : String} {bytes : List UInt8}
    (hfile : files path = .ok bytes) (hbytes : Utf8.decode? bytes = none) :
    load files path = .error (.unreadable .notText) := by
  simp only [load, hfile, ofBytes, hbytes]

/-- The first bytes of a written record. -/
theorem load_cut {layout : Layout} (hl : layout.Sound) {files : Files} {path : String}
    {s : Settings} {n : Nat} (hpath : Path.isJson path.toList = true)
    (hn : n < (Utf8.encode (s.toJson layout).toList).length)
    (hfile : files path = .ok ((Utf8.encode (s.toJson layout).toList).take n)) :
    (Utf8.Between (s.toJson layout).toList n → ∃ report,
      load files path = .error (.json report) ∧ report.cause.category = .endFault) ∧
      (¬ Utf8.Between (s.toJson layout).toList n →
        load files path = .error (.unreadable .notText)) := by
  constructor
  · rintro ⟨p, q, htext, hlength⟩
    rw [htext, Utf8.encode_append] at hfile hn
    rw [← hlength, List.take_left] at hfile
    have hq : q ≠ [] := by
      rintro rfl
      rw [← hlength, List.length_append] at hn
      exact absurd hn (by simp [Utf8.encode])
    have hpq : p ++ q = writeSettings layout s := by rw [← htext, toJson, String.toList_ofList]
    obtain ⟨report, hr, hc⟩ := ofJson_cut hl hpq hq
    refine ⟨report, ?_, hc⟩
    rw [load_text hpath hfile, hr]
    rfl
  · intro hcut
    exact load_of_decode?_none hfile (Utf8.decode?_take_encode (Nat.le_of_lt hn) hcut)

/-- The text of a record in either layout is not accepted without its last byte or more of its
end. If the cut falls inside a character, the file holds no text; wherever else it falls, the text
is one that ended too early, and never one with a wrong character or a wrong content. A start from
such a file fails with that reason and changes nothing. -/
theorem written_cut_is_refused (layout : Layout) (files : Files) (path : String) (s : Settings)
    (n : Nat) (hl : layout ∈ layouts) (hpath : Path.isJson path.toList = true)
    (hn : n < (Utf8.encode (s.toJson layout).toList).length)
    (hfile : files path = .ok ((Utf8.encode (s.toJson layout).toList).take n)) :
    (¬ Utf8.Between (s.toJson layout).toList n →
      loadIfNamed files (some path) = .error (.unreadable .notText)) ∧
    (Utf8.Between (s.toJson layout).toList n → ∃ report,
      loadIfNamed files (some path) = .error (.json report) ∧
        report.cause.category = .endFault) ∧
    ∃ cause, loadIfNamed files (some path) = .error cause ∧
      ∀ (o : Options) (shared : SharedRecord), o.config = some path →
        Startup.start files o shared = ⟨.error (.loading path cause), [], shared⟩ := by
  obtain ⟨hbetween, hinside⟩ := load_cut (sound_of_mem_layouts hl) hpath hn hfile
  refine ⟨hinside, hbetween, ?_⟩
  have hrefused : ∃ cause, load files path = .error cause := by
    by_cases h : Utf8.Between (s.toJson layout).toList n
    · obtain ⟨report, hr, -⟩ := hbetween h
      exact ⟨_, hr⟩
    · exact ⟨_, hinside h⟩
  obtain ⟨cause, hc⟩ := hrefused
  exact ⟨cause, hc, fun o shared ho => Startup.start_of_load_error ho hc shared⟩

/-- A record with a letter of two bytes, in which its text can be cut. -/
def accented : Settings where
  id := "\u00e9"

/-- The first bytes of its text. -/
def accentedBytes (n : Nat) : List UInt8 :=
  (Utf8.encode (accented.toJson .compact).toList).take n

/-- The letter takes the bytes 38 and 39. With the first of them the file holds no text, without it
the text ends inside the name, and in front of the last bracket it ends inside the object. -/
theorem cut_of_accented_is_refused :
    loadIfNamed (fun _ => .ok (accentedBytes 38)) (some "agent.json") =
        .error (.unreadable .notText) ∧
      (Refusal.unreadable .notText).message = "I/O error: stream did not contain valid UTF-8" ∧
      (∃ report, loadIfNamed (fun _ => .ok (accentedBytes 37)) (some "agent.json") =
        .error (.json report) ∧ report.cause.category = .endFault) ∧
      ∃ cause, ∀ shared : SharedRecord,
        Startup.start (fun _ => .ok (accentedBytes 52)) { config := some "agent.json" } shared =
          ⟨.error (.loading "agent.json" cause), [], shared⟩ := by
  have hlength : (Utf8.encode (accented.toJson .compact).toList).length = 53 := by
    rw [toJson, String.toList_ofList]
    decide +kernel
  have hpath : Path.isJson "agent.json".toList = true := by decide
  have hbytes : ∀ n, accentedBytes n = (Utf8.encode (writeSettings .compact accented)).take n := by
    intro n
    rw [accentedBytes, toJson, String.toList_ofList]
  have hread : ∀ n, n < 53 → (Utf8.Between (accented.toJson .compact).toList n ↔
      (Utf8.decode? (accentedBytes n)).isSome) :=
    fun n hn => Utf8.between_iff (by omega)
  refine ⟨?_, rfl, ?_, ?_⟩
  · refine (written_cut_is_refused .compact _ "agent.json" accented 38 List.mem_cons_self hpath
      (by omega) rfl).1 ?_
    rw [hread 38 (by decide), hbytes]
    decide +kernel
  · refine (written_cut_is_refused .compact _ "agent.json" accented 37 List.mem_cons_self hpath
      (by omega) rfl).2.1 ?_
    rw [hread 37 (by decide), hbytes]
    decide +kernel
  · obtain ⟨cause, -, hstart⟩ := (written_cut_is_refused .compact (fun _ => .ok (accentedBytes 52))
      "agent.json" accented 52 List.mem_cons_self hpath (by omega) rfl).2.2
    exact ⟨cause, fun shared => hstart _ shared rfl⟩

end Settings
end BrokerAgent
