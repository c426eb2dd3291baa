import BrokerAgent.Json.Transport
import BrokerAgent.Json.Writer
import BrokerAgent.Proofs.Except
import BrokerAgent.Proofs.Json.Members
import BrokerAgent.Proofs.Json.Spellings
import BrokerAgent.Proofs.Json.Writing
import BrokerAgent.Proofs.Settings.Transports

/-!
# The names of the transports, wherever they are read

A name of a transport is looked up in the table of the rules, read by itself, and read from JSON.
All three know the same names (`names_agree`). From JSON a transport is read if the text is its
name as a text, or an object with the name as its only key and null as the value, in whatever way
JSON may write them; no other text is taken (`ofJson_eq_ok_iff`).
-/

namespace BrokerAgent

namespace Json

/-! ## What is left at the end -/

/-- Behind a value there may be nothing but blanks. -/
theorem readEnd_eq_ok_iff {s : List Char} : readEnd s = .ok () ↔ Blank s := by
  constructor
  · intro h
    obtain ⟨b, hb, hs⟩ := exists_blank s
    unfold readEnd at h
    split at h
    · rename_i hnil
      rw [hs, hnil, List.append_nil]
      exact hb
    · cases h
  · intro h
    have hskip : skipSpace s = [] := by
      rw [← List.append_nil s, skipSpace_append h]
      rfl
    rw [readEnd, hskip]

/-! ## The value of the object form -/

/-- A null is read behind blanks. -/
theorem readNull_written {b : List Char} (hb : Blank b) (rest : List Char) :
    readNull (b ++ ['n', 'u', 'l', 'l'] ++ rest) = .ok rest := by
  rw [List.append_assoc, readNull]
  simp only [List.cons_append, List.nil_append]
  rw [skipSpace_blank_cons hb (by decide)]
  rfl

/-- A null that is read is written behind blanks. -/
theorem readNull_eq_ok {s rest : List Char} (h : readNull s = .ok rest) :
    ∃ b, Blank b ∧ s = b ++ ['n', 'u', 'l', 'l'] ++ rest := by
  obtain ⟨b, hb, hs⟩ := exists_blank s
  refine ⟨b, hb, ?_⟩
  unfold readNull at h
  split at h
  · cases h
  · rename_i c after hskip
    split at h
    · rename_i hc
      rw [hs, hskip, hc, eq_of_readWord h]
      simp
    · exact absurd h (refuse_ne_ok _ _ _ _)

/-- A colon that is read stands behind blanks. -/
theorem readColon_eq_ok {s rest : List Char} (h : readColon s = .ok rest) :
    ∃ b, Blank b ∧ s = b ++ ':' :: rest := by
  obtain ⟨b, hb, hs⟩ := exists_blank s
  refine ⟨b, hb, ?_⟩
  unfold readColon at h
  split at h
  · cases h
  · rename_i c after hskip
    split at h
    · rename_i hc
      cases h
      rw [hs, hskip, hc]
    · cases h

/-! ## The name -/

/-- The names read as a transport are those of the transports. -/
theorem transportNamed_eq_ok_iff {name rest : List Char} {t : Transport} :
    transportNamed name rest = .ok t ↔ name = t.name.toList := by
  rw [← Transport.ofJsonName?_eq_some_iff, transportNamed]
  cases Transport.ofJsonName? name with
  | none => simp [faultHere]
  | some other => simp

/-! ## The two forms -/

/-- A text is written as a spelling of it between quotes. -/
theorem written_text_iff {text w : List Char} :
    Written (.value (.text text)) w ↔ ∃ spelling, Spells text spelling ∧ w = '"' :: spelling ++ ['"'] := by
  constructor
  · intro h
    cases h with
    | text hspelling => exact ⟨_, hspelling, rfl⟩
  · rintro ⟨spelling, hspelling, rfl⟩
    exact .text hspelling

/-- An object with one key, and `null` behind it. -/
theorem written_null_member_iff {key w : List Char} :
    Written (.value (.object [(key, .null)])) w ↔
      ∃ b k b', Blank b ∧ WrittenKey key k ∧ Blank b' ∧
        w = '\x7b' :: b ++ k ++ ['n', 'u', 'l', 'l'] ++ (b' ++ ['\x7d']) := by
  constructor
  · intro h
    cases h with
    | object hb hk hv hms =>
      cases hv
      cases hms with
      | noMembers hb' => exact ⟨_, _, _, hb, hk, hb', rfl⟩
  · rintro ⟨b, k, b', hb, hk, hb', rfl⟩
    exact .object hb hk .null (.noMembers hb')

/-- An object is read as a transport exactly if its one member is named for it and null. -/
theorem readTransportMember_eq_ok_iff {s rest : List Char} {t : Transport} :
    readTransportMember s = .ok (t, rest) ↔
      ∃ b k b', Blank b ∧ WrittenKey t.name.toList k ∧ Blank b' ∧
        s = b ++ k ++ ['n', 'u', 'l', 'l'] ++ b' ++ '\x7d' :: rest := by
  constructor
  · intro h
    obtain ⟨b, hb, hs⟩ := exists_blank s
    unfold readTransportMember at h
    split at h
    · cases h
    rename_i c after hskip
    split at h
    · rename_i hquote
      simp only [bind_eq_ok] at h
      obtain ⟨⟨name, behind⟩, hname, found, hfound, colon, hcolon, null, hnull, h⟩ := h
      obtain ⟨spelling, hspelling, rfl⟩ := spells_of_readText hname
      rw [transportNamed_eq_ok_iff] at hfound
      obtain ⟨b₁, hb₁, rfl⟩ := readColon_eq_ok hcolon
      obtain ⟨b₂, hb₂, rfl⟩ := readNull_eq_ok hnull
      obtain ⟨b', hb', hend⟩ := exists_blank null
      split at h
      · cases h
      rename_i d last hlast
      split at h
      · rename_i hclosing
        cases h
        subst hfound
        refine ⟨b, _, b', hb, .mk hspelling hb₁ hb₂, hb', ?_⟩
        rw [hs, hskip, hquote, hend, hlast, hclosing]
        simp
      · cases h
    · split at h
      · cases h
      · cases h
  · rintro ⟨b, k, b', hb, hk, hb', rfl⟩
    cases hk with
    | @mk spelling b₁ b₂ hspelling h₁ h₂ =>
      have hskip : skipSpace (b ++ ('"' :: spelling ++ '"' :: b₁ ++ ':' :: b₂) ++
          ['n', 'u', 'l', 'l'] ++ b' ++ '\x7d' :: rest) =
          '"' :: (spelling ++ '"' :: (b₁ ++ ':' ::
            (b₂ ++ ['n', 'u', 'l', 'l'] ++ (b' ++ '\x7d' :: rest)))) := by
        simp only [List.append_assoc, List.cons_append]
        exact skipSpace_blank_cons hb (by decide) _
      unfold readTransportMember
      rw [hskip]
      dsimp only
      rw [if_pos rfl]
      simp only [bind_eq_ok]
      refine ⟨(_, _), readText_spelled hspelling _, t, transportNamed_eq_ok_iff.2 rfl, _,
        readColon_blank h₁ _, _, readNull_written h₂ _, ?_⟩
      rw [skipSpace_blank_cons hb' (by decide)]
      rfl

/-- A transport is taken off the front of a text in one of its two forms. -/
theorem readTransport_eq_ok_iff {s rest : List Char} {t : Transport} :
    readTransport s = .ok (t, rest) ↔
      ∃ b w, Blank b ∧ s = b ++ w ++ rest ∧
        (Written (.value (.text t.name.toList)) w ∨
          Written (.value (.object [(t.name.toList, .null)])) w) := by
  constructor
  · intro h
    obtain ⟨b, hb, hs⟩ := exists_blank s
    unfold readTransport at h
    split at h
    · cases h
    rename_i c after hskip
    split at h
    · rename_i hquote
      simp only [bind_eq_ok] at h
      obtain ⟨⟨name, behind⟩, hname, found, hfound, h⟩ := h
      obtain ⟨spelling, hspelling, rfl⟩ := spells_of_readText hname
      rw [transportNamed_eq_ok_iff] at hfound
      cases h
      subst hfound
      refine ⟨b, '"' :: spelling ++ ['"'], hb, ?_, .inl (.text hspelling)⟩
      rw [hs, hskip, hquote]
      simp
    split at h
    · rename_i hbracket
      obtain ⟨b₁, k, b', hb₁, hk, hb', rfl⟩ := readTransportMember_eq_ok_iff.1 h
      refine ⟨b, _, hb, ?_, .inr (written_null_member_iff.2 ⟨b₁, k, b', hb₁, hk, hb', rfl⟩)⟩
      rw [hs, hskip, hbracket]
      simp
    · cases h
  · rintro ⟨b, w, hb, rfl, hw | hw⟩
    · obtain ⟨spelling, hspelling, rfl⟩ := written_text_iff.1 hw
      have hskip : skipSpace (b ++ ('"' :: spelling ++ ['"']) ++ rest) =
          '"' :: (spelling ++ '"' :: rest) := by
        simp only [List.append_assoc, List.cons_append, List.nil_append]
        exact skipSpace_blank_cons hb (by decide) _
      unfold readTransport
      rw [hskip]
      dsimp only
      rw [if_pos rfl]
      simp only [bind_eq_ok]
      exact ⟨(_, _), readText_spelled hspelling _, t, transportNamed_eq_ok_iff.2 rfl, rfl⟩
    · obtain ⟨b₁, k, b', hb₁, hk, hb', rfl⟩ := written_null_member_iff.1 hw
      have hskip : skipSpace (b ++ ('\x7b' :: b₁ ++ k ++ ['n', 'u', 'l', 'l'] ++
          (b' ++ ['\x7d'])) ++ rest) =
          '\x7b' :: (b₁ ++ k ++ ['n', 'u', 'l', 'l'] ++ b' ++ '\x7d' :: rest) := by
        simp only [List.append_assoc, List.cons_append, List.nil_append]
        exact skipSpace_blank_cons hb (by decide) _
      unfold readTransport
      rw [hskip]
      exact readTransportMember_eq_ok_iff.2 ⟨b₁, k, b', hb₁, hk, hb', rfl⟩

/-- The texts that give a transport. -/
theorem transport_eq_ok_iff {text : List Char} {t : Transport} :
    transport text = .ok t ↔
      Document (.text t.name.toList) text ∨ Document (.object [(t.name.toList, .null)]) text := by
  constructor
  · intro h
    simp only [transport, bind_eq_ok] at h
    obtain ⟨⟨found, rest⟩, hread, ⟨⟩, hend, h⟩ := h
    cases h
    obtain ⟨b, w, hb, rfl, hw | hw⟩ := readTransport_eq_ok_iff.1 hread
    · exact .inl (.mk hb hw (readEnd_eq_ok_iff.1 hend))
    · exact .inr (.mk hb hw (readEnd_eq_ok_iff.1 hend))
  · intro h
    have hread : ∃ rest, readTransport text = .ok (t, rest) ∧ Blank rest := by
      rcases h with h | h
      · obtain ⟨hb, hw, hrest⟩ := h
        exact ⟨_, readTransport_eq_ok_iff.2 ⟨_, _, hb, rfl, .inl hw⟩, hrest⟩
      · obtain ⟨hb, hw, hrest⟩ := h
        exact ⟨_, readTransport_eq_ok_iff.2 ⟨_, _, hb, rfl, .inr hw⟩, hrest⟩
    obtain ⟨rest, hread, hrest⟩ := hread
    simp only [transport, bind_eq_ok]
    exact ⟨(t, rest), hread, (), readEnd_eq_ok_iff.2 hrest, rfl⟩

end Json

/-- A record's protocol is a transport exactly if it is spelled as its name. -/
theorem Settings.transport_eq_ok_iff {s : String} {t : Transport} :
    transport s = .ok t ↔ t.name = s := by
  rw [eq_comm (a := t.name), ← Transport.ofName?_eq_some_iff, transport]
  cases Transport.ofName? s with
  | none => simp
  | some found => simp

namespace Transport

open Json

/-- A text gives a transport exactly if the reader does. -/
theorem ofJson_eq_ok {text : List Char} {t : Transport} :
    ofJson text = .ok t ↔ Json.transport text = .ok t := by
  rw [ofJson]
  cases Json.transport text with
  | error fault =>
    constructor
    · intro h
      cases h
    · intro h
      cases h
  | ok found =>
    constructor
    · intro h
      cases h
      rfl
    · intro h
      cases h
      rfl

theorem ofJson_eq_ok_iff {text : List Char} {t : Transport} :
    ofJson text = .ok t ↔
      Document (.text t.name.toList) text ∨ Document (.object [(t.name.toList, .null)]) text := by
  rw [ofJson_eq_ok, transport_eq_ok_iff]

/-- A text between quotes gives the transport that it names, whatever its spelling. -/
theorem ofJson_spelled {s : String} {spelling : List Char} (h : Spells s.toList spelling)
    {t : Transport} : ofJson ('"' :: spelling ++ ['"']) = .ok t ↔ t.name = s := by
  have hskip : skipSpace ('"' :: spelling ++ ['"']) = '"' :: (spelling ++ '"' :: []) :=
    skipSpace_cons (by decide) _
  have hread : ∀ found rest, readTransport ('"' :: spelling ++ ['"']) = .ok (found, rest) ↔
      transportNamed s.toList [] = .ok found ∧ rest = [] := by
    intro found rest
    unfold readTransport
    rw [hskip]
    dsimp only
    rw [if_pos rfl, readText_spelled h]
    show (transportNamed s.toList [] >>= fun found => pure (found, [])) = _ ↔ _
    rw [bind_eq_ok]
    constructor
    · rintro ⟨named, hnamed, h⟩
      cases h
      exact ⟨hnamed, rfl⟩
    · rintro ⟨hnamed, rfl⟩
      exact ⟨found, hnamed, rfl⟩
  have hnamed : transportNamed s.toList [] = .ok t ↔ t.name = s := by
    rw [transportNamed_eq_ok_iff, String.toList_inj, eq_comm]
  rw [ofJson_eq_ok, ← hnamed]
  simp only [Json.transport, bind_eq_ok]
  constructor
  · rintro ⟨⟨found, rest⟩, hfound, -, -, h⟩
    cases h
    exact ((hread found rest).1 hfound).1
  · intro hfound
    exact ⟨(t, []), (hread t []).2 ⟨hfound, rfl⟩, (), readEnd_eq_ok_iff.2 Blank.nil, rfl⟩

/-- The names in the table of the rules, the names read by themselves and those read from JSON are
the same ones. Each comes from the transport that is read there and goes back to it, and a text that
is no name is reported as it is. From JSON, exactly the names between quotes and the objects
with a name and `null` are taken, in all their spellings. -/
theorem names_agree (s : String) :
    (s ∈ names ↔ ∃ t, Settings.transport s = .ok t) ∧
    (∀ spelling, Spells s.toList spelling → ∀ t,
      ofJson ('"' :: spelling ++ ['"']) = .ok t ↔ Settings.transport s = .ok t) ∧
    (∀ t, Settings.transport s = .ok t →
      t.name = s ∧ Document (.text s.toList) t.toJson.toList) ∧
    (s ∉ names → Settings.transport s = .error (.invalidProtocol s)) ∧
    (∀ text t, ofJson text = .ok t ↔
      Document (.text t.name.toList) text ∨ Document (.object [(t.name.toList, .null)]) text) ∧
    (∀ text, (∀ t : Transport, ¬ Document (.text t.name.toList) text ∧
        ¬ Document (.object [(t.name.toList, .null)]) text) →
      ∃ report, ofJson text = .error report) := by
  refine ⟨?_, ?_, ?_, Settings.transport_of_not_mem, fun text t => ofJson_eq_ok_iff, ?_⟩
  · rw [Settings.mem_names_iff]
    simp only [Settings.transport_eq_ok_iff]
  · intro spelling h t
    rw [ofJson_spelled h, Settings.transport_eq_ok_iff]
  · intro t ht
    obtain rfl := Settings.transport_eq_ok_iff.1 ht
    refine ⟨rfl, ?_⟩
    rw [toJson, jsonName_eq_name, String.toList_ofList]
    have hdocument := Document.mk Blank.nil (written_text t.name.toList) Blank.nil
    simpa using hdocument
  · intro text hother
    cases htext : ofJson text with
    | error report => exact ⟨report, rfl⟩
    | ok t =>
      obtain ⟨hname, hmember⟩ := hother t
      exact ((ofJson_eq_ok_iff.1 htext).elim hname hmember).elim

/-- A name with its first letter spelled by number, by itself and as a key among blanks. -/
theorem names_agree_escaped :
    let spelling := "\\u0074cp".toList
    Spells "tcp".toList spelling ∧ ofJson ('"' :: spelling ++ ['"']) = .ok .tcp ∧
      ofJson " \x7b\"\\u0074cp\" :\nnull\x7d".toList = .ok .tcp := by
  intro spelling
  have hunit : SpellsChar 't' ['\\', 'u', '0', '0', '7', '4'] := .unit ⟨by decide, by decide⟩
  have hc : SpellsChar 'c' ['c'] := .raw (by decide) (by decide) (by decide)
  have hp : SpellsChar 'p' ['p'] := .raw (by decide) (by decide) (by decide)
  have hspelling : Spells "tcp".toList spelling := .cons hunit (.cons hc (.cons hp .nil))
  have hblank : Blank [' '] := blank_of_isSpace (List.all_eq_true.1 rfl)
  have hbreak : Blank ['\n'] := blank_of_isSpace (List.all_eq_true.1 rfl)
  have hkey : WrittenKey "tcp".toList ('"' :: spelling ++ '"' :: [' '] ++ ':' :: ['\n']) :=
    .mk hspelling hblank hbreak
  have hmember : Document (.object [("tcp".toList, .null)])
      " \x7b\"\\u0074cp\" :\nnull\x7d".toList :=
    .mk hblank (.object Blank.nil hkey .null (.noMembers Blank.nil)) Blank.nil
  obtain ⟨-, hspelled, -, -, hforms, -⟩ := names_agree "tcp"
  exact ⟨hspelling, (hspelled spelling hspelling .tcp).2 rfl, (hforms _ .tcp).2 (.inr hmember)⟩

end Transport
end BrokerAgent
