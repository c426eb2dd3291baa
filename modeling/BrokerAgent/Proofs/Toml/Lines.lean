import BrokerAgent.Proofs.Toml.Values
import BrokerAgent.Toml.Document
import Mathlib.Data.List.Forall2

/-!
# Lines of plain TOML are read as they are written

Lines that are blank or hold a comment are passed over, and every other line is read as one
assignment to a key of one part, with a value that says the same. So the statements of a plain
document are its members (`readStatements_lines`).
-/

namespace BrokerAgent.Toml

/-- A statement that gives a key of one part a value that says the same as the value of a member. -/
def Gives (statement : Statement) (m : List Char × Json.Value) : Prop :=
  ∃ span node stop, statement = .assignment ⟨[], ⟨m.1, span⟩, node⟩ stop ∧ Means node m.2

/-! ## Keys -/

/-- A key without quotes consists of what such keys may hold. -/
theorem isBareChar_of_bare {key : List Char} (h : Bare key) : ∀ c ∈ key, isBareChar c = true := by
  intro c hc
  rcases h.2 c hc with hc | rfl | rfl
  · simp [isBareChar, hc]
  · rfl
  · rfl

/-- Such a key has a first character. -/
theorem Bare.exists_cons {key : List Char} (h : Bare key) :
    ∃ d k, key = d :: k ∧ isBareChar d = true := by
  obtain ⟨d, k, rfl⟩ := List.exists_cons_of_ne_nil h.1
  exact ⟨d, k, rfl, isBareChar_of_bare h d List.mem_cons_self⟩

/-- A character of such a key is no sign around it. -/
theorem ne_of_isBareChar {c d : Char} (hc : isBareChar c = true) (hd : isBareChar d = false) :
    c ≠ d := by
  rintro rfl
  rw [hc] at hd
  cases hd

theorem isBlank_of_isBareChar {c : Char} (hc : isBareChar c = true) : isBlank c = false := by
  simp [isBlank, ne_of_isBareChar hc (by decide : isBareChar ' ' = false),
    ne_of_isBareChar hc (by decide : isBareChar '\t' = false)]

/-- A key without quotes ends at the first character that is not part of one. -/
theorem readKey_bare {key rest : List Char} (h : Bare key)
    (hrest : ∀ c, rest.head? = some c → isBareChar c = false) :
    readKey (key ++ rest) = some (⟨key, ⟨key ++ rest, rest⟩⟩, rest) := by
  have hall := isBareChar_of_bare h
  have hstop : rest.takeWhile isBareChar = [] ∧ rest.dropWhile isBareChar = rest := by
    cases rest with
    | nil => exact ⟨rfl, rfl⟩
    | cons c rest => simp [hrest c rfl]
  have htake : (key ++ rest).takeWhile isBareChar = key := by
    rw [List.takeWhile_append_of_pos hall, hstop.1, List.append_nil]
  have hdrop : (key ++ rest).dropWhile isBareChar = rest := by
    rw [List.dropWhile_append_of_pos hall, hstop.2]
  obtain ⟨d, k, rfl, hd⟩ := h.exists_cons
  rw [List.cons_append] at htake hdrop ⊢
  rw [readKey, if_neg (ne_of_isBareChar hd (by decide)), if_neg (ne_of_isBareChar hd (by decide)),
    if_pos hd, htake, hdrop]

/-- Such a key begins the text in which it stands. -/
theorem skipBlanks_bare {key : List Char} (h : Bare key) (s : List Char) :
    skipBlanks (key ++ s) = key ++ s := by
  obtain ⟨d, k, rfl, hd⟩ := h.exists_cons
  exact skipBlanks_cons (isBlank_of_isBareChar hd) _

/-- A blank ends a key without quotes. -/
theorem isBareChar_of_isBlank {c : Char} (hc : isBlank c = true) : isBareChar c = false := by
  simp only [isBlank, Bool.or_eq_true, decide_eq_true_eq] at hc
  rcases hc with rfl | rfl <;> rfl

/-- Blanks may stand on both sides of the sign of equality. -/
theorem readTarget_bare {key b : List Char} (h : Bare key) (hb : Blanks b) (s : List Char) :
    ∃ span, readTarget (key ++ (b ++ '=' :: s)) = some (([], ⟨key, span⟩), skipBlanks s) := by
  have hrest : ∀ c, (b ++ '=' :: s).head? = some c → isBareChar c = false := by
    intro c hc
    cases b with
    | nil =>
      obtain rfl : '=' = c := Option.some.inj hc
      rfl
    | cons d b =>
      obtain rfl : d = c := Option.some.inj hc
      exact isBareChar_of_isBlank (isBlank_of_blanks hb d List.mem_cons_self)
  refine ⟨⟨key ++ (b ++ '=' :: s), b ++ '=' :: s⟩, ?_⟩
  have hpath : readPath (key ++ (b ++ '=' :: s)) =
      some (([], ⟨key, ⟨key ++ (b ++ '=' :: s), b ++ '=' :: s⟩⟩), '=' :: s) := by
    rw [readPath, maxDepth, readParts, skipBlanks_bare h, readKey_bare h hrest]
    simp only [skipBlanks_blanks_cons hb (by decide : isBlank '=' = false)]
    rfl
  rw [readTarget, hpath]
  rfl

/-! ## Ends of lines -/

/-- What stands behind a line, and the lines that follow it. -/
inductive Ends : List Char → List Char → Prop
  | line {e : List Char} (he : e ∈ lineEnds) (rest : List Char) : Ends (e ++ rest) rest
  | document : Ends [] []

/-- A line ends with the text, a line feed, or a carriage return and a line feed. -/
theorem Ends.cases {s rest : List Char} (h : Ends s rest) :
    s = [] ∧ rest = [] ∨ s = '\n' :: rest ∨ s = '\r' :: '\n' :: rest := by
  cases h with
  | document => exact .inl ⟨rfl, rfl⟩
  | line he =>
    simp only [lineEnds, List.mem_cons, List.not_mem_nil, or_false] at he
    rcases he with rfl | rfl
    · exact .inr (.inl rfl)
    · exact .inr (.inr rfl)

/-- The end of a line begins with nothing else. -/
theorem Ends.head {s rest : List Char} (h : Ends s rest) {d : Char} (hd : d ∉ ['\n', '\r']) :
    s.head? ≠ some d := by
  rcases h.cases with ⟨rfl, -⟩ | rfl | rfl
  · simp
  · rintro ⟨⟩
    exact hd List.mem_cons_self
  · rintro ⟨⟩
    exact hd (List.mem_cons_of_mem _ List.mem_cons_self)

/-- Blanks at the end of a line say nothing. -/
theorem readLineEnd_blanks {b : List Char} (hb : Blanks b) {s rest : List Char} (h : Ends s rest) :
    readLineEnd (b ++ s) = some rest := by
  rw [readLineEnd, skipBlanks_append hb]
  rcases h.cases with ⟨rfl, rfl⟩ | rfl | rfl <;> rfl

theorem readLineEnd_comment {t : List Char} (ht : Plain t) {s rest : List Char} (h : Ends s rest) :
    readLineEnd ('#' :: (t ++ s)) = some rest := by
  have htext : ∀ c ∈ t, isTextChar c = true := by
    intro c hc
    rcases ht c hc with rfl | ⟨hlow, hdelete⟩
    · rfl
    · simp [isTextChar, hlow, hdelete]
  have hdrop : (t ++ s).dropWhile isTextChar = s := by
    rw [List.dropWhile_append_of_pos htext]
    rcases h.cases with ⟨rfl, -⟩ | rfl | rfl <;> rfl
  rw [readLineEnd, skipBlanks_cons (by decide)]
  simp only [hdrop]
  rcases h.cases with ⟨rfl, rfl⟩ | rfl | rfl <;> rfl

/-! ## Statements -/

section Steps

variable {s rest next : List Char} {c : Char} {statement : Statement}

theorem readStatements_end (hs : skipBlanks s = []) : readStatements s = some [] := by
  rw [readStatements]
  split <;> simp_all

/-- A line that says nothing is passed over. -/
theorem readStatements_silent (hs : skipBlanks s = c :: rest) (hc : c = '#' ∨ c = '\n' ∨ c = '\r')
    (he : readLineEnd (c :: rest) = some next) : readStatements s = readStatements next := by
  conv =>
    lhs
    rw [readStatements]
  split
  · simp_all
  · rename_i heq
    obtain ⟨rfl, rfl⟩ := List.cons.inj (hs.symm.trans heq)
    rw [if_pos hc]
    split <;> simp_all

/-- A statement is read before the others. -/
theorem readStatements_statement (hs : skipBlanks s = c :: rest)
    (hc : ¬ (c = '#' ∨ c = '\n' ∨ c = '\r'))
    (he : readStatement (c :: rest) = some (statement, next)) :
    readStatements s = (readStatements next).map (statement :: ·) := by
  conv =>
    lhs
    rw [readStatements]
  split
  · simp_all
  · rename_i heq
    obtain ⟨rfl, rfl⟩ := List.cons.inj (hs.symm.trans heq)
    rw [if_neg hc]
    split
    · simp_all
    · rename_i heq
      obtain ⟨rfl, rfl⟩ := Prod.mk.inj (Option.some.inj (he.symm.trans heq))
      split <;> rename_i hread <;> rw [hread] <;> rfl

end Steps

/-! ## Lines -/

/-- A value begins with no blank. -/
theorem WrittenValue.head {v : Json.Value} {t : List Char} (h : WrittenValue v t) :
    ∃ c tail, t = c :: tail ∧ isBlank c = false := by
  cases h with
  | text => exact ⟨'"', _, rfl, rfl⟩
  | emptyList => exact ⟨'[', _, rfl, rfl⟩
  | list => exact ⟨'[', _, rfl, rfl⟩

/-- The line of a member is read as a statement that gives the member. -/
theorem readStatement_member {key b₂ b₃ t b₄ s rest : List Char} {v : Json.Value} (hkey : Bare key)
    (h₂ : Blanks b₂) (h₃ : Blanks b₃) (hv : WrittenValue v t) (h₄ : Blanks b₄) (hs : Ends s rest) :
    ∃ statement, Gives statement (key, v) ∧
      readStatement (key ++ (b₂ ++ '=' :: (b₃ ++ (t ++ (b₄ ++ s))))) = some (statement, rest) := by
  have hvalue : skipBlanks (b₃ ++ (t ++ (b₄ ++ s))) = t ++ (b₄ ++ s) := by
    obtain ⟨c, tail, rfl, hc⟩ := hv.head
    exact skipBlanks_blanks_cons h₃ hc _
  obtain ⟨span, htarget⟩ := readTarget_bare hkey h₂ (b₃ ++ (t ++ (b₄ ++ s)))
  rw [hvalue] at htarget
  obtain ⟨node, hread, hmeans⟩ :=
    readValue_written hv (head_blanks_append h₄ (by decide) (hs.head (by decide)))
  refine ⟨.assignment ⟨[], ⟨key, span⟩, node⟩ (b₄ ++ s), ⟨span, node, b₄ ++ s, rfl, hmeans⟩, ?_⟩
  -- a key without quotes does not begin like a header
  have hhead : (key ++ (b₂ ++ '=' :: (b₃ ++ (t ++ (b₄ ++ s))))).head? ≠ some '[' := by
    obtain ⟨d, k, rfl, hd⟩ := hkey.exists_cons
    intro h
    exact ne_of_isBareChar hd (by decide) (Option.some.inj h)
  rw [readStatement, if_neg hhead, readAssignment, htarget]
  simp only [hread, readLineEnd_blanks h₄ hs]

/-- A line says nothing, or is read as one statement. -/
theorem readStatements_line {line : Line} {t s rest : List Char} (h : WrittenLine line t)
    (hs : Ends s rest) :
    ∃ statements, List.Forall₂ Gives statements (members [line]) ∧
      readStatements (t ++ s) = (readStatements rest).map (statements ++ ·) := by
  cases h with
  | blank hb =>
    refine ⟨[], .nil, ?_⟩
    have hsilent : readStatements (t ++ s) = readStatements rest := by
      rcases hs.cases with ⟨rfl, rfl⟩ | hline
      · rw [List.append_nil, readStatements_end (skipBlanks_blanks hb), readStatements_end rfl]
      · have hend := readLineEnd_blanks Blanks.nil hs
        rcases hline with rfl | rfl
        · exact readStatements_silent (skipBlanks_blanks_cons hb (by decide) _) (by decide) hend
        · exact readStatements_silent (skipBlanks_blanks_cons hb (by decide) _) (by decide) hend
    rw [hsilent]
    simp
  | @comment b t hb ht =>
    refine ⟨[], .nil, ?_⟩
    have hsilent : readStatements (b ++ '#' :: t ++ s) = readStatements rest := by
      rw [List.append_assoc, List.cons_append]
      exact readStatements_silent (skipBlanks_blanks_cons hb (by decide) _) (by decide)
        (readLineEnd_comment ht hs)
    rw [hsilent]
    simp
  | @member b₁ key b₂ b₃ t b₄ v h₁ hkey h₂ h₃ hv h₄ =>
    obtain ⟨statement, hgives, hread⟩ := readStatement_member hkey h₂ h₃ hv h₄ hs
    refine ⟨[statement], .cons hgives .nil, ?_⟩
    simp only [List.append_assoc, List.cons_append]
    obtain ⟨d, k, rfl, hd⟩ := hkey.exists_cons
    have hsays : ¬ (d = '#' ∨ d = '\n' ∨ d = '\r') := by
      rintro (rfl | rfl | rfl) <;> cases hd
    have hstart := skipBlanks_blanks_cons h₁ (isBlank_of_isBareChar hd)
      (k ++ (b₂ ++ '=' :: (b₃ ++ (t ++ (b₄ ++ s)))))
    exact readStatements_statement hstart hsays hread

/-- The statements of a plain document are its members. -/
theorem readStatements_lines {lines : List Line} {text : List Char} (h : WrittenLines lines text) :
    ∃ statements, readStatements text = some statements ∧
      List.Forall₂ Gives statements (members lines) := by
  have hnone : readStatements [] = some [] := readStatements_end rfl
  induction h with
  | nil => exact ⟨[], hnone, .nil⟩
  | @last line t hline =>
    obtain ⟨statements, hgives, hread⟩ := readStatements_line hline .document
    rw [List.append_nil, hnone, Option.map_some, List.append_nil] at hread
    exact ⟨statements, hread, hgives⟩
  | @cons line lines t e u hline he hlines ih =>
    obtain ⟨statements, hgives, hread⟩ := readStatements_line hline (.line he u)
    obtain ⟨later, hmore, hlater⟩ := ih
    rw [hmore] at hread
    refine ⟨statements ++ later, ?_, ?_⟩
    · rw [List.append_assoc]
      exact hread
    · have hmembers : members (line :: lines) = members [line] ++ members lines :=
        List.filterMap_append (l := [line])
      rw [hmembers]
      exact List.rel_append hgives hlater

end BrokerAgent.Toml
