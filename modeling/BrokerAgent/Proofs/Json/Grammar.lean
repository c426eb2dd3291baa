/-!
# How JSON is written

What a JSON text may look like, stated without a reader. A text between quotes may spell each
character in several ways (`Spells`), a number is a row of digits with optional parts
(`NumberText`), and blanks may stand around every token (`Written`). A text can be written in many
ways, so these are relations between a value and the characters that stand for it.
-/

namespace BrokerAgent.Json

/-! ## Blanks -/

/-- Nothing but blanks. -/
def Blank (s : List Char) : Prop :=
  ∀ c ∈ s, c = ' ' ∨ c = '\t' ∨ c = '\n' ∨ c = '\r'

theorem Blank.nil : Blank [] := by
  intro c hc
  cases hc

/-! ## Texts between quotes -/

/-- The four hexadecimal digits of a number below `0x10000`, in lower case. -/
def unitDigits (n : Nat) : List Char :=
  [n / 4096, n / 256 % 16, n / 16 % 16, n % 16].map Nat.digitChar

/-- Four hexadecimal digits of either case that spell a number. -/
def SpellsUnit (n : Nat) (digits : List Char) : Prop :=
  n < 0x10000 ∧ digits.map Char.toLower = unitDigits n

/-- The escapes of one letter, with the characters that they stand for. -/
def letterEscapes : List (Char × Char) :=
  [('"', '"'), ('\\', '\\'), ('/', '/'), ('b', '\x08'), ('f', '\x0c'), ('n', '\n'), ('r', '\r'),
    ('t', '\t')]

/-- The ways to spell one character: as it is, by an escape of one letter, by its number, or by
the two halves of its number if it has more than sixteen bits. -/
inductive SpellsChar (c : Char) : List Char → Prop
  | raw (hlow : ' ' ≤ c) (hquote : c ≠ '"') (hslash : c ≠ '\\') : SpellsChar c [c]
  | letter {l : Char} (h : (l, c) ∈ letterEscapes) : SpellsChar c ['\\', l]
  | unit {digits : List Char} (h : SpellsUnit c.toNat digits) :
      SpellsChar c ('\\' :: 'u' :: digits)
  | pair {high low : List Char} (hc : 0x10000 ≤ c.toNat)
      (hhigh : SpellsUnit (0xD800 + (c.toNat - 0x10000) / 0x400) high)
      (hlow : SpellsUnit (0xDC00 + (c.toNat - 0x10000) % 0x400) low) :
      SpellsChar c ('\\' :: 'u' :: high ++ '\\' :: 'u' :: low)

/-- The ways to spell a text, character by character. -/
inductive Spells : List Char → List Char → Prop
  | nil : Spells [] []
  | cons {c : Char} {s text spelling : List Char} (hc : SpellsChar c s)
      (ht : Spells text spelling) : Spells (c :: text) (s ++ spelling)

/-! ## Numbers -/

/-- At least one digit, and nothing else. -/
def Digits (s : List Char) : Prop :=
  s ≠ [] ∧ ∀ c ∈ s, c.isDigit = true

theorem Digits.of_all {s : List Char} (hne : s ≠ []) (h : s.all Char.isDigit = true) : Digits s :=
  ⟨hne, List.all_eq_true.1 h⟩

theorem Digits.exists_cons {s : List Char} (h : Digits s) :
    ∃ c t, s = c :: t ∧ c.isDigit = true ∧ ∀ d ∈ t, d.isDigit = true := by
  obtain ⟨hne, hall⟩ := h
  obtain ⟨c, t, rfl⟩ := List.exists_cons_of_ne_nil hne
  exact ⟨c, t, rfl, hall c List.mem_cons_self, fun d hd => hall d (List.mem_cons_of_mem c hd)⟩

/-- The exponent of a number: a mark, a sign or none, and digits. -/
structure ExponentText where
  mark : Char
  sign : List Char
  digits : List Char
  mark_eq : mark = 'e' ∨ mark = 'E'
  sign_eq : sign = [] ∨ sign = ['+'] ∨ sign = ['-']
  digits_ok : Digits digits

/-- A number as it is written. Its whole part has no needless zero in front. -/
structure NumberText where
  negative : Bool
  whole : List Char
  fraction : Option (List Char)
  exponent : Option ExponentText
  whole_ok : Digits whole
  whole_zero : whole.head? = some '0' → whole = ['0']
  fraction_ok : ∀ digits ∈ fraction, Digits digits

/-- The characters of an exponent. -/
def ExponentText.text (e : ExponentText) : List Char :=
  e.mark :: e.sign ++ e.digits

namespace NumberText

/-- The point and the digits after it, if there are any. -/
def fractionText (n : NumberText) : List Char :=
  match n.fraction with
  | none => []
  | some digits => '.' :: digits

/-- The exponent, if there is one. -/
def exponentText (n : NumberText) : List Char :=
  match n.exponent with
  | none => []
  | some e => e.text

/-- The characters of a number after its sign. -/
def unsigned (n : NumberText) : List Char :=
  n.whole ++ n.fractionText ++ n.exponentText

/-- The characters of a number. -/
def text (n : NumberText) : List Char :=
  if n.negative then '-' :: n.unsigned else n.unsigned

end NumberText

/-! ## Values -/

/-- A JSON value. A number is kept as it is written, and members in their order, repeated keys
included. -/
inductive Value
  | null
  | boolean (value : Bool)
  | number (n : NumberText)
  | text (characters : List Char)
  | list (items : List Value)
  | object (members : List (List Char × Value))

/-- What a piece of a JSON text stands for: a value, or what follows an entry of a list or of an
object up to the bracket that ends it. -/
inductive Piece
  | value (v : Value)
  | items (vs : List Value)
  | members (ms : List (List Char × Value))

/-- A key between quotes, and its colon. -/
inductive WrittenKey (key : List Char) : List Char → Prop
  | mk {spelling b₁ b₂ : List Char} (hk : Spells key spelling) (h₁ : Blank b₁) (h₂ : Blank b₂) :
      WrittenKey key ('"' :: spelling ++ '"' :: b₁ ++ ':' :: b₂)

/-- The ways to write a piece. Every value begins with its first character; the blanks around it
belong to what it stands in. -/
inductive Written : Piece → List Char → Prop
  | null : Written (.value .null) ['n', 'u', 'l', 'l']
  | true : Written (.value (.boolean true)) ['t', 'r', 'u', 'e']
  | false : Written (.value (.boolean false)) ['f', 'a', 'l', 's', 'e']
  | number (n : NumberText) : Written (.value (.number n)) n.text
  | text {t spelling : List Char} (ht : Spells t spelling) :
      Written (.value (.text t)) ('"' :: spelling ++ ['"'])
  | emptyList {b : List Char} (hb : Blank b) : Written (.value (.list [])) ('[' :: b ++ [']'])
  | list {b s t : List Char} {v : Value} {vs : List Value} (hb : Blank b)
      (hv : Written (.value v) s) (hvs : Written (.items vs) t) :
      Written (.value (.list (v :: vs))) ('[' :: b ++ s ++ t)
  | noItems {b : List Char} (hb : Blank b) : Written (.items []) (b ++ [']'])
  | items {b₁ b₂ s t : List Char} {v : Value} {vs : List Value} (h₁ : Blank b₁) (h₂ : Blank b₂)
      (hv : Written (.value v) s) (hvs : Written (.items vs) t) :
      Written (.items (v :: vs)) (b₁ ++ ',' :: b₂ ++ s ++ t)
  | emptyObject {b : List Char} (hb : Blank b) :
      Written (.value (.object [])) ('\x7b' :: b ++ ['\x7d'])
  | object {b k s t : List Char} {key : List Char} {v : Value} {ms : List (List Char × Value)}
      (hb : Blank b) (hk : WrittenKey key k) (hv : Written (.value v) s)
      (hms : Written (.members ms) t) :
      Written (.value (.object ((key, v) :: ms))) ('\x7b' :: b ++ k ++ s ++ t)
  | noMembers {b : List Char} (hb : Blank b) : Written (.members []) (b ++ ['\x7d'])
  | members {b₁ b₂ k s t : List Char} {key : List Char} {v : Value}
      {ms : List (List Char × Value)} (h₁ : Blank b₁) (h₂ : Blank b₂) (hk : WrittenKey key k)
      (hv : Written (.value v) s) (hms : Written (.members ms) t) :
      Written (.members ((key, v) :: ms)) (b₁ ++ ',' :: b₂ ++ k ++ s ++ t)

/-- A whole text with one value in it. -/
inductive Document (v : Value) : List Char → Prop
  | mk {b₁ s b₂ : List Char} (h₁ : Blank b₁) (hv : Written (.value v) s) (h₂ : Blank b₂) :
      Document v (b₁ ++ s ++ b₂)

end BrokerAgent.Json
