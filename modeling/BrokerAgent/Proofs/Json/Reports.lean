import BrokerAgent.Json.Fault
import BrokerAgent.Proofs.Text.Quoted

/-!
# What reports say

A report about a JSON text is told apart by its end from every other one, since it ends in the place
(`Report.text_eq_iff`). One about a value of the wrong shape has no control character in it
(`Report.noControl_text`): numbers are written in digits, and texts are quoted.
-/

namespace BrokerAgent

open Text (NoControl noControl_append)

/-! ## Numbers and names -/

theorem Text.noControl_string {a b : String} :
    NoControl (a ++ b).toList ↔ NoControl a.toList ∧ NoControl b.toList := by
  rw [String.toList_append]
  exact noControl_append

theorem noControl_toDigits (n : Nat) : NoControl (Nat.toDigits 10 n) := fun _ hc =>
  Text.isControl_of_isDigit (Nat.isDigit_of_mem_toDigits (by decide) (by decide) hc)

/-- A number is shown by its digits. -/
theorem toList_toString_nat (n : Nat) : (toString n).toList = Nat.toDigits 10 n := by
  rw [Nat.toString_eq_ofList_toDigits, String.toList_ofList]

theorem noControl_nat (n : Nat) : NoControl (toString n).toList := by
  rw [toList_toString_nat]
  exact noControl_toDigits n

theorem noControl_int (n : Int) : NoControl (toString n).toList := by
  cases n with
  | ofNat n => exact noControl_nat n
  | negSucc n =>
    exact Text.noControl_string.2 ⟨(by decide : NoControl "-".toList), noControl_nat (n + 1)⟩

namespace Decimal

theorem noControl_replicate (n : Nat) {c : Char} (hc : Text.isControl c = false) :
    NoControl (List.replicate n c) := fun d hd => by
  rw [List.eq_of_mem_replicate hd, hc]

/-- A decimal written out has no control characters. -/
theorem noControl_plainText (d : Decimal) : NoControl d.plainText := by
  have hdigits := noControl_toDigits d.digits
  unfold plainText
  dsimp only
  split
  · exact noControl_append.2
      ⟨noControl_append.2 ⟨hdigits, noControl_replicate _ (by decide)⟩, by decide⟩
  · have hpadded := noControl_append.2
      ⟨noControl_replicate ((-d.power).toNat + 1 - (Nat.toDigits 10 d.digits).length)
        (by decide : Text.isControl '0' = false), hdigits⟩
    refine noControl_append.2 ⟨fun c hc => hpadded c (List.mem_of_mem_take hc), ?_⟩
    exact List.forall_mem_cons.2 ⟨by decide, fun c hc => hpadded c (List.mem_of_mem_drop hc)⟩

theorem noControl_scientificText (d : Decimal) : NoControl d.scientificText := by
  have hdigits := noControl_toDigits d.digits
  unfold scientificText
  refine noControl_append.2
    ⟨noControl_append.2 ⟨fun c hc => hdigits c (List.mem_of_mem_take hc), ?_⟩,
    List.forall_mem_cons.2 ⟨by decide, List.forall_mem_cons.2 ⟨?_, noControl_toDigits _⟩⟩⟩
  · split
    · decide
    · exact List.forall_mem_cons.2 ⟨by decide, fun c hc => hdigits c (List.mem_of_mem_drop hc)⟩
  · split <;> decide

/-- In either style a decimal has no control characters. -/
theorem noControl_text (style : Style) (d : Decimal) : NoControl (d.text style) := by
  unfold text
  cases style with
  | plain => exact d.noControl_plainText
  | scientific =>
    dsimp only
    split
    · exact d.noControl_plainText
    · exact d.noControl_scientificText

end Decimal

namespace Shape

theorem noControl_sign (negative : Bool) : NoControl (sign negative).toList := by
  cases negative <;> decide

/-- What a value is called in a message has no control characters. -/
theorem Found.noControl_describe (style : Decimal.Style) (found : Found) :
    NoControl (found.describe style).toList := by
  -- a name, or a kind of number and the number between two signs
  have hbetween : ∀ {a b c : String}, NoControl a.toList → NoControl b.toList →
      NoControl c.toList → NoControl (a ++ b ++ c).toList := fun ha hb hc =>
    Text.noControl_string.2 ⟨Text.noControl_string.2 ⟨ha, hb⟩, hc⟩
  have htick : NoControl "`".toList := by decide
  have hfloat : NoControl "floating point `".toList := by decide +kernel
  cases found with
  | null => exact (by decide : NoControl "null".toList)
  | sequence => exact (by decide : NoControl "sequence".toList)
  | map => exact (by decide : NoControl "map".toList)
  | notANumber => exact (by decide +kernel : NoControl "floating point `NaN`".toList)
  | boolean value =>
    refine hbetween (by decide +kernel) ?_ htick
    cases value <;> decide
  | integer value => exact hbetween (by decide +kernel) (noControl_int value) htick
  | number negative magnitude =>
    refine hbetween (Text.noControl_string.2 ⟨hfloat, noControl_sign negative⟩) ?_ htick
    rw [String.toList_ofList]
    exact Decimal.noControl_text style _
  | infinity negative =>
    exact Text.noControl_string.2
      ⟨Text.noControl_string.2 ⟨hfloat, noControl_sign negative⟩, by decide +kernel⟩
  | text value =>
    refine Text.noControl_string.2 ⟨by decide +kernel, ?_⟩
    rw [String.toList_ofList]
    exact Text.noControl_quoted value

theorem Wanted.noControl_describe (wanted : Wanted) : NoControl wanted.describe.toList := by
  cases wanted <;> decide +kernel

theorem noControl_mismatch (style : Decimal.Style) (found : Found) (wanted : Wanted) :
    NoControl (mismatch style found wanted).toList :=
  Text.noControl_string.2 ⟨Text.noControl_string.2 ⟨Text.noControl_string.2
    ⟨by decide +kernel, found.noControl_describe style⟩, by decide +kernel⟩,
    wanted.noControl_describe⟩

end Shape

namespace Json

/-! ## The end of a message -/

/-- A number behind a blank ends where no more digits follow it, seen from the end of the text. -/
theorem eq_of_ends_in_number {a b : List Char} {m n : Nat}
    (h : a ++ ' ' :: Nat.toDigits 10 m = b ++ ' ' :: Nat.toDigits 10 n) : a = b ∧ m = n := by
  have hdigits : ∀ n, ∀ c ∈ (Nat.toDigits 10 n).reverse, c.isDigit = true := fun n c hc =>
    Nat.isDigit_of_mem_toDigits (by decide) (by decide) (List.mem_reverse.1 hc)
  have htake : ∀ (a : List Char) n,
      (a ++ ' ' :: Nat.toDigits 10 n).reverse.takeWhile Char.isDigit =
        (Nat.toDigits 10 n).reverse := by
    intro a n
    rw [List.reverse_append, List.reverse_cons, List.append_assoc,
      List.takeWhile_append_of_pos (hdigits n)]
    exact List.append_nil _
  have hnumber : Nat.toDigits 10 m = Nat.toDigits 10 n := by
    rw [← List.reverse_inj, ← htake a m, h, htake b n]
  have hmn : m = n := by
    rw [← Nat.ofDigitChars_ten_toDigits (n := m), hnumber, Nat.ofDigitChars_ten_toDigits]
  rw [hnumber] at h
  exact ⟨List.append_cancel_right h, hmn⟩

/-- A report is its cause, a line and a column. -/
theorem Report.toList_text (r : Report) :
    r.text.toList = r.cause.text.toList ++ " at line".toList ++
      ' ' :: Nat.toDigits 10 r.place.line ++ " column".toList ++ ' ' :: Nat.toDigits 10 r.place.column := by
  have happend : ∀ a b c d e : String, (a ++ b ++ c ++ d ++ e).toList =
      a.toList ++ b.toList ++ c.toList ++ d.toList ++ e.toList := by
    simp only [String.toList_append, implies_true]
  have htext : r.text.toList = _ := happend r.cause.text " at line " (toString r.place.line)
    " column " (toString r.place.column)
  have hline : " at line ".toList = " at line".toList ++ [' '] := by decide
  have hcolumn : " column ".toList = " column".toList ++ [' '] := by decide
  rw [htext, hline, hcolumn]
  simp only [toList_toString_nat, List.append_assoc, List.cons_append, List.nil_append]

/-- Reports with the same text say the same of the same place. -/
theorem Report.text_eq_iff {r r' : Report} :
    r.text = r'.text ↔ r.cause.text = r'.cause.text ∧ r.place = r'.place := by
  constructor
  · intro h
    have h := congrArg String.toList h
    rw [Report.toList_text, Report.toList_text] at h
    obtain ⟨h, hcolumn⟩ := eq_of_ends_in_number h
    obtain ⟨h, hline⟩ := eq_of_ends_in_number (List.append_cancel_right h)
    refine ⟨String.toList_inj.1 (List.append_cancel_right h), ?_⟩
    obtain ⟨cause, line, column⟩ := r
    obtain ⟨cause', line', column'⟩ := r'
    obtain rfl : line = line' := hline
    obtain rfl : column = column' := hcolumn
    rfl
  · rintro ⟨hcause, hplace⟩
    rw [text, text, hcause, hplace]

/-- What was found shows in a message as it is described. -/
theorem text_wrongShape_eq_iff {found found' : Shape.Found} {wanted : Shape.Wanted} :
    (Cause.wrongShape found wanted).text = (Cause.wrongShape found' wanted).text ↔
      found.describe .scientific = found'.describe .scientific := by
  have hbetween : ∀ a b b' c d : String, a ++ b ++ c ++ d = a ++ b' ++ c ++ d ↔ b = b' := by
    simp only [String.append_left_inj, String.append_right_inj, implies_true]
  exact hbetween _ _ _ _ _

/-! ## Refusals for a shape -/

/-- A refusal for the shape of a value. -/
def Cause.IsShape : Cause → Prop
  | .wrongShape .. => True
  | _ => False

/-- A cause that is about a shape names what was found and what was wanted. -/
theorem Cause.IsShape.eq {cause : Cause} (h : cause.IsShape) :
    ∃ found wanted, cause = .wrongShape found wanted := by
  cases cause with
  | wrongShape found wanted => exact ⟨found, wanted, rfl⟩
  | _ => exact h.elim

/-- A report about a shape has no control character in it. -/
theorem Report.noControl_text {r : Report} (h : r.cause.IsShape) : NoControl r.text.toList := by
  obtain ⟨found, wanted, hcause⟩ := h.eq
  rw [Report.text, hcause]
  exact Text.noControl_string.2 ⟨Text.noControl_string.2 ⟨Text.noControl_string.2
    ⟨Text.noControl_string.2 ⟨Shape.noControl_mismatch .scientific found wanted, by decide +kernel⟩,
      noControl_nat _⟩, by decide +kernel⟩, noControl_nat _⟩

end Json

end BrokerAgent
