import BrokerAgent.Log
import BrokerAgent.Proofs.Text.Quoted

/-!
# What the log shows

A log shows the events up to its level, so a quieter log shows some of what a more verbose one shows
(`Level.filter_filter`), and a failure is in every log. A message goes into the log character by
character. Only control characters are changed on the way (`logged_of_noControl`), and the ends of
lines are kept, so two failures of which a log shows the same differ in control characters at most
(`log_failed_eq_iff`).
-/

namespace BrokerAgent

open Text (NoControl isControl)

/-! ## Events -/

namespace Level

/-- A log shows what is left of a more verbose one after the same choice. -/
theorem filter_filter {quiet verbose : Level} (h : quiet.rank ≤ verbose.rank)
    (events : List Event) : quiet.filter (verbose.filter events) = quiet.filter events := by
  simp only [filter, List.filter_filter]
  apply List.filter_congr
  intro e _
  by_cases he : e.level.rank ≤ quiet.rank
  · simp [he, Nat.le_trans he h]
  · simp [he]

/-- The most verbose log shows everything. -/
theorem filter_trace (events : List Event) : trace.filter events = events := by
  refine List.filter_eq_self.2 fun e _ => ?_
  cases e <;> rfl

/-- A failure is the most important event, so a log of any level shows it. -/
theorem filter_failed (level : Level) (message : String) :
    level.filter [.failed message] = [.failed message] := by
  cases level <;> rfl

end Level

/-! ## Messages -/

/-- A message as the log shows it. -/
def logged (message : List Char) : List Char :=
  message.flatMap Event.logChar

theorem logged_append (a b : List Char) : logged (a ++ b) = logged a ++ logged b :=
  List.flatMap_append

theorem logged_newline (s : List Char) : logged ('\n' :: s) = '\n' :: logged s := rfl

/-- Only control characters are spelled out. -/
theorem logChar_of_not_isControl {c : Char} (hc : isControl c = false) :
    Event.logChar c = [c] := by
  have hne : ∀ {d}, isControl d = true → c ≠ d := by
    rintro d hd rfl
    rw [hc] at hd
    cases hd
  have hrange : ¬ (0x80 ≤ c.toNat ∧ c.toNat < 0xA0) := by
    simp only [isControl, Bool.or_eq_false_iff, Bool.and_eq_false_iff, decide_eq_false_iff_not]
      at hc
    omega
  rw [Event.logChar, if_neg (hne (by decide)), if_neg (hne (by decide)), if_neg (hne (by decide)),
    if_neg (hne (by decide)), if_neg (hne (by decide)), if_neg hrange]

/-- A text without control characters is logged as it is. -/
theorem logged_of_noControl {s : List Char} (h : NoControl s) : logged s = s := by
  induction s with
  | nil => rfl
  | cons c s ih =>
    obtain ⟨hc, hs⟩ := List.forall_mem_cons.1 h
    rw [logged, List.flatMap_cons, logChar_of_not_isControl hc]
    exact congrArg (c :: ·) (ih hs)

/-- No line ends in the log but where one of the message does. -/
theorem newline_not_mem_logged {s : List Char} (h : '\n' ∉ s) : '\n' ∉ logged s := by
  intro hmem
  obtain ⟨c, hc, hmem⟩ := List.mem_flatMap.1 hmem
  have hc : c ≠ '\n' := fun heq => h (heq ▸ hc)
  unfold Event.logChar at hmem
  split at hmem
  · exact absurd hmem (by decide)
  split at hmem
  · exact absurd hmem (by decide)
  split at hmem
  · exact absurd hmem (by decide)
  split at hmem
  · exact absurd hmem (by decide)
  split at hmem
  · exact absurd hmem (by decide)
  split at hmem
  · exact (Text.noControl_numbered c).newline_not_mem hmem
  · exact hc (List.mem_singleton.1 hmem).symm

/-- Every level shows a failure. -/
theorem log_failed (level : Level) (message : String) :
    level.log [.failed message] = (Event.failed message).line := by
  rw [Level.log, Level.filter_failed]
  exact String.empty_append

/-- A log shows two failures alike if it shows their messages alike. -/
theorem log_failed_eq_iff (level : Level) {a b : String} :
    level.log [.failed a] = level.log [.failed b] ↔ logged a.toList = logged b.toList := by
  have hline : ∀ message, (Event.failed message).line =
      String.ofList (List.replicate (5 - Level.error.name.length) ' ') ++ Level.error.name ++
        " ThreadId(01) " ++
        ("agent configuration failed: " ++ String.ofList (logged message.toList)) ++ "\n" :=
    fun _ => rfl
  rw [log_failed, log_failed, hline, hline, String.append_left_inj, String.append_right_inj,
    String.append_right_inj, String.ofList_inj]

end BrokerAgent
