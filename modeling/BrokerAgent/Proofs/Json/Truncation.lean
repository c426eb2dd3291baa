import BrokerAgent.Proofs.Json.Members

/-!
# Texts that are cut short

A reader that takes a value off a whole text can do only two things with the text cut off somewhere:
it has stopped before the cut, and then nothing changes but what is left, or it reports that the
text ended (`Cut`). That is shown for each reader from the ones it calls, so it holds wherever the
cut falls: inside an escape, between two tokens, behind a comma. An object of known members needs
its last bracket, so no part of it is accepted (`settings_cut`).
-/

namespace BrokerAgent.Json

/-- The text ended too early. -/
def Ended {α : Type} (result : Except Fault α) : Prop :=
  ∃ fault, result = .error fault ∧ fault.cause.category = .endFault

/-- Compares what is read of a whole text with what is read of it cut short; `restore` puts the
missing text back to what is left. -/
def Cut {α : Type} (restore : α → α) (whole cut : Except Fault α) : Prop :=
  ∀ a, whole = .ok a → (∃ b, cut = .ok b ∧ restore b = a) ∨ Ended cut

/-- The missing text put back behind what a reading left. -/
def restoreRest {α : Type} (q : List Char) (reading : α × List Char) : α × List Char :=
  (reading.1, reading.2 ++ q)

/-- The missing text put back behind the next item or member. -/
def Next.restore (q : List Char) : Next → Next
  | closed rest => .closed (rest ++ q)
  | entry rest => .entry (rest ++ q)

/-! ## Readers made of readers -/

section Cut

variable {α β : Type} {restore : α → α} {restore' : β → β} {whole cut : Except Fault α}

/-- What fails at the end of the text fails there whatever comes next. -/
theorem Ended.bind {result : Except Fault α} (h : Ended result) (f : α → Except Fault β) :
    Ended (result >>= f) := by
  obtain ⟨fault, rfl, hc⟩ := h
  exact ⟨fault, rfl, hc⟩

/-- Of a text that is refused as a whole nothing is claimed. -/
theorem Cut.of_refused (h : ∀ a, whole ≠ .ok a) : Cut restore whole cut :=
  fun a ha => absurd ha (h a)

/-- A reading that fails at the end of the text is allowed for. -/
theorem Cut.of_ended (h : Ended cut) : Cut restore whole cut :=
  fun _ _ => .inr h

/-- A reading that looks no further is the same when the text is cut. -/
theorem Cut.done (a : α) : Cut restore (.ok (restore a)) (.ok a) := by
  rintro b ⟨⟩
  exact .inl ⟨a, rfl, rfl⟩

/-- One reader after the other. -/
theorem Cut.bind {f g : α → Except Fault β} (h : Cut restore whole cut)
    (hf : ∀ a, cut = .ok a → Cut restore' (f (restore a)) (g a)) :
    Cut restore' (whole >>= f) (cut >>= g) := by
  intro b hb
  cases hw : whole with
  | error fault =>
    rw [hw] at hb
    cases hb
  | ok a =>
    rw [hw] at hb
    rcases h a hw with ⟨a', hcut, rfl⟩ | hend
    · rw [hcut]
      exact hf a' hcut b hb
    · exact .inr (hend.bind g)

end Cut

theorem mapValue_eq_bind {α β : Type} (reading : Reading α) (f : α → β) :
    reading.mapValue f =
      (reading >>= fun (a, rest) => .ok (f a, rest) : Except Fault (β × List Char)) := by
  cases reading <;> rfl

/-- A change of the value makes no difference to where a text is cut. -/
theorem Cut.mapValue {α β : Type} {q : List Char} {whole cut : Reading α}
    (h : Cut (restoreRest q) whole cut) (f : α → β) :
    Cut (restoreRest q) (whole.mapValue f) (cut.mapValue f) := by
  rw [mapValue_eq_bind, mapValue_eq_bind]
  exact h.bind fun (a, rest) _ => .done (f a, rest)

/-! ## The first character after blanks -/

/-- Goes on with the first character after the blanks; reports the end if there is none. -/
def afterBlanks {α : Type} (ended : Cause) (next : Char → List Char → Except Fault α)
    (s : List Char) : Except Fault α :=
  match skipSpace s with
  | [] => faultAt ended []
  | c :: rest => next c rest

/-- Blanks are passed over in the same way, or up to the end. -/
theorem skipSpace_cut (p q : List Char) :
    skipSpace p = [] ∨
      ∃ c rest, skipSpace p = c :: rest ∧ skipSpace (p ++ q) = c :: (rest ++ q) := by
  induction p with
  | nil => exact .inl rfl
  | cons c p ih =>
    by_cases hc : isSpace c = true
    · simp only [skipSpace, List.cons_append, List.dropWhile_cons_of_pos hc]
      exact ih
    · rw [Bool.not_eq_true] at hc
      rw [List.cons_append, skipSpace_cons hc, skipSpace_cons hc]
      exact .inr ⟨c, p, rfl, rfl⟩

/-- What is read behind blanks is cut where it is. -/
theorem cut_afterBlanks {α : Type} {restore : α → α} {q : List Char}
    {next : Char → List Char → Except Fault α} (ended : Cause) (hended : ended.category = .endFault)
    (hnext : ∀ c rest, Cut restore (next c (rest ++ q)) (next c rest)) (p : List Char) :
    Cut restore (afterBlanks ended next (p ++ q)) (afterBlanks ended next p) := by
  unfold afterBlanks
  rcases skipSpace_cut p q with hp | ⟨c, rest, hp, hpq⟩
  · rw [hp]
    exact .of_ended ⟨_, rfl, hended⟩
  · rw [hp, hpq]
    exact hnext c rest

/-! ## Texts -/

theorem utf8Size_of_hexDigit? {c : Char} {n : Nat} (h : Text.hexDigit? c = some n) :
    c.utf8Size = 1 := by
  have hc : c.toNat ≤ 0x7f := by
    unfold Text.hexDigit? at h
    split at h
    · rename_i hd
      simp only [Char.isDigit, Bool.and_eq_true, decide_eq_true_eq] at hd
      exact Nat.le_trans hd.2 (by decide)
    split at h
    · rename_i hd
      exact Nat.le_trans hd.2 (by decide)
    split at h
    · rename_i hd
      exact Nat.le_trans hd.2 (by decide)
    · cases h
  unfold Char.utf8Size
  exact if_pos hc

theorem utf8Size_of_hexUnit? {a b c d x : Char} {n : Nat} (h : hexUnit? a b c d = some n)
    (hx : x ∈ [a, b, c, d]) : x.utf8Size = 1 := by
  simp only [hexUnit?, Option.bind_eq_bind, Option.bind_eq_some_iff] at h
  obtain ⟨na, ha, nb, hb, nc, hc, nd, hd, -⟩ := h
  simp only [List.mem_cons, List.not_mem_nil, or_false] at hx
  rcases hx with rfl | rfl | rfl | rfl
  · exact utf8Size_of_hexDigit? ha
  · exact utf8Size_of_hexDigit? hb
  · exact utf8Size_of_hexDigit? hc
  · exact utf8Size_of_hexDigit? hd

/-- A text of ASCII characters has as many bytes as characters. -/
theorem size_eq_length {s : List Char} (h : ∀ c ∈ s, c.utf8Size = 1) :
    Utf8.size s = s.length := by
  induction s with
  | nil => rfl
  | cons c s ih =>
    have hs : ∀ d ∈ s, d.utf8Size = 1 := fun d hd => h d (List.mem_cons_of_mem c hd)
    rw [Utf8.size, h c List.mem_cons_self, ih hs, List.length_cons, Nat.add_comm]

/-- Four hexadecimal digits are a code unit. -/
theorem readUnit_of_hexUnit? {a b c d : Char} {n : Nat} (h : hexUnit? a b c d = some n)
    (rest : List Char) : readUnit ([a, b, c, d] ++ rest) = .ok (n, rest) := by
  have hsize : ¬ Utf8.size ((a :: b :: c :: d :: rest).take 4) < 4 :=
    Nat.not_lt.2 (four_le_size a b c d)
  simp only [List.cons_append, List.nil_append, readUnit, if_neg hsize, h]

/-- Four digits take four bytes, so a part of them is short of bytes. -/
theorem cut_readUnit (p q : List Char) :
    Cut (restoreRest q) (readUnit (p ++ q)) (readUnit p) := by
  rintro ⟨n, rest⟩ h
  obtain ⟨a, b, c, d, hpq, hunit⟩ := readUnit_eq_ok h
  rcases List.append_eq_append_iff.1 hpq with ⟨more, hdigits, hq⟩ | ⟨left, hp, hrest⟩
  · cases more with
    | nil =>
      -- the cut is just behind the digits
      rw [List.append_nil] at hdigits
      refine .inl ⟨(n, []), ?_, Prod.ext rfl hq⟩
      rw [← hdigits]
      exact readUnit_of_hexUnit? hunit []
    | cons e more =>
      have hlength : p.length < 4 := by
        have := congrArg List.length hdigits
        simp only [List.length_append, List.length_cons, List.length_nil] at this
        omega
      have hbytes : ∀ x ∈ p, x.utf8Size = 1 := by
        intro x hx
        apply utf8Size_of_hexUnit? hunit
        rw [hdigits]
        exact List.mem_append_left _ hx
      have hsize : Utf8.size (p.take 4) < 4 := by
        rw [List.take_of_length_le (Nat.le_of_lt hlength), size_eq_length hbytes]
        exact hlength
      right
      unfold readUnit
      rw [if_pos hsize]
      exact ⟨_, rfl, rfl⟩
  · rw [hp, hrest]
    exact .inl ⟨(n, left), readUnit_of_hexUnit? hunit left, rfl⟩

/-- The second half of a pair is a code unit behind a backslash and its letter. -/
theorem readPair_unit (leading : Nat) (s : List Char) :
    readPair leading ('\\' :: 'u' :: s) =
      (readUnit s >>= fun (trailing, rest) =>
        if isTrailing trailing then
          .ok (Char.ofNat (0x10000 + (leading - 0xD800) * 0x400 + (trailing - 0xDC00)), rest)
        else faultHere .loneSurrogate rest : Except Fault (Char × List Char)) := by
  simp only [readPair]
  cases readUnit s <;> rfl

/-- A pair that is cut fails at the end. -/
theorem cut_readPair (leading : Nat) (p q : List Char) :
    Cut (restoreRest q) (readPair leading (p ++ q)) (readPair leading p) := by
  match p with
  | [] => exact .of_ended ⟨_, rfl, rfl⟩
  | c :: p =>
    by_cases hslash : c = '\\'
    · subst hslash
      match p with
      | [] => exact .of_ended ⟨_, rfl, rfl⟩
      | d :: p =>
        by_cases hu : d = 'u'
        · subst hu
          rw [List.cons_append, List.cons_append, readPair_unit, readPair_unit]
          refine (cut_readUnit p q).bind fun (trailing, rest) _ => ?_
          dsimp only [restoreRest]
          split
          · generalize Char.ofNat _ = x
            exact .done (x, rest)
          · exact .of_refused (by simp [faultHere])
        · apply Cut.of_refused
          intro a ha
          rw [List.cons_append, List.cons_append, readPair] at ha
          · cases ha
          · exact List.cons_ne_nil d _
          · exact fun rest hrest => hu (List.cons.inj hrest).1
    · apply Cut.of_refused
      intro a ha
      rw [List.cons_append, readPair] at ha
      · cases ha
      · exact List.cons_ne_nil c _
      · exact fun h => hslash (List.cons.inj h).1
      · exact fun rest hrest => hslash (List.cons.inj hrest).1
      · exact fun rest hrest => hslash (List.cons.inj hrest).1

/-- An escape by number is a code unit or a pair of them. -/
theorem readEscape_u (s : List Char) :
    readEscape ('u' :: s) =
      (readUnit s >>= fun (n, rest) =>
        if isTrailing n then faultHere .loneSurrogate rest
        else if isLeading n then readPair n rest
        else .ok (Char.ofNat n, rest) : Except Fault (Char × List Char)) := by
  simp only [readEscape]
  cases readUnit s <;> rfl

theorem readEscape_of_ne {letter : Char} (h : letter ≠ 'u') (s : List Char) :
    readEscape (letter :: s) =
      match shortEscape? letter with
      | some c => .ok (c, s)
      | none => faultAt .invalidEscape (letter :: s) := by
  unfold readEscape
  split
  · contradiction
  · simp_all
  · rename_i heq
    obtain ⟨rfl, rfl⟩ := List.cons.inj heq
    rfl

/-- An escape that is cut fails at the end. -/
theorem cut_readEscape (p q : List Char) :
    Cut (restoreRest q) (readEscape (p ++ q)) (readEscape p) := by
  match p with
  | [] => exact .of_ended ⟨_, rfl, rfl⟩
  | c :: p =>
    rw [List.cons_append]
    by_cases hu : c = 'u'
    · rw [hu, readEscape_u, readEscape_u]
      refine (cut_readUnit p q).bind fun (n, rest) _ => ?_
      dsimp only [restoreRest]
      split
      · exact .of_refused (by simp [faultHere])
      split
      · exact cut_readPair n rest q
      · exact .done (_, rest)
    · rw [readEscape_of_ne hu, readEscape_of_ne hu]
      cases shortEscape? c with
      | none => exact .of_refused (by simp [faultAt])
      | some d => exact .done (d, p)

/-- A backslash in a text begins an escape. -/
theorem readText_backslash (s : List Char) :
    readText ('\\' :: s) =
      (readEscape s >>= fun (d, rest) => (readText rest).mapValue (d :: ·) :
        Except Fault (List Char × List Char)) := by
  rw [readText, if_neg (by decide), if_pos rfl]
  split
  · rename_i h
    rw [h]
    rfl
  · rename_i h
    rw [h]
    show _ = (readText _).mapValue _
    rw [Reading.mapValue.eq_def]
    split <;> rename_i h <;> rw [h]

/-- A text that is cut fails at the end. -/
theorem cut_readText (p q : List Char) :
    Cut (restoreRest q) (readText (p ++ q)) (readText p) := by
  match p with
  | [] =>
    rw [readText.eq_def []]
    exact .of_ended ⟨_, rfl, rfl⟩
  | c :: p =>
    rw [List.cons_append]
    by_cases hquote : c = '"'
    · rw [hquote, readText_quote, readText_quote]
      exact .done ([], p)
    by_cases hslash : c = '\\'
    · rw [hslash, readText_backslash, readText_backslash]
      refine (cut_readEscape p q).bind fun (d, rest) hd => ?_
      have := length_lt_of_readEscape hd
      exact (cut_readText rest q).mapValue _
    by_cases hlow : c < ' '
    · apply Cut.of_refused
      intro a ha
      rw [readText, if_neg hquote, if_neg hslash, if_pos hlow] at ha
      cases ha
    · rw [readText_raw (Char.not_lt.1 hlow) hquote hslash,
        readText_raw (Char.not_lt.1 hlow) hquote hslash]
      exact (cut_readText p q).mapValue _
termination_by p.length

/-! ## Tokens between values -/

theorem cut_readColon (p q : List Char) : Cut (· ++ q) (readColon (p ++ q)) (readColon p) := by
  apply cut_afterBlanks .endInObject rfl
  intro c rest
  split
  · exact .done rest
  · exact .of_refused (by simp [faultAt])

theorem cut_nextItem (first : Bool) (p q : List Char) :
    Cut (Next.restore q) (nextItem first (p ++ q)) (nextItem first p) := by
  apply cut_afterBlanks .endInList rfl
  intro c rest
  split
  · exact .done (Next.closed rest)
  split
  · exact .done (Next.entry (c :: rest))
  split
  · apply cut_afterBlanks .endInValue rfl
    intro d rest
    split
    · exact .of_refused (by simp [faultAt])
    · exact .done (Next.entry (d :: rest))
  · exact .of_refused (by simp [faultAt])

theorem cut_nextMember (first : Bool) (p q : List Char) :
    Cut (Next.restore q) (nextMember first (p ++ q)) (nextMember first p) := by
  apply cut_afterBlanks .endInObject rfl
  intro c rest
  split
  · exact .done (Next.closed rest)
  split
  · split
    · exact .done (Next.entry rest)
    · exact .of_refused (by simp [faultAt])
  split
  · apply cut_afterBlanks .endInValue rfl
    intro d rest
    split
    · exact .done (Next.entry rest)
    split
    · exact .of_refused (by simp [faultAt])
    · exact .of_refused (by simp [faultAt])
  · exact .of_refused (by simp [faultAt])

/-! ## Values of a wanted shape -/

/-- A text begins with a quote behind blanks. -/
theorem readString_eq :
    readString = afterBlanks .endInValue fun c rest =>
      if c = '"' then (readText rest).mapValue String.ofList else refuse .text c rest := by
  funext s
  cases hs : skipSpace s with
  | nil => simp only [readString, afterBlanks, hs]
  | cons c rest =>
    simp only [readString, afterBlanks, hs]
    cases readText rest <;> rfl

/-- A value that should be a text is cut where it is. -/
theorem cut_readString (p q : List Char) :
    Cut (restoreRest q) (readString (p ++ q)) (readString p) := by
  rw [readString_eq]
  apply cut_afterBlanks .endInValue rfl
  intro c rest
  split
  · exact (cut_readText rest q).mapValue String.ofList
  · exact .of_refused (refuse_ne_ok _ _ _)

/-- The items of a list by the step that looks for the next. -/
theorem readItems_eq (first : Bool) (s : List Char) :
    readItems first s =
      (nextItem first s >>= fun
        | .closed rest => .ok ([], rest)
        | .entry rest => readString rest >>= fun (item, rest) =>
          (readItems false rest).mapValue (item :: ·) :
        Except Fault (List String × List Char)) := by
  cases hn : nextItem first s with
  | error fault =>
    rw [readItems]
    split <;> simp_all [bind, Except.bind]
  | ok next =>
    cases next with
    | closed rest =>
      rw [readItems]
      split <;> simp_all [bind, Except.bind]
    | entry rest =>
      rw [readItems_entry hn]
      show _ = (readString rest >>= fun (item, rest) =>
        (readItems false rest).mapValue (item :: ·) : Except Fault (List String × List Char))
      cases readString rest <;> rfl

/-- Items that are cut fail at the end. -/
theorem cut_readItems (first : Bool) (p q : List Char) :
    Cut (restoreRest q) (readItems first (p ++ q)) (readItems first p) := by
  rw [readItems_eq first (p ++ q), readItems_eq first p]
  refine (cut_nextItem first p q).bind fun next hnext => ?_
  cases next with
  | closed rest => exact .done ([], rest)
  | entry rest =>
    refine (cut_readString rest q).bind fun (item, after) hitem => ?_
    have := length_le_of_nextItem hnext
    have := length_lt_of_readString hitem
    exact (cut_readItems false after q).mapValue _
termination_by p.length

theorem cut_readStrings (p q : List Char) :
    Cut (restoreRest q) (readStrings (p ++ q)) (readStrings p) := by
  apply cut_afterBlanks .endInValue rfl
  intro c rest
  split
  · exact cut_readItems true rest q
  · exact .of_refused (refuse_ne_ok _ _ _)

theorem cut_readField (field : Field) (record : Settings) (p q : List Char) :
    Cut (restoreRest q) (readField field record (p ++ q)) (readField field record p) := by
  cases field with
  | protocols | addresses => exact (cut_readStrings p q).mapValue _
  | id | secret => exact (cut_readString p q).mapValue _

/-! ## Objects of known members -/

/-- What is read for the members of an object, as one reader after the other. -/
theorem readMembers_eq (seen : List Field) (record : Settings) (first : Bool) (s : List Char) :
    readMembers seen record first s =
      (nextMember first s >>= fun
        | .closed rest => .ok (record, rest)
        | .entry rest => readText rest >>= fun (key, after) =>
          match Field.ofName? (String.ofList key) with
          | none => readColon after >>= fun value =>
            skipFrom .value [] value >>= fun rest => readMembers seen record false rest
          | some field =>
            if field ∈ seen then faultHere (.repeatedField field) (pastRepeated after)
            else readColon after >>= fun value =>
              readField field record value >>= fun (record, rest) =>
                readMembers (field :: seen) record false rest :
        Except Fault (Settings × List Char)) := by
  cases hn : nextMember first s with
  | error fault =>
    rw [readMembers]
    split <;> simp_all [bind, Except.bind]
  | ok next =>
    cases next with
    | closed rest =>
      rw [readMembers]
      split <;> simp_all [bind, Except.bind]
    | entry rest =>
      cases hk : readText rest with
      | error fault =>
        rw [readMembers]
        split <;> simp_all [bind, Except.bind]
        split <;> simp_all
      | ok read =>
        obtain ⟨key, after⟩ := read
        simp only [bind, Except.bind, hk]
        cases hc : readColon after with
        | error fault =>
          rw [readMembers]
          split <;> simp_all only [reduceCtorEq, Except.ok.injEq, Next.entry.injEq]
          split <;> simp_all only [reduceCtorEq, Except.ok.injEq, Prod.mk.injEq]
          cases Field.ofName? _ with
          | none =>
            dsimp only
            split <;> simp_all
          | some field =>
            dsimp only
            split
            · rfl
            · split <;> simp_all
        | ok value =>
          rw [readMembers_entry hn hk hc]
          cases Field.ofName? _ with
          | none =>
            dsimp only
            cases skipFrom .value [] value <;> rfl
          | some field =>
            dsimp only
            cases readField field record value <;> rfl

/-- A member whose key is the name of a field. -/
def Known (member : List Char × Value) : Prop :=
  ∃ field, Field.ofName? (String.ofList member.1) = some field

/-- Reading a known member goes on behind its value with what the member adds, or has met the
cut. -/
theorem readMembers_cut_member {first : Bool} {p q key k written rest : List Char} {v : Value}
    {g g' : Gathered} (hknown : Known (key, v)) (htake : g.take (key, v) = .ok g')
    (hk : WrittenKey key ('"' :: k)) (hv : Written (.value v) written) (hrest : Delimited rest)
    (hnext : nextMember first (p ++ q) = .ok (.entry (k ++ (written ++ rest)))) :
    (∃ left, left ++ q = rest ∧
      readMembers g.seen g.record first p = readMembers g'.seen g'.record false left) ∨
      Ended (readMembers g.seen g.record first p) := by
  obtain ⟨field, hfield⟩ := hknown
  obtain ⟨hseen, hassign, hnew⟩ := take_eq_ok hfield htake
  generalize hkey : '"' :: k = quoted at hk
  obtain @⟨spelling, b₁, b₂, hspell, h₁, h₂⟩ := hk
  obtain rfl : k = spelling ++ '"' :: (b₁ ++ ':' :: b₂) := by simpa using hkey
  simp only [List.cons_append, List.append_assoc] at hnext
  -- the readers one after the other, each on what the one before it has left
  rw [readMembers_eq]
  rcases (cut_nextMember first p q _ hnext).symm with hend | ⟨next, hn, hentry⟩
  · exact .inr (hend.bind _)
  cases next with
  | closed left => cases hentry
  | entry left =>
    have hkey : readText (left ++ q) = .ok (key, b₁ ++ ':' :: (b₂ ++ (written ++ rest))) := by
      rw [show left ++ q = _ from Next.entry.inj hentry]
      exact readText_spelled hspell _
    simp only [hn, bind, Except.bind]
    rcases (cut_readText left q _ hkey).symm with hend | ⟨⟨key', left⟩, hk, hafter⟩
    · exact .inr (hend.bind _)
    simp only [restoreRest, Prod.mk.injEq] at hafter
    obtain ⟨rfl, hafter⟩ := hafter
    have hcolon : readColon (left ++ q) = .ok (b₂ ++ (written ++ rest)) := by
      rw [hafter]
      exact readColon_blank h₁ _
    simp only [hk, hfield, if_neg hseen]
    rcases (cut_readColon left q _ hcolon).symm with hend | ⟨left, hc, hvalue⟩
    · exact .inr (hend.bind _)
    have hread : readField field g.record (left ++ q) = .ok (g'.record, rest) := by
      have h := readField_written hv h₂ hrest field g.record
      rw [hassign] at h
      rw [show left ++ q = _ from hvalue]
      exact h
    simp only [hc]
    rcases (cut_readField field g.record left q _ hread).symm with hend | ⟨⟨new, left⟩, hr, hlast⟩
    · exact .inr (hend.bind _)
    simp only [restoreRest, Prod.mk.injEq] at hlast
    obtain ⟨rfl, hlast⟩ := hlast
    simp only [hr, hnew]
    exact .inl ⟨left, hlast, rfl⟩

/-- An object that ends in front of the cut ends for the whole text too. -/
theorem nextMember_cut_closing {first : Bool} {p q rest : List Char}
    (h : nextMember first (p ++ q) = .ok (.closed rest)) (hq : rest.length < q.length) :
    Ended (nextMember first p) := by
  rcases (cut_nextMember first p q _ h).symm with hend | ⟨next, -, hclosed⟩
  · exact hend
  cases next with
  | closed left =>
    have hlength := congrArg List.length (Next.closed.inj hclosed)
    rw [List.length_append] at hlength
    omega
  | entry left => cases hclosed

/-- The end of an object is not accepted before its bracket. -/
theorem readMembers_cut_closing {first : Bool} {p q b : List Char} (hb : Blank b)
    (hpq : p ++ q = b ++ ['\x7d']) (hq : q ≠ []) (seen : List Field) (record : Settings) :
    Ended (readMembers seen record first p) := by
  have hclosing := nextMember_closing first hb []
  rw [← hpq] at hclosing
  rw [readMembers_eq]
  exact (nextMember_cut_closing hclosing (List.length_pos_iff.2 hq)).bind _

/-- Known members are not accepted if those behind the first one are not. -/
theorem readMembers_cut_cons {first : Bool} {p q key k s t : List Char} {v : Value}
    {ms : List (List Char × Value)} {g g' : Gathered} (hk : WrittenKey key ('"' :: k))
    (hv : Written (.value v) s) (hms : Written (.members ms) t) (hknown : Known (key, v))
    (hg : ((key, v) :: ms).foldlM Gathered.take g = .ok g')
    (hnext : nextMember first (p ++ q) = .ok (.entry (k ++ (s ++ t))))
    (hlater : ∀ g left, ms.foldlM Gathered.take g = .ok g' → left ++ q = t →
      Ended (readMembers g.seen g.record false left)) :
    Ended (readMembers g.seen g.record first p) := by
  obtain ⟨next, htake, hg⟩ := foldlM_take_cons hg
  have hrest := hms.delimited_members []
  rw [List.append_nil] at hrest
  rcases readMembers_cut_member hknown htake hk hv hrest hnext with ⟨left, hleft, hread⟩ | hend
  · rw [hread]
    exact hlater next left hg hleft
  · exact hend

/-- Known members that are cut before their bracket are not accepted. -/
theorem readMembers_cut {ms : List (List Char × Value)} {t p q : List Char}
    (h : Written (.members ms) t) (hknown : ∀ m ∈ ms, Known m) {g g' : Gathered}
    (hg : ms.foldlM Gathered.take g = .ok g') (hpq : p ++ q = t) (hq : q ≠ []) :
    Ended (readMembers g.seen g.record false p) := by
  -- on the members; the cut moves along with what is left of the text
  induction ms generalizing t p g with
  | nil =>
    cases h with
    | noMembers hb => exact readMembers_cut_closing hb hpq hq g.seen g.record
  | cons m ms ih =>
    cases h with
    | @members b₁ b₂ k s t key v _ h₁ h₂ hk hv hms =>
      obtain ⟨k, rfl⟩ := hk.head
      obtain ⟨hmember, hothers⟩ := List.forall_mem_cons.1 hknown
      have hnext := nextMember_comma h₁ h₂ (k ++ (s ++ t))
      simp only [List.cons_append, List.append_assoc] at hpq
      rw [← hpq] at hnext
      exact readMembers_cut_cons hk hv hms hmember hg hnext fun g left => ih hms hothers

/-- A text that begins an object is read as one, once its bracket is there. -/
theorem readSettings_cut_object {p q b tail : List Char} (hb : Blank b)
    (hpq : p ++ q = b ++ '\x7b' :: tail) :
    (∃ left, left ++ q = tail ∧ readSettings p = readMembers [] {} true left) ∨
      Ended (readSettings p) := by
  have hwhole : skipSpace (p ++ q) = '\x7b' :: tail := by
    rw [hpq]
    exact skipSpace_blank_cons hb (by decide) tail
  unfold readSettings
  rcases skipSpace_cut p q with hp | ⟨c, left, hp, hpq⟩
  · rw [hp]
    exact .inr ⟨_, rfl, rfl⟩
  · rw [hwhole] at hpq
    obtain ⟨rfl, rfl⟩ := List.cons.inj hpq
    rw [hp]
    exact .inl ⟨left, rfl, rfl⟩

/-- An object of known members is not accepted before it is closed. -/
theorem settings_cut {ms : List (List Char × Value)} {b s p q : List Char} {record : Settings}
    (hb : Blank b) (h : Written (.value (.object ms)) s) (hknown : ∀ m ∈ ms, Known m)
    (hg : gather ms = .ok record) (hpq : p ++ q = b ++ s) (hq : q ≠ []) : Ended (settings p) := by
  have hread : Ended (readSettings p) := by
    cases h with
    | @emptyObject gap hgap =>
      rw [List.cons_append] at hpq
      rcases readSettings_cut_object hb hpq with ⟨left, hleft, hread⟩ | hend
      · rw [hread]
        exact readMembers_cut_closing hgap hleft hq [] {}
      · exact hend
    | @object gap k s t key v ms hgap hk hv hms =>
      obtain ⟨k, rfl⟩ := hk.head
      obtain ⟨hmember, hothers⟩ := List.forall_mem_cons.1 hknown
      obtain ⟨g, hfold, -⟩ := foldlM_of_gather hg
      simp only [List.cons_append, List.append_assoc] at hpq
      rcases readSettings_cut_object hb hpq with ⟨left, hleft, hread⟩ | hend
      · have hnext := nextMember_first hgap (k ++ (s ++ t))
        rw [← hleft] at hnext
        rw [hread]
        exact readMembers_cut_cons (g := {}) hk hv hms hmember hfold hnext fun g left hg hleft =>
          readMembers_cut hms hothers hg hleft hq
      · exact hend
  obtain ⟨fault, hread, hc⟩ := hread
  refine ⟨fault, ?_, hc⟩
  rw [settings, hread]

end BrokerAgent.Json
