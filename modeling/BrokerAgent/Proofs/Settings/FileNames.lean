import BrokerAgent.Proofs.Json.Texts
import BrokerAgent.Proofs.Text.Utf8
import BrokerAgent.Settings.Load
import Mathlib.Data.List.Induction

/-!
# The name of a file decides how it is read

The reader of a file is chosen by the last part of its path: what stands before it does not matter,
and neither do slashes behind it. `Path.Names` says without a splitter which name a path ends in,
and `NamesJson` which of these names belong to JSON. The main result is `reader_chosen_by_name`.
-/

namespace BrokerAgent

namespace Path

/-! ## Paths that end in a name -/

/-- A run of slashes, each of them alone or with a dot behind it. It leads nowhere. -/
inductive Idle : List Char → Prop
  | nil : Idle []
  | slash {s : List Char} (h : Idle s) : Idle ('/' :: s)
  | dot {s : List Char} (h : Idle s) : Idle ('/' :: '.' :: s)

/-- Nothing, or a text that ends in a slash. -/
def Directory (s : List Char) : Prop :=
  s = [] ∨ ∃ above, s = above ++ ['/']

/-- A name of a file: no part that stands for a directory, and of one piece. -/
structure Ordinary (name : List Char) : Prop where
  noSlash : '/' ∉ name
  notEmpty : name ≠ []
  notHere : name ≠ ['.']
  notUp : name ≠ ['.', '.']

/-- A path with an ordinary name in it, and nothing behind the name but an idle run. -/
inductive Names (name : List Char) : List Char → Prop
  | mk {directory run : List Char} (hname : Ordinary name) (hdirectory : Directory directory)
      (hrun : Idle run) : Names name (directory ++ name ++ run)

theorem Idle.append {s t : List Char} (hs : Idle s) (ht : Idle t) : Idle (s ++ t) := by
  induction hs with
  | nil => exact ht
  | slash _ ih => exact .slash ih
  | dot _ ih => exact .dot ih

/-- An idle run may be added behind a path, and any text and a slash before it. -/
theorem Names.extend {name path run : List Char} (h : Names name path) (hrun : Idle run)
    (above : List Char) : Names name (above ++ '/' :: path ++ run) := by
  obtain @⟨directory, run', hname, hdirectory, hrun'⟩ := h
  have hbelow : Directory (above ++ '/' :: directory) := by
    rcases hdirectory with rfl | ⟨inner, rfl⟩
    · exact .inr ⟨above, rfl⟩
    · exact .inr ⟨above ++ '/' :: inner, by simp⟩
  have h := Names.mk hname hbelow (hrun'.append hrun)
  simpa using h

/-! ## The parts of such paths -/

/-- A slash separates the parts of a path. -/
theorem parts_slash (s t : List Char) : parts (s ++ '/' :: t) = parts s ++ parts t := by
  rw [parts, pieces, List.splitOn_append_cons_self, List.filter_append]
  rfl

theorem parts_idle {run : List Char} (h : Idle run) (s : List Char) :
    parts (s ++ run) = parts s := by
  induction h generalizing s with
  | nil => rw [List.append_nil]
  | @slash run _ ih =>
    have hnil : parts [] = [] := by decide
    have hs := ih (s ++ ['/'])
    rw [parts_slash, hnil, List.append_nil] at hs
    rw [← hs, List.append_assoc]
    rfl
  | @dot run _ ih =>
    have hdot : parts ['.'] = [] := by decide
    have hs := ih (s ++ ['/', '.'])
    rw [parts_slash, hdot, List.append_nil] at hs
    rw [← hs, List.append_assoc]
    rfl

/-- A piece that names something is a part. -/
theorem parts_piece {piece : List Char} (hslash : '/' ∉ piece) (hempty : piece ≠ [])
    (hhere : piece ≠ ['.']) : parts piece = [piece] := by
  rw [parts, pieces, List.splitOn_eq_singleton hslash, List.filter_cons_of_pos, List.filter_nil]
  exact decide_eq_true ⟨hempty, hhere⟩

/-- The last part of a path is what follows its directory. -/
theorem getLast?_parts {directory piece : List Char} (hdirectory : Directory directory)
    (hslash : '/' ∉ piece) (hempty : piece ≠ []) (hhere : piece ≠ ['.']) :
    (parts (directory ++ piece)).getLast? = some piece := by
  rcases hdirectory with rfl | ⟨above, rfl⟩
  · rw [List.nil_append, parts_piece hslash hempty hhere]
    rfl
  · rw [List.append_assoc, List.singleton_append, parts_slash, parts_piece hslash hempty hhere,
      List.getLast?_concat]

/-- Every text is a directory and a piece without slashes. -/
theorem exists_directory (s : List Char) :
    ∃ directory piece, Directory directory ∧ '/' ∉ piece ∧ s = directory ++ piece := by
  induction s using List.reverseRecOn with
  | nil => exact ⟨[], [], .inl rfl, List.not_mem_nil, rfl⟩
  | append_singleton s c ih =>
    by_cases hc : c = '/'
    · exact ⟨s ++ [c], [], .inr ⟨s, by rw [hc]⟩, List.not_mem_nil, (List.append_nil _).symm⟩
    · obtain ⟨directory, piece, hdirectory, hpiece, rfl⟩ := ih
      refine ⟨directory, piece ++ [c], hdirectory, ?_, List.append_assoc ..⟩
      rw [List.mem_append, List.mem_singleton]
      rintro (hmem | rfl)
      · exact hpiece hmem
      · exact hc rfl

/-- An idle tail does not change the name of the file. -/
theorem fileName?_idle {run : List Char} (h : Idle run) (s : List Char) :
    fileName? (s ++ run) = fileName? s := by
  rw [fileName?, fileName?, parts_idle h]

/-- The name of the file is the one that the path names. -/
theorem Names.fileName? {name path : List Char} (h : Names name path) :
    fileName? path = some name := by
  obtain ⟨hname, hdirectory, hrun⟩ := h
  have hlast := getLast?_parts hdirectory hname.noSlash hname.notEmpty hname.notHere
  rw [fileName?_idle hrun, Path.fileName?, hlast]
  exact if_neg hname.notUp

/-- A path has a name only by ending in it. -/
theorem names_of_fileName? {name path : List Char} (h : fileName? path = some name) :
    Names name path := by
  obtain ⟨directory, piece, hdirectory, hpiece, rfl⟩ := exists_directory path
  -- a last piece that names nothing is idle together with the slash before it
  have hidle : ∀ above, Idle ('/' :: piece) → directory = above ++ ['/'] →
      Names name (directory ++ piece) := by
    rintro above hrun rfl
    rw [List.append_assoc, List.singleton_append] at h ⊢
    rw [fileName?_idle hrun] at h
    obtain @⟨directory', run, hname, hdirectory', hrun'⟩ := names_of_fileName? h
    rw [List.append_assoc]
    exact .mk hname hdirectory' (hrun'.append hrun)
  by_cases hempty : piece = []
  · subst hempty
    rcases hdirectory with rfl | ⟨above, habove⟩
    · cases h
    · exact hidle above (.slash .nil) habove
  by_cases hhere : piece = ['.']
  · subst hhere
    rcases hdirectory with rfl | ⟨above, habove⟩
    · cases h
    · exact hidle above (.dot .nil) habove
  · rw [fileName?, getLast?_parts hdirectory hpiece hempty hhere] at h
    dsimp only at h
    split at h
    · cases h
    · rename_i hup
      obtain rfl := Option.some.inj h
      have hnames := Names.mk ⟨hpiece, hempty, hhere, hup⟩ hdirectory .nil
      rwa [List.append_nil] at hnames
termination_by path.length
decreasing_by
  subst_vars
  simp only [List.length_append, List.length_cons]
  omega

/-! ## Extensions -/

theorem ne_dot_of_not_mem {s : List Char} (h : '.' ∉ s) : ∀ c ∈ s, decide (c ≠ '.') = true := by
  intro c hc
  refine decide_eq_true ?_
  rintro rfl
  exact h hc

/-- A name has an extension behind its last dot, unless that is its first character. -/
theorem extensionOf?_eq_some_iff {name extension : List Char} :
    extensionOf? name = some extension ↔
      ∃ stem, stem ≠ [] ∧ '.' ∉ extension ∧ name = stem ++ '.' :: extension := by
  constructor
  · intro h
    have hback := List.takeWhile_append_dropWhile (p := (· ≠ '.')) (l := name.reverse)
    unfold extensionOf? at h
    dsimp only at h
    split at h
    · cases h
    rename_i dot stem hdrop
    split at h
    · cases h
    rename_i hstem
    obtain rfl := Option.some.inj h
    have hdot : dot = '.' := by
      have hhead := List.head?_dropWhile_not (· ≠ '.') name.reverse
      rw [hdrop] at hhead
      simpa using hhead
    refine ⟨stem.reverse, by simpa using hstem, ?_, ?_⟩
    · intro hmem
      have hall : (name.reverse.takeWhile (· ≠ '.')).all (· ≠ '.') = true := List.all_takeWhile
      exact of_decide_eq_true (List.all_eq_true.1 hall _ (List.mem_reverse.1 hmem)) rfl
    · rw [hdrop, hdot] at hback
      have hname := congrArg List.reverse hback
      rw [List.reverse_reverse, List.reverse_append, List.reverse_cons, List.append_assoc] at hname
      exact hname.symm
  · rintro ⟨stem, hstem, hdot, rfl⟩
    have hall : ∀ c ∈ extension.reverse, decide (c ≠ '.') = true := by
      intro c hc
      exact ne_dot_of_not_mem hdot c (List.mem_reverse.1 hc)
    have hback : (stem ++ '.' :: extension).reverse = extension.reverse ++ '.' :: stem.reverse := by
      simp
    have hdrop : (extension.reverse ++ '.' :: stem.reverse).dropWhile (· ≠ '.') =
        '.' :: stem.reverse := by
      rw [List.dropWhile_append_of_pos hall]
      rfl
    have htake : (extension.reverse ++ '.' :: stem.reverse).takeWhile (· ≠ '.') =
        extension.reverse := by
      rw [List.takeWhile_append_of_pos hall]
      simp
    unfold extensionOf?
    dsimp only
    rw [hback, hdrop, htake, List.reverse_reverse]
    exact if_neg (by simpa using hstem)

/-! ## Names of JSON files -/

/-- A name that has something before its last dot, and `json` in any case behind it. -/
inductive NamesJson : List Char → Prop
  | mk {stem extension : List Char} (hstem : stem ≠ []) (hdot : '.' ∉ extension)
      (hjson : extension.map Char.toLower = "json".toList) : NamesJson (stem ++ '.' :: extension)

/-- What is taken for JSON, by the name alone. -/
theorem Names.isJson_iff {name path : List Char} (h : Names name path) :
    isJson path = true ↔ NamesJson name := by
  rw [isJson, extension?, h.fileName?, Option.bind_some]
  constructor
  · intro hjson
    cases hextension : extensionOf? name with
    | none =>
      rw [hextension] at hjson
      cases hjson
    | some extension =>
      rw [hextension] at hjson
      obtain ⟨stem, hstem, hdot, rfl⟩ := extensionOf?_eq_some_iff.1 hextension
      exact .mk hstem hdot (of_decide_eq_true hjson)
  · rintro @⟨stem, extension, hstem, hdot, hjson⟩
    rw [extensionOf?_eq_some_iff.2 ⟨stem, hstem, hdot, rfl⟩]
    exact decide_eq_true hjson

/-- A path that ends in the name of a JSON file. -/
def EndsInJson (path : List Char) : Prop :=
  ∃ name, Names name path ∧ NamesJson name

/-- A path that ends in no name is not taken for JSON. -/
theorem isJson_iff {path : List Char} : isJson path = true ↔ EndsInJson path := by
  constructor
  · intro h
    cases hname : fileName? path with
    | none =>
      rw [isJson, extension?, hname] at h
      cases h
    | some name =>
      have hnames := names_of_fileName? hname
      exact ⟨name, hnames, hnames.isJson_iff.1 h⟩
  · rintro ⟨name, hnames, hjson⟩
    exact hnames.isJson_iff.2 hjson

/-- Two paths with names that are both JSON or both not are taken for the same. -/
theorem isJson_congr {name name' path path' : List Char} (h : Names name path)
    (h' : Names name' path') (hjson : NamesJson name ↔ NamesJson name') :
    isJson path = isJson path' := by
  rw [Bool.eq_iff_iff, h.isJson_iff, h'.isJson_iff, hjson]

/-! ## Case -/

/-- Only capitals have another lower case. -/
theorem toLower_eq_iff {c d : Char} (hd : d.toNat < 65) : c.toLower = d ↔ c = d := by
  rcases Json.toLower_cases c with h | ⟨hcapital, h⟩
  · rw [h]
  · constructor
    · rintro rfl
      omega
    · rintro rfl
      omega

/-- Characters below the letters are the same in either case. -/
theorem mem_of_map_toLower {s t : List Char} (h : s.map Char.toLower = t.map Char.toLower)
    {d : Char} (hd : d.toNat < 65) (hmem : d ∈ s) : d ∈ t := by
  have hlower : d ∈ t.map Char.toLower := by
    rw [← h]
    exact List.mem_map.2 ⟨d, hmem, (toLower_eq_iff hd).2 rfl⟩
  obtain ⟨c, hc, hcd⟩ := List.mem_map.1 hlower
  rwa [(toLower_eq_iff hd).1 hcd] at hc

/-- A text of dots is what it is in any case. -/
theorem eq_of_map_toLower {dots s : List Char} (hdots : ∀ c ∈ dots, c = '.')
    (h : s.map Char.toLower = dots.map Char.toLower) : s = dots := by
  induction dots generalizing s with
  | nil => exact List.map_eq_nil_iff.1 h
  | cons c dots ih =>
    obtain rfl : c = '.' := hdots c List.mem_cons_self
    obtain ⟨d, s, rfl, hd, hs⟩ := List.map_eq_cons_iff.1 h
    have hdot : d = '.' := (toLower_eq_iff (by decide)).1 hd
    rw [hdot, ih (fun c hc => hdots c (List.mem_cons_of_mem _ hc)) hs]

/-- A name is ordinary in either case. -/
theorem Ordinary.of_map_toLower {name name' : List Char} (h : Ordinary name)
    (hcase : name'.map Char.toLower = name.map Char.toLower) : Ordinary name' where
  noSlash := fun hmem => h.noSlash (mem_of_map_toLower hcase (by decide) hmem)
  notEmpty := by
    rintro rfl
    exact h.notEmpty (eq_of_map_toLower (by simp) hcase.symm)
  notHere := by
    rintro rfl
    exact h.notHere (eq_of_map_toLower (by simp) hcase.symm)
  notUp := by
    rintro rfl
    exact h.notUp (eq_of_map_toLower (by simp) hcase.symm)

/-- A name names JSON in either case. -/
theorem NamesJson.of_map_toLower {name name' : List Char} (h : NamesJson name)
    (hcase : name'.map Char.toLower = name.map Char.toLower) : NamesJson name' := by
  obtain @⟨stem, extension, hstem, hdot, hjson⟩ := h
  rw [List.map_append, List.map_cons] at hcase
  obtain ⟨stem', behind, rfl, hstem', hbehind⟩ := List.map_eq_append_iff.1 hcase
  obtain ⟨d, extension', rfl, hd, hextension'⟩ := List.map_eq_cons_iff.1 hbehind
  rw [(toLower_eq_iff (by decide)).1 hd]
  refine .mk ?_ (fun hmem => hdot (mem_of_map_toLower hextension' (by decide) hmem))
    (hextension'.trans hjson)
  rintro rfl
  exact hstem (List.map_eq_nil_iff.1 hstem'.symm)

/-- A character outside ASCII is no letter of `json`, in whatever case. -/
theorem lt_of_toLower {c : Char} (h : c.toLower ∈ "json".toList) : c.toNat < 128 := by
  have hjson : ∀ d ∈ "json".toList, d.toNat < 128 := by simp
  have hlower := hjson _ h
  rcases Json.toLower_cases c with hc | ⟨-, hc⟩
  · rwa [hc] at hlower
  · omega

/-- The last dot of a text is in one place. -/
theorem eq_of_lastDot {s s' t t' : List Char} (ht : '.' ∉ t) (ht' : '.' ∉ t')
    (h : s ++ '.' :: t = s' ++ '.' :: t') : s = s' ∧ t = t' := by
  have hlength : ∀ {s s' t t' : List Char}, '.' ∉ t → s ++ '.' :: t = s' ++ '.' :: t' →
      s'.length ≤ s.length := by
    intro s s' t t' ht h
    rcases List.append_eq_append_iff.1 h with ⟨between, rfl, hb⟩ | ⟨between, rfl, -⟩
    · cases between with
      | nil => simp
      | cons c between =>
        obtain ⟨-, rfl⟩ := List.cons.inj hb
        exact absurd (by simp) ht
    · simp
  obtain ⟨rfl, hlast⟩ := List.append_inj h (Nat.le_antisymm (hlength ht' h.symm) (hlength ht h))
  exact ⟨rfl, (List.cons.inj hlast).2⟩

/-- The extension of JSON has no characters beyond ASCII. -/
theorem NamesJson.lt {stem extension : List Char} (h : NamesJson (stem ++ '.' :: extension))
    (hdot : '.' ∉ extension) : ∀ c ∈ extension, c.toNat < 128 := by
  generalize hname : stem ++ '.' :: extension = name at h
  obtain @⟨stem', extension', hstem', hdot', hjson⟩ := h
  obtain ⟨-, rfl⟩ := eq_of_lastDot hdot hdot' hname
  intro c hc
  refine lt_of_toLower ?_
  rw [← hjson]
  exact List.mem_map.2 ⟨c, hc, rfl⟩

end Path

namespace Settings

open BrokerAgent.Path

/-- How a file is read is decided by the last part of its path. It is read as JSON exactly if that
part, the slashes and single dots behind it apart, is an ordinary name with `json` behind its last
dot, in any case, and something before the dot; any other file is read as TOML. So directories
before the name and idle runs behind it change nothing, a change of case in the name changes
nothing, and an extension that only looks like the right one does not count. -/
theorem reader_chosen_by_name :
    (∀ (files : Files) (path : String) (text : List Char),
      files path = .ok (Utf8.encode text) →
        (EndsInJson path.toList → load files path = (ofJson text).mapError .json) ∧
        (¬ EndsInJson path.toList → load files path = (ofToml text).mapError .toml)) ∧
    (∀ path : List Char, isJson path = true ↔ EndsInJson path) ∧
    (∀ name path run above : List Char, Names name path → Idle run →
      isJson (above ++ '/' :: path ++ run) = isJson path) ∧
    (∀ name name' directory run : List Char, Ordinary name → Directory directory → Idle run →
      name'.map Char.toLower = name.map Char.toLower →
        isJson (directory ++ name' ++ run) = isJson (directory ++ name ++ run)) ∧
    ∀ stem extension path : List Char, Names (stem ++ '.' :: extension) path →
      '.' ∉ extension → (∃ c ∈ extension, 128 ≤ c.toNat) → isJson path = false := by
  refine ⟨?_, fun path => isJson_iff, ?_, ?_, ?_⟩
  · intro files path text hfile
    rw [← isJson_iff]
    simp only [load, hfile, ofBytes, Utf8.decode?_encode]
    exact ⟨fun h => if_pos h, fun h => if_neg h⟩
  · intro name path run above hnames hrun
    exact isJson_congr (hnames.extend hrun above) hnames Iff.rfl
  · intro name name' directory run hname hdirectory hrun hcase
    have hname' := hname.of_map_toLower hcase
    exact isJson_congr (.mk hname' hdirectory hrun) (.mk hname hdirectory hrun)
      ⟨fun h => h.of_map_toLower hcase.symm, fun h => h.of_map_toLower hcase⟩
  · intro stem extension path hnames hdot ⟨c, hc, hlarge⟩
    refine Bool.eq_false_iff.2 fun h => ?_
    have hsmall := (hnames.isJson_iff.1 h).lt hdot c hc
    omega

/-- A JSON file below a directory that looks like a TOML file, a path that goes up from a name that
looks like JSON, and an extension with a long s. -/
theorem reader_chosen_by_name_disguised :
    let files : Files := fun _ => .ok (Utf8.encode ['\x7b'])
    load files "x.toml/Agent.JSON/./" = (ofJson ['\x7b']).mapError .json ∧
      load files "agent.json/.." = (ofToml ['\x7b']).mapError .toml ∧
      isJson "b.json/x.toml/Agent.JSON//.".toList = isJson "x.toml/Agent.JSON".toList ∧
      isJson "x/AGENT.jsOn/".toList = isJson "x/agent.json/".toList ∧
      isJson "agent.j\u017Fon".toList = false := by
  intro files
  obtain ⟨hload, hjson, hextend, hcase, hascii⟩ := reader_chosen_by_name
  have hagent : Names "Agent.JSON".toList "x.toml/Agent.JSON".toList :=
    names_of_fileName? (by decide)
  have hlower : Ordinary "agent.json".toList := ⟨by decide, by decide, by decide, by decide⟩
  refine ⟨(hload files _ _ rfl).1 ((hjson _).1 (by decide)),
    (hload files _ _ rfl).2 fun h => ?_,
    hextend _ _ "//.".toList "b.json".toList hagent (.slash (.dot .nil)),
    hcase "agent.json".toList "AGENT.jsOn".toList "x/".toList ['/'] hlower (.inr ⟨['x'], rfl⟩)
      (.slash .nil) (by decide),
    hascii "agent".toList "j\u017Fon".toList _ (names_of_fileName? (by decide)) (by decide)
      ⟨'\u017F', by decide, by decide⟩⟩
  exact absurd ((hjson _).2 h) (by decide)

end Settings
end BrokerAgent
