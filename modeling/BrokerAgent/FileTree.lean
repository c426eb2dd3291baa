import BrokerAgent.Refusal
import BrokerAgent.Path
import BrokerAgent.Text.Utf8

/-!
# Files

`Files` is what loading a record needs of a file system: the bytes of a path, or the reason why
there are none. `FileTree` is a small file system in memory, below one current directory, that
answers like one on a disk. A directory exists when it was made, or when something is in it.
-/

namespace BrokerAgent

/-- The bytes of every path. -/
abbrev Files := String → Except FileFault (List UInt8)

/-- What stands at a name. -/
inductive FileContent
  | file (bytes : List UInt8)
  | directory
deriving DecidableEq, Repr

/-- Files and directories by their names from the current directory down, the latest first. -/
structure FileTree where
  entries : List (List (List Char) × FileContent) := []

namespace FileTree

/-- The longest name of a file, in bytes. -/
def maxNameLength : Nat := 255

/-- The longest path, in bytes. -/
def maxPathLength : Nat := 4095

/-- Where a walk along a path has got to: to a name below the current directory, or out of it. -/
inductive Spot
  | below (names : List (List Char))
  | outside
deriving DecidableEq, Repr

/-- Goes up or down by one piece of a path, without looking whether anything is there. -/
def Spot.move (spot : Spot) (piece : List Char) : Spot :=
  if piece = [] ∨ piece = ['.'] then spot
  else
    match spot with
    | .outside => .outside
    | .below names =>
      if piece = ['.', '.'] then if names = [] then .outside else .below names.dropLast
      else .below (names ++ [piece])

/-- What stands below the current directory. -/
def find? (t : FileTree) (names : List (List Char)) : Option FileContent :=
  if names = [] then some .directory
  else
    match t.entries.find? fun entry => entry.1 = names with
    | some entry => some entry.2
    | none =>
      if t.entries.any fun entry => names.isPrefixOf entry.1 then some .directory else none

/-- Puts a file or a directory at a path, in place of what was there. -/
def insert (t : FileTree) (path : String) (content : FileContent) : FileTree :=
  match (Path.pieces path.toList).foldl Spot.move (.below []) with
  | .below names => ⟨(names, content) :: t.entries⟩
  | .outside => t

/-- Follows the pieces of a path. Only a directory has anything below it, even if that is only
itself. Nothing is known outside the current directory but that the directories above it exist. -/
def walk (t : FileTree) : Spot → FileContent → List (List Char) → Except FileFault FileContent
  | _, content, [] => .ok content
  | _, .file _, _ :: _ => .error .notDirectory
  | spot, .directory, piece :: pieces =>
    if maxNameLength < Utf8.size piece then .error .nameTooLong
    else
      let next := spot.move piece
      match next with
      | .outside =>
        if piece = [] ∨ piece = ['.'] ∨ piece = ['.', '.'] then
          t.walk .outside .directory pieces
        else .error .missing
      | .below names =>
        match t.find? names with
        | none => .error .missing
        | some content => t.walk next content pieces

/-- The bytes of a path. -/
def read (t : FileTree) : Files := fun path =>
  let characters := path.toList
  if characters.contains '\x00' then .error .nulInName
  else if characters = [] then .error .missing
  else if maxPathLength < Utf8.size characters then .error .nameTooLong
  else
    let first : Spot := if characters.head? = some '/' then .outside else .below []
    match t.walk first .directory (Path.pieces characters) with
    | .error fault => .error fault
    | .ok .directory => .error .isDirectory
    | .ok (.file bytes) => .ok bytes

end FileTree
end BrokerAgent
