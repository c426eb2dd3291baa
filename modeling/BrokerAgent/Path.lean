/-!
# Path names

A path is a text whose parts are separated by slashes. What a file is taken to hold is decided by
the last part alone: `Path.isJson`.
-/

namespace BrokerAgent.Path

/-- The pieces between slashes; a text without slashes is one piece. -/
def pieces (path : List Char) : List (List Char) :=
  path.splitOn '/'

/-- The pieces that name something: neither empty nor a single dot. -/
def parts (path : List Char) : List (List Char) :=
  (pieces path).filter fun piece => piece ≠ [] ∧ piece ≠ ['.']

/-- The name of the file or directory itself. A path that ends by going up has none. -/
def fileName? (path : List Char) : Option (List Char) :=
  match (parts path).getLast? with
  | none => none
  | some name => if name = ['.', '.'] then none else some name

/-- What follows the last dot of a name, unless that dot is its first character. -/
def extensionOf? (name : List Char) : Option (List Char) :=
  let backwards := name.reverse
  match backwards.dropWhile (· ≠ '.') with
  | [] => none
  | _ :: stem => if stem = [] then none else some (backwards.takeWhile (· ≠ '.')).reverse

/-- The extension of a path. -/
def extension? (path : List Char) : Option (List Char) :=
  (fileName? path).bind extensionOf?

/-- Whether the file is taken for JSON, because its extension says so in any mixture of cases. -/
def isJson (path : List Char) : Bool :=
  match extension? path with
  | none => false
  | some extension => extension.map Char.toLower = ['j', 's', 'o', 'n']

end BrokerAgent.Path
