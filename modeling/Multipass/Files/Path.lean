import Multipass.Text.Find

/-!
# Paths

Paths as texts with `/` between their components. A path is normalised nowhere: empty components
and single points are passed over where components are asked for, and stay where text is asked for.
-/

namespace Multipass.Path

open Text

/-- Holds of a path that starts at the top of the file tree. -/
def isAbsolute (p : String) : Bool :=
  p.toList.head? == some '/'

/-- A path seen from a base: an absolute path stands for itself. -/
def join (base p : String) : String :=
  if isAbsolute p || base.isEmpty then p
  else if base.toList.getLast? == some '/' then base ++ p
  else base ++ "/" ++ p

/-- The components of a path. Empty ones are left out, and single points are left out except at
the front of a path that is not absolute. -/
def components (p : String) : List String :=
  let pieces := splitOnChar '/' p.toList
  let kept (piece : List Char) : Bool := !(piece.isEmpty || piece == ['.'])
  match pieces with
  | ['.'] :: rest => "." :: (rest.filter kept).map String.ofList
  | pieces => (pieces.filter kept).map String.ofList

/-- The last component of a path, unless it stands for a directory by points alone. -/
def fileName? (p : String) : Option String :=
  match (components p).getLast? with
  | some c => if c = "." ∨ c = ".." then none else some c
  | none => none

/-- What follows the last point of a name; a point in front of the whole name does not count. -/
def extensionOf (name : String) : Option String :=
  match (splitOnChar '.' name.toList).reverse with
  | last :: before :: rest => if rest.isEmpty && before.isEmpty then none else some (String.ofList last)
  | _ => none

/-- The extension of the last component of a path. -/
def extension? (p : String) : Option String :=
  (fileName? p).bind extensionOf

/-- An ASCII letter in lower case, and any other character as it is. -/
def asciiLower (s : String) : String :=
  String.ofList (s.toList.map Char.toLower)

/-- The languages of file extensions. -/
def languageOfExtension : String → Option String
  | "php" | "phtml" => some "php"
  | "js" | "mjs" | "cjs" => some "javascript"
  | "ts" | "tsx" => some "typescript"
  | "py" => some "python"
  | "rb" => some "ruby"
  | "rs" => some "rust"
  | "go" => some "go"
  | "java" => some "java"
  | _ => none

/-- The language that the extension of a path tells. -/
def language? (p : String) : Option String :=
  (extension? p).bind fun ext => languageOfExtension (asciiLower ext)

/-- The directory that holds the last component of a path, or nothing for the top and for the
empty path. -/
def parent? (p : String) : Option String :=
  match components p with
  | [] => none
  | cs =>
    let inner := "/".intercalate cs.dropLast
    some (if isAbsolute p then "/" ++ inner else inner)

end Multipass.Path
