/-!
# Paths

A path is a text in which slashes separate names.  Slashes and single dots at
the end of a path add nothing to it: the last name is the one before them.  What
is done here concerns the text alone; what a path leads to is a matter of the
file tree.
-/

namespace FreightPromotion.Files

/-- The path without the slashes and single dots that follow its last name,
reversed. -/
def trimReversed : List Char → List Char
  | '/' :: rest => trimReversed rest
  | '.' :: '/' :: rest => trimReversed rest
  | path => path

/-- The path without the slashes and single dots that follow its last name. -/
def trimPath (path : List Char) : List Char :=
  (trimReversed path.reverse).reverse

/-- What stands after the last slash. -/
def lastName (path : List Char) : List Char :=
  (path.reverse.takeWhile (· ≠ '/')).reverse

/-- Everything up to the last slash, and that slash. -/
def beforeLastName (path : List Char) : List Char :=
  (path.reverse.dropWhile (· ≠ '/')).reverse

/-- The directory that a path lies in: the path without its last name.  The root
and the empty path lie in none, and a single name lies in the empty path. -/
def parent? (path : String) : Option String :=
  match trimPath path.toList with
  | [] => none
  | trimmed =>
    let above := beforeLastName trimmed
    match above, trimPath above with
    | '/' :: _, [] => some "/"
    | _, directory => some (String.ofList directory)

/-- Whether a name is the name of a file, and not empty or a step within the
tree. -/
def isProperName (name : List Char) : Bool :=
  name ∉ [[], ['.'], ['.', '.']]

/-- A name without its extension, which starts at its last dot.  A dot at the
beginning of the name starts none. -/
def stem (name : List Char) : List Char :=
  match name.reverse.dropWhile (· ≠ '.') with
  | _ :: before => if before.isEmpty then name else before.reverse
  | [] => name

/-- The path without as many characters at its end as the extension of its last
name has.  What follows the last name counts among them. -/
def cutExtension (path : List Char) : List Char :=
  let name := lastName (trimPath path)
  path.take (path.length - (name.length - (stem name).length - 1))

/-- The path with an extension in place of that of its last name.  A path that does
not end in the name of a file stays as it is. -/
def setExtension (path : List Char) (extension : String) : String :=
  let trimmed := trimPath path
  let name := lastName trimmed
  if isProperName name then
    String.ofList (beforeLastName trimmed ++ stem name) ++ "." ++ extension
  else String.ofList path

/-- The path with the extension of its last name replaced.  The old extension is cut
off before the new one is set, so that a path which ends in two dots and an
extension is left with the dots. -/
def withExtension (path : String) (extension : String) : String :=
  setExtension (cutExtension path.toList) extension

/-- The path itself and the directories above it, innermost first. -/
def ancestors (path : String) : List String :=
  go (path.length + 1) path
where
  /-- At most `bound` of them; each is shorter than the one before. -/
  go : Nat → String → List String
    | 0, _ => []
    | bound + 1, path =>
      path ::
        match parent? path with
        | some directory => go bound directory
        | none => []

/-- Appends a name to the path of a directory. -/
def joinPath (directory name : String) : String :=
  if directory.endsWith "/" then directory ++ name else directory ++ "/" ++ name

end FreightPromotion.Files
