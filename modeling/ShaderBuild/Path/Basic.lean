import ShaderBuild.Text.Lines
/-!
Paths with `/` between their parts. A path keeps the text it was given; what it names is its list of
components, in which repeated and trailing slashes and inner `.` parts do not count.
-/
namespace ShaderBuild

structure Path where
  text : Text
  deriving DecidableEq, Repr

instance : ToString Path :=
  ⟨fun path => Text.str path.text⟩

/-- One step of a path. -/
inductive Component where
  | root
  /-- A `.` at the very start. -/
  | here
  /-- `..` -/
  | up
  | name (text : Text)
  deriving DecidableEq, Repr

namespace Component

def text : Component → Text
  | .root => ['/']
  | .here => ['.']
  | .up => ['.', '.']
  | .name found => found

/-- Sorts the root first, then `.`, `..`, and names by their characters. -/
def sortKey : Component → List Nat
  | .root => [0]
  | .here => [1]
  | .up => [2]
  | .name found => 3 :: found.map Char.toNat

end Component

namespace Path

/-- The path written as `text`. -/
def of (text : String) : Path :=
  ⟨text.toList⟩

def isAbsolute (path : Path) : Bool :=
  path.text.head? == some '/'

def endsInSlash (path : Path) : Bool :=
  path.text.getLast? == some '/'

/-- A part that stands for no component of its own. -/
def isFiller (part : Text) : Bool :=
  part == [] || part == ['.']

/-- The root slash or leading `.` of the path, and the parts between slashes after it. -/
def parts (path : Path) : Text × List Text :=
  match path.text with
  | '/' :: rest => (['/'], Text.splitOn '/' rest)
  | '.' :: rest =>
    if rest.isEmpty || rest.head? == some '/' then (['.'], Text.splitOn '/' rest)
    else ([], Text.splitOn '/' ('.' :: rest))
  | text => ([], Text.splitOn '/' text)

/-- The component that a part between slashes stands for. -/
def component? (part : Text) : Option Component :=
  if isFiller part then none
  else if part == ['.', '.'] then some .up
  else some (.name part)

def headComponents (head : Text) : List Component :=
  if head == ['/'] then [.root]
  else if head == ['.'] then [.here]
  else []

/-- What the path names, step by step. -/
def components (path : Path) : List Component :=
  headComponents path.parts.1 ++ path.parts.2.filterMap component?

/-- Two paths are the same when their components are, whatever their texts. -/
def same (left right : Path) : Bool :=
  left.components == right.components

/-- Paths sort by their components. -/
def order (left right : Path) : Ordering :=
  List.compareLex (List.compareLex compare) (left.components.map Component.sortKey)
    (right.components.map Component.sortKey)

/-- `path` below `base`; an absolute path replaces it. Nothing is normalised. -/
def join (base path : Path) : Path :=
  if path.isAbsolute then path
  else if base.text.isEmpty || base.endsInSlash then ⟨base.text ++ path.text⟩
  else ⟨base.text ++ '/' :: path.text⟩

/-- `base` joined with the path written as `text`. -/
def child (base : Path) (text : String) : Path :=
  base.join (of text)

/-- The text of `path` followed by `suffix`. -/
def extend (path : Path) (suffix : String) : Path :=
  ⟨path.text ++ suffix.toList⟩

/-- The parts without the fillers at their end. -/
def dropFillers (parts : List Text) : List Text :=
  (parts.reverse.dropWhile isFiller).reverse

/-- The last part that is a component, and the parts before it. -/
def lastPart? (path : Path) : Option (List Text × Text) :=
  match path.parts.2.reverse.dropWhile isFiller with
  | [] => none
  | last :: before => some (before.reverse, last)

/-- The texts of the path up to its last component, up to the one before it, and so on. -/
def parents (path : Path) : List Path :=
  go path.parts.1 path.parts.2.reverse
where
  go (head : Text) : List Text → List Path
    | [] => if head == ['.'] then [⟨[]⟩] else []
    | part :: before =>
      if isFiller part then go head before
      else ⟨head ++ Text.joinWith ['/'] (dropFillers before.reverse)⟩ :: go head before

/-- The path up to its last component; a root and the empty path have none. -/
def parent? (path : Path) : Option Path :=
  path.parents.head?

/-- The last component, if it is a name. -/
def fileName? (path : Path) : Option Text :=
  match path.lastPart? with
  | some (_, last) => if last == ['.', '.'] then none else some last
  | none => none

/-- A file name cut at its last dot; a dot at the very start does not count. -/
def cutName (name : Text) : Text × Option Text :=
  let after := (name.reverse.takeWhile (· != '.')).reverse
  let before := name.take (name.length - after.length - 1)
  if before.isEmpty then (name, none) else (before, some after)

/-- What follows the last dot of the file name. -/
def extension? (path : Path) : Option Text :=
  path.fileName?.bind fun name => (cutName name).2

/-- The path with an extension put behind its file name up to the last dot of that; a path without a
file name stays. -/
def putExtension (path : Path) (extension : String) : Path :=
  match path.lastPart? with
  | some (before, last) =>
    if last == ['.', '.'] then path
    else
      ⟨path.parts.1 ++ Text.joinWith ['/'] (before ++ [(cutName last).1])
        ++ '.' :: extension.toList⟩
  | none => path

/-- The path with the last extension of its file name replaced: first as many characters are cut off
its end as the extension has. -/
def withExtension (path : Path) (extension : String) : Path :=
  match path.extension? with
  | some old => putExtension ⟨path.text.take (path.text.length - old.length)⟩ extension
  | none => path.putExtension extension

/-- The path from the root, below `directory` if it is relative. Parts that stand for nothing are
dropped, a trailing slash and exactly two leading ones are kept, and `..` stays as it is. The empty
path has no absolute form. -/
def absolute? (directory path : Path) : Option Path :=
  if path.text.isEmpty then none
  else
    let start : Path × List Component :=
      if !path.isAbsolute then (directory, path.components.filter (· != .here))
      else
        match path.text with
        | '/' :: '/' :: '/' :: _ => (⟨[]⟩, path.components)
        | '/' :: '/' :: _ => (⟨['/', '/']⟩, path.components.drop 1)
        | _ => (⟨[]⟩, path.components)
    let whole := start.2.foldl (fun whole component => whole.join ⟨component.text⟩) start.1
    some (if path.endsInSlash then whole.join ⟨[]⟩ else whole)

end Path

end ShaderBuild
