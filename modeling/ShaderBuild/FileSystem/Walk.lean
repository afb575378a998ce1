import ShaderBuild.FileSystem.Basic
/-!
Resolving a path: every step but the last has to be a directory, links are followed, and the last
step may be vacant.
-/
namespace ShaderBuild

/-- One step of resolving a path. -/
inductive Step where
  /-- `.`: what was reached has to be a directory. -/
  | stay
  | up
  | enter (name : Text)
  /-- A slash at the end: what was reached has to be a directory, and cannot be made as a file. -/
  | slash
  deriving DecidableEq, Repr

/-- What a path is resolved for. -/
inductive Aim where
  /-- The node at the path, even if it is a link. -/
  | node
  /-- What the path leads to. -/
  | target
  /-- A file to be opened there, or to be made. -/
  | creation
  deriving DecidableEq, Repr

/-- Where a path leads. -/
inductive Place where
  | occupied (location : Location) (node : Node)
  /-- Nothing is there, but the directory that would hold it exists. -/
  | vacant (location : Location)
  deriving DecidableEq, Repr

namespace Path

/-- The steps of a path; a slash at its end is not one of them. -/
def steps (path : Path) : List Step :=
  (Text.splitOn '/' path.text).filterMap fun part =>
    if part == [] then none
    else if part == ['.'] then some .stay
    else if part == ['.', '.'] then some .up
    else some (.enter part)

/-- The steps of a path with a slash at its end. -/
def wholeSteps (path : Path) : List Step :=
  if path.endsInSlash then path.steps ++ [.slash] else path.steps

end Path

namespace FileSystem

/-- The longest name in bytes. -/
def maximalName : Nat := 255

/-- The length in bytes from which on a path is refused. -/
def maximalPath : Nat := 4096

/-- The number of links that are followed for one path. -/
def maximalLinks : Nat := 40

/-- Walks on from the directory at `here`. -/
def walk (files : FileSystem) (aim : Aim) (links : Nat) (here : Location) :
    List Step → Except FileError Place
  | [] => .ok (.occupied here .directory)
  | .stay :: rest => walk files aim links here rest
  | .slash :: rest => walk files aim links here rest
  | .up :: rest => walk files aim links here.dropLast rest
  | .enter name :: rest =>
    if aim = .creation ∧ rest = [.slash] then .error .isADirectory
    else if Text.byteLength name > maximalName then .error .nameTooLong
    else
      let there := here ++ [name]
      match files.node? there with
      | none => if rest.isEmpty then .ok (.vacant there) else .error .notFound
      | some .directory => walk files aim links there rest
      | some (.file file) =>
        if rest.isEmpty then .ok (.occupied there (.file file)) else .error .notADirectory
      | some (.link target) =>
        if rest.isEmpty && aim == .node then .ok (.occupied there (.link target))
        else
          match links with
          | 0 => .error .tooManyLinks
          | links + 1 =>
            walk files aim links (if target.isAbsolute then [] else here)
              (target.wholeSteps ++ rest)
  termination_by steps => (links, steps.length)

/-- Where a path leads, or why it leads nowhere. A slash after a node makes no difference to it. -/
def locate (files : FileSystem) (aim : Aim) (path : Path) : Except FileError Place :=
  if path.text.isEmpty then .error .notFound
  else if path.text.contains '\x00' then .error .nulInPath
  else if Text.byteLength path.text ≥ maximalPath then .error .nameTooLong
  else
    let start := if path.isAbsolute then [] else files.workingLocation
    files.walk aim maximalLinks start (if aim = .node then path.steps else path.wholeSteps)

/-- The file that a path leads to, and its location. -/
def locateFile (files : FileSystem) (path : Path) : Except FileError (Location × File) :=
  match files.locate .target path with
  | .error problem => .error problem
  | .ok (.vacant _) => .error .notFound
  | .ok (.occupied location (.file file)) => .ok (location, file)
  | .ok (.occupied _ _) => .error .isADirectory

end FileSystem

end ShaderBuild
