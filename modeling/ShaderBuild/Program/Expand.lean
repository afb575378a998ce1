import ShaderBuild.CommandLine.Expand
import ShaderBuild.Program.Ending
/-!
The program that expands one template. It keeps no log.
-/
namespace ShaderBuild

namespace Program

def expander : Program :=
  ⟨"scribe"⟩

end Program

namespace ExpandRequest

/-- Writes the output file, and creates the directories that it needs. -/
def writeFile (path : Path) (text : Text) (world : World) : Except String Unit × World :=
  match path.parent?.filter fun parent => !parent.text.isEmpty with
  | none => write world
  | some parent =>
    match world.makeDirectories parent with
    | (.error problem, world) => (.error s!"Failed to create {parent}: {problem}", world)
    | (.ok (), world) => write world
where
  write (world : World) : Except String Unit × World :=
    let (result, world) := world.write path (.text text)
    (result.mapError fun problem => s!"Failed to write {path}: {problem}", world)

/-- Puts the text where it is asked for: into the output file, or on standard output. -/
def deliver (options : ExpandRequest) (text : Text) (world : World) : Ending :=
  match options.output with
  | none => ⟨0, text, [], world, []⟩
  | some path =>
    match writeFile path text world with
    | (.ok (), world) => ⟨0, [], [], world, []⟩
    | (.error reason, world) => ⟨1, [], Program.expander.failureLine [reason], world, []⟩

end ExpandRequest

/-- The program that expands, given its arguments and its standard input. -/
def Program.expand (arguments : List Text) (input : Contents) (world : World) : Ending :=
  match ExpandRequest.parse arguments with
  | .error halt => expander.halt ExpandRequest.switches world halt
  | .ok options =>
    match ((options.run world.files input).run world.files).value with
    | .ok text => options.deliver text world
    | .error problem => ⟨1, [], expander.failureLine problem.reasons, world, []⟩

end ShaderBuild
