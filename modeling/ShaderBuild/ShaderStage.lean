import ShaderBuild.Path.Basic
/-!
The stages of the graphics pipeline that a template can be written for.
-/
namespace ShaderBuild

inductive ShaderStage where
  | vertex
  | fragment
  | geometry
  | compute
  deriving DecidableEq, Repr

namespace ShaderStage

def all : List ShaderStage :=
  [.vertex, .fragment, .geometry, .compute]

/-- The extension of the templates of a stage. -/
def extension : ShaderStage → String
  | .vertex => "slv"
  | .fragment => "slf"
  | .geometry => "slg"
  | .compute => "slc"

def shortName : ShaderStage → String
  | .vertex => "vert"
  | .fragment => "frag"
  | .geometry => "geom"
  | .compute => "comp"

/-- The macro that an expanded text defines for its stage. -/
def macroName : ShaderStage → String
  | .vertex => "GPU_VERTEX_SHADER"
  | .fragment => "GPU_PIXEL_SHADER"
  | .geometry => "GPU_GEOMETRY_SHADER"
  | .compute => "GPU_COMPUTE_SHADER"

def ofShortName? (name : Text) : Option ShaderStage :=
  all.find? fun stage => stage.shortName.toList == name

/-- The stage that the extension of a path stands for. -/
def ofPath? (path : Path) : Option ShaderStage :=
  path.extension?.bind fun extension => all.find? fun stage => stage.extension.toList == extension

end ShaderStage

end ShaderBuild
