import ShaderBuild.Command.Basic
import ShaderBuild.Text.Utf8
/-!
The keys under which dependencies are kept: a source, a dialect and a variant, written with colons
between them. Sources may hold colons, so a key is read from its end.
-/
namespace ShaderBuild

structure DependencyKey where
  source : Path
  dialect : Text
  variant : Variant
  deriving DecidableEq, Repr

/-- Why a text is no key. -/
inductive KeyError where
  | malformed (text : Text)
  | unknownVariant (name : Text)
  deriving DecidableEq, Repr

def KeyError.message : KeyError → String
  | .malformed text => s!"malformed cache key '{Text.str text}'"
  | .unknownVariant name => Variant.unknownMessage name

namespace DependencyKey

def ofCommand (command : ShaderCommand) : DependencyKey :=
  ⟨command.source, command.dialect, command.variant⟩

/-- Keys are the same when their sources are the same as paths and the rest is equal. -/
def same (left right : DependencyKey) : Bool :=
  left.source.same right.source && left.dialect == right.dialect && left.variant == right.variant

/-- Keys sort by source, then dialect, then variant. -/
def order (left right : DependencyKey) : Ordering :=
  (left.source.order right.source).then
    ((Text.order left.dialect right.dialect).then (compare left.variant.rank right.variant.rank))

def text (key : DependencyKey) : Text :=
  key.source.text ++ ':' :: key.dialect ++ ':' :: key.variant.name.toList

instance : ToString DependencyKey :=
  ⟨fun key => Text.str key.text⟩

/-- Reads a key: after the last colon the variant, before it the dialect, the rest is the source. -/
def parse (text : Text) : Except KeyError DependencyKey :=
  match (Text.splitOn ':' text).reverse with
  | variant :: dialect :: first :: more =>
    let source := Text.joinWith [':'] (first :: more).reverse
    if source.isEmpty || dialect.isEmpty then .error (.malformed text)
    else
      match Variant.ofName? variant with
      | some variant => .ok ⟨⟨source⟩, dialect, variant⟩
      | none => .error (.unknownVariant variant)
  | _ => .error (.malformed text)

end DependencyKey

end ShaderBuild
