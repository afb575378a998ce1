import ShaderBuild.Text.Blank
/-!
The directives of the template language, and the native preprocessor text of those that have one.
-/
namespace ShaderBuild

/-- What an `if` or `elif` asks. -/
inductive Condition where
  /-- `A == B` -/
  | equals (left right : Text)
  /-- `not A` -/
  | undefined (name : Text)
  /-- `A` -/
  | defined (name : Text)
  deriving DecidableEq, Repr

/-- The condition as an expression of the native preprocessor. -/
def Condition.native : Condition → Text
  | .equals left right => "(".toList ++ left ++ " == ".toList ++ right ++ ")".toList
  | .undefined name => "!defined(".toList ++ name ++ ")".toList
  | .defined name => "defined(".toList ++ name ++ ")".toList

/-- The header of a function block: its whole text, and the name and the arguments in it. -/
structure FunctionHeader where
  name : Text
  arguments : Text
  text : Text
  deriving DecidableEq, Repr

/-- The name in a header ends at a parenthesis or white space; the arguments are what follows. -/
def FunctionHeader.ofText (text : Text) : FunctionHeader where
  name := text.takeWhile fun c => !(c == '(' || Text.isBlank c)
  arguments := Text.trim (text.dropWhile fun c => !(c == '(' || Text.isBlank c))
  text := text

/-- What a marker of the template language says. -/
inductive Directive where
  /-- `func NAME ARGS`: the begin of a function block; the header is all after the keyword. -/
  | functionBegin (header : FunctionHeader)
  | functionEnd
  | whenever (condition : Condition)
  | otherwiseWhen (condition : Condition)
  | otherwise
  | endWhen
  | define (name : Text)
  | include (name : Text)
  /-- A comment block. -/
  | comment
  /-- A marker of no known form, with all that stands between its delimiters. -/
  | unknown (body : Text)
  deriving DecidableEq, Repr

namespace Directive

/-- The native line of a conditional or a plain definition; the other directives have none. -/
def native? : Directive → Option Text
  | .whenever condition => some ("#if ".toList ++ condition.native)
  | .otherwiseWhen condition => some ("#elif ".toList ++ condition.native)
  | .otherwise => some "#else".toList
  | .endWhen => some "#endif".toList
  | .define name => some ("#define ".toList ++ name)
  | _ => none

end Directive

end ShaderBuild
