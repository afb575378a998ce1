import ShaderBuild.Directive.Basic
/-!
Reading the body of a marker. Every body is a directive: one of no known form is `unknown`.
-/
namespace ShaderBuild

namespace Condition

/-- The right side of an equality, from all that follows its left side: `==` between optional
white space, then one token to the end. -/
def rightSide? (rest : Text) : Option Text :=
  match rest.dropWhile Text.isBlank with
  | '=' :: '=' :: after =>
    let right := after.dropWhile Text.isBlank
    if Text.isToken right then some right else none
  | _ => none

/-- The two sides of an equality; of several splits the one with the longest left side. -/
def sides? : Text → Option (Text × Text)
  | [] => none
  | c :: rest =>
    if Text.isBlank c then none
    else
      match sides? rest with
      | some (left, right) => some (c :: left, right)
      | none => (rightSide? rest).map fun right => ([c], right)

/-- The name in `not NAME`. -/
def negated? : Text → Option Text
  | 'n' :: 'o' :: 't' :: c :: rest =>
    let name := rest.dropWhile Text.isBlank
    if Text.isBlank c && Text.isToken name then some name else none
  | _ => none

/-- Reads a trimmed expression: an equality, else a negation, else one token. -/
def parse? (expression : Text) : Option Condition :=
  match sides? expression with
  | some (left, right) => some (.equals left right)
  | none =>
    match negated? expression with
    | some name => some (.undefined name)
    | none => if Text.isToken expression then some (.defined expression) else none

end Condition

namespace Directive

/-- Reads the text between the delimiters of a marker. -/
def parse (body : Text) : Directive :=
  let (keyword, operand) := Text.firstWord (Text.trim body)
  let operand := Text.trim operand
  match String.ofList keyword with
  | "func" => if operand.isEmpty then .unknown body else .functionBegin (.ofText operand)
  | "endfunc" => if operand.isEmpty then .functionEnd else .unknown body
  | "if" => ((Condition.parse? operand).map .whenever).getD (.unknown body)
  | "elif" => ((Condition.parse? operand).map .otherwiseWhen).getD (.unknown body)
  | "else" => if operand.isEmpty then .otherwise else .unknown body
  | "endif" => if operand.isEmpty then .endWhen else .unknown body
  | "def" => if Text.isToken operand then .define operand else .unknown body
  | "include" => if Text.isToken operand then .include operand else .unknown body
  | _ => .unknown body

end Directive

end ShaderBuild
