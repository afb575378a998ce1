import ShaderBuild.Text.Blank
/-!
Reading numbers from their digits.
-/
namespace ShaderBuild.Text

/-- The value of a digit in bases up to sixteen. -/
def digitValue? (c : Char) : Option Nat :=
  if '0' ≤ c ∧ c ≤ '9' then some (c.toNat - '0'.toNat)
  else if 'a' ≤ c ∧ c ≤ 'f' then some (c.toNat - 'a'.toNat + 10)
  else if 'A' ≤ c ∧ c ≤ 'F' then some (c.toNat - 'A'.toNat + 10)
  else none

/-- A digit of a base. -/
def digit? (base : Nat) (c : Char) : Option Nat :=
  (digitValue? c).filter (· < base)

/-- The number that a text of at least one digit stands for. -/
def digits? (base : Nat) (text : Text) : Option Nat :=
  if text.isEmpty then none
  else text.foldlM (fun value c => (digit? base c).map (value * base + ·)) 0

/-- The first number that is too large for a machine word: 2⁶⁴. -/
def wordBound : Nat := 18446744073709551616

/-- The number, if it is a machine word. -/
def word? (number : Option Nat) : Option Nat :=
  number.filter (· < wordBound)

/-- The text without one plus sign in front. -/
def dropPlus (text : Text) : Text :=
  if text.head? == some '+' then text.drop 1 else text

end ShaderBuild.Text
