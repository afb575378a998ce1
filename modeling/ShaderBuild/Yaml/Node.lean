import ShaderBuild.Yaml.Token
/-!
YAML documents as trees. A node with a name holds a numbered slot, and an alias stands for the node
that holds its slot.
-/
namespace ShaderBuild.Yaml

inductive Node where
  | scalar (text : Text) (style : Style) (tag : Option Text)
  | sequence (items : List Node)
  | mapping (fields : List (Node × Node))
  /-- A node that has a name. -/
  | named (slot : Nat) (node : Node)
  | alias (slot : Nat)
  deriving Repr

namespace Node

/-- A node of which nothing is written. -/
def empty : Node :=
  .scalar [] .plain none

mutual

/-- The nodes that have names, with their slots, in the order in which they begin. -/
def holders : Node → List (Nat × Node)
  | .scalar .. => []
  | .sequence items => holdersOfItems items
  | .mapping fields => holdersOfFields fields
  | .named slot node => (slot, node) :: holders node
  | .alias _ => []

def holdersOfItems : List Node → List (Nat × Node)
  | [] => []
  | item :: rest => holders item ++ holdersOfItems rest

def holdersOfFields : List (Node × Node) → List (Nat × Node)
  | [] => []
  | (key, value) :: rest => holders key ++ holders value ++ holdersOfFields rest

end

/-- The node that holds a slot of the document `root`: of several, the one that begins last. -/
def holder? (root : Node) (slot : Nat) : Option Node :=
  root.holders.reverse.lookup slot

/-- The node of the document `root` that is meant by `node`: names do not matter, and an alias means
the node that holds its slot, even one further on. -/
def meant (root node : Node) : Node :=
  match node with
  | .named _ inner => inner
  | .alias slot => (root.holder? slot).getD empty
  | other => other

end Node

end ShaderBuild.Yaml
