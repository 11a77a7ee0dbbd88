import ProcessEngine.Yaml.Scalar

/-!
# Nodes of a settings text

A settings text is a tree of scalars, sequences and mappings.  A node may be given a name, its
anchor, and an alias stands for a node by the number of its name.
-/

namespace ProcessEngine

/-- A node.  An alias gives the number of the node that it stands for. -/
inductive YamlNode where
  | scalar (s : Yaml.Scalar)
  | sequence (items : List YamlNode)
  | mapping (entries : List (YamlNode × YamlNode))
  | alias (number : Nat)
deriving Inhabited

/-- A node that is left out. -/
def YamlNode.empty : YamlNode := .scalar .empty

namespace Yaml

/-- A document: its root and its named nodes with their numbers, from the one that begins last to
the one that begins first. -/
structure Document where
  root : YamlNode
  named : List (Nat × YamlNode)
deriving Inhabited

/-- The node itself, or the one that it stands for: of all nodes with a number the last one of the
document, even if it stands behind the alias. -/
def Document.target (d : Document) : YamlNode → YamlNode
  | .alias number => (d.named.lookup number).getD (.alias number)
  | node => node

end Yaml

end ProcessEngine
