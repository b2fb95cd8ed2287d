/-
A view graph as the tree that its nodes and their lists of children describe.
-/
import LiveScreen.Scene.Graph

namespace LiveScreen

/-- A node, whether its parent is the node it is listed under, and the trees of its children. -/
inductive Tree where
  | mk (node : Node) (inPlace : Bool) (children : List Tree)

namespace Graph

mutual

/-- The tree below a node, down to a depth. -/
def treeAt (g : Graph) (parent : Option NodeId) : Nat → NodeId → Option Tree
  | 0, _ => none
  | depth + 1, id =>
    match g.node? id with
    | some node => some (.mk node (node.parent = parent) (g.treesAt id depth node.children))
    | none => none

/-- The trees below the children of a node. -/
def treesAt (g : Graph) (parent : NodeId) (depth : Nat) : List NodeId → List Tree
  | [] => []
  | id :: rest => (g.treeAt (some parent) depth id).toList ++ g.treesAt parent depth rest

end

/-- The whole tree. It is not deeper than there are nodes. -/
def tree (g : Graph) : Option Tree := g.treeAt none g.size g.root

/-- The node that a path of child positions leads to from a node. -/
def follow (g : Graph) (id : NodeId) : List Nat → Option NodeId
  | [] => (g.node? id).map (·.id)
  | i :: rest =>
    match (g.node? id).bind (·.children[i]?) with
    | some child => g.follow child rest
    | none => none

end Graph

end LiveScreen
