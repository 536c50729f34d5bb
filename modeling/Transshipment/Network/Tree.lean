import Transshipment.Network.Basic

/-! A search from a source labels nodes with their distance under the reduced
costs, settles the nearest labelled node, and labels what its arcs reach. As no
reduced cost is negative, a settled distance is final. Raising the potentials
by the distances keeps all reduced costs non-negative and makes the arcs of
the tree tight. -/
namespace Transshipment

/-- What a search knows about a node: nothing, a distance that may still fall,
or its final distance. `via` is the arc over which the node was reached; the
source has none. -/
inductive Mark where
  | unseen
  | tentative (distance : Int) (via : Option Nat)
  | settled (distance : Int) (via : Option Nat)
  deriving DecidableEq

namespace Mark

/-- The arc over which the node was reached, if it was over one. -/
def via : Mark → Option Nat
  | .unseen => none
  | .tentative _ via | .settled _ via => via

/-- The final distance. -/
def settled? : Mark → Option Int
  | .settled distance _ => some distance
  | .unseen | .tentative .. => none

/-- An arc offers a distance. Only a strictly better one replaces a tentative
one, so among equal offers the first stands; a settled node takes none. -/
def offer (mark : Mark) (distance : Int) (id : Nat) : Mark :=
  match mark with
  | .unseen => .tentative distance (some id)
  | .tentative known _ => if distance < known then .tentative distance (some id) else mark
  | .settled .. => mark

end Mark

/-- A tentative node that a search may settle next. -/
structure Candidate where
  node : Nat
  distance : Int
  via : Option Nat
  deriving DecidableEq

/-- The marks of all nodes. -/
structure Tree where
  marks : Array Mark
  deriving DecidableEq

namespace Tree

/-- The state of a session before its first search. -/
def empty : Tree := ⟨#[]⟩

/-- A search begins at the source, which has the distance zero. -/
def start (nodes source : Nat) : Tree :=
  ⟨(Array.replicate nodes .unseen).setIfInBounds source (.tentative 0 none)⟩

/-- The tentative nodes in order. -/
def candidates (tree : Tree) : List Candidate :=
  tree.marks.toList.zipIdx.filterMap fun (mark, node) =>
    match mark with
    | .tentative distance via => some ⟨node, distance, via⟩
    | .unseen | .settled .. => none

/-- The tentative node of least distance, and the first of them if there are
several. -/
def nearest? (tree : Tree) : Option Candidate := tree.candidates.minOn? (·.distance)

/-- An open arc that leaves a node settled at a distance offers the sum to its
head. The reduced cost must not be negative, or the settled distances would not
be final. -/
def relax (w : Width) (net : Network) (potentials : Potentials) (distance : Int) (tree : Tree)
    (id : Nat) : Checked Tree := do
  let arc ← net.arc id
  if arc.Open then do
    let step ← net.reducedCost w potentials id
    if step < 0 then .error (.negativeReducedCost id) else do
      let reach ← w.add distance step
      let mark ← fetch tree.marks arc.head
      return ⟨tree.marks.setIfInBounds arc.head (mark.offer reach id)⟩
  else return tree

/-- The nearest node is settled, and all its arcs make their offers. -/
def settle (w : Width) (net : Network) (potentials : Potentials) (tree : Tree)
    (nearest : Candidate) : Checked Tree := do
  let marks := tree.marks.setIfInBounds nearest.node (.settled nearest.distance nearest.via)
  (← net.outgoing nearest.node).toList.foldlM (relax w net potentials nearest.distance) ⟨marks⟩

/-- Settles nodes until no tentative one is left. A step settles one more node,
so a budget of one step for each node is never short. -/
def grow (w : Width) (net : Network) (potentials : Potentials) :
    (budget : Nat) → Tree → Checked Tree
  | 0, tree => .ok tree
  | budget + 1, tree =>
    match tree.nearest? with
    | none => .ok tree
    | some nearest => do (← tree.settle w net potentials nearest).grow w net potentials budget

/-- The distances of all nodes from the source. -/
def ofSource (w : Width) (net : Network) (potentials : Potentials) (source : Nat) : Checked Tree :=
  if potentials.size ≠ net.nodes then .error (.potentialCount potentials.size net.nodes)
  else if net.nodes ≤ source then .error (.outOfBounds net.nodes source)
  else (start net.nodes source).grow w net potentials net.nodes

/-- The final distance of a node that was reached. -/
def distance? (tree : Tree) (node : Nat) : Option Int := tree.marks[node]?.bind Mark.settled?

/-- The largest final distance. -/
def farthest (tree : Tree) : Int :=
  (tree.marks.toList.filterMap Mark.settled?).foldl max 0

/-- Every node is raised by its distance, and the nodes that were not reached
by the largest one: no arc out of them into the reached part gets too cheap. -/
def raise (w : Width) (tree : Tree) (potentials : Potentials) : Checked Potentials := do
  let farthest := tree.farthest
  let raised ← potentials.toList.zipIdx.mapM fun (potential, node) =>
    w.add potential ((tree.distance? node).getD farthest)
  return raised.toArray

/-- The search reached the node. -/
def reaches (tree : Tree) (node : Nat) : Checked Bool := do
  return (← fetch tree.marks node).settled?.isSome

/-- Goes back from a node over the arcs that reached it and puts them in front
of a path. A simple path has fewer arcs than there are nodes, so a longer one
is a fault. -/
def climb (tree : Tree) (net : Network) : (budget node : Nat) → (path : List Nat) →
    Checked (List Nat)
  | 0, node, path => do
    match (← fetch tree.marks node).via with
    | none => return path
    | some id =>
      let _ ← net.arc id
      .error .endlessPath
  | budget + 1, node, path => do
    match (← fetch tree.marks node).via with
    | none => return path
    | some id => tree.climb net budget (← net.arc id).tail (id :: path)

/-- The arcs from the source to a node, in the order in which they are
walked. -/
def trailTo (tree : Tree) (net : Network) (node : Nat) : Checked (List Nat) :=
  tree.climb net (net.nodes - 1) node []

end Tree

end Transshipment
