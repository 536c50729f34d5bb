import Transshipment.Network.Basic

/-! Start potentials: for each node the cheapest walk of open arcs that ends
there, where the empty walk costs nothing. Sweeps over all arcs lower the
potentials in place. If a sweep changes nothing they are final; if a sweep for
every node still changes one, the arcs that lowered it lead back to a negative
cycle. -/
namespace Transshipment

/-- The potentials found so far, for each node the tail of the arc that lowered
it last, and the node lowered last in the present sweep. -/
structure Relaxation where
  potentials : Potentials
  parents : Array (Option Nat)
  lowered? : Option Nat
  deriving DecidableEq

namespace Relaxation

/-- Every node starts with its empty walk. -/
def start (nodes : Nat) : Relaxation :=
  ⟨Array.replicate nodes 0, Array.replicate nodes none, none⟩

/-- An open arc lowers the potential of its head to what its tail offers, if
that is strictly less. -/
def relax (w : Width) (net : Network) (r : Relaxation) (id : Nat) : Checked Relaxation := do
  let arc ← net.arc id
  if arc.Open then do
    let offer ← w.add (← fetch r.potentials arc.tail) arc.cost
    if offer < (← fetch r.potentials arc.head) then
      return ⟨r.potentials.setIfInBounds arc.head offer,
        r.parents.setIfInBounds arc.head (some arc.tail), some arc.head⟩
    else return r
  else return r

/-- All arcs once: the nodes in order, and for each node the arcs that leave
it. -/
def sweep (w : Width) (net : Network) (r : Relaxation) : Checked Relaxation :=
  (List.range net.nodes).foldlM
    (fun r node => do (← net.outgoing node).toList.foldlM (relax w net) r)
    { r with lowered? := none }

/-- Sweeps until one changes nothing, at most as often as the budget says. -/
def sweeps (w : Width) (net : Network) : (budget : Nat) → Relaxation → Checked Relaxation
  | 0, r => .ok r
  | budget + 1, r => do
    let next ← r.sweep w net
    match next.lowered? with
    | none => return next
    | some _ => next.sweeps w net budget

/-- The parent of a node; a node that was never lowered stays where it is. -/
def parent (r : Relaxation) (node : Nat) : Nat := (r.parents[node]?.join).getD node

/-- The node reached by going back from parent to parent. -/
def ancestor (r : Relaxation) : (steps node : Nat) → Nat
  | 0, node => node
  | steps + 1, node => r.ancestor steps (r.parent node)

end Relaxation

namespace Network

/-- One sweep for each node, or none at all if no open arc has a negative
cost. -/
def relaxation (w : Width) (net : Network) : Checked Relaxation :=
  let start := Relaxation.start net.nodes
  if net.hasBargain then start.sweeps w net net.nodes else .ok start

/-- Potentials under which no open arc has a negative reduced cost, or the
refusal that names a node on a negative cycle. The node lowered last may merely
hang off the cycle; as many steps back as there are nodes end on it. -/
def startPotentials (w : Width) (net : Network) : Traced (Except Refusal Potentials) := do
  let r ← net.relaxation w
  match r.lowered? with
  | none => return .ok r.potentials
  | some last =>
    let node := r.ancestor net.nodes last
    Traced.emit (.cycleFound node)
    return .error (.negativeCycle node)

end Network

end Transshipment
