import Mathlib.Algebra.Ring.Int.Defs
import Transshipment.Network.Basic
import Transshipment.Problem

/-! What routers and settlements are measured by, told without any search. Walks over
open arcs are what distances, reachability and negative cycles refer to. An assignment
gives each link or lane an amount by its position, whether a router found it or not. Sums
are exact here, so they compare assignments that no width could add up. -/
namespace Transshipment

/-! ## Walks -/

namespace Network

/-- The arcs lead over open arcs from the first node to the second, and their
costs sum to the cost. The empty walk stays where it is and costs nothing. -/
inductive Walk (net : Network) : (source : Nat) → (path : List Nat) → (sink : Nat) →
    (cost : Int) → Prop
  | nil (node : Nat) : Walk net node [] node 0
  | cons {id : Nat} {arc : Arc} {path : List Nat} {sink : Nat} {cost : Int} :
    net.arc id = .ok arc → arc.Open → Walk net arc.head path sink cost →
      Walk net arc.tail (id :: path) sink (arc.cost + cost)

/-- Some walk leads from the first node to the second. -/
def Connects (net : Network) (source sink : Nat) : Prop :=
  ∃ path cost, net.Walk source path sink cost

/-- The nodes that a path leaves, in order. -/
def departures (net : Network) (path : List Nat) : List Nat :=
  path.filterMap fun id => (net.arc id).toOption.map Arc.tail

/-- A walk that comes to no node twice, the last one included. -/
def SimpleWalk (net : Network) (source : Nat) (path : List Nat) (sink : Nat) (cost : Int) :
    Prop :=
  net.Walk source path sink cost ∧ (net.departures path ++ [sink]).Nodup

/-- The node lies on a cycle of open arcs that passes no node twice and costs
less than nothing. -/
def OnNegativeCycle (net : Network) (node : Nat) : Prop :=
  ∃ path cost, net.Walk node path node cost ∧ (net.departures path).Nodup ∧ cost < 0

/-- The reduced cost of an arc without regard to a width. -/
def exactReducedCost (potentials : Potentials) (arc : Arc) : Int :=
  arc.cost + potentials.getD arc.tail 0 - potentials.getD arc.head 0

/-- There is one potential for each node, and no open arc has a negative reduced
cost. -/
def PricedBy (net : Network) (potentials : Potentials) : Prop :=
  potentials.size = net.nodes ∧
    ∀ id arc, net.arc id = .ok arc → arc.Open → 0 ≤ exactReducedCost potentials arc

end Network

/-! ## Flows of a network -/

/-- An amount for each link or lane. -/
abbrev Assignment := Nat → Int

namespace Network

/-- The flow that the network carries now. -/
def carried (net : Network) : Assignment := fun k => (net.links[k]?.map Link.used).getD 0

/-- No link takes less than nothing or more than its capacity. -/
def Admits (net : Network) (flow : Assignment) : Prop :=
  ∀ k link, net.links[k]? = some link → 0 ≤ flow k ∧ flow k ≤ link.free + link.used

/-- What leaves a node less what enters it. -/
def outflow (net : Network) (flow : Assignment) (node : Nat) : Int :=
  (net.links.toList.zipIdx.map fun (link, k) =>
    (if link.tail = node then flow k else 0) - (if link.head = node then flow k else 0)).sum

/-- What an assignment costs in all. -/
def price (net : Network) (flow : Assignment) : Int :=
  (net.links.toList.zipIdx.map fun (link, k) => link.cost * flow k).sum

/-- The second assignment brings that much more from the source to the sink and
nothing to or from any other node. -/
def Brings (net : Network) (before after : Assignment) (source sink : Nat) (amount : Int) : Prop :=
  ∀ node, net.outflow after node = net.outflow before node +
    (if node = source then amount else 0) - (if node = sink then amount else 0)

/-- That much can be sent on top of the present flow. -/
def Sendable (net : Network) (source sink : Nat) (amount : Int) : Prop :=
  ∃ flow, net.Admits flow ∧ net.Brings net.carried flow source sink amount

end Network

/-! ## Flows of a problem -/

namespace Problem

/-- The flow that the lanes carry now. -/
def carried (problem : Problem) : Assignment :=
  fun k => (problem.lanes[k]?.map fun lane => lane.lower + lane.routed).getD 0

/-- What leaves a site less what enters it. -/
def outflow (problem : Problem) (flow : Assignment) (node : Nat) : Int :=
  (problem.lanes.toList.zipIdx.map fun (lane, k) =>
    (if lane.tail = node then flow k else 0) - (if lane.head = node then flow k else 0)).sum

/-- What an assignment costs in all. -/
def price (problem : Problem) (flow : Assignment) : Int :=
  (problem.lanes.toList.zipIdx.map fun (lane, k) => lane.cost * flow k).sum

/-- Every lane stays within its bounds, and every site sends its supply. -/
def SolvedBy (problem : Problem) (flow : Assignment) : Prop :=
  (∀ k lane, problem.lanes[k]? = some lane →
    lane.lower ≤ flow k ∧ flow k ≤ lane.lower + lane.span) ∧
  ∀ node site, problem.sites[node]? = some site → problem.outflow flow node = site.supply

end Problem

end Transshipment
