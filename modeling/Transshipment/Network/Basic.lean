import Transshipment.Answers

/-! A network has numbered nodes and links between them. A link carries a flow
and is seen as two arcs: one along it, with the capacity that is still free, and
one against it, with the flow that can be taken back. Link `k` has the arcs
`2 * k` along and `2 * k + 1` against. A push moves residual capacity from an arc to
its mate, so the sum over a link, its capacity, never changes. Potentials price the
nodes: under them an arc has a reduced cost, its cost plus the potential of its tail
less that of its head. Along a closed walk the potentials cancel, so they change which
arcs look cheap but not which walks are. -/
namespace Transshipment

/-! ## Links and arcs -/

/-- An inserted connection. `free` is the capacity left and `used` the flow, so
their sum is the capacity that was inserted. -/
structure Link where
  tail : Nat
  head : Nat
  cost : Int
  free : Int
  used : Int
  deriving DecidableEq

/-- One direction of a link, as a search sees it. -/
structure Arc where
  tail : Nat
  head : Nat
  residual : Int
  cost : Int
  deriving DecidableEq

namespace Arc

/-- The arc with this number runs along its link. -/
def along (id : Nat) : Bool := id % 2 == 0

/-- The other arc of the same link. -/
def mate (id : Nat) : Nat := if along id then id + 1 else id - 1

/-- Only an open arc can carry another unit. -/
def Open (arc : Arc) : Prop := 0 < arc.residual

instance (arc : Arc) : Decidable arc.Open := inferInstanceAs (Decidable (_ < _))

end Arc

/-- Walking against a link swaps its ends, offers its flow and refunds its
cost. -/
def Link.arc (link : Link) : (along : Bool) → Arc
  | true => ⟨link.tail, link.head, link.free, link.cost⟩
  | false => ⟨link.head, link.tail, link.used, -link.cost⟩

/-- Links in the order of insertion, and for each node the numbers of the arcs
that leave it, also in the order of insertion. -/
structure Network where
  links : Array Link
  rows : Array (Array Nat)
  deriving DecidableEq

namespace Network

/-- Nodes `0` up to `nodes - 1` and no link. -/
def ofNodes (nodes : Nat) : Network := ⟨#[], Array.replicate nodes #[]⟩

/-- The number of nodes. -/
def nodes (net : Network) : Nat := net.rows.size

/-- The number of arcs, two for each link. -/
def arcs (net : Network) : Nat := 2 * net.links.size

/-- The new node takes the next number. -/
def insertNode (net : Network) : Nat × Network :=
  (net.nodes, { net with rows := net.rows.push #[] })

/-- Appends a link without looking at its ends or its capacity. The cost has to
be negatable, since the arc against the link refunds it. -/
def attach (w : Width) (net : Network) (tail head : Nat) (capacity cost : Int) :
    Checked Network := do
  let _ ← w.neg cost
  let rows := net.rows.modify tail (·.push net.arcs)
  return ⟨net.links.push ⟨tail, head, cost, capacity, 0⟩, rows.modify head (·.push (net.arcs + 1))⟩

/-- Why a link between these nodes with this capacity is refused, if it is. The
tail is looked at first, then the head, then the capacity. -/
def linkRefusal? (net : Network) (tail head : Nat) (capacity : Int) : Option Refusal :=
  if net.nodes ≤ tail then some (.nodeOutOfRange tail net.nodes)
  else if net.nodes ≤ head then some (.nodeOutOfRange head net.nodes)
  else if capacity < 0 then some (.negativeCapacity tail head)
  else none

/-- Appends a link that carries nothing yet and answers the number of its arc
along; a refused link changes nothing. -/
def insertLink (w : Width) (net : Network) (tail head : Nat) (capacity cost : Int) :
    Checked (Except Refusal (Nat × Network)) :=
  match net.linkRefusal? tail head capacity with
  | some refusal => .ok (.error refusal)
  | none => do return .ok (net.arcs, ← net.attach w tail head capacity cost)

/-- The link to which an arc belongs. -/
def link (net : Network) (id : Nat) : Checked Link :=
  match net.links[id / 2]? with
  | some link => .ok link
  | none => .error (.outOfBounds net.arcs id)

/-- The arc with this number. -/
def arc (net : Network) (id : Nat) : Checked Arc := do
  return (← net.link id).arc (Arc.along id)

/-- The arcs that leave a node, in the order of insertion. -/
def outgoing (net : Network) (node : Nat) : Checked (Array Nat) := fetch net.rows node

end Network

/-! ## Flow -/

namespace Link

/-- The capacity with which the link was inserted. -/
def capacity (w : Width) (link : Link) : Checked Int := w.add link.free link.used

/-- Moves an amount from one arc of the link to the other. -/
def shift (w : Width) (link : Link) (along : Bool) (amount : Int) : Checked Link :=
  match along with
  | true => do
    let free ← w.sub link.free amount
    return { link with free, used := ← w.add link.used amount }
  | false => do
    let used ← w.sub link.used amount
    return { link with free := ← w.add link.free amount, used }

end Link

namespace Network

/-- The flow on a link, asked of its arc along. -/
def flow (net : Network) (id : Nat) : Checked Int :=
  if Arc.along id then do return (← net.link id).used else .error .backwardArc

/-- The capacity of a link, asked of its arc along. -/
def capacity (w : Width) (net : Network) (id : Nat) : Checked Int :=
  if Arc.along id then do (← net.link id).capacity w else .error .backwardArc

/-- The numbers of the arcs along the links. -/
def forwardArcs (net : Network) : List Nat := (List.range net.links.size).map (2 * ·)

/-- Sends an amount over one arc. An amount that is negative or exceeds the
residual capacity would break the bounds of the link for every later step, so
it is a fault. -/
def push (w : Width) (net : Network) (id : Nat) (amount : Int) : Checked Network :=
  if amount < 0 then .error (.invalidPush id) else do
    let link ← net.link id
    if (link.arc (Arc.along id)).residual < amount then .error (.invalidPush id) else do
      return { net with
        links := net.links.setIfInBounds (id / 2) (← link.shift w (Arc.along id) amount) }

/-- What a link adds to the divergence of a node: its flow leaves the tail and
enters the head, and a loop does both. -/
def divergenceOver (w : Width) (node : Nat) (sum : Int) (link : Link) : Checked Int := do
  let left ← if link.tail = node then w.add sum link.used else pure sum
  if link.head = node then w.sub left link.used else pure left

/-- The flow out of a node less the flow into it. -/
def divergence (w : Width) (net : Network) (node : Nat) : Checked Int :=
  net.links.toList.foldlM (divergenceOver w node) 0

end Network

/-! ## Prices -/

/-- One amount for each node. -/
abbrev Potentials := Array Int

namespace Network

/-- The cost of an arc as the potentials of its ends show it. -/
def reducedCost (w : Width) (net : Network) (potentials : Potentials) (id : Nat) :
    Checked Int := do
  let arc ← net.arc id
  let raised ← w.add arc.cost (← fetch potentials arc.tail)
  w.sub raised (← fetch potentials arc.head)

/-- Some open arc has a negative cost. Without one, potentials of zero do. -/
def hasBargain (net : Network) : Bool :=
  net.links.any fun link =>
    [true, false].any fun along =>
      let arc := link.arc along
      arc.Open && arc.cost < 0

end Network

end Transshipment
