import Transshipment.Clerk

/-! A network as it is stored. All arcs stand in one table, each with the number of its mate,
so a push finds the other arc of the link by that number. The rows of the nodes and the count
of the nodes are kept beside it. -/
namespace Transshipment

open InPlace (read write refuseIf)

/-- One of the two arcs of a link, with the number of the other. -/
structure Half where
  tail : Nat
  head : Nat
  residual : Int
  cost : Int
  mate : Nat
  deriving DecidableEq

/-- The halves of all links, in pairs in the order of insertion, and for each node the numbers
of the halves that leave it. -/
structure Arena where
  nodes : Nat
  halves : Array Half
  rows : Array (Array Nat)
  deriving DecidableEq

namespace Arena

/-- Nodes without links. -/
def ofNodes (nodes : Nat) : Arena := ⟨nodes, #[], Array.replicate nodes #[]⟩

/-- Gives the new node its row, then counts it. -/
def addNode : InPlace Arena Nat := do
  write fun arena => { arena with rows := arena.rows.push #[] }
  write fun arena => { arena with nodes := arena.nodes + 1 }
  return (← read).nodes - 1

/-- Adds a half to the row of a node. -/
def enter (node id : Nat) : InPlace Arena Unit := do
  let row ← fetch (← read).rows node
  write fun arena => { arena with rows := arena.rows.setIfInBounds node (row.push id) }

/-- Looks at both ends and at the capacity, then writes both halves and enters them. -/
def addLink (w : Width) (offer : Offer) : InPlace Arena Nat := do
  let before ← read
  refuseIf (before.nodes ≤ offer.tail) (.nodeOutOfRange offer.tail before.nodes)
  refuseIf (before.nodes ≤ offer.head) (.nodeOutOfRange offer.head before.nodes)
  refuseIf (offer.capacity < 0) (.negativeCapacity offer.tail offer.head)
  let along := before.halves.size
  let against := along + 1
  write fun arena => { arena with
    halves := arena.halves.push ⟨offer.tail, offer.head, offer.capacity, offer.cost, against⟩ }
  let refund ← w.neg offer.cost
  write fun arena => { arena with
    halves := arena.halves.push ⟨offer.head, offer.tail, 0, refund, along⟩ }
  enter offer.tail along
  enter offer.head against
  return along

/-- Moves an amount of residual capacity from a half to its mate. -/
def push (w : Width) (arena : Arena) (id : Nat) (amount : Int) : Checked Arena :=
  if amount < 0 then .error (.invalidPush id) else do
    let half ← fetch arena.halves id
    if half.residual < amount then .error (.invalidPush id) else do
      let residual ← w.sub half.residual amount
      let halves := arena.halves.setIfInBounds id { half with residual }
      let mate ← fetch halves half.mate
      let residual ← w.add mate.residual amount
      return { arena with halves := halves.setIfInBounds half.mate { mate with residual } }

/-- The least of a bound and the residual capacities on a path. -/
def bottleneck (arena : Arena) (path : List Nat) (bound : Int) : Checked Int :=
  path.foldlM (fun least id => do return min least (← fetch arena.halves id).residual) bound

/-- One half of a path takes the amount and adds its share to the cost. -/
def traverse (w : Width) (amount : Int) (sent : Arena × Int) (id : Nat) :
    Checked (Arena × Int) := do
  let (arena, cost) := sent
  let arena ← arena.push w id amount
  let share ← w.mul amount (← fetch arena.halves id).cost
  return (arena, ← w.add cost share)

/-- Sends as much as possible of what remains along a path. -/
def ship (w : Width) (arena : Arena) (path : List Nat) (remaining : Int) :
    Checked (Shipment × Arena) := do
  let amount ← arena.bottleneck path remaining
  if path = [] ∨ amount ≤ 0 then .error .emptyShipment else do
    let (arena, cost) ← path.foldlM (traverse w amount) (arena, 0)
    return (⟨amount, cost, ← w.sub remaining amount, path⟩, arena)

/-- Less remains after a shipment. -/
theorem ship_remaining_lt {w : Width} {arena after : Arena} {path : List Nat} {remaining : Int}
    {shipment : Shipment} (sent : arena.ship w path remaining = .ok (shipment, after)) :
    shipment.remaining < remaining := by
  unfold ship at sent
  obtain ⟨amount, _, sent⟩ := Checked.bind_eq_ok_iff.mp sent
  split at sent
  · cases sent
  · obtain ⟨⟨arena, cost⟩, _, sent⟩ := Checked.bind_eq_ok_iff.mp sent
    obtain ⟨left, kept, sent⟩ := Checked.bind_eq_ok_iff.mp sent
    cases sent
    obtain rfl := (Width.keep_eq_ok_iff.mp kept).1
    dsimp only
    omega

/-- The numbers of the halves along the links. -/
def alongs (arena : Arena) : List Nat :=
  (List.range ((arena.halves.size + 1) / 2)).map (2 * ·)

/-- The flow on a link, asked of its half along: it is what the mate lets through. -/
def flow (arena : Arena) (id : Nat) : Checked Int :=
  if Arc.along id then do
    let half ← fetch arena.halves id
    return (← fetch arena.halves half.mate).residual
  else .error .backwardArc

/-- What a link adds to the divergence of a node. -/
def divergenceOver (w : Width) (arena : Arena) (node : Nat) (sum : Int) (id : Nat) :
    Checked Int := do
  let half ← fetch arena.halves id
  let left ← if half.tail = node then w.add sum (← arena.flow id) else pure sum
  if half.head = node then w.sub left (← arena.flow id) else pure left

/-- The flow out of a node less the flow into it. -/
def divergence (w : Width) (arena : Arena) (node : Nat) : Checked Int :=
  arena.alongs.foldlM (arena.divergenceOver w node) 0

/-- The network as which an arena is read. -/
def network (arena : Arena) : Network where
  links := Array.ofFn fun k : Fin (arena.halves.size / 2) =>
    have along : 2 * k.val < arena.halves.size := by omega
    have against : 2 * k.val + 1 < arena.halves.size := by omega
    ⟨arena.halves[2 * k.val].tail, arena.halves[2 * k.val].head, arena.halves[2 * k.val].cost,
      arena.halves[2 * k.val].residual, arena.halves[2 * k.val + 1].residual⟩
  rows := arena.rows

instance : Carrier Arena := ⟨network, ship, ship_remaining_lt⟩

/-- The number of nodes, and the links that were accepted, in order. -/
structure Ledger where
  nodes : Nat
  offers : List Offer := []
  deriving DecidableEq

/-- Notes a link, unless it was refused. -/
def Ledger.note (ledger : Ledger) (offer : Offer) (answer : Except Refusal Nat) : Ledger :=
  if answer.isOk then { ledger with offers := ledger.offers ++ [offer] } else ledger

/-- The arena came about by requests, with these notes in the ledger. -/
inductive Served (w : Width) : Arena → Ledger → Prop
  | ofNodes (nodes : Nat) : Served w (.ofNodes nodes) { nodes }
  | addNode {arena next : Arena} {ledger : Ledger} {answer : Except Refusal Nat} :
    Served w arena ledger → (Arena.addNode arena).result = .ok (next, answer) →
      Served w next { ledger with nodes := ledger.nodes + 1 }
  | addLink {arena next : Arena} {ledger : Ledger} {offer : Offer} {answer : Except Refusal Nat} :
    Served w arena ledger → w.Fits offer.capacity → w.Fits offer.cost →
      (Arena.addLink w offer arena).result = .ok (next, answer) →
      Served w next (ledger.note offer answer)
  | push {arena next : Arena} {ledger : Ledger} {id : Nat} {amount : Int} :
    Served w arena ledger → arena.push w id amount = .ok next → Served w next ledger
  | ship {arena next : Arena} {ledger : Ledger} {path : List Nat} {remaining : Int}
      {shipment : Shipment} :
    Served w arena ledger → arena.ship w path remaining = .ok (shipment, next) →
      Served w next ledger
  | route {arena next : Arena} {ledger : Ledger} {clerk left : Clerk} {order : Order}
      {answer : Except Refusal Outcome} :
    Served w arena ledger →
      (Clerk.route w order (clerk, arena)).result = .ok ((left, next), answer) →
      Served w next ledger

end Arena

end Transshipment
