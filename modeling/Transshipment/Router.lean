import Transshipment.Network.Relaxation
import Transshipment.Network.Shipment

/-! A router sends a demand from a source to a sink at the least cost. The start
potentials make the first path cheapest. The order is then worked off in rounds: each
searches the cheapest path under the present potentials, ships along it and hands valid
potentials to the next, until nothing remains, no path is left, or the limit is reached.
The books of the last run stay readable, whatever it ended in. -/
namespace Transshipment

/-! ## Rounds -/

/-- Units to be sent from one node to another. -/
structure Order where
  source : Nat
  sink : Nat
  demand : Int
  deriving DecidableEq

/-- The state between two rounds: the network and the potentials for the next
search, the units still to be sent, and what was paid and delivered so far. -/
structure Progress where
  net : Network
  potentials : Potentials
  remaining : Int
  cost : Int
  delivered : Int
  shipments : Nat
  deriving DecidableEq

/-- How a round ends: the sink was out of reach, or a shipment was made. -/
inductive Round where
  | stranded (last : Progress)
  | shipped (next : Progress)
  deriving DecidableEq

namespace Progress

/-- Nothing is sent before the first round. -/
def start (net : Network) (potentials : Potentials) (demand : Int) : Progress :=
  ⟨net, potentials, demand, 0, 0, 0⟩

/-- Enters a shipment into the books. -/
def account (w : Width) (p : Progress) (potentials : Potentials) (shipment : Shipment)
    (net : Network) : Checked Progress := do
  let cost ← w.add p.cost shipment.cost
  let delivered ← w.add p.delivered shipment.amount
  return ⟨net, potentials, shipment.remaining, cost, delivered, p.shipments + 1⟩

/-- One round. The message goes out before the totals are summed. -/
def advance (w : Width) (order : Order) (p : Progress) : Traced Round :=
  match p.net.dispatch w p.potentials order.source order.sink p.remaining with
  | .error fault => ⟨[], .error fault⟩
  | .ok ⟨survey, none⟩ =>
    ⟨[.unreachable order.sink p.remaining order.demand],
      .ok (.stranded { p with potentials := survey.potentials })⟩
  | .ok ⟨survey, some (shipment, net)⟩ =>
    ⟨[.pushed shipment.amount shipment.path.length shipment.cost],
      Round.shipped <$> p.account w survey.potentials shipment net⟩

/-- Each shipment brings the demand closer, which is why the rounds end. -/
theorem advance_remaining_lt {w : Width} {order : Order} {p next : Progress}
    (round : (p.advance w order).result = .ok (.shipped next)) : next.remaining < p.remaining := by
  unfold advance at round
  split at round
  · cases round
  · cases round
  · rename_i survey shipment net dispatched
    obtain ⟨booked, accounted, round⟩ := Checked.map_eq_ok_iff.mp round
    cases round
    obtain ⟨path, _, sent⟩ := Network.ship_of_dispatch dispatched
    obtain ⟨positive, left⟩ := Network.ship_remaining sent
    obtain ⟨cost, _, accounted⟩ := Checked.bind_eq_ok_iff.mp accounted
    obtain ⟨delivered, _, accounted⟩ := Checked.bind_eq_ok_iff.mp accounted
    cases accounted
    change shipment.remaining < p.remaining
    omega

/-- How the rounds end: the last state and the answer to the order. -/
structure Ending where
  last : Progress
  answer : Except Refusal Outcome

/-- Rounds go on until the demand is met, the sink is out of reach, or as many
shipments were made as the limit allows. The limit is looked at before a round
and never cuts one short. -/
def rounds (w : Width) (order : Order) (limit? : Option Nat) (p : Progress) : Traced Ending :=
  if p.remaining ≤ 0 then
    ⟨[.routed p.delivered p.cost p.shipments], .ok ⟨p, .ok (.optimal p.cost)⟩⟩
  else match limit?.filter (· ≤ p.shipments) with
  | some limit => ⟨[.stopped limit p.remaining], .ok ⟨p, .error (.limitReached limit)⟩⟩
  | none =>
    let turn := p.advance w order
    match _ : turn.result with
    | .error fault => ⟨turn.log, .error fault⟩
    | .ok (.stranded last) => ⟨turn.log, .ok ⟨last, .ok .infeasible⟩⟩
    | .ok (.shipped next) => (next.rounds w order limit?).after turn.log
termination_by p.remaining.toNat
decreasing_by
  have closer : next.remaining < p.remaining := advance_remaining_lt (by assumption)
  omega

end Progress

/-! ## Runs -/

/-- The books of the last run, and the limit for the next one. -/
structure Router where
  limit? : Option Nat := none
  delivered : Int := 0
  shipments : Nat := 0
  potentials : Potentials := #[]
  deriving DecidableEq

/-- What a run leaves behind: also a refused one has a router and a network. -/
structure Run where
  router : Router
  net : Network
  answer : Except Refusal Outcome

namespace Router

/-- A malformed order is refused before anything is touched. -/
def orderRefusal? (net : Network) (order : Order) : Option Refusal :=
  if net.nodes ≤ order.source then some (.nodeOutOfRange order.source net.nodes)
  else if net.nodes ≤ order.sink then some (.nodeOutOfRange order.sink net.nodes)
  else if order.demand < 0 then some .negativeDemand
  else none

/-- Enters the state in which a run ended into the books. -/
def close (router : Router) (ending : Progress.Ending) : Run :=
  ⟨{ router with
      delivered := ending.last.delivered
      shipments := ending.last.shipments
      potentials := ending.last.potentials },
    ending.last.net, ending.answer⟩

/-- Routes an order over a network. Nothing needs to be sent for a demand of
zero or to the source itself. -/
def route (w : Width) (router : Router) (net : Network) (order : Order) : Traced Run :=
  match orderRefusal? net order with
  | some refusal => return ⟨router, net, .error refusal⟩
  | none => do
    let cleared : Router := { limit? := router.limit? }
    Traced.emit (.routing order.demand order.source order.sink net.nodes net.arcs)
    if order.demand = 0 ∨ order.source = order.sink then
      return ⟨cleared, net, .ok (.optimal 0)⟩
    else match ← net.startPotentials w with
    | .error refusal => return ⟨cleared, net, .error refusal⟩
    | .ok potentials => do
      let ending ← (Progress.start net potentials order.demand).rounds w order router.limit?
      return cleared.close ending

end Router

end Transshipment
