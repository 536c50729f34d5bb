import Transshipment.Network.Chart
import Transshipment.Session

/-! A router at work. A clerk keeps the books of the last run and one chart for all searches,
takes both into the next run, and writes on them where they stand. What is not wiped or set
anew stays from one run to the next, over whichever networks they go. -/
namespace Transshipment

open InPlace (read write accept refuseIf apart)

/-- What carries the shipments of a clerk. It is read as a network, and less remains to send
after each shipment. -/
class Carrier (σ : Type) where
  network : σ → Network
  ship (w : Width) (carrier : σ) (path : List Nat) (remaining : Int) : Checked (Shipment × σ)
  remaining_lt {w : Width} {carrier after : σ} {path : List Nat} {remaining : Int}
    {shipment : Shipment} : ship w carrier path remaining = .ok (shipment, after) →
      shipment.remaining < remaining

instance : Carrier Network where
  network := id
  ship := Network.ship
  remaining_lt sent := by
    obtain ⟨positive, left⟩ := Network.ship_remaining sent
    omega

/-- The books of the last run, and the chart of the last search. -/
structure Clerk extends Router where
  chart : Chart := {}
  deriving DecidableEq

namespace Clerk

variable {σ : Type} [Carrier σ] {w : Width} {order : Order} {clerk : Clerk}

/-- One search, and one shipment along the path that it found if it comes to the sink. -/
def dispatch (w : Width) (order : Order) (remaining : Int) (clerk : Clerk) (carrier : σ) :
    Checked (Clerk × Option (Shipment × σ)) := do
  let net := Carrier.network carrier
  let (chart, potentials, reached) ←
    clerk.chart.search w net clerk.potentials order.source order.sink
  let clerk := { clerk with potentials, chart }
  if reached then do
    let path ← chart.pathTo net order.sink
    return (clerk, some (← Carrier.ship w carrier path remaining))
  else return (clerk, none)

/-- Less remains after a shipment. -/
theorem dispatch_remaining_lt {remaining : Int} {left : Clerk} {shipment : Shipment}
    {carrier after : σ}
    (dispatched : clerk.dispatch w order remaining carrier = .ok (left, some (shipment, after))) :
    shipment.remaining < remaining := by
  unfold dispatch at dispatched
  obtain ⟨⟨chart, potentials, reached⟩, _, dispatched⟩ := Checked.bind_eq_ok_iff.mp dispatched
  dsimp only at dispatched
  split at dispatched
  · obtain ⟨path, _, dispatched⟩ := Checked.bind_eq_ok_iff.mp dispatched
    obtain ⟨made, shipped, dispatched⟩ := Checked.bind_eq_ok_iff.mp dispatched
    cases dispatched
    exact Carrier.remaining_lt shipped
  · cases dispatched

/-- Adds a shipment to the cost of the run and enters it into the books. -/
def book (w : Width) (cost : Int) (clerk : Clerk) (shipment : Shipment) :
    Checked (Clerk × Int) := do
  let cost ← w.add cost shipment.cost
  let delivered ← w.add clerk.delivered shipment.amount
  return ({ clerk with delivered, shipments := clerk.shipments + 1 }, cost)

/-- Ships until the demand is met, the sink is out of reach, or as many shipments were made as
the limit allows. -/
def rounds (w : Width) (order : Order) (remaining cost : Int) (clerk : Clerk) (carrier : σ) :
    Traced ((Clerk × σ) × Except Refusal Outcome) :=
  if remaining ≤ 0 then
    ⟨[.routed clerk.delivered cost clerk.shipments], .ok ((clerk, carrier), .ok (.optimal cost))⟩
  else match clerk.limit?.filter (· ≤ clerk.shipments) with
  | some limit =>
    ⟨[.stopped limit remaining], .ok ((clerk, carrier), .error (.limitReached limit))⟩
  | none =>
    match _ : clerk.dispatch w order remaining carrier with
    | .error fault => ⟨[], .error fault⟩
    | .ok (clerk, none) =>
      ⟨[.unreachable order.sink remaining order.demand], .ok ((clerk, carrier), .ok .infeasible)⟩
    | .ok (clerk, some (shipment, carrier)) =>
      Traced.after [.pushed shipment.amount shipment.path.length shipment.cost] do
        let (clerk, cost) ← clerk.book w cost shipment
        clerk.rounds w order shipment.remaining cost carrier
termination_by remaining.toNat
decreasing_by
  have closer : shipment.remaining < remaining := dispatch_remaining_lt (by assumption)
  omega

/-- Routes an order. A malformed one is refused before the books are touched, and the books
are cleared before anything else is done. -/
def route (w : Width) (order : Order) : InPlace (Clerk × σ) Outcome := do
  let (_, carrier) ← read
  let net := Carrier.network carrier
  refuseIf (net.nodes ≤ order.source) (.nodeOutOfRange order.source net.nodes)
  refuseIf (net.nodes ≤ order.sink) (.nodeOutOfRange order.sink net.nodes)
  refuseIf (order.demand < 0) .negativeDemand
  write fun (clerk, carrier) =>
    ({ clerk with delivered := 0, shipments := 0, potentials := #[] }, carrier)
  Traced.emit (.routing order.demand order.source order.sink net.nodes net.arcs)
  if order.demand = 0 ∨ order.source = order.sink then return .optimal 0
  else do
    let potentials ← accept (← net.startPotentials w)
    write fun (clerk, carrier) => ({ clerk with potentials }, carrier)
    fun (clerk, carrier) => clerk.rounds w order order.demand 0 carrier

/-- Settles a problem over a network of its own. The flows are written back at the very
end. -/
def settle (w : Width) : InPlace (Clerk × Problem) Status := do
  let (clerk, problem) ← read
  refuseIf (← problem.unbalanced w) .unbalanced
  let (net, order) ← apart (Network.ofNodes problem.sites.size) (problem.addOrder w)
  let ((clerk, net), answer) ← route w order (clerk, net)
  write fun (_, problem) => (clerk, problem)
  let outcome ← accept answer
  let solved ← problem.withFlows net
  write fun (clerk, _) => (clerk, solved)
  return outcome.status

/-- A run as it shows from outside: the books and the network, but not the chart. -/
def run : (Clerk × Network) × Except Refusal Outcome → Run
  | ((clerk, net), answer) => ⟨clerk.toRouter, net, answer⟩

/-- A settlement as it shows from outside. -/
def settlement : (Clerk × Problem) × Except Refusal Status → Settlement
  | ((clerk, problem), answer) => ⟨clerk.toRouter, problem, answer⟩

end Clerk

end Transshipment
