import Transshipment.Problem
import Transshipment.Router

/-! Requests. A problem is settled by one order over a network: every lane becomes a
link for what it admits beyond its lower bound, a new source feeds the sites with an
excess, and the sites with a lack feed a new sink. The flows on the lanes are then read
off their links. Two requests are answered in one call: the least cost of a demand
between two nodes, and the least cost of meeting supplies. -/
namespace Transshipment

/-! ## Settlements -/

namespace Problem

/-- One link for each lane. The lanes were checked when they were inserted. -/
def attachLanes (w : Width) (net : Network) (lanes : List Lane) : Checked Network :=
  lanes.foldlM (fun net lane => net.attach w lane.tail lane.head lane.span lane.cost) net

/-- Joins the sites from `node` on to the source or the sink, and sums what the
source has to send. -/
def attachSites (w : Width) (source sink : Nat) :
    List Site → (node : Nat) → (demand : Int) → Network → Checked (Network × Int)
  | [], _, demand, net => .ok (net, demand)
  | site :: rest, node, demand, net =>
    if 0 < site.excess then do
      let joined ← net.attach w source node site.excess 0
      attachSites w source sink rest (node + 1) (← w.add demand site.excess) joined
    else if site.excess < 0 then do
      let lack ← w.neg site.excess
      attachSites w source sink rest (node + 1) demand (← net.attach w node sink lack 0)
    else attachSites w source sink rest (node + 1) demand net

/-- The network of a problem, and the order that settles it. -/
def toOrder (w : Width) (problem : Problem) : Checked (Network × Order) := do
  let lanes ← attachLanes w (Network.ofNodes problem.sites.size) problem.lanes.toList
  let (source, net) := lanes.insertNode
  let (sink, net) := net.insertNode
  let (net, demand) ← attachSites w source sink problem.sites.toList 0 0 net
  return (net, ⟨source, sink, demand⟩)

/-- Every lane takes the flow of its link. -/
def withFlows (problem : Problem) (net : Network) : Checked Problem := do
  let lanes ← problem.lanes.toList.zipIdx.mapM fun (lane, k) => do
    return { lane with routed := ← net.flow (2 * k) }
  return { problem with lanes := lanes.toArray }

end Problem

/-- What settling leaves behind. -/
structure Settlement where
  router : Router
  problem : Problem
  answer : Except Refusal Status

namespace Router

/-- Settles a problem. An unbalanced one is refused before anything is touched,
and a refused run leaves the problem as it was. -/
def settle (w : Width) (router : Router) (problem : Problem) : Traced Settlement := do
  if ← problem.unbalanced w then return ⟨router, problem, .error .unbalanced⟩
  else do
    let (net, order) ← problem.toOrder w
    let run ← router.route w net order
    match run.answer with
    | .error refusal => return ⟨run.router, problem, .error refusal⟩
    | .ok outcome => return ⟨run.router, ← problem.withFlows run.net, .ok outcome.status⟩

end Router

/-! ## Requests in one call -/

namespace Network

/-- Inserts offered links until one is refused. -/
def insertOffers (w : Width) (net : Network) : List Offer → Checked (Except Refusal Network)
  | [] => .ok (.ok net)
  | offer :: rest => do
    match ← net.insertLink w offer.tail offer.head offer.capacity offer.cost with
    | .error refusal => return .error refusal
    | .ok (_, grown) => grown.insertOffers w rest

end Network

namespace Problem

/-- Adds supplies in order until one names no site. A site may be named more
than once. -/
def provideAll (w : Width) (problem : Problem) :
    List (Nat × Int) → Checked (Except Refusal Problem)
  | [] => .ok (.ok problem)
  | (node, amount) :: rest => do
    match ← problem.provide w node amount with
    | .error refusal => return .error refusal
    | .ok supplied => supplied.provideAll w rest

end Problem

/-- The least cost of an order over offered links. -/
def costOfOrder (w : Width) (nodes : Nat) (offers : List Offer) (order : Order) :
    Traced (Except Refusal Outcome) := do
  match ← (Network.ofNodes nodes).insertOffers w offers with
  | .error refusal => return .error refusal
  | .ok net => return (← ({} : Router).route w net order).answer

/-- The least cost of meeting supplies over offered lanes. -/
def costOfSupplies (w : Width) (sites : Nat) (offers : List Offer) (supplies : List (Nat × Int)) :
    Traced (Except Refusal Outcome) := do
  match ← Problem.ofOffers w sites offers with
  | .error refusal => return .error refusal
  | .ok problem =>
    match ← problem.provideAll w supplies with
    | .error refusal => return .error refusal
    | .ok problem => do
      let settlement ← ({} : Router).settle w problem
      match settlement.answer with
      | .error refusal => return .error refusal
      | .ok .optimal => return .ok (.optimal (← settlement.problem.cost w))
      | .ok _ => return .ok .infeasible

end Transshipment
