import Transshipment.Answers

/-! A problem states supplies at sites and lanes between them with a lower and
an upper bound on their flow. The lower bounds are routed in advance: a lane
stores what it carries and admits beyond its lower bound, and the sites keep in
their excess what is still to be moved. -/
namespace Transshipment

/-- A positive supply offers units and a negative one demands them. The excess
is the supply less the lower bounds of the lanes that leave the site, plus the
lower bounds of the lanes that enter it. -/
structure Site where
  supply : Int
  excess : Int
  deriving DecidableEq

/-- `span` and `routed` are measured from the lower bound. -/
structure Lane where
  tail : Nat
  head : Nat
  lower : Int
  span : Int
  routed : Int
  cost : Int
  deriving DecidableEq

/-- A lane as its owner described it, with its present flow. -/
structure LaneView where
  tail : Nat
  head : Nat
  flow : Int
  lower : Int
  upper : Int
  cost : Int
  deriving DecidableEq

/-- Undoes the shift by the lower bound. -/
def Lane.view (w : Width) (lane : Lane) : Checked LaneView := do
  let flow ← w.add lane.routed lane.lower
  let upper ← w.add lane.span lane.lower
  return ⟨lane.tail, lane.head, flow, lane.lower, upper, lane.cost⟩

/-- A link or a lane without a lower bound, as a caller offers it. -/
structure Offer where
  tail : Nat
  head : Nat
  capacity : Int
  cost : Int
  deriving DecidableEq

/-- A lane as its owner asked for it. -/
structure LaneTerms where
  tail : Nat
  head : Nat
  lower : Int
  upper : Int
  cost : Int
  deriving DecidableEq

/-- A lane without a lower bound. -/
def Offer.terms (offer : Offer) : LaneTerms :=
  ⟨offer.tail, offer.head, 0, offer.capacity, offer.cost⟩

/-- Sites and lanes, both numbered in the order of insertion. -/
structure Problem where
  sites : Array Site
  lanes : Array Lane
  deriving DecidableEq

namespace Problem

/-- Sites without supply, and no lane. -/
def ofSites (sites : Nat) : Problem := ⟨Array.replicate sites ⟨0, 0⟩, #[]⟩

/-- The new site takes the next number. -/
def insertSite (problem : Problem) : Nat × Problem :=
  (problem.sites.size, { problem with sites := problem.sites.push ⟨0, 0⟩ })

/-- The new sites take the next numbers. -/
def insertSites (problem : Problem) (count : Nat) : List Nat × Problem :=
  (List.range' problem.sites.size count,
    { problem with sites := problem.sites ++ Array.replicate count ⟨0, 0⟩ })

/-- Adds to the supply of a site, and to its excess with it. -/
def provide (w : Width) (problem : Problem) (node : Nat) (amount : Int) :
    Checked (Except Refusal Problem) :=
  match problem.sites[node]? with
  | none => .ok (.error (.nodeOutOfRange node problem.sites.size))
  | some site => do
    let supply ← w.add site.supply amount
    let excess ← w.add site.excess amount
    return .ok { problem with sites := problem.sites.setIfInBounds node ⟨supply, excess⟩ }

/-- A demand is a negative supply. The amount is negated before the site is
looked up. -/
def consume (w : Width) (problem : Problem) (node : Nat) (amount : Int) :
    Checked (Except Refusal Problem) := do
  problem.provide w node (← w.neg amount)

/-- What was added to the supply of a site so far. -/
def supply (problem : Problem) (node : Nat) : Checked Int := do
  return (← fetch problem.sites node).supply

/-- Why a lane with these bounds is refused, if it is. The tail is looked at
first, then the head, then the upper bound, then the lower one. -/
def laneRefusal? (problem : Problem) (tail head : Nat) (lower upper : Int) : Option Refusal :=
  if problem.sites.size ≤ tail then some (.nodeOutOfRange tail problem.sites.size)
  else if problem.sites.size ≤ head then some (.nodeOutOfRange head problem.sites.size)
  else if upper < 0 then some (.negativeCapacity tail head)
  else if lower < 0 ∨ upper < lower then some (.invalidBounds tail head)
  else none

/-- Replaces the excess of a site. -/
def adjust (sites : Array Site) (node : Nat) (change : Int → Checked Int) :
    Checked (Array Site) := do
  let site ← fetch sites node
  return sites.setIfInBounds node { site with excess := ← change site.excess }

/-- Appends a lane and answers its number. Its lower bound is routed at once:
it leaves the tail and arrives at the head. A refused lane changes nothing. -/
def insertLane (w : Width) (problem : Problem) (tail head : Nat) (lower upper cost : Int) :
    Checked (Except Refusal (Nat × Problem)) :=
  match problem.laneRefusal? tail head lower upper with
  | some refusal => .ok (.error refusal)
  | none => do
    let span ← w.sub upper lower
    let left ← adjust problem.sites tail (w.sub · lower)
    let sites ← adjust left head (w.add · lower)
    return .ok (problem.lanes.size, ⟨sites, problem.lanes.push ⟨tail, head, lower, span, 0, cost⟩⟩)

/-- Inserts offered lanes until one is refused. -/
def insertOffers (w : Width) (problem : Problem) : List Offer → Checked (Except Refusal Problem)
  | [] => .ok (.ok problem)
  | offer :: rest => do
    match ← problem.insertLane w offer.tail offer.head 0 offer.capacity offer.cost with
    | .error refusal => return .error refusal
    | .ok (_, grown) => grown.insertOffers w rest

/-- A problem with offered lanes and no supply yet. -/
def ofOffers (w : Width) (sites : Nat) (offers : List Offer) :
    Traced (Except Refusal Problem) := do
  match ← (ofSites sites).insertOffers w offers with
  | .error refusal => return .error refusal
  | .ok problem => do
    Traced.emit (.built problem.sites.size problem.lanes.size)
    return .ok problem

/-- The lane with this number, if there is one. -/
def lane? (w : Width) (problem : Problem) (lane : Nat) : Checked (Option LaneView) :=
  problem.lanes[lane]?.mapM (·.view w)

/-- All lanes in order. -/
def laneViews (w : Width) (problem : Problem) : Checked (List LaneView) :=
  problem.lanes.toList.mapM (·.view w)

/-- The cost of the present flow. -/
def cost (w : Width) (problem : Problem) : Checked Int :=
  problem.lanes.toList.foldlM (fun sum lane => do
    let view ← lane.view w
    w.add sum (← w.mul view.cost view.flow)) 0

/-- What a lane adds to the divergence of a site: its flow leaves the tail and
enters the head. -/
def divergenceOver (w : Width) (node : Nat) (sum : Int) (lane : Lane) : Checked Int := do
  let view ← lane.view w
  let left ← if view.tail = node then w.add sum view.flow else pure sum
  if view.head = node then w.sub left view.flow else pure left

/-- The flow out of a site less the flow into it. -/
def divergence (w : Width) (problem : Problem) (node : Nat) : Checked Int :=
  problem.lanes.toList.foldlM (divergenceOver w node) 0

/-- The sum of all supplies. -/
def balance (w : Width) (problem : Problem) : Checked Int :=
  problem.sites.toList.foldlM (fun sum site => w.add sum site.supply) 0

/-- Supplies and demands do not cancel, so no flow can meet them. -/
def unbalanced (w : Width) (problem : Problem) : Checked Bool := do
  return (← problem.balance w) != 0

end Problem

end Transshipment
