import Transshipment.Request

/-! A session as its callers see it. They hold a network, a problem and a router, and every
request works on these in place, one write after the other. A refusal ends a request where
it stands: whatever was written before it stays written. -/
namespace Transshipment

/-- A request that works in place. It leaves a state whether it is refused or not; only a
fault leaves none. -/
def InPlace (σ α : Type) : Type := σ → Traced (σ × Except Refusal α)

namespace InPlace

variable {σ τ α β : Type}

/-- What follows a refusal is not done, and what was done before is not taken back. -/
protected def bind (first : InPlace σ α) (next : α → InPlace σ β) : InPlace σ β := fun state => do
  match ← first state with
  | (left, .error refusal) => return (left, .error refusal)
  | (left, .ok value) => next value left

instance : Monad (InPlace σ) where
  pure value := fun state => return (state, .ok value)
  bind := InPlace.bind

/-- A computation without a state of its own leaves the state alone. -/
instance : MonadLift Traced (InPlace σ) where
  monadLift traced := fun state => do return (state, .ok (← traced))

/-- The state as it is now. -/
def read : InPlace σ σ := fun state => return (state, .ok state)

/-- Changes the state. -/
def write (change : σ → σ) : InPlace σ Unit := fun state => return (change state, .ok ())

/-- Goes on with an answer, or ends with its refusal. -/
def accept (answer : Except Refusal α) : InPlace σ α := fun state => return (state, answer)

/-- Ends with this refusal where the condition holds. -/
def refuseIf (condition : Prop) [Decidable condition] (refusal : Refusal) : InPlace σ Unit :=
  accept (if condition then .error refusal else .ok ())

/-- Works on one part of a larger state. -/
def onPart (part : τ → σ) (put : σ → τ → τ) (request : InPlace σ α) : InPlace τ α :=
  fun whole => do
    let (left, answer) ← request (part whole)
    return (put left whole, answer)

/-- Works on a state of its own, and hands that over if nothing was refused. -/
def apart (start : σ) (request : InPlace σ α) : InPlace τ (σ × α) := fun state => do
  let (left, answer) ← request start
  return (state, answer.map (left, ·))

end InPlace

open InPlace (read write accept refuseIf onPart apart)

namespace Network

/-- Looks at both ends and at the capacity, then writes the link and enters its arcs. -/
def addLink (w : Width) (offer : Offer) : InPlace Network Nat := do
  let before ← read
  refuseIf (before.nodes ≤ offer.tail) (.nodeOutOfRange offer.tail before.nodes)
  refuseIf (before.nodes ≤ offer.head) (.nodeOutOfRange offer.head before.nodes)
  refuseIf (offer.capacity < 0) (.negativeCapacity offer.tail offer.head)
  write fun net =>
    { net with links := net.links.push ⟨offer.tail, offer.head, offer.cost, offer.capacity, 0⟩ }
  let _ ← w.neg offer.cost
  write fun net => { net with rows := net.rows.modify offer.tail (·.push before.arcs) }
  write fun net => { net with rows := net.rows.modify offer.head (·.push (before.arcs + 1)) }
  return before.arcs

/-- The new node takes the next number. -/
def addNode : InPlace Network Nat := do
  let before ← read
  write fun net => net.insertNode.2
  return before.nodes

end Network

/-- What a lane asks of the network that is to carry its flow. -/
def Lane.offer (lane : Lane) : Offer := ⟨lane.tail, lane.head, lane.span, lane.cost⟩

namespace Problem

/-- Looks at both ends and at the bounds, then writes the lane and routes its lower bound. -/
def addLane (w : Width) (terms : LaneTerms) : InPlace Problem Nat := do
  let before ← read
  refuseIf (before.sites.size ≤ terms.tail) (.nodeOutOfRange terms.tail before.sites.size)
  refuseIf (before.sites.size ≤ terms.head) (.nodeOutOfRange terms.head before.sites.size)
  refuseIf (terms.upper < 0) (.negativeCapacity terms.tail terms.head)
  refuseIf (terms.lower < 0 ∨ terms.upper < terms.lower) (.invalidBounds terms.tail terms.head)
  let span ← w.sub terms.upper terms.lower
  write fun problem => { problem with
    lanes := problem.lanes.push ⟨terms.tail, terms.head, terms.lower, span, 0, terms.cost⟩ }
  let left ← adjust (← read).sites terms.tail (w.sub · terms.lower)
  write fun problem => { problem with sites := left }
  let sites ← adjust (← read).sites terms.head (w.add · terms.lower)
  write fun problem => { problem with sites := sites }
  return before.lanes.size

/-- Looks at the node, then adds to the supply and to the excess of the site. -/
def addSupply (w : Width) (node : Nat) (amount : Int) : InPlace Problem Unit := do
  let before ← read
  refuseIf (before.sites.size ≤ node) (.nodeOutOfRange node before.sites.size)
  let site ← fetch before.sites node
  let supply ← w.add site.supply amount
  write fun problem =>
    { problem with sites := problem.sites.setIfInBounds node ⟨supply, site.excess⟩ }
  let excess ← w.add site.excess amount
  write fun problem => { problem with sites := problem.sites.setIfInBounds node ⟨supply, excess⟩ }

/-- A demand is a negative supply. -/
def addDemand (w : Width) (node : Nat) (amount : Int) : InPlace Problem Unit := do
  addSupply w node (← w.neg amount)

/-- One link for each lane. -/
def addLanes (w : Width) : List Lane → InPlace Network Unit
  | [] => return ()
  | lane :: rest => do
    let _ ← Network.addLink w lane.offer
    addLanes w rest

/-- Joins the sites from a node on to the source or the sink, and sums what the source has
to send. -/
def addFeeds (w : Width) (source sink : Nat) :
    List Site → (node : Nat) → (demand : Int) → InPlace Network Int
  | [], _, demand => return demand
  | site :: rest, node, demand =>
    if 0 < site.excess then do
      let _ ← Network.addLink w ⟨source, node, site.excess, 0⟩
      addFeeds w source sink rest (node + 1) (← w.add demand site.excess)
    else if site.excess < 0 then do
      let lack ← w.neg site.excess
      let _ ← Network.addLink w ⟨node, sink, lack, 0⟩
      addFeeds w source sink rest (node + 1) demand
    else addFeeds w source sink rest (node + 1) demand

/-- Builds the network of a problem link by link, each of which may be refused. -/
def addOrder (w : Width) (problem : Problem) : InPlace Network Order := do
  addLanes w problem.lanes.toList
  let source ← Network.addNode
  let sink ← Network.addNode
  let demand ← addFeeds w source sink problem.sites.toList 0 0
  return ⟨source, sink, demand⟩

end Problem

/-- What the callers hold. -/
structure Session where
  net : Network
  problem : Problem
  router : Router
  deriving DecidableEq

/-- What they can ask for and be refused, with the kind of the answer. -/
inductive Command : Type → Type
  | insertLink (offer : Offer) : Command Nat
  | insertLane (terms : LaneTerms) : Command Nat
  | provide (node : Nat) (amount : Int) : Command Unit
  | consume (node : Nat) (amount : Int) : Command Unit
  | route (order : Order) : Command Outcome
  | settle : Command Status

/-- The amounts in a command have the width of the session. -/
def Command.Fits (w : Width) : Command α → Prop
  | .insertLink offer => w.Fits offer.capacity ∧ w.Fits offer.cost
  | .insertLane terms => w.Fits terms.lower ∧ w.Fits terms.upper ∧ w.Fits terms.cost
  | .provide _ amount | .consume _ amount => w.Fits amount
  | .route order => w.Fits order.demand
  | .settle => True

namespace Session

/-- Works on the network of the session. -/
def onNet (request : InPlace Network α) : InPlace Session α :=
  onPart net (fun net session => { session with net }) request

/-- Works on the problem of the session. -/
def onProblem (request : InPlace Problem α) : InPlace Session α :=
  onPart problem (fun problem session => { session with problem }) request

/-- Routes an order over the network of the session. -/
def route (w : Width) (order : Order) : InPlace Session Outcome := do
  let before ← read
  let run ← before.router.route w before.net order
  write fun session => { session with net := run.net, router := run.router }
  accept run.answer

/-- Settles the problem of the session over a network of its own. The flows are written back
at the very end. -/
def settle (w : Width) : InPlace Session Status := do
  let before ← read
  refuseIf (← before.problem.unbalanced w) .unbalanced
  let (net, order) ← apart (Network.ofNodes before.problem.sites.size) (before.problem.addOrder w)
  let run ← before.router.route w net order
  write fun session => { session with router := run.router }
  let outcome ← accept run.answer
  let solved ← before.problem.withFlows run.net
  write fun session => { session with problem := solved }
  return outcome.status

/-- Does what is asked for. -/
def perform (w : Width) : Command α → InPlace Session α
  | .insertLink offer => onNet (Network.addLink w offer)
  | .insertLane terms => onProblem (Problem.addLane w terms)
  | .provide node amount => onProblem (Problem.addSupply w node amount)
  | .consume node amount => onProblem (Problem.addDemand w node amount)
  | .route order => route w order
  | .settle => settle w

/-- What becomes of a session by commands, be they refused or not. -/
inductive Reached (w : Width) (start : Session) : Session → Prop
  | start : Reached w start start
  | perform {session next : Session} {command : Command α} {answer : Except Refusal α} :
    Reached w start session → command.Fits w →
      (perform w command session).result = .ok (next, answer) → Reached w start next

end Session

end Transshipment
