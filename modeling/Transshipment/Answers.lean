import Transshipment.Checked

/-! What a request is answered with, and what is told on the way. A refusal is the
regular answer to a request that cannot be met: it tells the caller why and leaves the
session usable, unlike a fault. An infeasible end is a regular answer as well and
carries no cost, so no number can be mistaken for one. A traced computation keeps every
message it emitted, in order, also when a fault ends it. -/
namespace Transshipment

/-! ## Refusals -/

/-- Why a request is refused. -/
inductive Refusal where
  | nodeOutOfRange (node nodes : Nat)
  | negativeCapacity (tail head : Nat)
  | invalidBounds (tail head : Nat)
  | negativeDemand
  | unbalanced
  | negativeCycle (node : Nat)
  | limitReached (limit : Nat)
  deriving DecidableEq

namespace Refusal

/-- The text that explains a refusal to the caller. -/
def message : Refusal → String
  | .nodeOutOfRange node nodes => s!"node {node} is out of range for a graph with {nodes} nodes"
  | .negativeCapacity tail head => s!"edge {tail}->{head} has a negative capacity"
  | .invalidBounds tail head => s!"edge {tail}->{head} has a lower bound outside 0..=capacity"
  | .negativeDemand => "demand must be non-negative"
  | .unbalanced => "total supply does not match total demand"
  | .negativeCycle node => s!"negative cost cycle through node {node}"
  | .limitReached limit => s!"no optimal flow found within {limit} augmentations"

/-- The request itself is malformed, which is noticed before any search. A
negative cycle and an exhausted limit are found on the way. -/
def blamesInput : Refusal → Bool
  | .nodeOutOfRange .. | .negativeCapacity .. | .invalidBounds .. | .negativeDemand
  | .unbalanced => true
  | .negativeCycle .. | .limitReached .. => false

end Refusal

/-! ## Outcomes -/

/-- The stage a problem has reached. It starts unsolved. -/
inductive Status where
  | notSolved
  | infeasible
  | optimal
  deriving DecidableEq, Inhabited

/-- The answer to a request for a fixed amount. -/
inductive Outcome where
  /-- The amount was routed at this cost, and no routing is cheaper. -/
  | optimal (cost : Int)
  /-- The network cannot carry the amount. -/
  | infeasible
  deriving DecidableEq

namespace Outcome

/-- Only an optimal outcome has a cost. -/
def cost? : Outcome → Option Int
  | .optimal cost => some cost
  | .infeasible => none

/-- The amount could be routed. -/
def feasible (outcome : Outcome) : Bool := outcome.cost?.isSome

/-- The stage that an outcome amounts to. -/
def status : Outcome → Status
  | .optimal _ => .optimal
  | .infeasible => .infeasible

end Outcome

/-! ## Messages -/

/-- How much a message matters: `trace` messages tell each step. -/
inductive Level where
  | debug
  | trace
  deriving DecidableEq

/-- Everything that is reported while a request is worked on. -/
inductive Message where
  /-- An accepted order is about to be routed. -/
  | routing (demand : Int) (source sink nodes arcs : Nat)
  /-- One shipment was sent along a path with this many arcs. -/
  | pushed (amount : Int) (arcs : Nat) (cost : Int)
  /-- The limit ended the routing with units left. -/
  | stopped (limit : Nat) (remaining : Int)
  /-- No open path leads to the sink any more. -/
  | unreachable (sink : Nat) (remaining demand : Int)
  /-- The whole demand was routed. -/
  | routed (delivered cost : Int) (shipments : Nat)
  /-- The open arcs contain a negative cycle through the node. -/
  | cycleFound (node : Nat)
  /-- A problem was built from offered lanes. -/
  | built (nodes lanes : Nat)
  deriving DecidableEq

namespace Message

/-- Single steps are traced, and what opens or closes a run is for debugging. -/
def level : Message → Level
  | .pushed .. | .built .. => .trace
  | .routing .. | .stopped .. | .unreachable .. | .routed .. | .cycleFound .. => .debug

/-- The text of a message. -/
def text : Message → String
  | .routing demand source sink nodes arcs =>
    s!"routing {demand} units from {source} to {sink} over {nodes} nodes and {arcs} residual edges"
  | .pushed amount arcs cost => s!"pushed {amount} units along {arcs} edges at cost {cost}"
  | .stopped limit remaining => s!"stopped after {limit} augmentations with {remaining} units left"
  | .unreachable sink remaining demand =>
    s!"sink {sink} is unreachable with {remaining} of {demand} units left"
  | .routed delivered cost shipments =>
    s!"routed {delivered} units at cost {cost} in {shipments} augmentations"
  | .cycleFound node => s!"negative cycle detected through node {node}"
  | .built nodes lanes => s!"built graph with {nodes} nodes and {lanes} edges"

end Message

/-- A checked computation together with the messages it emitted. -/
structure Traced (α : Type) where
  log : List Message
  result : Checked α

namespace Traced

/-- The later computation runs only if the earlier one yields a value; the
messages of both stand in the order in which they were emitted. -/
protected def bind (first : Traced α) (next : α → Traced β) : Traced β :=
  match first.result with
  | .ok value => ⟨first.log ++ (next value).log, (next value).result⟩
  | .error fault => ⟨first.log, .error fault⟩

instance : Monad Traced where
  pure value := ⟨[], .ok value⟩
  bind := Traced.bind

/-- A checked computation emits nothing. -/
instance : MonadLift Checked Traced where
  monadLift checked := ⟨[], checked⟩

/-- Emits one message. -/
def emit (message : Message) : Traced Unit := ⟨[message], .ok ()⟩

/-- Messages that were emitted before the computation started. -/
def after (earlier : List Message) (computation : Traced α) : Traced α :=
  ⟨earlier ++ computation.log, computation.result⟩

end Traced

end Transshipment
