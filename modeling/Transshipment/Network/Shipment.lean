import Transshipment.Network.Tree

/-! Shipments. A shipment sends units along a path of arcs: as many as are still
wanted and as the narrowest arc lets through. It pays the true cost of each arc, so an
arc against its link refunds. A dispatch is one search and one shipment along the path
that it found. The shipment uses only arcs of the tree, which the raised potentials make
tight, so the raised potentials stay valid for the network that it leaves. -/
namespace Transshipment

/-! ## Shipments -/

/-- What was sent, what it cost in all, what is still wanted, and the path. -/
structure Shipment where
  amount : Int
  cost : Int
  remaining : Int
  path : List Nat
  deriving DecidableEq

namespace Network

/-- The least of a bound and the residual capacities on a path. -/
def bottleneck (net : Network) (path : List Nat) (bound : Int) : Checked Int :=
  path.foldlM (fun least id => do return min least (← net.arc id).residual) bound

/-- One arc of a path takes the amount and adds its share to the cost. -/
def traverse (w : Width) (amount : Int) (sent : Network × Int) (id : Nat) :
    Checked (Network × Int) := do
  let (net, cost) := sent
  let net ← net.push w id amount
  let share ← w.mul amount (← net.arc id).cost
  return (net, ← w.add cost share)

/-- Sends as much as possible of what remains along a path. The amount is fixed
before the first arc is touched. -/
def ship (w : Width) (net : Network) (path : List Nat) (remaining : Int) :
    Checked (Shipment × Network) := do
  let amount ← net.bottleneck path remaining
  if path = [] ∨ amount ≤ 0 then .error .emptyShipment else do
    let (net, cost) ← path.foldlM (traverse w amount) (net, 0)
    return (⟨amount, cost, ← w.sub remaining amount, path⟩, net)

/-- A completed shipment is positive and leaves that much less to send. -/
theorem ship_remaining {w : Width} {net after : Network}
    (sent : net.ship w path remaining = .ok (shipment, after)) :
    0 < shipment.amount ∧ shipment.remaining = remaining - shipment.amount := by
  unfold ship at sent
  obtain ⟨amount, _, sent⟩ := Checked.bind_eq_ok_iff.mp sent
  split at sent
  · cases sent
  · rename_i positive
    obtain ⟨⟨net, cost⟩, _, sent⟩ := Checked.bind_eq_ok_iff.mp sent
    obtain ⟨left, kept, sent⟩ := Checked.bind_eq_ok_iff.mp sent
    cases sent
    have wanted : 0 < amount := by omega
    exact ⟨wanted, (Width.keep_eq_ok_iff.mp kept).1⟩

end Network

/-! ## Dispatches -/

/-- The outcome of one search for a sink: the tree, the raised potentials, and
whether the sink was reached. -/
structure Survey where
  tree : Tree
  potentials : Potentials
  reached : Bool
  deriving DecidableEq

/-- A survey, and what was shipped if the sink was reached. -/
structure Dispatch where
  survey : Survey
  shipped? : Option (Shipment × Network)
  deriving DecidableEq

namespace Network

/-- Searches from the source, raises the potentials, and looks for the sink. -/
def survey (w : Width) (net : Network) (potentials : Potentials) (source sink : Nat) :
    Checked Survey := do
  let tree ← Tree.ofSource w net potentials source
  let raised ← tree.raise w potentials
  return ⟨tree, raised, ← tree.reaches sink⟩

/-- The tree of a survey is the one that its search left. -/
theorem ofSource_of_survey {w : Width} {net : Network} {survey : Survey}
    (surveyed : net.survey w potentials source sink = .ok survey) :
    Tree.ofSource w net potentials source = .ok survey.tree := by
  obtain ⟨tree, grown, surveyed⟩ := Checked.bind_eq_ok_iff.mp surveyed
  obtain ⟨raised, _, surveyed⟩ := Checked.bind_eq_ok_iff.mp surveyed
  obtain ⟨reached, _, surveyed⟩ := Checked.bind_eq_ok_iff.mp surveyed
  cases surveyed
  exact grown

/-- Ships along the cheapest path if there is one. -/
def dispatch (w : Width) (net : Network) (potentials : Potentials) (source sink : Nat)
    (remaining : Int) : Checked Dispatch := do
  let survey ← net.survey w potentials source sink
  if survey.reached then do
    let path ← survey.tree.trailTo net sink
    return ⟨survey, some (← net.ship w path remaining)⟩
  else return ⟨survey, none⟩

/-- A dispatched shipment was made over the network for what remained. -/
theorem ship_of_dispatch {w : Width} {net : Network} {survey : Survey}
    (dispatched : net.dispatch w potentials source sink remaining = .ok ⟨survey, some sent⟩) :
    ∃ path, survey.tree.trailTo net sink = .ok path ∧ net.ship w path remaining = .ok sent := by
  obtain ⟨found, _, dispatched⟩ := Checked.bind_eq_ok_iff.mp dispatched
  split at dispatched
  · obtain ⟨path, led, dispatched⟩ := Checked.bind_eq_ok_iff.mp dispatched
    obtain ⟨made, shipped, dispatched⟩ := Checked.bind_eq_ok_iff.mp dispatched
    cases dispatched
    exact ⟨path, led, shipped⟩
  · cases dispatched

end Network

end Transshipment
