import Transshipment.History
import Transshipment.Proofs.ChartedSearches
import Transshipment.Proofs.RoutingCertificates

/-! What a search is for: a cheapest path to the sink. It needs no more than that the arcs in
reach of the source have no negative reduced cost, and if one has, the search says so instead
of answering. -/
namespace Transshipment

namespace Network

variable {w : Width} {net : Network} {potentials : Potentials} {source sink : Nat}

/-- No open arc that leaves a node in reach of the source has a negative reduced cost. -/
def PricedFrom (net : Network) (potentials : Potentials) (source : Nat) : Prop :=
  ∀ id arc, net.arc id = .ok arc → arc.Open → net.Connects source arc.tail →
    0 ≤ exactReducedCost potentials arc

/-- The path is a simple walk, and no walk between its ends costs less. -/
def CheapestPath (net : Network) (source : Nat) (path : List Nat) (sink : Nat) : Prop :=
  ∃ cost, net.SimpleWalk source path sink cost ∧
    ∀ other price, net.Walk source other sink price → cost ≤ price

/-- A search breaks off at an overflow, or at an open arc in reach whose reduced cost is
negative. -/
def BreaksSearch (net : Network) (potentials : Potentials) (source : Nat) (fault : Fault) : Prop :=
  fault.IsOverflow ∨ ∃ id arc, fault = .negativeReducedCost id ∧ net.arc id = .ok arc ∧
    arc.Open ∧ net.Connects source arc.tail ∧ exactReducedCost potentials arc < 0

/-- Whatever the potentials are, nothing else has to be foreseen. -/
theorem foreseen_breaks (w : Width) (net : Network) (potentials : Potentials) (source : Nat) :
    Tree.Foreseen w (net.BreaksSearch potentials source) net potentials source := by
  have kept : ∀ exact, w.Keeps (net.BreaksSearch potentials source) exact :=
    w.keeps_of_overflows fun operation => .inl (Fault.isOverflow_overflow operation)
  refine ⟨fun _ _ _ _ => kept _, fun _ _ _ _ => kept _, fun _ _ _ _ => kept _, ?_⟩
  rintro id arc distance ⟨held, isOpen, path, simple⟩ negative
  exact .inr ⟨id, arc, rfl, held, isOpen, ⟨path, _, simple.1⟩, negative⟩

theorem PricedFrom.isOverflow {fault : Fault} (priced : net.PricedFrom potentials source)
    (breaks : net.BreaksSearch potentials source fault) : fault.IsOverflow := by
  obtain overflow | ⟨id, arc, -, held, isOpen, connected, negative⟩ := breaks
  · exact overflow
  · have nonneg := priced id arc held isOpen connected
    omega

end Network

namespace Tree

variable {net : Network} {potentials : Potentials} {source sink : Nat} {tree : Tree}

/-- A finished search has come to every arc in reach, so none has a negative reduced cost. -/
theorem Spans.pricedFrom (spans : tree.Spans net potentials source) :
    net.PricedFrom potentials source := by
  intro id arc held isOpen connected
  obtain ⟨distance, settled⟩ := Option.isSome_iff_exists.mp
    (spans.isSome_distance?_iff.mpr connected)
  exact (spans.relaxed id arc distance held isOpen settled).1

/-- The trail to a node in reach is a cheapest path. -/
theorem Spans.cheapestPath (spans : tree.Spans net potentials source)
    (connected : net.Connects source sink) :
    ∃ path, tree.trailTo net sink = .ok path ∧ net.CheapestPath source path sink := by
  obtain ⟨distance, settled⟩ := Option.isSome_iff_exists.mp
    (spans.isSome_distance?_iff.mpr connected)
  obtain ⟨path, led, simple, -⟩ := spans.trail sink distance settled
  refine ⟨path, led, _, simple, fun other price walk => ?_⟩
  obtain ⟨further, same, least⟩ := spans.le_of_walk walk spans.root
  obtain rfl : distance = further := Option.some.inj (settled.symm.trans same)
  omega

end Tree

namespace Chart

variable {w : Width} {net : Network} {offers : List Offer} {potentials : Potentials}
  {source sink : Nat}

/-- What a search on any chart comes to. -/
theorem search_ends (w : Width) (sound : net.Sound) (chart : Chart)
    (counted : potentials.size = net.nodes) (sourceWithin : source < net.nodes)
    (sinkWithin : sink < net.nodes) :
    Checked.Ends (chart.search w net potentials source sink) (net.BreaksSearch potentials source)
      fun (left, _, reached) => net.PricedFrom potentials source ∧
        (reached = true ↔ net.Connects source sink) ∧
        (reached = true → ∃ path, left.pathTo net sink = .ok path ∧
          net.CheapestPath source path sink) := by
  have anyway : ∀ exact, w.Keeps (net.BreaksSearch potentials source) exact :=
    w.keeps_of_overflows fun operation => .inl (Fault.isOverflow_overflow operation)
  rw [search_eq w sound]
  refine ((Network.survey_spans sound counted (net.foreseen_breaks w potentials source)
    (fun _ _ _ _ => anyway _) sourceWithin sinkWithin).weaken ?_).map
  rintro survey ⟨spans, -, -, reached⟩
  have reach : survey.reached = true ↔ net.Connects source sink := by
    rw [reached]
    exact spans.isSome_distance?_iff
  refine ⟨spans.pricedFrom, reach, fun found => ?_⟩
  obtain ⟨path, led, cheapest⟩ := spans.cheapestPath (reach.mp found)
  exact ⟨path, (pathTo_chart survey.tree net sink).trans led, cheapest⟩

/-- If the arcs in reach of the source have no negative reduced cost, a search that does not
overflow tells whether the sink is in reach, and then the way back from it is a cheapest path.
Otherwise the search does not answer: it breaks off at an overflow or at an arc in reach whose
reduced cost is negative. -/
theorem search_finds_cheapest_path (made : Network.Made w net offers) (chart : Chart)
    (counted : potentials.size = net.nodes) (sourceWithin : source < net.nodes)
    (sinkWithin : sink < net.nodes) :
    (net.PricedFrom potentials source →
      Checked.Ends (chart.search w net potentials source sink) Fault.IsOverflow
        fun (left, _, reached) => (reached = true ↔ net.Connects source sink) ∧
          (reached = true → ∃ path, left.pathTo net sink = .ok path ∧
            (path = [] ↔ sink = source) ∧ net.CheapestPath source path sink)) ∧
      (¬ net.PricedFrom potentials source →
        ∃ fault, chart.search w net potentials source sink = .error fault ∧
          (fault.IsOverflow ∨ ∃ id arc, fault = .negativeReducedCost id ∧
            net.arc id = .ok arc ∧ arc.Open ∧ net.Connects source arc.tail ∧
            Network.exactReducedCost potentials arc < 0)) := by
  have ends := search_ends w made.sound chart counted sourceWithin sinkWithin
  constructor
  · intro priced
    refine ends.imp (fun fault broke => priced.isOverflow broke) ?_
    rintro ⟨left, raised, reached⟩ ⟨-, reach, leads⟩
    refine ⟨reach, fun found => ?_⟩
    obtain ⟨path, led, cost, simple, least⟩ := leads found
    exact ⟨path, led, simple.eq_nil_iff, cost, simple, least⟩
  · intro bargain
    cases searched : chart.search w net potentials source sink with
    | error fault => exact ⟨fault, rfl, ends.of_error searched⟩
    | ok found => exact absurd (ends.of_ok searched).1 bargain

/-- A chart that was used before, for a network with one node. -/
def used : Chart := ⟨#[some 3], #[some 9], #[true]⟩

/-- Both links lead to the sink, and the search takes the first. -/
def besides : Tree := ⟨#[.settled 0 none, .settled 0 (some 0), .unseen]⟩

/-- The node `2` is out of reach, so the arc that leaves it may look like a bargain. The arc
from the source to the sink may not. -/
theorem search_finds_cheapest_path_sideBySide :
    (∃ left raised, used.search ⟨7⟩ (Network.sideBySide 0 0) #[0, -1, -2] 0 1 =
        .ok (left, raised, true) ∧
      left.pathTo (Network.sideBySide 0 0) 1 = .ok [0] ∧
      (Network.sideBySide 0 0).CheapestPath 0 [0] 1) ∧
    ¬ (Network.sideBySide 0 0).PricedFrom #[0, 5, 0] 0 ∧
    ∃ fault, used.search ⟨7⟩ (Network.sideBySide 0 0) #[0, 5, 0] 0 1 = .error fault := by
  have made := Network.sideBySide_made
  have source : 0 < (Network.sideBySide 0 0).nodes := by decide
  have sink : 1 < (Network.sideBySide 0 0).nodes := by decide
  have counted : (#[0, -1, -2] : Potentials).size = (Network.sideBySide 0 0).nodes := by decide
  have countedToo : (#[0, 5, 0] : Potentials).size = (Network.sideBySide 0 0).nodes := by decide
  have searched : used.search ⟨7⟩ (Network.sideBySide 0 0) #[0, -1, -2] 0 1 =
      .ok (besides.chart, #[0, -1, -2], true) := by
    have surveyed : (Network.sideBySide 0 0).survey ⟨7⟩ #[0, -1, -2] 0 1 =
        .ok ⟨besides, #[0, -1, -2], true⟩ := by with_unfolding_all rfl
    rw [search_eq ⟨7⟩ made.sound, surveyed]
    rfl
  have led : besides.chart.pathTo (Network.sideBySide 0 0) 1 = .ok [0] := by
    rw [pathTo_chart]
    decide
  have priced := ((search_ends ⟨7⟩ made.sound used counted source sink).of_ok searched).1
  have bargain : ¬ (Network.sideBySide 0 0).PricedFrom #[0, 5, 0] 0 := fun priced =>
    absurd (priced 0 ⟨0, 1, 1, -1⟩ (by decide) (by decide) (.refl _ 0)) (by decide)
  obtain ⟨path, same, -, cheapest⟩ :=
    (((search_finds_cheapest_path made used counted source sink).1 priced).of_ok searched).2 rfl
  obtain rfl : [0] = path := Except.ok.inj (led.symm.trans same)
  obtain ⟨fault, broke, -⟩ :=
    (search_finds_cheapest_path made used countedToo source sink).2 bargain
  exact ⟨⟨_, _, searched, led, cheapest⟩, bargain, fault, broke⟩

end Chart

end Transshipment
