import Mathlib.Order.Bounds.Defs
import Transshipment.Proofs.CheapestPaths

/-! What potentials measure. A start potential is what the cheapest walk to its node costs,
wherever the walk begins. A search keeps valid potentials valid and raises them until their
differences to the source are what the cheapest walks from there cost; its paths are tight
under the raised potentials, so these stay valid when a shipment goes along one of them. -/
namespace Transshipment

namespace Network

variable {w : Width} {net : Network} {offers : List Offer} {potentials : Potentials}
  {source sink node : Nat} {path : List Nat} {cost : Int}

/-- What the walks to a node cost, wherever they begin. -/
def arrivalCosts (net : Network) (node : Nat) : Set Int :=
  {cost | ∃ source path, net.Walk source path node cost}

/-- What the walks from one node to another cost. -/
def walkCosts (net : Network) (source sink : Nat) : Set Int :=
  {cost | ∃ path, net.Walk source path sink cost}

/-- A start potential is the cost of a walk. No walk is cheaper, since none begins at a positive
potential. -/
theorem Started.isLeast (started : net.Started (.ok potentials)) (within : node < net.nodes) :
    IsLeast (net.arrivalCosts node) (potentials.getD node 0) := by
  obtain ⟨priced, walked, capped⟩ := started
  refine ⟨walked node within, ?_⟩
  rintro cost ⟨source, path, walk⟩
  have difference := walk.price_le priced.prices
  have start := capped source
  omega

/-- Where no cycle pays, the start potentials are found unless a sum overflows. They price the
network, and each is the least cost of a walk that ends at its node, whether there was no
bargain to begin with or the sweeps came to rest, be it only in the last one allowed. -/
theorem startPotentials_least (made : Made w net offers)
    (acyclic : ∀ node, ¬ net.OnNegativeCycle node) :
    Checked.Ends (net.startPotentials w).result Fault.IsOverflow fun answer =>
      ∃ potentials, answer = .ok potentials ∧ net.PricedBy potentials ∧
        ∀ node < net.nodes, IsLeast (net.arrivalCosts node) (potentials.getD node 0) := by
  refine (startPotentials_ends w made.sound).weaken fun answer started => ?_
  cases answer with
  | error refusal =>
    obtain ⟨node, -, cycle⟩ := started
    exact absurd cycle (acyclic node)
  | ok potentials => exact ⟨potentials, rfl, started.1, fun node within => started.isLeast within⟩

/-- Each link leads to a node that is swept earlier, so a sweep lowers only one more node along
the way, and the last of three sweeps is the first that changes nothing. -/
def backwards : Network :=
  ⟨#[⟨1, 0, -1, 1, 0⟩, ⟨2, 1, -2, 1, 0⟩], #[#[1], #[0, 3], #[2]]⟩

private theorem backwards_made : Made ⟨7⟩ backwards [⟨1, 0, 1, -1⟩, ⟨2, 1, 1, -2⟩] := by
  have inserted : insertOffers ⟨7⟩ (.ofNodes 3) [⟨1, 0, 1, -1⟩, ⟨2, 1, 1, -2⟩] =
      .ok (.ok backwards) := by decide
  exact .insertOffers (.ofNodes 3) (by decide) inserted

theorem startPotentials_least_backwards :
    (backwards.startPotentials ⟨7⟩).result = .ok (.ok #[-3, -2, 0]) ∧
      IsLeast (backwards.arrivalCosts 0) (-3) := by
  have computed : (backwards.startPotentials ⟨7⟩).result = .ok (.ok #[-3, -2, 0]) := by
    with_unfolding_all rfl
  have started := (startPotentials_ends ⟨7⟩ backwards_made.sound).of_ok computed
  obtain ⟨potentials, same, -, least⟩ := (startPotentials_least backwards_made
    started.1.prices.no_negative_cycle).of_ok computed
  cases same
  exact ⟨computed, least 0 (by decide)⟩

/-- Over tight arcs the prices of the inner nodes cancel without a rest. -/
theorem Walk.cost_of_tight (walk : net.Walk source path sink cost)
    (tight : ∀ id ∈ path, ∀ arc, net.arc id = .ok arc → exactReducedCost potentials arc = 0) :
    cost = potentials.getD sink 0 - potentials.getD source 0 := by
  induction walk with
  | nil node => omega
  | @cons id arc path sink cost held isOpen walk ih =>
    have step := tight id (by simp) arc held
    have rest := ih fun other later => tight other (by simp [later])
    unfold exactReducedCost at step
    omega

variable {survey : Survey}

namespace Surveyed

/-- The path to a node in reach is tight under the raised potentials, and costs what they
differ by. -/
theorem trail (surveyed : net.Surveyed potentials source sink survey) (sound : net.Sound)
    (counted : potentials.size = net.nodes) (connected : net.Connects source node) :
    ∃ path, survey.tree.trailTo net node = .ok path ∧
      net.SimpleWalk source path node
        (survey.potentials.getD node 0 - survey.potentials.getD source 0) ∧
      ∀ id ∈ path, ∀ arc, net.arc id = .ok arc → exactReducedCost survey.potentials arc = 0 := by
  obtain ⟨distance, settled⟩ := Option.isSome_iff_exists.mp
    (surveyed.spans.isSome_distance?_iff.mpr connected)
  obtain ⟨path, cost, led, simple, tight⟩ :=
    surveyed.spans.tight_raised sound counted surveyed.rises settled
  obtain rfl := simple.1.cost_of_tight tight
  exact ⟨path, led, simple, tight⟩

/-- The raised potentials of a node in reach and of the source differ by the least cost of a
walk between them. -/
theorem isLeast (surveyed : net.Surveyed potentials source sink survey) (sound : net.Sound)
    (counted : potentials.size = net.nodes) (connected : net.Connects source node) :
    IsLeast (net.walkCosts source node)
      (survey.potentials.getD node 0 - survey.potentials.getD source 0) := by
  obtain ⟨path, -, simple, -⟩ := surveyed.trail sound counted connected
  refine ⟨⟨path, simple.1⟩, ?_⟩
  rintro cost ⟨other, walk⟩
  exact walk.price_le surveyed.priced.prices

end Surveyed

/-- A shipment along a tight simple walk leaves the potentials valid. -/
theorem PricedBy.ship_ends (priced : net.PricedBy potentials) (w : Width) (sound : net.Sound)
    (within : sink < net.nodes) (simple : net.SimpleWalk source path sink cost)
    (tight : ∀ id ∈ path, ∀ arc, net.arc id = .ok arc → exactReducedCost potentials arc = 0)
    (apart : source ≠ sink) {remaining : Int} (wanted : 0 < remaining) :
    Checked.Ends (net.ship w path remaining) Fault.IsOverflow fun (_, last) =>
      last.PricedBy potentials := by
  have secure := secure_of_priced w priced source remaining
  refine (secure.ship_ends sound within apart wanted simple).weaken ?_
  rintro ⟨shipment, last⟩ ⟨-, -, -, -, -, conveyed⟩
  exact conveyed.pricedBy priced tight

/-- Potentials can be checked link by link, in both directions. -/
theorem pricedBy_of_links (counted : potentials.size = net.nodes)
    (nonneg : ∀ link ∈ net.links.toList, ∀ along, (link.arc along).Open →
      0 ≤ exactReducedCost potentials (link.arc along)) : net.PricedBy potentials := by
  refine ⟨counted, fun id arc held isOpen => ?_⟩
  obtain ⟨link, found, rfl⟩ := arc_eq_ok_iff.mp held
  exact nonneg link (Array.mem_toList_iff.mpr (Array.mem_of_getElem? found)) _ isOpen

/-- The fault reports an end of a search that is no node. -/
def Strays (net : Network) (source sink : Nat) (fault : Fault) : Prop :=
  ∃ node, (node = source ∨ node = sink) ∧ net.nodes ≤ node ∧ fault = .outOfBounds net.nodes node

/-- A survey between ends that are not both nodes finds nothing. -/
theorem survey_strays (w : Width) (sound : net.Sound) (priced : net.PricedBy potentials)
    (outside : net.nodes ≤ source ∨ net.nodes ≤ sink) :
    Checked.Ends (net.survey w potentials source sink)
      (fun fault => fault.IsOverflow ∨ net.Strays source sink fault) fun _ => False := by
  unfold survey
  by_cases within : source < net.nodes
  · have beyond : net.nodes ≤ sink := by omega
    have foreseen := Tree.foreseen_of_priced w priced source
    refine ((Tree.ofSource_ends foreseen sound priced.1 within).imp
      (fun _ => .inl) (fun _ spans => spans)).bind fun tree spans => ?_
    have kept := w.keeps_of_overflows Fault.isOverflow_overflow
    refine ((tree.raise_ends potentials fun node _ => kept _).imp
      (fun _ => .inl) (fun _ raised => raised)).bind fun raised _ => ?_
    have missing : tree.reaches sink = .error (.outOfBounds net.nodes sink) := by
      have size := spans.size
      simp [Tree.reaches, fetch, size, beyond, bind, Except.bind]
    rw [missing]
    exact .inr ⟨sink, .inr rfl, beyond, rfl⟩
  · have beyond : net.nodes ≤ source := by omega
    have missing : Tree.ofSource w net potentials source =
        .error (.outOfBounds net.nodes source) := by
      unfold Tree.ofSource
      rw [if_neg (not_not.mpr priced.1), if_pos beyond]
    rw [missing]
    exact .inr ⟨source, .inl rfl, beyond, rfl⟩

/-- From valid potentials a survey comes to an end between nodes, unless it overflows. -/
theorem survey_ends_of_priced (w : Width) (sound : net.Sound) (priced : net.PricedBy potentials)
    (source sink : Nat) :
    Checked.Ends (net.survey w potentials source sink)
      (fun fault => fault.IsOverflow ∨ net.Strays source sink fault)
      fun survey => source < net.nodes ∧ sink < net.nodes ∧
        net.Surveyed potentials source sink survey := by
  by_cases inside : source < net.nodes ∧ sink < net.nodes
  · have secure := secure_of_priced w priced source 0
    exact (survey_ends sound priced secure inside.1 inside.2).imp (fun _ => .inl)
      fun survey surveyed => ⟨inside.1, inside.2, surveyed⟩
  · exact (survey_strays w sound priced (by omega)).weaken fun _ => False.elim

end Network

namespace Chart

open Network (exactReducedCost)

variable {w : Width} {net : Network} {offers : List Offer} {potentials : Potentials}
  {source sink node : Nat} {survey : Survey}

/-- What a search makes of valid potentials, and what its chart says of them. -/
structure Reprices (w : Width) (net : Network) (potentials : Potentials) (source : Nat)
    (left : Chart) (raised : Potentials) : Prop where
  priced : net.PricedBy raised
  source_eq : raised.getD source 0 = potentials.getD source 0
  visited : ∀ node, left.visited[node]? = some true ↔ net.Connects source node
  isLeast : ∀ node, net.Connects source node →
    IsLeast (net.walkCosts source node) (raised.getD node 0 - raised.getD source 0)
  le : ∀ node < net.nodes, potentials.getD node 0 ≤ raised.getD node 0
  /-- All nodes out of reach are raised alike. -/
  aloof : ∃ shift, ∀ node < net.nodes, ¬ net.Connects source node →
    raised.getD node 0 = potentials.getD node 0 + shift
  /-- The path to a node in reach is tight, whatever is then shipped along it. -/
  path : ∀ node, net.Connects source node → ∃ path, left.pathTo net node = .ok path ∧
    net.SimpleWalk source path node (raised.getD node 0 - raised.getD source 0) ∧
    (∀ id ∈ path, ∀ arc, net.arc id = .ok arc → exactReducedCost raised arc = 0) ∧
    ∀ remaining, source ≠ node → 0 < remaining →
      Checked.Ends (net.ship w path remaining) Fault.IsOverflow fun (_, last) =>
        last.PricedBy raised

theorem visited_iff (surveyed : net.Surveyed potentials source sink survey) (node : Nat) :
    survey.tree.chart.visited[node]? = some true ↔ net.Connects source node := by
  rw [← surveyed.spans.isSome_distance?_iff]
  by_cases within : node < survey.tree.marks.size
  · rw [Tree.visited_chart within, Option.some.injEq]
  · simp [Tree.chart, Tree.distance?, within]

private theorem reprices_of_surveyed (w : Width) (sound : net.Sound)
    (counted : potentials.size = net.nodes)
    (surveyed : net.Surveyed potentials source sink survey) (within : source < net.nodes) :
    Reprices w net potentials source survey.tree.chart survey.potentials where
  priced := surveyed.priced
  source_eq := surveyed.source_eq (counted ▸ within)
  visited := visited_iff surveyed
  isLeast node connected := surveyed.isLeast sound counted connected
  le node inside := surveyed.le (counted ▸ inside)
  aloof := by
    refine ⟨survey.tree.farthest, fun node inside apart => ?_⟩
    have unsettled : survey.tree.distance? node = none := by
      rwa [← surveyed.spans.isSome_distance?_iff, Option.not_isSome_iff_eq_none] at apart
    rw [surveyed.rises node (counted ▸ inside), Tree.rise, unsettled, Option.getD_none]
  path node connected := by
    obtain ⟨path, led, simple, tight⟩ := surveyed.trail sound counted connected
    have inside : node < net.nodes := by
      obtain ⟨distance, settled⟩ := Option.isSome_iff_exists.mp
        (surveyed.spans.isSome_distance?_iff.mpr connected)
      exact surveyed.spans.size ▸ Tree.lt_size_of_distance? settled
    refine ⟨path, (pathTo_chart survey.tree net node).trans led, simple, tight, ?_⟩
    intro remaining apart wanted
    exact surveyed.priced.ship_ends w sound inside simple tight apart wanted

/-- From valid potentials a search comes to valid potentials again. They tell the least costs
of the walks from the source, fall nowhere, rise alike out of reach, and make the paths of the
search tight, so that any shipment along one of these leaves them valid. Only an overflow or an
end that is no node breaks the search off. -/
theorem search_reprices (made : Network.Made w net offers) (chart : Chart)
    (priced : net.PricedBy potentials) (source sink : Nat) :
    Checked.Ends (chart.search w net potentials source sink)
      (fun fault => fault.IsOverflow ∨ net.Strays source sink fault)
      fun (left, raised, reached) => (reached = true ↔ net.Connects source sink) ∧
        left.Reprices w net potentials source raised := by
  rw [search_eq w made.sound]
  refine ((Network.survey_ends_of_priced w made.sound priced source sink).weaken ?_).map
  rintro survey ⟨within, -, surveyed⟩
  refine ⟨?_, reprices_of_surveyed w made.sound priced.1 surveyed within⟩
  rw [surveyed.reached]
  exact surveyed.spans.isSome_distance?_iff

/-- The first link is full, so the sink is reached over the second one. -/
def second : Tree := ⟨#[.settled 0 none, .settled 2 (some 2), .unseen]⟩

theorem search_reprices_sideBySide :
    (∃ left, used.search ⟨7⟩ (Network.sideBySide 1 0) #[5, 6, 7] 0 1 =
        .ok (left, #[5, 8, 9], true) ∧
      left.Reprices ⟨7⟩ (Network.sideBySide 1 0) #[5, 6, 7] 0 #[5, 8, 9]) ∧
    IsLeast ((Network.sideBySide 1 0).walkCosts 0 1) 3 := by
  have pushed : (Network.sideBySide 0 0).push ⟨7⟩ 0 1 = .ok (Network.sideBySide 1 0) := by decide
  have made := Network.Made.push Network.sideBySide_made pushed
  have priced : (Network.sideBySide 1 0).PricedBy #[5, 6, 7] :=
    Network.pricedBy_of_links (by decide) (by decide)
  have searched : used.search ⟨7⟩ (Network.sideBySide 1 0) #[5, 6, 7] 0 1 =
      .ok (second.chart, #[5, 8, 9], true) := by
    have surveyed : (Network.sideBySide 1 0).survey ⟨7⟩ #[5, 6, 7] 0 1 =
        .ok ⟨second, #[5, 8, 9], true⟩ := by with_unfolding_all rfl
    rw [search_eq ⟨7⟩ made.sound, surveyed]
    rfl
  obtain ⟨reach, reprices⟩ := (search_reprices made used priced 0 1).of_ok searched
  exact ⟨⟨_, searched, reprices⟩, reprices.isLeast 1 (reach.mp rfl)⟩

end Chart

end Transshipment
