import Transshipment.Proofs.SettlementCycles

/-! What settling a problem achieves. An optimal answer comes with flows on the
lanes that solve the problem, and no solution is cheaper: the run left the
cheapest flow for the whole demand, or there was nothing to send and no cycle to
gain from. A site is joined to the source or to the sink, as its excess goes, and because
the excesses cancel like the supplies, the whole demand arrives exactly if every such link
is full on both sides. So the run that finds out whether the demand can be sent finds out
whether the supplies can be met. -/
namespace Transshipment

/-! ## Optimal settlements -/

namespace Problem

variable {problem : Problem} {net last : Network} {order : Order} {flow other : Assignment}
  {w : Width} {lane : Lane} {node : Nat}

/-- The problem whose lanes carry a flow on top of their lower bounds. -/
def loaded (problem : Problem) (flow : Assignment) : Problem :=
  { problem with lanes := problem.lanes.mapIdx fun k lane => { lane with routed := flow k } }

theorem lanes_loaded (problem : Problem) (flow : Assignment) (k : Nat) :
    (problem.loaded flow).lanes[k]? =
      problem.lanes[k]?.map fun lane => { lane with routed := flow k } := by
  simp [loaded]

theorem carried_loaded (held : problem.lanes[k]? = some lane) :
    (problem.loaded flow).carried k = problem.lowers k + flow k := by
  rw [carried, lanes_loaded, held, lowers_of_lane held]
  rfl

private theorem lowers_loaded : (problem.loaded flow).lowers = problem.lowers := by
  funext k
  rw [lowers, lanes_loaded, Option.map_map]
  rfl

theorem links_loaded (problem : Problem) (flow : Assignment) :
    (problem.loaded flow).lanes.toList.map Lane.link = problem.lanes.toList.map Lane.link := by
  apply List.ext_getElem?
  intro k
  rw [List.getElem?_map, List.getElem?_map, Array.getElem?_toList, Array.getElem?_toList,
    lanes_loaded, Option.map_map]
  rfl

private theorem outflow_loaded :
    (problem.loaded flow).outflow other node = problem.outflow other node := by
  have ends : (fun lane : Lane => turn lane.tail lane.head node) =
      (fun link : Link => turn link.tail link.head node) ∘ Lane.link := rfl
  rw [outflow_eq_weighed, outflow_eq_weighed, ends, ← weighed_map, ← weighed_map, links_loaded]

theorem price_loaded : (problem.loaded flow).price other = problem.price other := by
  have costs : Lane.cost = Link.cost ∘ Lane.link := rfl
  rw [price_eq_weighed, price_eq_weighed, costs, ← weighed_map, ← weighed_map, links_loaded]

/-- The lanes read their flows off the first links. -/
theorem withFlows_ends (translates : problem.Translates net order)
    (same : last.unloaded = net.unloaded) :
    Checked.Ends (problem.withFlows last) Fault.IsOverflow (· = problem.loaded last.carried) := by
  unfold withFlows
  refine (Checked.ends_mapM
    (f := fun entry : Lane × Nat => { entry.1 with routed := last.carried entry.2 })
    _ fun entry member => ?_).bind ?_
  · obtain ⟨lane, k⟩ := entry
    have held : problem.lanes[k]? = some lane := by
      simpa [List.mem_zipIdx_iff_getElem?] using member
    obtain ⟨link, found, -⟩ := Network.link_of_unloaded same.symm (translates.link_of_lane held)
    have read : last.flow (2 * k) = .ok (last.carried k) := by
      have along : last.link (2 * k) = .ok link := by simp [Network.link, found]
      rw [Network.flow, Arc.along_double, if_pos rfl, along, Network.carried_of_link found]
      rfl
    exact Checked.ends_bind_of_ok read rfl
  · rintro _ rfl
    refine congrArg (Problem.mk problem.sites) (Array.ext_getElem? fun k => ?_)
    simp [Function.comp_def]

private theorem Sound.loaded (sound : problem.Sound) (translates : problem.Translates net order)
    (admits : net.Admits flow) : (problem.loaded flow).Sound where
  ends k lane held := by
    rw [lanes_loaded] at held
    obtain ⟨before, found, rfl⟩ := Option.map_eq_some_iff.mp held
    exact sound.ends k before found
  bounded k lane held := by
    rw [lanes_loaded] at held
    obtain ⟨before, found, rfl⟩ := Option.map_eq_some_iff.mp held
    exact ⟨(sound.bounded k before found).1, (translates.carries_iff.mp admits).1 k before found⟩
  excess node site held := by
    rw [sound.excess node site held, outflow_loaded, lowers_loaded]

/-- The owner of a lane sees its lower bound and what is routed beyond. -/
theorem view_ends (w : Width) (lane : Lane) :
    Checked.Ends (lane.view w) Fault.IsOverflow (· = ⟨lane.tail, lane.head,
      lane.routed + lane.lower, lane.lower, lane.span + lane.lower, lane.cost⟩) := by
  apply (w.add_ends Fault.isOverflow_overflow lane.routed lane.lower).bind
  rintro _ rfl
  apply (w.add_ends Fault.isOverflow_overflow lane.span lane.lower).bind
  rintro _ rfl
  exact rfl

/-- The computed cost is the price of the flow. -/
theorem cost_ends (w : Width) (problem : Problem) :
    Checked.Ends (problem.cost w) Fault.IsOverflow (· = problem.price problem.carried) := by
  have total : problem.price problem.carried =
      (problem.lanes.toList.map fun lane => lane.cost * (lane.routed + lane.lower)).sum := by
    rw [price_eq_weighed]
    refine weighed_eq_sum (fun lane : Lane => lane.routed + lane.lower) fun k lane held => ?_
    rw [Array.getElem?_toList] at held
    simp [carried, held, Int.add_comm]
  rw [total, ← Int.zero_add (List.sum _)]
  refine Checked.ends_foldlM_sum _ problem.lanes.toList (fun sum lane _ => ?_) 0
  apply (view_ends w lane).bind
  rintro _ rfl
  apply (w.mul_ends Fault.isOverflow_overflow _ _).bind
  rintro _ rfl
  exact w.add_ends Fault.isOverflow_overflow _ _

/-- A problem is unbalanced if its supplies do not cancel. -/
theorem unbalanced_ends (w : Width) (problem : Problem) :
    Checked.Ends (problem.unbalanced w) Fault.IsOverflow
      (· = ((problem.sites.toList.map Site.supply).sum != 0)) := by
  refine (Checked.ends_foldlM_sum Site.supply problem.sites.toList
    (fun sum site _ => w.add_ends Fault.isOverflow_overflow sum site.supply) 0).bind ?_
  rintro _ rfl
  rw [Int.zero_add]
  exact rfl

end Problem

namespace Router

variable {w : Width} {router : Router} {problem : Problem} {settlement : Settlement}
  {net : Network} {order : Order} {run : Run}

/-- How a balanced problem is settled by a run over its network: a refused run
leaves it as it was, and any other writes its flow to the lanes. -/
def SettledBy (problem : Problem) (run : Run) (settlement : Settlement) : Prop :=
  match run.answer with
  | .error refusal => settlement = ⟨run.router, problem, .error refusal⟩
  | .ok outcome =>
    settlement = ⟨run.router, problem.loaded run.net.carried, .ok outcome.status⟩

/-- A problem is refused as unbalanced, or settled by a run over its network. -/
def Settled (w : Width) (router : Router) (problem : Problem) (settlement : Settlement) : Prop :=
  ((problem.sites.toList.map Site.supply).sum ≠ 0 ∧
    settlement = ⟨router, problem, .error .unbalanced⟩) ∨
  (problem.sites.toList.map Site.supply).sum = 0 ∧
    ∃ net order run, problem.Translates net order ∧
      (router.route w net order).result = .ok run ∧ SettledBy problem run settlement

theorem settle_ends (w : Width) (sound : problem.Sound) (router : Router) :
    Checked.Ends (router.settle w problem).result Fault.IsOverflow
      (router.Settled w problem) := by
  unfold settle
  rw [Traced.result_bind, Traced.result_lift]
  apply (problem.unbalanced_ends w).bind
  rintro _ rfl
  split
  · rename_i unbalanced
    exact .inl ⟨by simpa using unbalanced, rfl⟩
  · rename_i balanced
    rw [Traced.result_bind, Traced.result_lift]
    refine (Problem.toOrder_ends w sound).bind fun ⟨net, order⟩ translates => ?_
    dsimp only
    rw [Traced.result_bind]
    have routed := route_ends w translates.sound router order
    cases ran : (router.route w net order).result with
    | error fault => exact routed.of_error ran
    | ok run =>
      have same := (routed.of_ok ran).2
      have answered : ∀ settlement, SettledBy problem run settlement →
          router.Settled w problem settlement := fun settlement settled =>
        .inr ⟨by simpa using balanced, net, order, run, translates, ran, settled⟩
      apply Checked.ends_bind_of_ok rfl
      cases answer : run.answer with
      | error refusal => exact answered _ (by rw [SettledBy, answer])
      | ok outcome =>
        dsimp only
        rw [Traced.result_bind, Traced.result_lift]
        apply (Problem.withFlows_ends translates same).bind
        rintro _ rfl
        exact answered _ (by rw [SettledBy, answer])

theorem Settled.sound (settled : router.Settled w problem settlement) (sound : problem.Sound) :
    settlement.problem.Sound := by
  obtain ⟨-, rfl⟩ | ⟨-, net, order, run, translates, ran, settled⟩ := settled
  · exact sound
  · unfold SettledBy at settled
    obtain ⟨sound', same⟩ := (route_ends w translates.sound router order).of_ok ran
    split at settled
    · rw [settled]
      exact sound
    · rw [settled]
      exact sound.loaded translates (Network.admits_of_unloaded same sound'.admits_carried)

end Router

/-- Whatever a problem was made by, it is sound. -/
theorem Problem.Made.sound {w : Width} {problem : Problem} {supplies : List (Nat × Int)}
    {lanes : List LaneTerms} (made : Problem.Made w problem supplies lanes) : problem.Sound := by
  induction made with
  | ofSites sites => exact Sound.ofSites sites
  | insertSite _ sound => exact sound.insertSite
  | insertSites count _ sound => exact sound.insertSites count
  | provide _ _ provided sound => exact sound.provide provided
  | consume _ _ consumed sound => exact sound.consume consumed
  | insertLane _ _ _ _ inserted sound => exact sound.insertLane inserted
  | @settle problem supplies lanes router settlement _ settled sound =>
    exact ((Router.settle_ends w sound router).of_ok settled).sound sound

namespace Problem

variable {problem : Problem} {net : Network} {order : Order}

theorem offered_nonneg (sites : List Site) : 0 ≤ offered sites := by
  refine List.sum_nonneg fun amount member => ?_
  obtain ⟨site, -, rfl⟩ := List.mem_map.mp member
  omega

/-- Where nothing is offered and nothing is lacking, no site has an excess. -/
theorem excess_eq_zero {sites : List Site} (offers : offered sites = 0) (lacks : lacking sites = 0) :
    ∀ site ∈ sites, site.excess = 0 := by
  induction sites with
  | nil => simp
  | cons site rest ih =>
    have offeredRest := offered_nonneg rest
    have lackingRest : 0 ≤ lacking rest := by
      refine List.sum_nonneg fun amount member => ?_
      obtain ⟨site, -, rfl⟩ := List.mem_map.mp member
      omega
    rw [offered, List.map_cons, List.sum_cons, ← offered] at offers
    rw [lacking, List.map_cons, List.sum_cons, ← lacking] at lacks
    intro other member
    rcases List.mem_cons.mp member with rfl | later
    · omega
    · exact ih (by omega) (by omega) other later

namespace Translates

theorem ends_within (translates : problem.Translates net order) :
    order.source < net.nodes ∧ order.sink < net.nodes ∧ order.source ≠ order.sink := by
  have nodes := translates.nodes
  have numbers := translates.order
  subst numbers
  exact ⟨by dsimp only; omega, by dsimp only; omega, by dsimp only; omega⟩

theorem proper (translates : problem.Translates net order) (wanted : 0 < order.demand) :
    order.Proper net := by
  obtain ⟨source, sink, apart⟩ := translates.ends_within
  exact ⟨source, sink, apart, wanted⟩

private theorem demand_nonneg (translates : problem.Translates net order) : 0 ≤ order.demand := by
  rw [translates.order]
  exact offered_nonneg problem.sites.toList

/-- The order of a problem is never malformed. -/
theorem accepted (translates : problem.Translates net order) :
    Router.orderRefusal? net order = none := by
  obtain ⟨source, sink, -⟩ := translates.ends_within
  exact Router.orderRefusal?_eq_none_iff.mpr ⟨source, sink, translates.demand_nonneg⟩

end Translates

/-- One site supplies two units and the other demands them. -/
theorem exchange_made :
    Made ⟨3⟩ ⟨#[⟨2, 2⟩, ⟨-2, -2⟩], #[]⟩ [(0, 2), (1, -2)] [] := by
  have supplied : Made ⟨3⟩ ⟨#[⟨2, 2⟩, ⟨0, 0⟩], #[]⟩ [(0, 2)] [] :=
    .provide (.ofSites 2) (by decide) (by decide)
  have consumed : Problem.consume ⟨3⟩ ⟨#[⟨2, 2⟩, ⟨0, 0⟩], #[]⟩ 1 2 =
      .ok (.ok ⟨#[⟨2, 2⟩, ⟨-2, -2⟩], #[]⟩) := by decide
  exact .consume supplied (by decide) consumed

/-- The two units may go over a lane that carries one to three. -/
def oneLane : Problem := ⟨#[⟨2, 1⟩, ⟨-2, -1⟩], #[⟨0, 1, 1, 2, 0, 2⟩]⟩

theorem oneLane_made : Made ⟨3⟩ oneLane [(0, 2), (1, -2)] ([] ++ [⟨0, 1, 1, 3, 2⟩]) := by
  have inserted : Problem.insertLane ⟨3⟩ ⟨#[⟨2, 2⟩, ⟨-2, -2⟩], #[]⟩ 0 1 1 3 2 =
      .ok (.ok (0, oneLane)) := by decide
  exact .insertLane exchange_made (by decide) (by decide) (by decide) inserted

end Problem

namespace Router

variable {w : Width} {router : Router} {problem : Problem} {settlement : Settlement}
  {net : Network} {order : Order} {run : Run} {supplies : List (Nat × Int)}
  {lanes : List LaneTerms}

/-- An optimal run over the network of a problem leaves the cheapest flow for the
whole demand, if there is something to send or no cycle to gain from. -/
theorem cheapest_of_translates (translates : problem.Translates net order)
    (sound : problem.Sound) (balanced : (problem.sites.toList.map Site.supply).sum = 0)
    (determined : (∃ (node : Nat) (site : Site), problem.sites[node]? = some site ∧ site.excess ≠ 0) ∨
      ∀ node, ¬ problem.OnNegativeCycle node)
    (ran : (router.route w net order).result = .ok run)
    {cost : Int} (optimal : run.answer = .ok (.optimal cost)) :
    net.Cheapest run.net.carried order.source order.sink order.demand := by
  have demand : order.demand = Problem.offered problem.sites.toList := by rw [translates.order]
  have nonneg := Problem.offered_nonneg problem.sites.toList
  rcases Int.lt_or_eq_of_le nonneg with wanted | nothing
  · have routed := (route_proper_ends w translates.sound router
      (translates.proper (demand ▸ wanted))).of_ok ran
    rw [← (routed.optimal optimal).1]
    exact routed.cheapest (.inl ⟨_, optimal⟩)
  · have none := Problem.excess_eq_zero nothing.symm
      (sound.offered_eq_lacking balanced ▸ nothing.symm)
    have acyclic : ∀ node, ¬ problem.OnNegativeCycle node := by
      rcases determined with ⟨node, site, held, some⟩ | acyclic
      · refine absurd (none site ?_) some
        exact Array.mem_toList_iff.mpr (Array.mem_of_getElem? held)
      · exact acyclic
    have idle : order.demand = 0 := demand.trans nothing.symm
    obtain ⟨sourceWithin, sinkWithin, -⟩ := translates.ends_within
    have unmoved := route_nothing w router sourceWithin sinkWithin (Int.le_of_eq idle.symm)
      (.inl idle)
    rw [unmoved] at ran
    cases ran
    rw [idle]
    exact translates.sound.cheapest_carried
      (fun node cycle => acyclic node (translates.onNegativeCycle sound cycle).2) _ _

/-- An optimal settlement solves the problem at the least cost, if some site has
an excess or no cycle of lanes costs less than nothing. -/
theorem settle_optimal (made : Problem.Made w problem supplies lanes)
    (ran : (router.settle w problem).result = .ok settlement)
    (optimal : settlement.answer = .ok .optimal)
    (determined : (∃ (node : Nat) (site : Site), problem.sites[node]? = some site ∧
        site.supply - problem.outflow problem.lowers node ≠ 0) ∨
      ∀ node, ¬ problem.OnNegativeCycle node) :
    problem.SolvedBy settlement.problem.carried ∧
      (∀ other, problem.SolvedBy other →
        problem.price settlement.problem.carried ≤ problem.price other) ∧
      ∀ cost, settlement.problem.cost w = .ok cost →
        cost = problem.price settlement.problem.carried := by
  have sound := made.sound
  obtain ⟨-, rfl⟩ | ⟨balanced, net, order, run, translates, routed, settled⟩ :=
    (settle_ends w sound router).of_ok ran
  · cases optimal
  · unfold SettledBy at settled
    cases answer : run.answer with
    | error refusal =>
      rw [answer] at settled
      subst settled
      cases optimal
    | ok outcome =>
      rw [answer] at settled
      subst settled
      cases outcome with
      | infeasible => cases optimal
      | optimal cost =>
        have excesses : (∃ (node : Nat) (site : Site), problem.sites[node]? = some site ∧
            site.excess ≠ 0) ∨ ∀ node, ¬ problem.OnNegativeCycle node := by
          refine determined.imp_left ?_
          rintro ⟨node, site, held, some⟩
          exact ⟨node, site, held, by rwa [sound.excess node site held]⟩
        have cheapest := cheapest_of_translates translates sound balanced excesses routed answer
        obtain ⟨solved, least⟩ := translates.solvedBy_of_cheapest sound balanced cheapest
        have same : problem.price (problem.loaded run.net.carried).carried =
            problem.price (fun k => problem.lowers k + run.net.carried k) :=
          Problem.price_congr fun k lane held => Problem.carried_loaded held
        refine ⟨?_, fun other solves => ?_, fun cost computed => ?_⟩
        · exact solved.congr fun k lane held => Problem.carried_loaded held
        · rw [same]
          exact least other solves
        · rw [(Problem.cost_ends w _).of_ok computed, Problem.price_loaded]

theorem settle_optimal_oneLane :
    Problem.oneLane.SolvedBy (Problem.oneLane.loaded fun _ => 1).carried ∧
      (∀ other, Problem.oneLane.SolvedBy other → Problem.oneLane.price
        (Problem.oneLane.loaded fun _ => 1).carried ≤ Problem.oneLane.price other) ∧
      4 = Problem.oneLane.price (Problem.oneLane.loaded fun _ => 1).carried := by
  have ran : (({} : Router).settle ⟨3⟩ Problem.oneLane).result =
      .ok ⟨⟨none, 1, 1, #[0, 2, 0, 2]⟩, Problem.oneLane.loaded fun _ => 1, .ok .optimal⟩ := by
    with_unfolding_all rfl
  obtain ⟨solved, least, costs⟩ := settle_optimal Problem.oneLane_made ran rfl
    (.inl ⟨0, ⟨2, 1⟩, rfl, by decide⟩)
  exact ⟨solved, least, costs 4 (by decide)⟩

end Router

/-! ## Feasible problems -/

namespace Problem

/-- Three units have to leave the first site, and its lane takes one or two. -/
def tightLane : Problem := ⟨#[⟨3, 2⟩, ⟨-3, -2⟩], #[⟨0, 1, 1, 1, 0, -1⟩]⟩

/-- The network of that problem. -/
def tightNetwork : Network :=
  ⟨#[⟨0, 1, -1, 1, 0⟩, ⟨2, 0, 0, 2, 0⟩, ⟨1, 3, 0, 2, 0⟩], #[#[0, 3], #[1, 4], #[2], #[5]]⟩

private theorem tightLane_made : Made ⟨3⟩ tightLane [(0, 3), (1, -3)]
    ([] ++ [⟨0, 1, 1, 2, -1⟩]) := by
  have supplied : Made ⟨3⟩ ⟨#[⟨3, 3⟩, ⟨0, 0⟩], #[]⟩ [(0, 3)] [] :=
    .provide (.ofSites 2) (by decide) (by decide)
  have consumed : consume ⟨3⟩ ⟨#[⟨3, 3⟩, ⟨0, 0⟩], #[]⟩ 1 3 =
      .ok (.ok ⟨#[⟨3, 3⟩, ⟨-3, -3⟩], #[]⟩) := by decide
  have exchange : Made ⟨3⟩ ⟨#[⟨3, 3⟩, ⟨-3, -3⟩], #[]⟩ [(0, 3), (1, -3)] [] :=
    .consume supplied (by decide) consumed
  have inserted : insertLane ⟨3⟩ ⟨#[⟨3, 3⟩, ⟨-3, -3⟩], #[]⟩ 0 1 1 2 (-1) =
      .ok (.ok (0, tightLane)) := by decide
  exact .insertLane exchange (by decide) (by decide) (by decide) inserted

end Problem

namespace Router

variable {w : Width} {router : Router} {problem : Problem} {settlement : Settlement}
  {supplies : List (Nat × Int)} {lanes : List LaneTerms}

/-- Where the supplies cancel, no cycle of lanes pays and no limit is set, a settlement
finds out whether the problem has a solution. -/
theorem settle_decides_feasibility (made : Problem.Made w problem supplies lanes)
    (balanced : (problem.sites.toList.map Site.supply).sum = 0)
    (acyclic : ∀ node, ¬ problem.OnNegativeCycle node) (unlimited : router.limit? = none)
    (ran : (router.settle w problem).result = .ok settlement) :
    (settlement.answer = .ok .infeasible ↔ ¬ ∃ flow, problem.SolvedBy flow) ∧
      ((∃ flow, problem.SolvedBy flow) → settlement.answer = .ok .optimal) := by
  have sound := made.sound
  obtain ⟨unbalanced, -⟩ | ⟨-, net, order, run, translates, routed, settled⟩ :=
    (settle_ends w sound router).of_ok ran
  · exact absurd balanced unbalanced
  · obtain ⟨source, sink, apart⟩ := translates.ends_within
    have nonneg : 0 ≤ order.demand := by
      rw [translates.order]
      exact Problem.offered_nonneg problem.sites.toList
    obtain ⟨outcome, answer, feasible⟩ := route_answers translates.sound source sink apart nonneg
      (fun node cycle => acyclic node ((translates.onNegativeCycle_iff sound).mp cycle))
      unlimited routed
    rw [← translates.solvable_iff sound balanced] at feasible
    unfold SettledBy at settled
    rw [answer] at settled
    subst settled
    rw [← feasible]
    cases outcome with
    | optimal cost => exact ⟨iff_of_false nofun fun hopeless => hopeless rfl, fun _ => rfl⟩
    | infeasible => exact ⟨iff_of_true rfl nofun, nofun⟩

theorem settle_decides_feasibility_tightLane : ¬ ∃ flow, Problem.tightLane.SolvedBy flow := by
  have balanced : (Problem.tightLane.sites.toList.map Site.supply).sum = 0 := by decide
  have ran : (({} : Router).settle ⟨3⟩ Problem.tightLane).result =
      .ok ⟨⟨none, 1, 1, #[0, -1, 0, -1]⟩, Problem.tightLane.loaded fun _ => 1,
        .ok .infeasible⟩ := by with_unfolding_all rfl
  have ordered : Problem.tightLane.toOrder ⟨3⟩ = .ok (Problem.tightNetwork, ⟨2, 3, 2⟩) := by decide
  have priced : (Problem.tightNetwork.startPotentials ⟨3⟩).result = .ok (.ok #[0, -1, 0, -1]) := by
    with_unfolding_all rfl
  have sound := Problem.tightLane_made.sound
  have translates := (Problem.toOrder_ends ⟨3⟩ sound).of_ok ordered
  have started := (Network.startPotentials_ends ⟨3⟩ translates.sound).of_ok priced
  have acyclic : ∀ node, ¬ Problem.tightLane.OnNegativeCycle node := fun node cycle =>
    started.1.prices.no_negative_cycle node ((translates.onNegativeCycle_iff sound).mpr cycle)
  exact (settle_decides_feasibility Problem.tightLane_made balanced acyclic rfl ran).1.mp rfl

end Router

end Transshipment
