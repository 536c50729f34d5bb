import Transshipment.Proofs.RequestAnswers
import Transshipment.Proofs.SettlementRefusals

/-! Two requests for the same thing. Whether some cycle pays and what the possible flows cost
decides an answer, and nothing that a search does on the way; a run decides so over the
flows that bring its demand, and a settlement over the solutions of its problem. Offered
links and offered lanes have the same cycles and the same flows, so an order and the two
supplies that ask for the same are answered alike. -/
namespace Transshipment

/-- The answer that follows: a cycle that pays is blamed, the least of the costs is optimal,
and where there are none nothing is feasible. -/
def Decided (pays : Prop) (costs : Set Int) : Except Refusal Outcome → Prop
  | .error refusal => pays ∧ ∃ node, refusal = .negativeCycle node
  | .ok (.optimal cost) => ¬ pays ∧ IsLeast costs cost
  | .ok .infeasible => ¬ pays ∧ costs = ∅

/-- The answers are the same, but for the node at which they blame a negative cycle. -/
def Agree : (first second : Except Refusal Outcome) → Prop
  | .error (.negativeCycle _), .error (.negativeCycle _) => True
  | first, second => first = second

theorem Agree.refl (answer : Except Refusal Outcome) : Agree answer answer := by
  unfold Agree
  split
  · trivial
  · rfl

/-- What decides an answer leaves no choice of another. -/
theorem Decided.agree {pays : Prop} {costs : Set Int} {first second : Except Refusal Outcome}
    (one : Decided pays costs first) (other : Decided pays costs second) : Agree first second := by
  cases first with
  | error refusal =>
    obtain ⟨blamed, node, rfl⟩ := one
    cases second with
    | error refusal =>
      obtain ⟨-, node, rfl⟩ := other
      trivial
    | ok outcome => cases outcome <;> exact absurd blamed other.1
  | ok outcome =>
    cases second with
    | error refusal => cases outcome <;> exact absurd other.1 one.1
    | ok answer =>
      cases outcome with
      | optimal cost =>
        cases answer with
        | optimal total => rw [one.2.unique other.2]; exact .refl _
        | infeasible => exact absurd (other.2 ▸ one.2.1) (Set.notMem_empty cost)
      | infeasible =>
        cases answer with
        | optimal total => exact absurd (one.2 ▸ other.2.1) (Set.notMem_empty total)
        | infeasible => exact .refl _

namespace Network

variable {net : Network} {order : Order} {flow : Assignment}

/-- What it may cost to work off an order on top of the present flow. -/
def routingCosts (net : Network) (order : Order) : Set Int :=
  {cost | ∃ flow, net.Admits flow ∧
    net.Brings net.carried flow order.source order.sink order.demand ∧
      cost = net.price fun k => flow k - net.carried k}

theorem Cheapest.isLeast (cheapest : net.Cheapest flow order.source order.sink order.demand) :
    IsLeast (net.routingCosts order) (net.price fun k => flow k - net.carried k) := by
  obtain ⟨admits, brings, least⟩ := cheapest
  refine ⟨⟨flow, admits, brings, rfl⟩, ?_⟩
  rintro cost ⟨other, otherAdmits, otherBrings, rfl⟩
  have below := least other otherAdmits otherBrings
  rw [price_sub, price_sub]
  omega

private theorem routingCosts_eq_empty_iff : net.routingCosts order = ∅ ↔
    ¬ net.Sendable order.source order.sink order.demand := by
  rw [Set.eq_empty_iff_forall_notMem]
  constructor
  · rintro none ⟨flow, admits, brings⟩
    exact none _ ⟨flow, admits, brings, rfl⟩
  · rintro unsendable cost ⟨flow, admits, brings, -⟩
    exact unsendable ⟨flow, admits, brings⟩

end Network

/-- A run without a limit decides over the flows that bring the demand. -/
theorem Router.route_decides {w : Width} {router : Router} {net : Network} {order : Order}
    {run : Run} (sound : net.Sound) (proper : order.Proper net) (unlimited : router.limit? = none)
    (ran : (router.route w net order).result = .ok run) :
    Decided (∃ node, net.OnNegativeCycle node) (net.routingCosts order) run.answer := by
  have routed := (route_proper_ends w sound router proper).of_ok ran
  obtain ⟨blames, -⟩ := route_blamesCycles sound proper ran
  by_cases pays : ∃ node, net.OnNegativeCycle node
  · obtain ⟨node, blamed⟩ := blames.mpr pays
    rw [blamed]
    exact ⟨pays, node, rfl⟩
  · obtain ⟨outcome, answered, feasible⟩ := route_answers sound proper.source proper.sink
      proper.apart (Int.le_of_lt proper.wanted) (not_exists.mp pays) unlimited ran
    rw [answered]
    cases outcome with
    | optimal cost =>
      obtain ⟨all, rfl⟩ := routed.optimal answered
      have cheapest := routed.cheapest (.inl ⟨_, answered⟩)
      exact ⟨pays, (all ▸ cheapest).isLeast⟩
    | infeasible =>
      refine ⟨pays, Network.routingCosts_eq_empty_iff.mpr fun sendable => ?_⟩
      cases feasible.mpr sendable

namespace Problem

/-- What it may cost to solve a problem. -/
def solutionCosts (problem : Problem) : Set Int :=
  {cost | ∃ flow, problem.SolvedBy flow ∧ cost = problem.price flow}

end Problem

/-- A settlement without a limit decides over the solutions, if something has to be sent. -/
theorem Router.settle_decides {w : Width} {router : Router} {problem : Problem}
    {settlement : Settlement} (sound : problem.Sound)
    (balanced : (problem.sites.toList.map Site.supply).sum = 0) (unmet : ¬ problem.MetByLowers)
    (unlimited : router.limit? = none) (ran : (router.settle w problem).result = .ok settlement) :
    Decided (∃ node, problem.OnNegativeCycle node) problem.solutionCosts settlement.priced := by
  obtain ⟨met, -⟩ | ⟨-, net, order, run, translates, proper, routed, settled⟩ :=
    settle_balanced sound balanced ran
  · exact absurd met unmet
  · have decided := route_decides translates.sound proper unlimited routed
    simp only [translates.onNegativeCycle_iff sound] at decided
    unfold SettledBy at settled
    cases answer : run.answer with
    | error refusal =>
      rw [answer] at settled decided
      subst settled
      exact decided
    | ok outcome =>
      rw [answer] at settled decided
      subst settled
      cases outcome with
      | infeasible =>
        refine ⟨decided.1, Set.eq_empty_iff_forall_notMem.mpr ?_⟩
        rintro cost ⟨flow, solved, -⟩
        refine Network.routingCosts_eq_empty_iff.mp decided.2 ?_
        exact (translates.solvable_iff sound balanced).mp ⟨flow, solved⟩
      | optimal cost =>
        have done := (route_proper_ends w translates.sound router proper).of_ok routed
        have cheapest := done.cheapest (.inl ⟨_, answer⟩)
        rw [(done.optimal answer).1] at cheapest
        obtain ⟨solved, least⟩ := translates.solvedBy_of_cheapest sound balanced cheapest
        refine ⟨decided.1, ?_⟩
        change IsLeast _ ((problem.loaded run.net.carried).price
          (problem.loaded run.net.carried).carried)
        rw [Problem.price_loaded,
          Problem.price_congr fun k lane held => Problem.carried_loaded held]
        refine ⟨⟨_, solved, rfl⟩, ?_⟩
        rintro total ⟨flow, solves, rfl⟩
        exact least flow solves

namespace Problem

/-- The network has a link for each lane, no lane has a lower bound, and the order asks for
what the supplies state. -/
structure Mirrors (problem : Problem) (net : Network) (order : Order) : Prop where
  sound : problem.Sound
  nodes : net.nodes = problem.sites.size
  links : net.links.toList = problem.lanes.toList.map Lane.link
  unbound : ∀ (k : Nat) lane, problem.lanes[k]? = some lane → lane.lower = 0
  supply : ∀ (node : Nat) site, problem.sites[node]? = some site →
    site.supply = order.demand * turn order.source order.sink node

namespace Mirrors

variable {problem : Problem} {net : Network} {order : Order} {flow : Assignment} {lane : Lane}
  {link : Link} {k node source sink : Nat} {path : List Nat} {cost : Int}

private theorem link_eq (mirrors : problem.Mirrors net order) (k : Nat) :
    net.links[k]? = problem.lanes[k]?.map Lane.link := by
  rw [← Array.getElem?_toList, mirrors.links, List.getElem?_map, Array.getElem?_toList]

private theorem carried_eq_zero (mirrors : problem.Mirrors net order) :
    net.carried = fun _ => 0 := by
  funext k
  rw [Network.carried, mirrors.link_eq]
  cases problem.lanes[k]? <;> rfl

private theorem lowers_eq_zero (mirrors : problem.Mirrors net order) :
    problem.lowers = fun _ => 0 := by
  funext k
  cases held : problem.lanes[k]? with
  | none => simp [lowers, held]
  | some lane => rw [lowers_of_lane held, mirrors.unbound k lane held]

private theorem outflow_eq (mirrors : problem.Mirrors net order) (flow : Assignment) (node : Nat) :
    net.outflow flow node = problem.outflow flow node := by
  rw [Network.outflow_eq_weighed, mirrors.links, weighed_map, outflow_eq_weighed]
  rfl

private theorem price_eq (mirrors : problem.Mirrors net order) (flow : Assignment) :
    net.price flow = problem.price flow := by
  rw [Network.price_eq_weighed, mirrors.links, weighed_map, price_eq_weighed]
  rfl

private theorem admits_iff (mirrors : problem.Mirrors net order) : net.Admits flow ↔
    ∀ (k : Nat) lane, problem.lanes[k]? = some lane →
      lane.lower ≤ flow k ∧ flow k ≤ lane.lower + lane.span := by
  have spans : ∀ (k : Nat) lane, problem.lanes[k]? = some lane →
      (0 ≤ flow k ∧ flow k ≤ lane.link.free + lane.link.used ↔
        lane.lower ≤ flow k ∧ flow k ≤ lane.lower + lane.span) := by
    intro k lane held
    rw [mirrors.unbound k lane held, Int.zero_add]
    exact and_congr_right fun _ => by rw [Lane.link, Int.add_zero]
  constructor
  · intro admits k lane held
    exact (spans k lane held).mp (admits k lane.link (by rw [mirrors.link_eq, held]; rfl))
  · intro within k link held
    rw [mirrors.link_eq] at held
    obtain ⟨lane, found, rfl⟩ := Option.map_eq_some_iff.mp held
    exact (spans k lane found).mpr (within k lane found)

/-- The flows that bring the demand are the solutions. -/
theorem solvedBy_iff (mirrors : problem.Mirrors net order) (proper : order.Proper net) :
    problem.SolvedBy flow ↔ net.Admits flow ∧
      net.Brings net.carried flow order.source order.sink order.demand := by
  have still : ∀ node, net.outflow net.carried node = 0 := by
    intro node
    rw [mirrors.carried_eq_zero, Network.outflow_eq_weighed, weighed_zero]
  rw [mirrors.admits_iff, Network.brings_iff_turn]
  refine and_congr_right fun _ => ?_
  simp only [still, Int.zero_add, mirrors.outflow_eq]
  constructor
  · intro meets node
    rcases Nat.lt_or_ge node problem.sites.size with within | beyond
    · have held := Array.getElem?_eq_getElem within
      rw [meets node _ held, mirrors.supply node _ held]
    · have source := proper.source
      have sink := proper.sink
      rw [mirrors.nodes] at source sink
      have apart : turn order.source order.sink node = 0 := by
        unfold turn
        rw [if_neg (by omega), if_neg (by omega), sub_zero]
      rw [mirrors.sound.outflow_eq_zero beyond, apart, mul_zero]
  · intro brings node site held
    rw [brings, mirrors.supply node site held]

theorem routingCosts_eq (mirrors : problem.Mirrors net order) (proper : order.Proper net) :
    net.routingCosts order = problem.solutionCosts := by
  refine Set.ext fun cost => exists_congr fun flow => ?_
  rw [mirrors.solvedBy_iff proper, and_assoc, mirrors.carried_eq_zero, Network.price_sub,
    mirrors.price_eq, mirrors.price_eq, price_eq_weighed problem (fun _ => 0), weighed_zero,
    sub_zero]

/-- Its walks are those over the lanes. -/
theorem walk (mirrors : problem.Mirrors net order) (walk : net.Walk source path sink cost) :
    problem.Walk source (path.map (· / 2)) sink cost ∧
      net.departures path = problem.departures (path.map (· / 2)) := by
  induction walk with
  | nil node => exact ⟨.nil node, rfl⟩
  | @cons id arc path sink cost held isOpen walk ih =>
    obtain ⟨link, found, -, rfl⟩ :=
      Network.along_of_open mirrors.carried_eq_zero held isOpen
    rw [mirrors.link_eq] at found
    obtain ⟨lane, laid, rfl⟩ := Option.map_eq_some_iff.mp found
    refine ⟨.cons laid isOpen ih.1, ?_⟩
    rw [Network.departures_cons held, ih.2, List.map_cons, departures_cons laid]
    rfl

theorem onNegativeCycle_iff (mirrors : problem.Mirrors net order) :
    net.OnNegativeCycle node ↔ problem.OnNegativeCycle node := by
  constructor
  · rintro ⟨path, cost, walk, distinct, negative⟩
    obtain ⟨lanes, departs⟩ := mirrors.walk walk
    exact ⟨_, cost, lanes, departs ▸ distinct, negative⟩
  · intro cycle
    exact cycle.links fun k lane laid => by rw [mirrors.link_eq, laid]; rfl

private theorem balanced (mirrors : problem.Mirrors net order) (source : order.source < net.nodes)
    (sink : order.sink < net.nodes) : (problem.sites.toList.map Site.supply).sum = 0 := by
  have shares : ∀ node ∈ Finset.range problem.sites.size,
      (problem.sites.toList[node]?.map Site.supply).getD 0 =
        order.demand * turn order.source order.sink node := by
    intro node member
    have held := Array.getElem?_eq_getElem (Finset.mem_range.mp member)
    rw [Array.getElem?_toList, held, ← mirrors.supply node _ held]
    rfl
  rw [mirrors.nodes] at source sink
  rw [sum_map_eq_sum_range, Array.length_toList, Finset.sum_congr rfl shares,
    sum_mul_turn (fun _ => order.demand) source sink, sub_self]

/-- The lower bounds meet the supplies exactly if there is nothing to send. -/
theorem metByLowers_iff (mirrors : problem.Mirrors net order) (source : order.source < net.nodes) :
    problem.MetByLowers ↔ order.demand = 0 ∨ order.source = order.sink := by
  have still : ∀ node, problem.outflow problem.lowers node = 0 := by
    intro node
    rw [mirrors.lowers_eq_zero, outflow_eq_weighed, weighed_zero]
  constructor
  · intro met
    have held := Array.getElem?_eq_getElem (mirrors.nodes ▸ source)
    have supplied := (met order.source _ held).symm.trans (still order.source)
    rw [mirrors.supply order.source _ held] at supplied
    refine (Int.mul_eq_zero.mp supplied).imp_right fun none => ?_
    unfold turn at none
    split_ifs at none <;> omega
  · intro nothing node site held
    rw [still, mirrors.supply node site held]
    rcases nothing with none | same
    · rw [none, zero_mul]
    · rw [same, turn, sub_self, mul_zero]

/-- A run and a settlement come out alike. -/
theorem agree {w : Width} {run : Run} {settlement : Settlement}
    (mirrors : problem.Mirrors net order) (source : order.source < net.nodes)
    (sink : order.sink < net.nodes) (nonneg : 0 ≤ order.demand) (sound : net.Sound)
    (ran : (({} : Router).route w net order).result = .ok run)
    (settled : (({} : Router).settle w problem).result = .ok settlement) :
    Agree run.answer settlement.priced := by
  have balanced := mirrors.balanced source sink
  by_cases nothing : order.demand = 0 ∨ order.source = order.sink
  · have met := (mirrors.metByLowers_iff source).mpr nothing
    obtain ⟨-, rfl⟩ | ⟨unmet, -⟩ := Router.settle_balanced mirrors.sound balanced settled
    · rw [Router.route_nothing w {} source sink nonneg nothing] at ran
      cases ran
      have free : (problem.loaded fun _ => 0).price (problem.loaded fun _ => 0).carried = 0 := by
        rw [price_loaded, price_congr fun k lane held => carried_loaded held,
          mirrors.lowers_eq_zero, price_eq_weighed]
        exact weighed_zero
      rw [Settlement.priced, Except.map, free]
      exact .refl _
    · exact absurd met unmet
  · have unmet := fun met => nothing ((mirrors.metByLowers_iff source).mp met)
    rw [not_or] at nothing
    have proper : order.Proper net := ⟨source, sink, nothing.2, by omega⟩
    have first := Router.route_decides sound proper rfl ran
    have second := Router.settle_decides mirrors.sound balanced unmet rfl settled
    simp only [mirrors.onNegativeCycle_iff, mirrors.routingCosts_eq proper] at first
    exact first.agree second

end Mirrors

variable {nodes : Nat} {offers : List Offer} {order : Order} {net : Network} {problem : Problem}

/-- The two supplies that ask for the same as an order. -/
def ofOrder (order : Order) : List (Nat × Int) :=
  [(order.source, order.demand), (order.sink, -order.demand)]

private theorem supplyAt_ofOrder (order : Order) (node : Nat) :
    supplyAt (ofOrder order) node = order.demand * turn order.source order.sink node := by
  rw [ofOrder, supplyAt_cons, supplyAt_cons, supplyAt, List.map_nil, List.sum_nil, turn]
  split_ifs <;> ring

private theorem States.size {supplies : List (Nat × Int)}
    (states : problem.States nodes offers supplies) : problem.sites.size = nodes := by
  have atSize := states.supply problem.sites.size
  have atNodes := states.supply nodes
  rw [Array.getElem?_eq_none (Nat.le_refl _)] at atSize
  rw [if_neg (Nat.lt_irrefl _), Option.map_eq_none_iff, Array.getElem?_eq_none_iff] at atNodes
  refine Nat.le_antisymm atNodes (Nat.not_lt.mp fun short => ?_)
  rw [if_pos short] at atSize
  cases atSize

/-- Offered links mirror offered lanes. -/
theorem States.mirrors (states : problem.States nodes offers (ofOrder order))
    (extended : (Network.ofNodes nodes).Extended (offers.map Offer.link) net) :
    problem.Mirrors net order where
  sound := states.sound
  nodes := by rw [extended.nodes, Network.nodes_ofNodes, states.size]
  links := by
    rw [extended.links, states.lanes, List.map_map]
    rfl
  unbound k lane held := by
    rw [← Array.getElem?_toList, states.lanes, List.getElem?_map] at held
    obtain ⟨offer, -, rfl⟩ := Option.map_eq_some_iff.mp held
    rfl
  supply node site held := by
    have within : node < nodes := states.size ▸ (Array.getElem?_eq_some_iff.mp held).1
    have supplied := states.supply node
    rw [held, Option.map_some, if_pos within, Option.some.injEq] at supplied
    rw [supplied, supplyAt_ofOrder]

/-- Both requests are refused for the same. -/
theorem refusal?_ofOrder (nonneg : 0 ≤ order.demand) :
    refusal? nodes offers (ofOrder order) = order.refusal? nodes offers := by
  have malformed : supplyRefusal? nodes (ofOrder order) =
      Router.orderRefusal? (.ofNodes nodes) order := by
    unfold supplyRefusal? ofOrder siteRefusal? Router.orderRefusal?
    rw [Network.nodes_ofNodes, if_neg (Int.not_lt.mpr nonneg), List.findSome?_cons]
    split_ifs <;> simp_all
  rw [refusal?, malformed, Order.refusal?]

end Problem

/-- For a demand that is not negative, the two requests are answered alike if neither breaks
off: both are refused for the same offer or node, or both outcomes are the same, or both
blame a negative cycle. -/
theorem requests_agree {w : Width} {nodes : Nat} {offers : List Offer} {order : Order}
    {first second : Except Refusal Outcome} (nonneg : 0 ≤ order.demand)
    (routed : (costOfOrder w nodes offers order).result = .ok first)
    (settled : (costOfSupplies w nodes offers
      [(order.source, order.demand), (order.sink, -order.demand)]).result = .ok second) :
    Agree first second ∧ ∀ refusal, order.refusal? nodes offers = some refusal →
      first = .error refusal ∧ second = .error refusal := by
  have one := (costOfOrder_answers w nodes offers order).of_ok routed
  have other := (costOfSupplies_answers w nodes offers (Problem.ofOrder order)).of_ok settled
  unfold OrderAnswered at one
  unfold SuppliesAnswered at other
  rw [Problem.refusal?_ofOrder nonneg] at other
  cases refused : order.refusal? nodes offers with
  | some refusal =>
    simp only [refused, Option.some.injEq, exists_eq_left', reduceCtorEq, false_and, or_false]
      at one other
    rw [one, other]
    refine ⟨.refl _, fun same found => ?_⟩
    cases found
    exact ⟨rfl, rfl⟩
  | none =>
    simp only [refused, reduceCtorEq, false_and, exists_false, true_and, false_or] at one other
    obtain ⟨net, run, extended, ran, rfl⟩ := one
    obtain ⟨problem, settlement, states, solved, rfl⟩ := other
    have mirrors := states.mirrors extended
    have accepted := (Option.or_eq_none_iff.mp refused).2
    obtain ⟨source, sink, -⟩ := Router.orderRefusal?_eq_none_iff.mp accepted
    rw [Network.nodes_ofNodes, ← states.size, ← mirrors.nodes] at source sink
    exact ⟨mirrors.agree source sink nonneg extended.sound ran solved, fun refusal found => by
      cases found⟩

/-- Three links lead around, and each gains a unit. -/
def wayAround : List Offer := [⟨0, 1, 1, -1⟩, ⟨1, 2, 1, -1⟩, ⟨2, 0, 1, -1⟩]

set_option maxRecDepth 2000 in
theorem requests_agree_wayAround :
    (costOfOrder ⟨5⟩ 3 wayAround ⟨0, 1, 1⟩).result = .ok (.error (.negativeCycle 0)) ∧
      (costOfSupplies ⟨5⟩ 3 wayAround [(0, 1), (1, -1)]).result =
        .ok (.error (.negativeCycle 1)) ∧
      Agree (.error (.negativeCycle 0)) (.error (.negativeCycle 1)) := by
  have routed : (costOfOrder ⟨5⟩ 3 wayAround ⟨0, 1, 1⟩).result =
      .ok (.error (.negativeCycle 0)) := by with_unfolding_all rfl
  have settled : (costOfSupplies ⟨5⟩ 3 wayAround [(0, 1), (1, -1)]).result =
      .ok (.error (.negativeCycle 1)) := by with_unfolding_all rfl
  exact ⟨routed, settled, (requests_agree (by decide) routed settled).1⟩

end Transshipment
