import Mathlib.Data.List.Perm.Basic
import Transshipment.Proofs.RequestAgreement

/-! Offers and supplies in another order. No step of one computation matches a step of the
other, but an answer follows from whether some cycle pays and from what the solutions cost,
and neither depends on how the lanes are numbered: a flow moves along with its lanes. -/
namespace Transshipment

section Loads

variable {α : Type} {entries others : List α} {flow : Assignment}

/-- Every entry with what an assignment puts on it. -/
def loads (flow : Assignment) (entries : List α) : List (α × Int) :=
  entries.zipIdx.map fun (entry, k) => (entry, flow k)

private theorem mem_loads {entry : α} {amount : Int} : (entry, amount) ∈ loads flow entries ↔
    ∃ k : Nat, entries[k]? = some entry ∧ flow k = amount := by
  simp [loads, List.mem_zipIdx_iff_getElem?]

private theorem weighed_eq_sum_loads (weight : α → Int) (flow : Assignment) (entries : List α) :
    weighed weight flow entries 0 =
      ((loads flow entries).map fun load => weight load.1 * load.2).sum := by
  rw [loads, List.map_map]
  exact (sum_zipIdx_eq_weighed _ fun _ _ => rfl).symm

private theorem map_fst_loads (flow : Assignment) (entries : List α) :
    (loads flow entries).map Prod.fst = entries := by
  rw [loads, List.map_map]
  exact List.zipIdx_map_fst 0 entries

/-- Any list of entries with amounts is what some assignment puts on the entries. -/
theorem loads_of_pairs (pairs : List (α × Int)) :
    loads (fun k => (pairs[k]?.map Prod.snd).getD 0) (pairs.map Prod.fst) = pairs := by
  refine List.ext_getElem? fun k => ?_
  rw [loads, List.getElem?_map, List.getElem?_zipIdx, List.getElem?_map]
  cases held : pairs[k]? <;> simp [held]

/-- The entries take what they carry along to their new places. -/
theorem exists_loads_perm (perm : others.Perm entries) (flow : Assignment) :
    ∃ second, (loads second others).Perm (loads flow entries) := by
  have paired : List.Forall₂ (fun entry load => entry = load.1) entries (loads flow entries) := by
    rw [← List.forall₂_map_right_iff, map_fst_loads]
    exact List.forall₂_refl entries
  obtain ⟨moved, kept, same⟩ := List.perm_comp_forall₂ perm paired
  rw [← List.forall₂_map_right_iff, List.forall₂_eq_eq_eq] at kept
  subst kept
  exact ⟨_, (loads_of_pairs moved).symm ▸ same⟩

end Loads

namespace Problem

variable {problem other : Problem} {flow : Assignment} {source sink node : Nat}
  {path : List Nat} {cost : Int} {w : Width}

/-- The problems state the same, with the lanes in another order. -/
structure Reordered (problem other : Problem) : Prop where
  sound : problem.Sound
  otherSound : other.Sound
  lanes : problem.lanes.toList.Perm other.lanes.toList
  supplies : problem.sites.toList.map Site.supply = other.sites.toList.map Site.supply

/-- What the lower bounds cost. -/
theorem price_lowers (problem : Problem) : problem.price problem.lowers =
    (problem.lanes.toList.map fun lane => lane.cost * lane.lower).sum := by
  rw [price_eq_weighed]
  refine weighed_eq_sum Lane.lower fun k lane held => ?_
  rw [Array.getElem?_toList] at held
  rw [Nat.zero_add, lowers_of_lane held]

private theorem priced_idle (router : Router) (problem : Problem) :
    Settlement.priced ⟨router, problem.loaded fun _ => 0, .ok .optimal⟩ =
      .ok (.optimal (problem.price problem.lowers)) := by
  rw [Settlement.priced, Except.map, price_loaded,
    price_congr fun k lane held => carried_loaded held]
  simp only [Int.add_zero]

namespace Reordered

theorem symm (reordered : problem.Reordered other) : other.Reordered problem :=
  ⟨reordered.otherSound, reordered.sound, reordered.lanes.symm, reordered.supplies.symm⟩

private theorem supply_eq (reordered : problem.Reordered other) (node : Nat) :
    problem.sites[node]?.map Site.supply = other.sites[node]?.map Site.supply := by
  rw [← Array.getElem?_toList, ← Array.getElem?_toList, ← List.getElem?_map, ← List.getElem?_map,
    reordered.supplies]

/-- A lane of one is a lane of the other. -/
theorem exists_lane (reordered : problem.Reordered other) {k : Nat} {lane : Lane}
    (held : problem.lanes[k]? = some lane) : ∃ place : Nat, other.lanes[place]? = some lane := by
  have member : lane ∈ problem.lanes.toList := by
    rw [← Array.getElem?_toList] at held
    exact List.mem_of_getElem? held
  obtain ⟨place, found⟩ := List.mem_iff_getElem?.mp (reordered.lanes.mem_iff.mp member)
  exact ⟨place, by rwa [← Array.getElem?_toList]⟩

/-- Sums over the lanes do not depend on their order. -/
theorem weighed_eq {weight : Lane → Int} {second : Assignment}
    (moved : (loads second other.lanes.toList).Perm (loads flow problem.lanes.toList)) :
    weighed weight second other.lanes.toList 0 = weighed weight flow problem.lanes.toList 0 := by
  rw [weighed_eq_sum_loads, weighed_eq_sum_loads]
  exact (moved.map _).sum_eq

private theorem solutionCosts_subset (reordered : problem.Reordered other) :
    problem.solutionCosts ⊆ other.solutionCosts := by
  rintro cost ⟨flow, ⟨bounded, meets⟩, rfl⟩
  obtain ⟨second, moved⟩ := exists_loads_perm reordered.lanes.symm flow
  refine ⟨second, ⟨fun place lane held => ?_, fun node site held => ?_⟩, ?_⟩
  · have carried : (lane, second place) ∈ loads second other.lanes.toList :=
      mem_loads.mpr ⟨place, by rwa [Array.getElem?_toList], rfl⟩
    obtain ⟨k, laid, amount⟩ := mem_loads.mp (moved.mem_iff.mp carried)
    rw [← amount]
    exact bounded k lane (by rwa [← Array.getElem?_toList])
  · have supplied := reordered.supply_eq node
    rw [held, Option.map_some] at supplied
    obtain ⟨twin, found, same⟩ := Option.map_eq_some_iff.mp supplied
    rw [outflow_eq_weighed, weighed_eq moved, ← outflow_eq_weighed, meets node twin found, same]
  · rw [price_eq_weighed, price_eq_weighed, weighed_eq moved]

private theorem solutionCosts_eq (reordered : problem.Reordered other) :
    problem.solutionCosts = other.solutionCosts :=
  Set.Subset.antisymm reordered.solutionCosts_subset reordered.symm.solutionCosts_subset

/-- A walk goes over the same lanes at their new places. -/
theorem walk (reordered : problem.Reordered other) (walk : problem.Walk source path sink cost) :
    ∃ track, other.Walk source track sink cost ∧
      other.departures track = problem.departures path := by
  induction walk with
  | nil node => exact ⟨[], .nil node, rfl⟩
  | @cons k lane path sink cost held room walk ih =>
    obtain ⟨track, further, departs⟩ := ih
    obtain ⟨place, laid⟩ := reordered.exists_lane held
    refine ⟨place :: track, .cons laid room further, ?_⟩
    rw [departures_cons laid, departures_cons held, departs]

private theorem onNegativeCycle (reordered : problem.Reordered other)
    (cycle : problem.OnNegativeCycle node) : other.OnNegativeCycle node := by
  obtain ⟨path, cost, walk, distinct, negative⟩ := cycle
  obtain ⟨track, further, departs⟩ := reordered.walk walk
  exact ⟨track, cost, further, departs ▸ distinct, negative⟩

private theorem onNegativeCycle_iff (reordered : problem.Reordered other) :
    problem.OnNegativeCycle node ↔ other.OnNegativeCycle node :=
  ⟨reordered.onNegativeCycle, reordered.symm.onNegativeCycle⟩

private theorem metByLowers (reordered : problem.Reordered other) (met : problem.MetByLowers) :
    other.MetByLowers := by
  intro node site held
  have supplied := reordered.supply_eq node
  rw [held, Option.map_some] at supplied
  obtain ⟨twin, found, same⟩ := Option.map_eq_some_iff.mp supplied
  rw [← same, ← met node twin found, outflow_lowers, outflow_lowers]
  exact (reordered.lanes.symm.map _).sum_eq

private theorem metByLowers_iff (reordered : problem.Reordered other) :
    problem.MetByLowers ↔ other.MetByLowers :=
  ⟨reordered.metByLowers, reordered.symm.metByLowers⟩

private theorem price_lowers_eq (reordered : problem.Reordered other) :
    problem.price problem.lowers = other.price other.lowers := by
  rw [price_lowers, price_lowers]
  exact (reordered.lanes.map _).sum_eq

/-- Settled from scratch, both come out alike. -/
theorem agree {first second : Settlement} (reordered : problem.Reordered other)
    (settled : (({} : Router).settle w problem).result = .ok first)
    (again : (({} : Router).settle w other).result = .ok second) :
    Agree first.priced second.priced := by
  by_cases balanced : (problem.sites.toList.map Site.supply).sum = 0
  · have otherBalanced := reordered.supplies ▸ balanced
    by_cases met : problem.MetByLowers
    · obtain ⟨-, rfl⟩ | ⟨unmet, -⟩ := Router.settle_balanced reordered.sound balanced settled
      · obtain ⟨-, rfl⟩ | ⟨unmet, -⟩ :=
          Router.settle_balanced reordered.otherSound otherBalanced again
        · rw [priced_idle, priced_idle, reordered.price_lowers_eq]
          exact .refl _
        · exact absurd (reordered.metByLowers met) unmet
      · exact absurd met unmet
    · have one := Router.settle_decides reordered.sound balanced met rfl settled
      rw [reordered.metByLowers_iff] at met
      have two := Router.settle_decides reordered.otherSound otherBalanced met rfl again
      simp only [reordered.onNegativeCycle_iff, reordered.solutionCosts_eq] at one
      exact one.agree two
  · obtain ⟨-, rfl⟩ | ⟨even, -⟩ := (Router.settle_ends w reordered.sound {}).of_ok settled
    · obtain ⟨-, rfl⟩ | ⟨even, -⟩ := (Router.settle_ends w reordered.otherSound {}).of_ok again
      · exact .refl _
      · exact absurd (reordered.supplies ▸ even) balanced
    · exact absurd even balanced

end Reordered

variable {nodes : Nat} {offers others : List Offer} {supplies more : List (Nat × Int)}

private theorem supplyAt_perm (perm : supplies.Perm more) (node : Nat) :
    supplyAt supplies node = supplyAt more node :=
  (perm.map _).sum_eq

/-- Offers and supplies in another order state a reordered problem. -/
theorem States.reordered (states : problem.States nodes offers supplies)
    (restates : other.States nodes others more) (offered : offers.Perm others)
    (supplied : supplies.Perm more) : problem.Reordered other where
  sound := states.sound
  otherSound := restates.sound
  lanes := by
    rw [states.lanes, restates.lanes]
    exact offered.map Offer.lane
  supplies := by
    refine List.ext_getElem? fun node => ?_
    rw [List.getElem?_map, List.getElem?_map, Array.getElem?_toList, Array.getElem?_toList,
      states.supply, restates.supply, supplyAt_perm supplied]

/-- The problem that offers and supplies state, written down. -/
def stated (nodes : Nat) (offers : List Offer) (supplies : List (Nat × Int)) : Problem :=
  ⟨Array.ofFn fun node : Fin nodes => ⟨supplyAt supplies node, supplyAt supplies node⟩,
    (offers.map Offer.lane).toArray⟩

private theorem states_stated (supplies : List (Nat × Int))
    (legal : ∀ offer ∈ offers, offer.tail < nodes ∧ offer.head < nodes ∧ 0 ≤ offer.capacity) :
    (stated nodes offers supplies).States nodes offers supplies := by
  have laid : ∀ (k : Nat) lane, (stated nodes offers supplies).lanes[k]? = some lane →
      ∃ offer ∈ offers, lane = offer.lane := by
    intro k lane held
    rw [stated, List.getElem?_toArray, List.getElem?_map] at held
    obtain ⟨offer, found, rfl⟩ := Option.map_eq_some_iff.mp held
    exact ⟨offer, List.mem_of_getElem? found, rfl⟩
  have sites : (stated nodes offers supplies).sites.size = nodes := Array.size_ofFn
  refine ⟨⟨fun k lane held => ?_, fun k lane held => ?_, fun node site held => ?_⟩, rfl,
    fun node => ?_⟩
  · obtain ⟨offer, member, rfl⟩ := laid k lane held
    obtain ⟨tail, head, -⟩ := legal offer member
    rw [sites]
    exact ⟨tail, head⟩
  · obtain ⟨offer, member, rfl⟩ := laid k lane held
    obtain ⟨-, -, nonneg⟩ := legal offer member
    exact ⟨Int.le_refl 0, Int.le_refl 0, nonneg⟩
  · have unbound : (stated nodes offers supplies).outflow
        (stated nodes offers supplies).lowers node = 0 := by
      rw [outflow_lowers]
      refine List.sum_eq_zero fun share member => ?_
      obtain ⟨lane, listed, rfl⟩ := List.mem_map.mp member
      obtain ⟨k, held⟩ := List.mem_iff_getElem?.mp listed
      obtain ⟨offer, -, rfl⟩ := laid k lane (by rwa [← Array.getElem?_toList])
      exact mul_zero _
    rw [stated, Array.getElem?_ofFn] at held
    split_ifs at held
    cases held
    rw [unbound, sub_zero]
  · rw [stated, Array.getElem?_ofFn]
    split_ifs <;> rfl

end Problem

variable {w : Width} {nodes : Nat} {offers others : List Offer}

private theorem Offer.refusal?_eq_none
    (legal : ∀ offer ∈ offers, offer.tail < nodes ∧ offer.head < nodes ∧ 0 ≤ offer.capacity) :
    Offer.refusal? nodes offers = none := by
  refine List.findSome?_eq_none_iff.mpr fun offer member => ?_
  rw [Network.linkRefusal?_eq_none_iff, Network.nodes_ofNodes]
  exact legal offer member

private theorem Problem.refusal?_eq_none {supplies : List (Nat × Int)}
    (legal : ∀ offer ∈ offers, offer.tail < nodes ∧ offer.head < nodes ∧ 0 ≤ offer.capacity)
    (sites : ∀ supply ∈ supplies, supply.1 < nodes) :
    Problem.refusal? nodes offers supplies = none := by
  rw [Problem.refusal?, Offer.refusal?_eq_none legal, Option.none_or]
  refine List.findSome?_eq_none_iff.mpr fun supply member => ?_
  exact if_neg (Nat.not_le.mpr (sites supply member))

/-- Without a limit a settlement is refused for the supplies or for a cycle. -/
theorem Settlement.priced_refused {problem : Problem} {refusal : Refusal}
    (settlement : Settlement) (sound : problem.Sound)
    (settled : (({} : Router).settle w problem).result = .ok settlement)
    (refused : settlement.priced = .error refusal) :
    refusal = .unbalanced ∨ ∃ node, refusal = .negativeCycle node := by
  have answer : settlement.answer = .error refusal := by
    unfold Settlement.priced at refused
    cases answer : settlement.answer with
    | error other =>
      rw [answer] at refused
      cases refused
      rfl
    | ok status =>
      rw [answer] at refused
      cases refused
  obtain ⟨-, unbalanced | cycle | ⟨limit, none, -⟩⟩ :=
    ((Router.settle_ends w sound {}).of_ok settled).refused answer
  · exact .inl unbalanced
  · exact .inr cycle
  · cases none

/-- Runs over the same offers in another order come out alike. -/
theorem Router.routes_agree {net other : Network} {order : Order} {first second : Run}
    (legal : ∀ offer ∈ offers, offer.tail < nodes ∧ offer.head < nodes ∧ 0 ≤ offer.capacity)
    (perm : offers.Perm others)
    (extended : (Network.ofNodes nodes).Extended (offers.map Offer.link) net)
    (reextended : (Network.ofNodes nodes).Extended (others.map Offer.link) other)
    (ran : (({} : Router).route w net order).result = .ok first)
    (again : (({} : Router).route w other order).result = .ok second) :
    Agree first.answer second.answer := by
  have size : other.nodes = net.nodes := reextended.nodes.trans extended.nodes.symm
  by_cases proper : order.Proper net
  · have otherProper : order.Proper other :=
      ⟨size ▸ proper.source, size ▸ proper.sink, proper.apart, proper.wanted⟩
    have states := Problem.states_stated (Problem.ofOrder order) legal
    have restates := Problem.states_stated (Problem.ofOrder order) fun offer member =>
      legal offer (perm.mem_iff.mpr member)
    have reordered := states.reordered restates perm (.refl _)
    have one := route_decides extended.sound proper rfl ran
    have two := route_decides reextended.sound otherProper rfl again
    simp only [(states.mirrors extended).onNegativeCycle_iff,
      (states.mirrors extended).routingCosts_eq proper, reordered.onNegativeCycle_iff,
      reordered.solutionCosts_eq] at one
    simp only [(restates.mirrors reextended).onNegativeCycle_iff,
      (restates.mirrors reextended).routingCosts_eq otherProper] at two
    exact one.agree two
  · have otherwise : ¬ order.Proper other := fun again =>
      proper ⟨size ▸ again.source, size ▸ again.sink, again.apart, again.wanted⟩
    rw [route_improper w _ proper] at ran
    rw [route_improper w _ otherwise, ← orderRefusal?_ofNodes, size, orderRefusal?_ofNodes]
      at again
    cases ran
    cases again
    cases orderRefusal? net order <;> exact .refl _

/-- The order in which offers and supplies are stated does not matter: if all nodes are in
range, no capacity is negative and neither request breaks off, the outcomes are the same, or
both refuse for the same, save that a negative cycle may be blamed at another node. A request
over supplies can only be refused as unbalanced or for a cycle. -/
theorem requests_reordered (perm : offers.Perm others)
    (within : ∀ offer ∈ offers, offer.tail < nodes ∧ offer.head < nodes)
    (nonneg : ∀ offer ∈ offers, 0 ≤ offer.capacity) :
    (∀ supplies more first second, supplies.Perm more →
      (∀ supply ∈ supplies, supply.1 < nodes) →
      (costOfSupplies w nodes offers supplies).result = .ok first →
      (costOfSupplies w nodes others more).result = .ok second →
      Agree first second ∧ ∀ refusal, first = .error refusal →
        refusal = .unbalanced ∨ ∃ node, refusal = .negativeCycle node) ∧
    ∀ order first second,
      (costOfOrder w nodes offers order).result = .ok first →
      (costOfOrder w nodes others order).result = .ok second → Agree first second := by
  have legal : ∀ offer ∈ offers, offer.tail < nodes ∧ offer.head < nodes ∧ 0 ≤ offer.capacity :=
    fun offer member => ⟨(within offer member).1, (within offer member).2, nonneg offer member⟩
  have otherLegal : ∀ offer ∈ others,
      offer.tail < nodes ∧ offer.head < nodes ∧ 0 ≤ offer.capacity :=
    fun offer member => legal offer (perm.mem_iff.mpr member)
  have accepted := Offer.refusal?_eq_none legal
  have otherAccepted := Offer.refusal?_eq_none otherLegal
  refine ⟨fun supplies more first second supplied sites answered again => ?_,
    fun order first second answered again => ?_⟩
  · have welcome := Problem.refusal?_eq_none legal sites
    have otherWelcome := Problem.refusal?_eq_none otherLegal fun supply member =>
      sites supply (supplied.mem_iff.mpr member)
    have one := (costOfSupplies_answers w nodes offers supplies).of_ok answered
    have two := (costOfSupplies_answers w nodes others more).of_ok again
    obtain ⟨refusal, refused, -⟩ | ⟨-, problem, settlement, states, settled, rfl⟩ := one
    · cases welcome.symm.trans refused
    obtain ⟨refusal, refused, -⟩ | ⟨-, other, resettlement, restates, resettled, rfl⟩ := two
    · cases otherWelcome.symm.trans refused
    refine ⟨(states.reordered restates perm supplied).agree settled resettled, ?_⟩
    exact fun refusal refused => settlement.priced_refused states.sound settled refused
  · have one := (costOfOrder_answers w nodes offers order).of_ok answered
    have two := (costOfOrder_answers w nodes others order).of_ok again
    have same : order.refusal? nodes offers = order.refusal? nodes others := by
      rw [Order.refusal?, Order.refusal?, accepted, otherAccepted]
    obtain ⟨refusal, refused, rfl⟩ | ⟨unrefused, net, run, extended, ran, rfl⟩ := one
    · obtain ⟨other, refusedToo, rfl⟩ | ⟨unrefused, -⟩ := two
      · cases refused.symm.trans (same.trans refusedToo)
        exact .refl _
      · cases refused.symm.trans (same.trans unrefused)
    · obtain ⟨other, refused, -⟩ | ⟨-, other, rerun, reextended, reran, rfl⟩ := two
      · cases unrefused.symm.trans (same.trans refused)
      · exact Router.routes_agree legal perm extended reextended ran reran

/-- Two links lead to the middle, one dearer than the other, and one leads on. -/
def twoThirds : List Offer := [⟨0, 1, 2, 1⟩, ⟨0, 1, 2, 3⟩, ⟨1, 2, 3, 1⟩]

theorem requests_reordered_twoThirds :
    (costOfSupplies ⟨5⟩ 3 twoThirds [(0, 1), (2, -3), (0, 2)]).result = .ok (.ok (.optimal 8)) ∧
      (costOfSupplies ⟨5⟩ 3 twoThirds.reverse [(0, 2), (0, 1), (2, -3)]).result =
        .ok (.ok (.optimal 8)) ∧
      Agree (.ok (.optimal 8)) (.ok (.optimal 8)) := by
  have stated : (costOfSupplies ⟨5⟩ 3 twoThirds [(0, 1), (2, -3), (0, 2)]).result =
      .ok (.ok (.optimal 8)) := by with_unfolding_all rfl
  have restated : (costOfSupplies ⟨5⟩ 3 twoThirds.reverse [(0, 2), (0, 1), (2, -3)]).result =
      .ok (.ok (.optimal 8)) := by with_unfolding_all rfl
  exact ⟨stated, restated, ((requests_reordered (List.reverse_perm _).symm (by decide)
    (by decide)).1 _ _ _ _ (by decide) (by decide) stated restated).1⟩

end Transshipment
