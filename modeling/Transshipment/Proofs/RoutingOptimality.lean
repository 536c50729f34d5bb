import Mathlib.Order.Bounds.Defs
import Transshipment.Proofs.RoutingCertificates

/-! What a run achieves. The potentials at its end show that no flow with the
same outflows is cheaper, whatever ended it. If the sink is out of reach then, the
nodes in reach form a saturated cut, so no flow delivers more. -/
namespace Transshipment

namespace Network

variable {net : Network} {source sink : Nat} {amount : Int} {flow : Assignment}

/-- Among all flows that bring the amount on top of the present flow this one
costs least. -/
def Cheapest (net : Network) (flow : Assignment) (source sink : Nat) (amount : Int) : Prop :=
  net.Admits flow ∧ net.Brings net.carried flow source sink amount ∧
    ∀ other, net.Admits other → net.Brings net.carried other source sink amount →
      net.price flow ≤ net.price other

/-- Where no cycle pays, nothing is gained by rearranging the flow. -/
theorem Sound.cheapest_carried (sound : net.Sound) (acyclic : ∀ node, ¬ net.OnNegativeCycle node)
    (source sink : Nat) : net.Cheapest net.carried source sink 0 := by
  obtain ⟨price, prices⟩ := exists_prices sound acyclic
  refine ⟨sound.admits_carried, fun node => by simp, fun other admits brings => ?_⟩
  refine sound.price_carried_le prices admits fun node => ?_
  simpa using brings node

/-- What a link adds to an outflow is at most its capacity. -/
theorem Admits.outflow_le (admits : net.Admits flow) (node : Nat) :
    net.outflow flow node ≤
      weighed (fun link : Link => link.free + link.used) (fun _ => 1) net.links.toList 0 := by
  rw [outflow_eq_weighed]
  refine weighed_le fun k link held => ?_
  rw [Array.getElem?_toList] at held
  obtain ⟨nonneg, below⟩ := admits k link held
  rw [Nat.zero_add, mul_one]
  unfold turn
  split_ifs <;> omega

/-- To send nothing, everything may stay as it is. -/
theorem Sound.sendable_zero (sound : net.Sound) (source sink : Nat) :
    net.Sendable source sink 0 :=
  ⟨net.carried, sound.admits_carried, fun _ => by simp⟩

/-- Two different nodes can exchange only so much. -/
theorem Sound.exists_greatest_sendable (sound : net.Sound) (apart : source ≠ sink) :
    ∃ most, IsGreatest {amount | net.Sendable source sink amount} most := by
  have bounded : ∀ amount, net.Sendable source sink amount → amount ≤
      weighed (fun link : Link => link.free + link.used) (fun _ => 1) net.links.toList 0 -
        net.outflow net.carried source := by
    rintro amount ⟨flow, admits, brings⟩
    have sent := brings source
    have most := admits.outflow_le source
    rw [if_pos rfl, if_neg apart] at sent
    omega
  obtain ⟨most, sendable, greatest⟩ :=
    Int.exists_greatest_of_bdd ⟨_, bounded⟩ ⟨0, sound.sendable_zero source sink⟩
  exact ⟨most, sendable, greatest⟩

/-- A link with room for three units at a cost of two each that carries one. -/
def loadedLink : Network := ⟨#[⟨0, 1, 2, 2, 1⟩], #[#[0], #[1]]⟩

/-- The same link without room. -/
def fullLink : Network := ⟨#[⟨0, 1, 2, 0, 3⟩], #[#[0], #[1]]⟩

theorem loadedLink_made : Made ⟨7⟩ loadedLink ([] ++ [⟨0, 1, 3, 2⟩]) := by
  have inserted : (Network.ofNodes 2).insertLink ⟨7⟩ 0 1 3 2 =
      .ok (.ok (0, ⟨#[⟨0, 1, 2, 3, 0⟩], #[#[0], #[1]]⟩)) := by decide
  have pushed : Network.push ⟨7⟩ ⟨#[⟨0, 1, 2, 3, 0⟩], #[#[0], #[1]]⟩ 0 1 = .ok loadedLink := by
    decide
  exact .push (.insertLink (.ofNodes 2) (by decide) (by decide) inserted) pushed

end Network

namespace Progress

variable {order : Order} {origin : Network} {p q : Progress}

theorem Valid.admits (valid : p.Valid order origin) : origin.Admits p.net.carried :=
  Network.admits_of_unloaded valid.same valid.sound.admits_carried

/-- Between any two rounds the flow is the cheapest for what was delivered. -/
theorem Valid.cheapest (valid : p.Valid order origin) :
    origin.Cheapest p.net.carried order.source order.sink p.delivered := by
  refine ⟨valid.admits, valid.brought, fun other admits brings => ?_⟩
  rw [← Network.price_of_unloaded valid.same, ← Network.price_of_unloaded valid.same]
  refine valid.sound.price_carried_le valid.priced.prices
    (Network.admits_of_unloaded valid.same.symm admits) fun node => ?_
  rw [Network.outflow_of_unloaded valid.same, Network.outflow_of_unloaded valid.same, brings,
    valid.brought]

private theorem Valid.sendable (valid : p.Valid order origin) :
    origin.Sendable order.source order.sink p.delivered :=
  ⟨p.net.carried, valid.admits, valid.brought⟩

/-- Where the sink is out of reach, what was delivered is the most there is. -/
theorem Valid.isGreatest (valid : p.Valid order origin) (within : order.source < origin.nodes)
    (cut : ¬ p.net.Connects order.source order.sink) :
    IsGreatest {amount | origin.Sendable order.source order.sink amount} p.delivered := by
  refine ⟨valid.sendable, ?_⟩
  rintro amount ⟨flow, admits, brings⟩
  have more : p.net.Brings p.net.carried flow order.source order.sink (amount - p.delivered) :=
    Network.brings_of_unloaded valid.same.symm (brings.rest valid.brought)
  have none := valid.sound.brings_nonpos (by rw [valid.nodes_eq]; exact within) cut
    (Network.admits_of_unloaded valid.same.symm admits) more
  omega

/-- Nothing is left to send, or the sink is out of reach. -/
def Exhausted (order : Order) (p : Progress) : Prop :=
  p.remaining = 0 ∨ ¬ p.net.Connects order.source order.sink

/-- No books of an order show more delivered than the books of one that was carried as
far as possible. -/
theorem Valid.delivered_le (valid : p.Valid order origin) (exhausted : p.Exhausted order)
    (within : order.source < origin.nodes) (other : q.Valid order origin) :
    q.delivered ≤ p.delivered := by
  rcases exhausted with met | cut
  · have counted := valid.counted
    have otherCounted := other.counted
    have owed := other.owed
    omega
  · exact (valid.isGreatest within cut).2 other.sendable

variable {limit? : Option Nat} {ending : Ending}

/-- Only the limit keeps rounds from carrying an order as far as possible. -/
theorem Ending.Valid.exhausted (valid : ending.Valid order origin none) :
    ending.last.Exhausted order := by
  have answered := valid.2
  split at answered
  · exact .inl answered.1
  · exact .inr answered.2
  · obtain ⟨-, limit, limited, -⟩ := answered
    cases limited

/-- The answer is optimal exactly if nothing is left to send. -/
theorem Ending.Valid.optimal_iff (valid : ending.Valid order origin limit?) (cost : Int) :
    ending.answer = .ok (.optimal cost) ↔ ending.last.remaining = 0 ∧ cost = ending.last.cost := by
  have answered := valid.2
  split at answered
  · rename_i total optimal
    rw [optimal, Except.ok.injEq, Outcome.optimal.injEq, answered.2]
    exact ⟨fun same => ⟨answered.1, same.symm⟩, fun same => same.2.symm⟩
  · rename_i infeasible
    rw [infeasible]
    exact iff_of_false (by simp) fun met => by omega
  · rename_i refusal refused
    rw [refused]
    exact iff_of_false (by simp) fun met => by omega

/-- Without a limit the answer says whether the whole demand can be sent. -/
theorem Ending.Valid.answers (valid : ending.Valid order origin none)
    (within : order.source < origin.nodes) :
    ∃ outcome, ending.answer = .ok outcome ∧
      (outcome.feasible = true ↔ origin.Sendable order.source order.sink order.demand) := by
  have counted := valid.1.counted
  have answered := valid.2
  split at answered
  · rename_i cost optimal
    refine ⟨_, optimal, iff_of_true rfl ?_⟩
    rw [show order.demand = ending.last.delivered by omega]
    exact valid.1.sendable
  · rename_i infeasible
    refine ⟨_, infeasible, iff_of_false (by simp [Outcome.feasible, Outcome.cost?]) ?_⟩
    intro sendable
    have most := (valid.1.isGreatest within answered.2).2 sendable
    omega
  · obtain ⟨-, limit, limited, -⟩ := answered
    cases limited

end Progress

namespace Router

variable {w : Width} {net : Network} {offers : List Offer} {router : Router} {order : Order}
  {run : Run}

/-- A run that was neither refused nor broken off leaves the cheapest flow for what
it delivered. -/
theorem Routed.cheapest (routed : router.Routed net order run)
    (ended : (∃ outcome, run.answer = .ok outcome) ∨
      ∃ limit, run.answer = .error (.limitReached limit)) :
    net.Cheapest run.net.carried order.source order.sink run.router.delivered := by
  obtain ⟨node, rfl, -⟩ | ⟨ending, rfl, valid, -⟩ := routed
  · rcases ended with ⟨outcome, ended⟩ | ⟨limit, ended⟩ <;> cases ended
  · exact valid.cheapest

/-- An optimal answer states what the whole demand costs. -/
theorem Routed.optimal {cost : Int} (routed : router.Routed net order run)
    (optimal : run.answer = .ok (.optimal cost)) :
    run.router.delivered = order.demand ∧
      cost = net.price (fun k => run.net.carried k - net.carried k) := by
  obtain ⟨node, rfl, -⟩ | ⟨ending, rfl, valid, answered⟩ := routed
  · cases optimal
  · change ending.answer = .ok (.optimal cost) at optimal
    rw [optimal] at answered
    obtain ⟨met, rfl⟩ := answered
    have counted := valid.counted
    change ending.last.delivered = order.demand ∧
      ending.last.cost = net.price fun k => ending.last.net.carried k - net.carried k
    rw [Network.price_sub, ← valid.paid]
    exact ⟨by omega, rfl⟩

/-- Without a negative cycle and without a limit, a run between two different nodes
answers whether the demand can be sent. -/
theorem route_answers (sound : net.Sound) (source : order.source < net.nodes)
    (sink : order.sink < net.nodes) (apart : order.source ≠ order.sink) (nonneg : 0 ≤ order.demand)
    (acyclic : ∀ node, ¬ net.OnNegativeCycle node) (unlimited : router.limit? = none)
    (ran : (router.route w net order).result = .ok run) :
    ∃ outcome, run.answer = .ok outcome ∧
      (outcome.feasible = true ↔ net.Sendable order.source order.sink order.demand) := by
  rcases Int.lt_or_eq_of_le nonneg with wanted | nothing
  · obtain ⟨ending, rfl, valid⟩ := ending_of_route sound ⟨source, sink, apart, wanted⟩ acyclic ran
    rw [unlimited] at valid
    exact valid.answers source
  · rw [route_nothing w router source sink nonneg (.inl nothing.symm)] at ran
    cases ran
    rw [← nothing]
    exact ⟨_, rfl, iff_of_true rfl (sound.sendable_zero _ _)⟩

/-- However a run ends that was neither refused nor broken off, it leaves the
cheapest flow for what it delivered, and an optimal answer states what the whole
demand costs. -/
theorem route_cheapest (made : Network.Made w net offers) (proper : order.Proper net)
    (ran : (router.route w net order).result = .ok run)
    (ended : (∃ outcome, run.answer = .ok outcome) ∨
      ∃ limit, run.answer = .error (.limitReached limit)) :
    net.Cheapest run.net.carried order.source order.sink run.router.delivered ∧
      ∀ cost, run.answer = .ok (.optimal cost) → run.router.delivered = order.demand ∧
        cost = net.price (fun k => run.net.carried k - net.carried k) := by
  have routed := (route_proper_ends w made.sound router proper).of_ok ran
  exact ⟨routed.cheapest ended, fun cost optimal => routed.optimal optimal⟩

theorem route_cheapest_loadedLink :
    Network.loadedLink.Cheapest Network.fullLink.carried 0 1 2 ∧
      4 = Network.loadedLink.price
        (fun k => Network.fullLink.carried k - Network.loadedLink.carried k) := by
  have ran : (({} : Router).route ⟨7⟩ Network.loadedLink ⟨0, 1, 2⟩).result =
      .ok ⟨⟨none, 2, 1, #[-2, 0]⟩, Network.fullLink, .ok (.optimal 4)⟩ := by
    with_unfolding_all rfl
  have routed := route_cheapest Network.loadedLink_made
    ⟨by decide, by decide, by decide, by decide⟩ ran (.inl ⟨.optimal 4, rfl⟩)
  exact ⟨routed.1, (routed.2 4 rfl).2⟩

/-- Without a negative cycle and without a limit, a run finds out exactly what the
network can carry: it meets the demand if it can be met, and otherwise delivers
the most there is. -/
theorem route_decides_feasibility (made : Network.Made w net offers) (proper : order.Proper net)
    (acyclic : ∀ node, ¬ net.OnNegativeCycle node) (unlimited : router.limit? = none)
    (ran : (router.route w net order).result = .ok run) :
    ∃ most, IsGreatest {amount | net.Sendable order.source order.sink amount} most ∧
      (run.answer = .ok .infeasible ↔ most < order.demand) ∧
      (most < order.demand → run.router.delivered = most) ∧
      (order.demand ≤ most →
        (∃ cost, run.answer = .ok (.optimal cost)) ∧ run.router.delivered = order.demand) := by
  obtain ⟨node, rfl, cycle⟩ | ⟨ending, rfl, valid, answered⟩ :=
    (route_proper_ends w made.sound router proper).of_ok ran
  · exact absurd cycle (acyclic node)
  · have counted := valid.counted
    change ∃ most, _ ∧ (ending.answer = _ ↔ _) ∧ (_ → ending.last.delivered = most) ∧
      (_ → (∃ cost, ending.answer = _) ∧ ending.last.delivered = _)
    cases answer : ending.answer with
    | error refusal =>
      rw [answer] at answered
      obtain ⟨-, limit, limited, -⟩ := answered
      rw [unlimited] at limited
      cases limited
    | ok outcome =>
      cases outcome with
      | optimal cost =>
        rw [answer] at answered
        obtain ⟨most, greatest⟩ := made.sound.exists_greatest_sendable proper.apart
        have enough := greatest.2 valid.sendable
        refine ⟨most, greatest, ?_, fun short => ?_, fun _ => ⟨⟨cost, rfl⟩, ?_⟩⟩
        · simp only [Except.ok.injEq, reduceCtorEq, false_iff]
          omega
        · omega
        · omega
      | infeasible =>
        rw [answer] at answered
        obtain ⟨owing, cut⟩ := answered
        refine ⟨ending.last.delivered, valid.isGreatest proper.source cut, ?_, fun _ => rfl, ?_⟩
        · simp only [true_iff]
          omega
        · intro enough
          omega

theorem route_decides_feasibility_loadedLink :
    IsGreatest {amount | Network.loadedLink.Sendable 0 1 amount} 2 := by
  have computed : (Network.loadedLink.startPotentials ⟨7⟩).result = .ok (.ok #[-2, 0]) := by
    with_unfolding_all rfl
  have started := (Network.startPotentials_ends ⟨7⟩ Network.loadedLink_made.sound).of_ok computed
  have ran : (({} : Router).route ⟨7⟩ Network.loadedLink ⟨0, 1, 5⟩).result =
      .ok ⟨⟨none, 2, 1, #[-2, 0]⟩, Network.fullLink, .ok .infeasible⟩ := by
    with_unfolding_all rfl
  have unlimited : ({} : Router).limit? = none := rfl
  obtain ⟨most, greatest, infeasible, delivers, -⟩ := route_decides_feasibility
    Network.loadedLink_made ⟨by decide, by decide, by decide, by decide⟩
    started.1.prices.no_negative_cycle unlimited ran
  obtain rfl := delivers (infeasible.mp rfl)
  exact greatest

end Router

end Transshipment
