import Transshipment.Proofs.RoutingOptimality

/-! Runs in parts. A run may stop early, at its limit or because it was asked for a part
of a demand only, and another may go on from there. The searches of the second run need
not be those that the first would have made, but the books of both together are books of
the whole order, and all ways to carry an order as far as possible agree in what they
deliver and in what it costs. -/
namespace Transshipment

namespace Progress

variable {order : Order} {origin : Network} {p q : Progress}

/-- Books of an order that show the same delivered show it at the same cost. -/
theorem Valid.price_le (valid : p.Valid order origin) (other : q.Valid order origin)
    (same : p.delivered = q.delivered) :
    origin.price p.net.carried ≤ origin.price q.net.carried :=
  valid.cheapest.2.2 _ other.admits (same ▸ other.brought)

/-- Two ways to carry an order as far as possible agree. -/
theorem Valid.agree (valid : p.Valid order origin) (exhausted : p.Exhausted order)
    (other : q.Valid order origin) (otherExhausted : q.Exhausted order)
    (within : order.source < origin.nodes) :
    p.delivered = q.delivered ∧ p.remaining = q.remaining ∧ p.cost = q.cost ∧
      p.net.price p.net.carried = q.net.price q.net.carried := by
  have delivered : p.delivered = q.delivered :=
    Int.le_antisymm (other.delivered_le otherExhausted within valid)
      (valid.delivered_le exhausted within other)
  have price : origin.price p.net.carried = origin.price q.net.carried :=
    Int.le_antisymm (valid.price_le other delivered) (other.price_le valid delivered.symm)
  refine ⟨delivered, ?_, ?_, ?_⟩
  · have counted := valid.counted
    have otherCounted := other.counted
    omega
  · rw [valid.paid, other.paid, price]
  · rw [Network.price_of_unloaded valid.same, Network.price_of_unloaded other.same, price]

/-- The books of two runs, the second of which went on where the first had stopped. -/
def joined (first rest : Progress) : Progress :=
  { rest with
    cost := first.cost + rest.cost
    delivered := first.delivered + rest.delivered
    shipments := first.shipments + rest.shipments }

/-- Together the books of a part and of the rest are books of the whole order. -/
theorem Valid.joined {first rest : Progress} {part : Int}
    (before : first.Valid { order with demand := part } origin)
    (after : rest.Valid { order with demand := order.demand - first.delivered } first.net) :
    (first.joined rest).Valid order origin where
  sound := after.sound
  same := after.same.trans before.same
  priced := after.priced
  brought := before.brought.trans (Network.brings_of_unloaded before.same after.brought)
  paid := by
    have early := before.paid
    have late := after.paid
    rw [Network.price_of_unloaded before.same, Network.price_of_unloaded before.same] at late
    dsimp only [Progress.joined]
    omega
  counted := by
    have late := after.counted
    dsimp only [Progress.joined] at late ⊢
    omega
  paced := by
    have early := before.paced
    have late := after.paced
    dsimp only [Progress.joined]
    omega
  owed := after.owed

end Progress

namespace Router

variable {w : Width} {net : Network} {offers : List Offer} {order : Order}
  {first rest whole : Run} {starting resuming single : Router} {part : Int}

/-- A run that stopped early, at its limit or because only a part was asked for, and an
unlimited run that goes on from the network that it left come to the same as one run for
the whole demand. -/
theorem route_resumed (made : Network.Made w net offers) (proper : order.Proper net)
    (asked : 0 < part)
    (ranFirst : (starting.route w net { order with demand := part }).result = .ok first)
    (stopped : (∃ cost, first.answer = .ok (.optimal cost)) ∨
      ∃ limit, first.answer = .error (.limitReached limit))
    (early : first.router.delivered < order.demand) (unlimited : resuming.limit? = none)
    (ranRest : (resuming.route w first.net
      { order with demand := order.demand - first.router.delivered }).result = .ok rest)
    (unlimitedToo : single.limit? = none)
    (ranWhole : (single.route w net order).result = .ok whole) :
    (∀ node, rest.answer ≠ .error (.negativeCycle node)) ∧
      ((∃ cost, rest.answer = .ok (.optimal cost)) ↔ ∃ cost, whole.answer = .ok (.optimal cost)) ∧
      first.router.delivered + rest.router.delivered = whole.router.delivered ∧
      rest.net.price rest.net.carried = whole.net.price whole.net.carried ∧
      ∀ firstCost restCost cost, first.answer = .ok (.optimal firstCost) →
        rest.answer = .ok (.optimal restCost) → whole.answer = .ok (.optimal cost) →
        cost = firstCost + restCost := by
  obtain ⟨node, -, -, rfl⟩ | ⟨potentials, begun, -, priced, rfl, before⟩ :=
    (route_completes w made.sound starting (proper.withDemand asked)).of_ok ranFirst
  · rcases stopped with ⟨cost, stopped⟩ | ⟨limit, stopped⟩ <;> cases stopped
  change begun.last.delivered < order.demand at early
  change (resuming.route w begun.last.net
    { order with demand := order.demand - begun.last.delivered }).result = .ok rest at ranRest
  have left : Order.Proper { order with demand := order.demand - begun.last.delivered }
      begun.last.net :=
    (proper.withDemand (by omega)).of_nodes before.1.nodes_eq
  have blameless := before.1.priced.prices.no_negative_cycle
  obtain ⟨resumed, rfl, after⟩ := ending_of_route before.1.sound left blameless ranRest
  obtain ⟨straight, rfl, concluded⟩ := ending_of_route made.sound proper
    priced.prices.no_negative_cycle ranWhole
  rw [unlimited] at after
  rw [unlimitedToo] at concluded
  have joined := before.1.joined after.1
  obtain ⟨delivered, remaining, cost, price⟩ := joined.agree
    after.exhausted concluded.1 concluded.exhausted proper.source
  change begun.last.delivered + resumed.last.delivered = straight.last.delivered at delivered
  change resumed.last.remaining = straight.last.remaining at remaining
  change begun.last.cost + resumed.last.cost = straight.last.cost at cost
  refine ⟨after.blameless, ?_, delivered, price, ?_⟩
  · change (∃ cost, resumed.answer = _) ↔ ∃ cost, straight.answer = _
    simp only [after.optimal_iff, concluded.optimal_iff, remaining, exists_and_left, exists_eq]
  · intro firstCost restCost total optimalFirst optimalRest optimalWhole
    have firstPaid := ((before.optimal_iff firstCost).mp optimalFirst).2
    have restPaid := ((after.optimal_iff restCost).mp optimalRest).2
    have paid := ((concluded.optimal_iff total).mp optimalWhole).2
    omega

theorem route_resumed_sideBySide : ∃ first rest whole : Run,
    (({} : Router).route ⟨7⟩ (Network.sideBySide 0 0) ⟨0, 1, 1⟩).result = .ok first ∧
      (({} : Router).route ⟨7⟩ first.net ⟨0, 1, 1⟩).result = .ok rest ∧
      (({} : Router).route ⟨7⟩ (Network.sideBySide 0 0) ⟨0, 1, 2⟩).result = .ok whole ∧
      first.answer = .ok (.optimal (-1)) ∧ rest.answer = .ok (.optimal 3) ∧
      whole.answer = .ok (.optimal (-1 + 3)) := by
  have proper : Order.Proper ⟨0, 1, 2⟩ (Network.sideBySide 0 0) := by decide
  have first : (({} : Router).route ⟨7⟩ (Network.sideBySide 0 0) ⟨0, 1, 1⟩).result =
      .ok ⟨⟨none, 1, 1, #[0, -1, 0]⟩, Network.sideBySide 1 0, .ok (.optimal (-1))⟩ := by
    with_unfolding_all rfl
  have rest : (({} : Router).route ⟨7⟩ (Network.sideBySide 1 0) ⟨0, 1, 1⟩).result =
      .ok ⟨⟨none, 1, 1, #[0, 3, 3]⟩, Network.sideBySide 1 1, .ok (.optimal 3)⟩ := by
    with_unfolding_all rfl
  have whole : (({} : Router).route ⟨7⟩ (Network.sideBySide 0 0) ⟨0, 1, 2⟩).result =
      .ok ⟨⟨none, 2, 2, #[0, 3, 4]⟩, Network.sideBySide 1 1, .ok (.optimal 2)⟩ := by
    with_unfolding_all rfl
  obtain ⟨-, -, -, -, costs⟩ := route_resumed Network.sideBySide_made proper
    Int.zero_lt_one first (.inl ⟨-1, rfl⟩) (by decide) rfl rest rfl whole
  have total : 2 = -1 + 3 := costs (-1) 3 2 rfl rfl rfl
  exact ⟨_, _, _, first, rest, whole, rfl, rfl, by rw [← total]⟩

end Router

end Transshipment
