import Transshipment.Proofs.PotentialDistances
import Transshipment.Proofs.RoutingLimits
import Transshipment.Proofs.RoutingOptimality

/-! What a unit costs from round to round. Each unit of a shipment pays the fare, which is the
difference of the raised potentials between the ends of the order, and no search lowers the
fare. At the end of a run the fare is at most what a further unit costs and at least what the
last one did, so the least cost of a demand is convex in the demand. -/
namespace Transshipment

/-- What the potentials charge for one unit of an order. -/
def Order.fare (order : Order) (potentials : Potentials) : Int :=
  potentials.getD order.sink 0 - potentials.getD order.source 0

namespace Network

variable {net : Network} {potentials : Potentials} {order : Order} {survey : Survey}

/-- A search raises the sink, and leaves the source where it is. -/
theorem Surveyed.fare_le (surveyed : net.Surveyed potentials order.source order.sink survey)
    (counted : potentials.size = net.nodes) (source : order.source < net.nodes)
    (sink : order.sink < net.nodes) : order.fare potentials ≤ order.fare survey.potentials := by
  have still := surveyed.source_eq (counted ▸ source)
  have raised := surveyed.le (counted ▸ sink)
  unfold Order.fare
  omega

end Network

namespace Progress

variable {w : Width} {order : Order} {limit? : Option Nat} {origin : Network}
  {p q last next : Progress} {first second survey : Survey} {flow : Assignment} {amount : Int}

/-- Of two searches of the same rounds, those with fewer shipments lead on to the other. -/
theorem Searches.onward (searches : p.Searches w order limit? last)
    (further : p.Searches w order limit? q) (fewer : last.shipments ≤ q.shipments) :
    last.Searches w order limit? q := by
  induction searches with
  | here continues => exact further
  | later continues shipped searches ih =>
    cases further with
    | here =>
      have counted := advance_shipments shipped
      have below := searches.shipments_le
      omega
    | later _ again further =>
      cases shipped.symm.trans again
      exact ih further fewer

/-- A shipment goes along a simple way that the search found, and that costs the fare. -/
theorem Valid.trail_of_dispatch {shipment : Shipment} {after : Network}
    (valid : p.Valid order origin) (proper : order.Proper origin) (owing : 0 < p.remaining)
    (dispatched : p.net.dispatch w p.potentials order.source order.sink p.remaining =
      .ok ⟨survey, some (shipment, after)⟩) :
    ∃ path, p.net.Surveyed p.potentials order.source order.sink survey ∧
      p.net.SimpleWalk order.source path order.sink (order.fare survey.potentials) ∧
      p.net.ship w path p.remaining = .ok (shipment, after) := by
  obtain ⟨path, led, sent⟩ := Network.ship_of_dispatch dispatched
  obtain ⟨surveyed, -, -, -, -, cost, -, taken, -⟩ :=
    (valid.dispatch_ends proper owing w).of_ok dispatched
  obtain ⟨trail, again, simple, -⟩ := surveyed.trail valid.sound valid.priced.1 ⟨_, _, taken.1⟩
  cases led.symm.trans again
  exact ⟨path, surveyed, simple, sent⟩

/-- So each unit of it pays the fare. -/
theorem Valid.shipment_cost {shipment : Shipment} {after : Network} (valid : p.Valid order origin)
    (proper : order.Proper origin) (owing : 0 < p.remaining)
    (dispatched : p.net.dispatch w p.potentials order.source order.sink p.remaining =
      .ok ⟨survey, some (shipment, after)⟩) :
    shipment.cost = shipment.amount * order.fare survey.potentials := by
  have within := valid.proper proper
  obtain ⟨path, -, simple, sent⟩ := valid.trail_of_dispatch proper owing dispatched
  obtain ⟨-, -, -, paid, -, -⟩ := ((valid.secure w).round.ship_ends valid.sound within.sink
    within.apart owing simple).of_ok sent
  exact paid

/-- A round hands on potentials with the fare of its search. -/
theorem Advances.fare_eq {shipment : Shipment} {cost : Int} (valid : p.Valid order origin)
    (proper : order.Proper origin) (advances : p.Advances order survey shipment cost next)
    (searched : p.net.survey w p.potentials order.source order.sink = .ok first) :
    order.fare next.potentials = order.fare first.potentials := by
  have connected : p.net.Connects order.source order.sink := ⟨_, _, advances.simple.1⟩
  have handedOn := advances.surveyed.isLeast valid.sound valid.priced.1 connected
  have surveyed := (valid.survey_ends proper w).of_ok searched
  have found := surveyed.isLeast valid.sound valid.priced.1 connected
  rw [advances.potentials]
  exact handedOn.unique found

/-- No round lowers the fare. -/
theorem Searches.fare_le (searches : p.Searches w order limit? last) (valid : p.Valid order origin)
    (proper : order.Proper origin) : order.fare p.potentials ≤ order.fare last.potentials := by
  induction searches with
  | here continues => exact Int.le_refl _
  | @later p next last continues shipped searches ih =>
    have within := valid.proper proper
    have follows := (advance_follows proper valid continues.1 (valid.secure w)).of_ok shipped
    have onward := ih (follows.valid valid continues.1)
    obtain ⟨survey, shipment, cost, advances⟩ := follows
    have step := advances.surveyed.fare_le valid.priced.1 within.source within.sink
    rw [← advances.potentials] at step
    exact step.trans onward

/-- A later search finds no lower fare. -/
theorem Searches.fares_le (searches : p.Searches w order limit? last)
    (valid : p.Valid order origin) (proper : order.Proper origin)
    (searched : p.net.survey w p.potentials order.source order.sink = .ok first)
    (searchedLast : last.net.survey w last.potentials order.source order.sink = .ok second) :
    order.fare first.potentials ≤ order.fare second.potentials := by
  have validLast := valid.searches proper searches
  have within := validLast.proper proper
  have surveyed := (validLast.survey_ends proper w).of_ok searchedLast
  have final := surveyed.fare_le validLast.priced.1 within.source within.sink
  cases searches with
  | here continues =>
    cases searched.symm.trans searchedLast
    exact Int.le_refl _
  | @later p next last continues shipped searches =>
    have follows := (advance_follows proper valid continues.1 (valid.secure w)).of_ok shipped
    have onward := searches.fare_le (follows.valid valid continues.1) proper
    obtain ⟨survey, shipment, cost, advances⟩ := follows
    rw [← advances.fare_eq valid proper searched]
    exact onward.trans final

/-- Any other flow pays at least the fare for what it brings more, and saves at most the fare
for what it brings less. -/
theorem Valid.cost_add_le (valid : p.Valid order origin) (proper : order.Proper origin)
    (admits : origin.Admits flow)
    (brings : origin.Brings origin.carried flow order.source order.sink amount) :
    p.cost + (amount - p.delivered) * order.fare p.potentials ≤
      origin.price flow - origin.price origin.carried := by
  have within := valid.proper proper
  have more : p.net.Brings p.net.carried flow order.source order.sink (amount - p.delivered) :=
    Network.brings_of_unloaded valid.same.symm (brings.rest valid.brought)
  have bound := valid.sound.price_brought_ge valid.priced.prices within.source within.sink
    (Network.admits_of_unloaded valid.same.symm admits) more
  rw [Network.price_of_unloaded valid.same, Network.price_of_unloaded valid.same] at bound
  rw [valid.paid]
  unfold Order.fare
  omega

end Progress

namespace Router

variable {w : Width} {net : Network} {offers : List Offer} {router : Router} {order : Order}
  {run fewer same more : Run} {cost saved spent : Int}

/-- An optimal answer states what some flow costs that brings the demand. -/
theorem Concluded.exists_flow (concluded : router.Concluded net order run) (sound : net.Sound)
    (apart : order.source ≠ order.sink) (optimal : run.answer = .ok (.optimal cost)) :
    ∃ flow, net.Admits flow ∧
      net.Brings net.carried flow order.source order.sink order.demand ∧
      net.price flow - net.price net.carried = cost := by
  obtain ⟨refusal, -, rfl⟩ | ⟨-, ⟨rfl, nothing⟩ | ⟨proper, routed⟩⟩ := concluded
  · cases optimal
  · cases optimal
    obtain zero := nothing.resolve_right apart
    exact ⟨net.carried, sound.admits_carried, fun _ => by simp [zero], by omega⟩
  · obtain ⟨admits, brings, -⟩ := routed.cheapest (.inl ⟨_, optimal⟩)
    obtain ⟨delivered, paid⟩ := routed.optimal optimal
    rw [Network.price_sub] at paid
    exact ⟨_, admits, delivered ▸ brings, paid.symm⟩

/-- Nothing is paid for an order to its own source. -/
theorem Concluded.optimal_of_same (concluded : router.Concluded net order run)
    (same : order.source = order.sink) (optimal : run.answer = .ok (.optimal cost)) :
    cost = 0 := by
  obtain ⟨refusal, -, rfl⟩ | ⟨-, ⟨rfl, -⟩ | ⟨proper, -⟩⟩ := concluded
  · cases optimal
  · cases optimal
    rfl
  · exact absurd same proper.apart

/-- One unit more costs at least what one unit less saves: both are measured by the fare at the
end of the run between them. -/
theorem Concluded.convex {less exact further : Router} (sound : net.Sound)
    (wanted : 1 ≤ order.demand)
    (concludedFewer : less.Concluded net { order with demand := order.demand - 1 } fewer)
    (concluded : exact.Concluded net order same)
    (concludedMore : further.Concluded net { order with demand := order.demand + 1 } more)
    (optimalFewer : fewer.answer = .ok (.optimal saved))
    (optimal : same.answer = .ok (.optimal cost))
    (optimalMore : more.answer = .ok (.optimal spent)) : cost - saved ≤ spent - cost := by
  by_cases apart : order.source = order.sink
  · obtain rfl := concludedFewer.optimal_of_same apart optimalFewer
    obtain rfl := concluded.optimal_of_same apart optimal
    obtain rfl := concludedMore.optimal_of_same apart optimalMore
    omega
  · obtain ⟨low, lowAdmits, lowBrings, lowPrice⟩ :=
      concludedFewer.exists_flow sound apart optimalFewer
    obtain ⟨high, highAdmits, highBrings, highPrice⟩ :=
      concludedMore.exists_flow sound apart optimalMore
    obtain ⟨refusal, -, rfl⟩ | ⟨-, ⟨-, nothing⟩ |
      ⟨proper, ⟨node, rfl, -⟩ | ⟨ending, rfl, valid⟩⟩⟩ := concluded
    · cases optimal
    · omega
    · cases optimal
    · obtain ⟨met, rfl⟩ := (valid.optimal_iff cost).mp optimal
      have counted := valid.1.counted
      have below := valid.1.cost_add_le proper lowAdmits lowBrings
      have above := valid.1.cost_add_le proper highAdmits highBrings
      have oneLess : order.demand - 1 - ending.last.delivered = -1 := by omega
      have oneMore : order.demand + 1 - ending.last.delivered = 1 := by omega
      rw [oneLess] at below
      rw [oneMore] at above
      omega

/-- A shipment pays the fare of its search for each unit, and the fares never fall from search
to search. So the least cost of a demand is convex: the next unit costs no less than the last
one did. -/
theorem route_fares_rise (made : Network.Made w net offers) :
    (∀ (router : Router) (order : Order), order.Proper net →
      (∀ p survey shipment after, router.SearchesFrom w net order p →
        p.net.dispatch w p.potentials order.source order.sink p.remaining =
          .ok ⟨survey, some (shipment, after)⟩ →
        shipment.cost = shipment.amount * order.fare survey.potentials) ∧
      ∀ p q first second, router.SearchesFrom w net order p → router.SearchesFrom w net order q →
        p.shipments ≤ q.shipments →
        p.net.survey w p.potentials order.source order.sink = .ok first →
        q.net.survey w q.potentials order.source order.sink = .ok second →
        order.fare first.potentials ≤ order.fare second.potentials) ∧
    ∀ (less exact further : Router) (order : Order) (fewer same more : Run)
      (saved cost spent : Int), 1 ≤ order.demand →
      (less.route w net { order with demand := order.demand - 1 }).result = .ok fewer →
      (exact.route w net order).result = .ok same →
      (further.route w net { order with demand := order.demand + 1 }).result = .ok more →
      fewer.answer = .ok (.optimal saved) → same.answer = .ok (.optimal cost) →
      more.answer = .ok (.optimal spent) → cost - saved ≤ spent - cost := by
  refine ⟨fun router order proper => ⟨?_, ?_⟩, ?_⟩
  · intro p survey shipment after searches dispatched
    exact (searches.valid made.sound proper).shipment_cost proper searches.owing dispatched
  · intro p q first second searches searchesLater fewer searched searchedLater
    have valid := searches.valid made.sound proper
    obtain ⟨potentials, computed, searches⟩ := searches
    obtain ⟨others, recomputed, searchesLater⟩ := searchesLater
    cases computed.symm.trans recomputed
    exact (searches.onward searchesLater fewer).fares_le valid proper searched searchedLater
  · intro less exact further order fewer same more saved cost spent wanted ranFewer ran ranMore
    exact Concluded.convex made.sound wanted
      ((route_concludes w made.sound less _).of_ok ranFewer)
      ((route_concludes w made.sound exact _).of_ok ran)
      ((route_concludes w made.sound further _).of_ok ranMore)

/-- Where the first path goes through the middle. -/
def throughCut : Tree :=
  ⟨#[.settled 0 none, .settled 1 (some 0), .settled 2 (some 4), .settled 3 (some 8)]⟩

/-- The second path gives the cut back, and each unit on it pays three times as much. -/
def aroundCut : Tree :=
  ⟨#[.settled 0 none, .settled 3 (some 5), .settled 3 (some 2), .settled 6 (some 6)]⟩

theorem route_fares_rise_crossing :
    (∃ shipment after,
      (Network.crossing 1 0 1).dispatch ⟨7⟩ #[0, 1, 2, 3] 0 3 1 =
        .ok ⟨⟨aroundCut, #[0, 4, 5, 9], true⟩, some (shipment, after)⟩ ∧
      shipment.cost = shipment.amount * Order.fare ⟨0, 3, 2⟩ #[0, 4, 5, 9]) ∧
    Order.fare ⟨0, 3, 2⟩ #[0, 1, 2, 3] ≤ Order.fare ⟨0, 3, 2⟩ #[0, 4, 5, 9] ∧
    (3 : Int) - 0 ≤ 12 - 3 := by
  have proper : Order.Proper ⟨0, 3, 2⟩ (Network.crossing 0 0 0) := by decide
  have computed : ((Network.crossing 0 0 0).startPotentials ⟨7⟩).result =
      .ok (.ok #[0, 0, 0, 0]) := by with_unfolding_all rfl
  have searched : (Network.crossing 0 0 0).survey ⟨7⟩ #[0, 0, 0, 0] 0 3 =
      .ok ⟨throughCut, #[0, 1, 2, 3], true⟩ := by with_unfolding_all rfl
  have shipped : ((Progress.start (Network.crossing 0 0 0) #[0, 0, 0, 0] 2).advance ⟨7⟩
      ⟨0, 3, 2⟩).result = .ok (.shipped ⟨Network.crossing 1 0 1, #[0, 1, 2, 3], 1, 3, 1, 1⟩) := by
    with_unfolding_all rfl
  have searchedAgain : (Network.crossing 1 0 1).survey ⟨7⟩ #[0, 1, 2, 3] 0 3 =
      .ok ⟨aroundCut, #[0, 4, 5, 9], true⟩ := by with_unfolding_all rfl
  have dispatched : (Network.crossing 1 0 1).dispatch ⟨7⟩ #[0, 1, 2, 3] 0 3 1 =
      .ok ⟨⟨aroundCut, #[0, 4, 5, 9], true⟩,
        some (⟨1, 9, 0, [2, 5, 6]⟩, Network.crossing 1 1 0)⟩ := by with_unfolding_all rfl
  have nothing : (({} : Router).route ⟨7⟩ (Network.crossing 0 0 0) ⟨0, 3, 0⟩).result =
      .ok ⟨{}, Network.crossing 0 0 0, .ok (.optimal 0)⟩ := by with_unfolding_all rfl
  have one : (({} : Router).route ⟨7⟩ (Network.crossing 0 0 0) ⟨0, 3, 1⟩).result =
      .ok ⟨⟨none, 1, 1, #[0, 1, 2, 3]⟩, Network.crossing 1 0 1, .ok (.optimal 3)⟩ := by
    with_unfolding_all rfl
  have two : (({} : Router).route ⟨7⟩ (Network.crossing 0 0 0) ⟨0, 3, 2⟩).result =
      .ok ⟨⟨none, 2, 2, #[0, 4, 5, 9]⟩, Network.crossing 1 1 0, .ok (.optimal 12)⟩ := by
    with_unfolding_all rfl
  have first : ({} : Router).SearchesFrom ⟨7⟩ (Network.crossing 0 0 0) ⟨0, 3, 2⟩
      (.start (Network.crossing 0 0 0) #[0, 0, 0, 0] 2) := ⟨_, computed, .here (by decide)⟩
  have second : ({} : Router).SearchesFrom ⟨7⟩ (Network.crossing 0 0 0) ⟨0, 3, 2⟩
      ⟨Network.crossing 1 0 1, #[0, 1, 2, 3], 1, 3, 1, 1⟩ :=
    ⟨_, computed, .later (by decide) shipped (.here (by decide))⟩
  obtain ⟨rounds, convex⟩ := route_fares_rise Network.crossing_made
  obtain ⟨paid, rising⟩ := rounds {} ⟨0, 3, 2⟩ proper
  have fare := paid _ _ _ _ second dispatched
  have dearer := rising _ _ _ _ first second (by decide) searched searchedAgain
  have steeper :=
    convex {} {} {} ⟨0, 3, 1⟩ _ _ _ 0 3 12 (by decide) nothing one two rfl rfl rfl
  exact ⟨⟨_, _, dispatched, fare⟩, dearer, steeper⟩

end Router

end Transshipment
