import Transshipment.Proofs.RisingFares
import Transshipment.Proofs.SearchEffort
import Transshipment.Proofs.ShipmentExactness

/-! Wide networks. A network that was only built exposes its links and nothing against them. Where
each link takes the whole demand, the first shipment is not cut short, and so a run is one search
for the cheapest way: the whole demand goes along it, and every other link stays empty. -/
namespace Transshipment

/-- The network came about by these accepted links alone: nothing was sent over it yet. -/
inductive Network.Built (w : Width) : Network → List Offer → Prop
  | ofNodes (nodes : Nat) : Built w (.ofNodes nodes) []
  | insertNode {net : Network} {offers : List Offer} :
    Built w net offers → Built w net.insertNode.2 offers
  | insertLink {net next : Network} {offers : List Offer} {offer : Offer} {id : Nat} :
    Built w net offers → w.Fits offer.capacity → w.Fits offer.cost →
      net.insertLink w offer.tail offer.head offer.capacity offer.cost = .ok (.ok (id, next)) →
      Built w next (offers ++ [offer])

namespace Offer

/-- The offers with these numbers lead from the first node to the second, one after the other, and
their costs sum to the cost. Their capacities do not matter. -/
inductive Walk (offers : List Offer) : (source : Nat) → (path : List Nat) → (sink : Nat) →
    (cost : Int) → Prop
  | nil (node : Nat) : Walk offers node [] node 0
  | cons {k : Nat} {offer : Offer} {path : List Nat} {sink : Nat} {cost : Int} :
    offers[k]? = some offer → Walk offers offer.head path sink cost →
      Walk offers offer.tail (k :: path) sink (offer.cost + cost)

/-- What the ways over offers cost. -/
def walkCosts (offers : List Offer) (source sink : Nat) : Set Int :=
  {cost | ∃ path, Walk offers source path sink cost}

end Offer

namespace Network

variable {w : Width} {net : Network} {offers : List Offer} {source sink id k : Nat} {arc : Arc}
  {path : List Nat} {cost amount : Int}

namespace Built

theorem made (built : Built w net offers) : Made w net offers := by
  induction built with
  | ofNodes nodes => exact .ofNodes nodes
  | insertNode _ ih => exact .insertNode ih
  | insertLink _ capacity cost inserted ih => exact .insertLink ih capacity cost inserted

private theorem insertOffers {next : Network} {before : List Offer} (built : Built w net before)
    (fit : ∀ offer ∈ offers, w.Fits offer.capacity ∧ w.Fits offer.cost)
    (inserted : net.insertOffers w offers = .ok (.ok next)) : Built w next (before ++ offers) :=
  insertOffers_extends .insertLink built fit inserted

/-- The links are as they were offered, all of their capacity free. -/
theorem links (built : Built w net offers) : net.links.toList = offers.map Offer.link := by
  induction built with
  | ofNodes nodes => rfl
  | insertNode _ ih => exact ih
  | insertLink _ _ _ inserted ih =>
    obtain ⟨-, same⟩ := (insertLink_ends w _ _ _ _ _).of_ok inserted
    cases same
    simp [attached, ih, Offer.link]

private theorem getElem?_links (built : Built w net offers) (k : Nat) :
    net.links[k]? = offers[k]?.map Offer.link := by
  rw [← Array.getElem?_toList, built.links, List.getElem?_map]

private theorem carried_eq_zero (built : Built w net offers) : net.carried = fun _ => 0 := by
  funext k
  unfold carried
  rw [built.getElem?_links]
  cases offers[k]? <;> rfl

/-- An offer stands behind each open arc, which runs along its link. -/
theorem offer_of_open (built : Built w net offers) (held : net.arc id = .ok arc)
    (isOpen : arc.Open) :
    ∃ offer, offers[id / 2]? = some offer ∧ 2 * (id / 2) = id ∧ arc = offer.link.arc true := by
  obtain ⟨link, found, along, rfl⟩ := along_of_open built.carried_eq_zero held isOpen
  rw [built.getElem?_links] at found
  obtain ⟨offer, offered, rfl⟩ := Option.map_eq_some_iff.mp found
  have even : id % 2 = 0 := by simpa [Arc.along] using along
  exact ⟨offer, offered, by omega, rfl⟩

/-- Open arcs lead from node to node as the offers do. -/
theorem walk_offers (built : Built w net offers) (walk : net.Walk source path sink cost) :
    Offer.Walk offers source (path.map (· / 2)) sink cost ∧
      (path.map (· / 2)).map (2 * ·) = path := by
  induction walk with
  | nil node => exact ⟨.nil node, rfl⟩
  | cons held isOpen walk ih =>
    obtain ⟨offer, offered, same, rfl⟩ := built.offer_of_open held isOpen
    exact ⟨.cons offered ih.1, by rw [List.map_cons, List.map_cons, same, ih.2]⟩

/-- Where each offer has room, open arcs lead wherever offers do. -/
theorem walk_links (built : Built w net offers) (room : ∀ offer ∈ offers, 0 < offer.capacity)
    (walk : Offer.Walk offers source path sink cost) :
    net.Walk source (path.map (2 * ·)) sink cost := by
  induction walk with
  | nil node => exact .nil node
  | @cons k offer path sink cost offered walk ih =>
    have found := built.getElem?_links k
    rw [offered] at found
    exact .cons (arc_double found) (room _ (List.mem_of_getElem? offered)) ih

/-- The ways over open arcs cost what the ways over offers do. -/
theorem walkCosts_eq (built : Built w net offers) (room : ∀ offer ∈ offers, 0 < offer.capacity) :
    net.walkCosts source sink = Offer.walkCosts offers source sink := by
  ext cost
  exact ⟨fun ⟨_, walk⟩ => ⟨_, (built.walk_offers walk).1⟩,
    fun ⟨_, walk⟩ => ⟨_, built.walk_links room walk⟩⟩

/-- Whatever way is taken, each arc on it has the capacity of an offer. -/
theorem le_of_mem_rooms (built : Built w net offers)
    (wide : ∀ offer ∈ offers, amount ≤ offer.capacity) (walk : net.Walk source path sink cost)
    {room : Int} (member : room ∈ net.rooms path) : amount ≤ room := by
  obtain ⟨id, taken, arc, held, rfl⟩ := member
  obtain ⟨same, sameHeld, isOpen⟩ := walk.open_of_mem taken
  cases held.symm.trans sameHeld
  obtain ⟨offer, offered, -, rfl⟩ := built.offer_of_open held isOpen
  exact wide offer (List.mem_of_getElem? offered)

/-- What went once over each link of a way is the flow on these links, and there is none on any
other: the flow on a link is the room of the arc against it, which had none before. -/
theorem flow_pushedAlong (built : Built w net offers) (distinct : path.Nodup)
    (within : k < offers.length) (amount : Int) :
    (net.pushedAlong (path.map (2 * ·)) amount).flow (2 * k) =
      .ok (if k ∈ path then amount else 0) := by
  have found := built.getElem?_links k
  rw [List.getElem?_eq_getElem within] at found
  have against := arc_pushedAlong net (path.map (2 * ·)) amount (2 * k + 1)
  have never : (path.map (2 * ·)).count (2 * k + 1) = 0 := by
    refine List.count_eq_zero.mpr fun member => ?_
    obtain ⟨other, -, same⟩ := List.mem_map.mp member
    omega
  have taken : (path.map (2 * ·)).count (2 * k) = if k ∈ path then 1 else 0 := by
    rw [List.count_map_of_injective path (2 * ·)
      (fun _ _ same => Nat.eq_of_mul_eq_mul_left (by decide) same), distinct.count]
  have mate : Arc.mate (2 * k + 1) = 2 * k := by simp [Arc.mate]
  rw [arc_double_succ found, mate, never, taken] at against
  obtain ⟨link, held, same⟩ := arc_eq_ok_iff.mp against
  rw [show (2 * k + 1) / 2 = k by omega] at held
  rw [Arc.along_double_succ] at same
  have used : link.used = amount * ((if k ∈ path then 1 else 0 : Nat) - (0 : Nat)) := by
    rw [← Int.zero_add (amount * _)]
    exact congrArg Arc.residual same
  rw [flow_double held, used]
  split <;> simp

end Built

/-- A way out of a node leads from node to node of the network. -/
theorem Connects.within (connected : net.Connects source sink) (sound : net.Sound)
    (apart : source ≠ sink) : source < net.nodes ∧ sink < net.nodes := by
  have inside : ∀ {first way last fare}, net.Walk first way last fare → first < net.nodes →
      last < net.nodes := by
    intro first way last fare walk start
    induction walk with
    | nil node => exact start
    | cons held isOpen walk ih => exact ih (sound.arc_ends held).2
  obtain ⟨path, cost, walk⟩ := connected
  have start : source < net.nodes := by
    cases walk with
    | nil => exact absurd rfl apart
    | cons held isOpen walk => exact (sound.arc_ends held).1
  exact ⟨start, inside walk start⟩

/-- A link from the first node to the last, and a way around that is cheaper because its second link
pays for a part of the first. -/
def detour (direct around : Int) : Network :=
  ⟨#[⟨0, 2, 4, 5 - direct, direct⟩, ⟨0, 1, 3, 4 - around, around⟩,
      ⟨1, 2, -2, 3 - around, around⟩],
    #[#[0, 2], #[3, 4], #[1, 5]]⟩

private theorem detour_built :
    Built ⟨7⟩ (detour 0 0) [⟨0, 2, 5, 4⟩, ⟨0, 1, 4, 3⟩, ⟨1, 2, 3, -2⟩] := by
  have inserted : Network.insertOffers ⟨7⟩ (.ofNodes 3)
      [⟨0, 2, 5, 4⟩, ⟨0, 1, 4, 3⟩, ⟨1, 2, 3, -2⟩] = .ok (.ok (detour 0 0)) := by decide
  exact .insertOffers (.ofNodes 3) (by decide) inserted

end Network

namespace Progress

variable {w : Width} {order : Order} {limit? : Option Nat} {origin : Network} {p next : Progress}
  {ending : Ending}

/-- A round that shipped something, to the unit: it pushed what was left to send, or what the way
let through if that was less, along a simple way that costs the fare. -/
theorem Valid.next_eq (valid : p.Valid order origin) (proper : order.Proper origin)
    (owing : 0 < p.remaining) (shipped : (p.advance w order).result = .ok (.shipped next)) :
    ∃ survey path amount,
      p.net.Surveyed p.potentials order.source order.sink survey ∧
      p.net.SimpleWalk order.source path order.sink (order.fare survey.potentials) ∧
      IsLeast (insert p.remaining (p.net.rooms path)) amount ∧
      next = ⟨p.net.pushedAlong path amount, survey.potentials, p.remaining - amount,
        p.cost + amount * order.fare survey.potentials, p.delivered + amount, p.shipments + 1⟩ := by
  have within := valid.proper proper
  obtain ⟨survey, shipment, dispatched, -, booked⟩ := dispatch_of_shipped shipped
  obtain ⟨path, surveyed, simple, sent⟩ := valid.trail_of_dispatch proper owing dispatched
  obtain ⟨amount, narrowest, positive, least⟩ := simple.1.exists_bottleneck owing
  have leads : path ≠ [] := fun none => within.apart (simple.eq_nil_iff.mp none).symm
  have secure := (valid.secure w).round
  obtain ⟨fares, left⟩ :=
    secure.ship path order.sink _ amount within.sink simple positive (least.2 (.inl rfl))
  obtain ⟨exactly, -⟩ := (Network.ship_bottleneck_ends valid.sound simple leads positive narrowest
    least secure.room fares left).of_ok sent
  obtain ⟨rfl, moved⟩ := Prod.mk.inj exactly
  refine ⟨survey, path, amount, surveyed, simple, least, ?_⟩
  rw [booked, moved]

/-- Where each way has room for all that is left to send, the next shipment is the last. -/
theorem Valid.ending_eq (valid : p.Valid order origin) (proper : order.Proper origin)
    (continues : p.Continues limit?) (connected : p.net.Connects order.source order.sink)
    (wide : ∀ path cost, p.net.Walk order.source path order.sink cost →
      ∀ room ∈ p.net.rooms path, p.remaining ≤ room)
    (ended : (p.rounds w order limit?).result = .ok ending) :
    ∃ survey path,
      p.net.Surveyed p.potentials order.source order.sink survey ∧
      p.net.SimpleWalk order.source path order.sink (order.fare survey.potentials) ∧
      ending = ⟨⟨p.net.pushedAlong path p.remaining, survey.potentials, 0,
          p.cost + p.remaining * order.fare survey.potentials, p.delivered + p.remaining,
          p.shipments + 1⟩,
        .ok (.optimal (p.cost + p.remaining * order.fare survey.potentials))⟩ := by
  have follows := advance_follows proper valid continues.1 (valid.secure w)
  cases round : (p.advance w order).result with
  | error fault =>
    rw [continues.rounds_broke round] at ended
    cases ended
  | ok outcome =>
    cases outcome with
    | stranded last =>
      obtain ⟨survey, -, -, unreachable⟩ := follows.of_ok round
      exact absurd connected unreachable
    | shipped next =>
      obtain ⟨survey, path, amount, surveyed, simple, least, rfl⟩ :=
        valid.next_eq proper continues.1 round
      obtain rfl : amount = p.remaining :=
        Int.le_antisymm (least.2 (.inl rfl))
          (least.1.elim (fun whole => Int.le_of_eq whole.symm) (wide path _ simple.1 _))
      rw [continues.rounds_shipped round, Int.sub_self, rounds_met (Int.le_refl 0)] at ended
      cases ended
      exact ⟨survey, path, surveyed, simple, rfl⟩

end Progress

namespace Router

variable {w : Width} {net : Network} {offers : List Offer} {router : Router} {order : Order}

/-- The run sent the whole demand in one shipment over these offers, which lead along a simple way
at that price, and nothing over any other. -/
structure SentAlong (net : Network) (offers : List Offer) (order : Order) (run : Run)
    (path : List Nat) (price : Int) : Prop where
  way : Offer.Walk offers order.source path order.sink price
  simple : net.SimpleWalk order.source (path.map (2 * ·)) order.sink price
  optimal : run.answer = .ok (.optimal (order.demand * price))
  once : run.router.shipments = 1
  delivered : run.router.delivered = order.demand
  flow : ∀ k < offers.length, run.net.flow (2 * k) = .ok (if k ∈ path then order.demand else 0)

/-- A wide network reduces to a cheapest way. Where each link takes the whole demand and no cycle
pays, a run over a network that was only built sends all of it along one simple way that costs no
more than any other, whatever limit there is that allows a shipment. Only an overflow keeps it
from that. -/
theorem route_wide (built : Network.Built w net offers) (apart : order.source ≠ order.sink)
    (wanted : 0 < order.demand) (allowed : ∀ limit, router.limit? = some limit → 1 ≤ limit)
    (wide : ∀ offer ∈ offers, order.demand ≤ offer.capacity)
    (acyclic : ∀ node, ¬ net.OnNegativeCycle node)
    (connected : net.Connects order.source order.sink) :
    Checked.Ends (router.route w net order).result Fault.IsOverflow fun run =>
      ∃ price path, IsLeast (Offer.walkCosts offers order.source order.sink) price ∧
        SentAlong net offers order run path price := by
  have sound := built.made.sound
  obtain ⟨source, sink⟩ := connected.within sound apart
  have proper : order.Proper net := ⟨source, sink, apart, wanted⟩
  have completes := route_completes w sound router proper
  refine Checked.ends_iff.mpr ⟨fun run ran => ?_, fun fault => completes.of_error⟩
  obtain ⟨node, -, cycle, -⟩ | ⟨potentials, -, computed, priced, -, -⟩ := completes.of_ok ran
  · exact absurd cycle (acyclic node)
  · have valid := Progress.Valid.start sound priced (Int.le_of_lt wanted)
    have continues : (Progress.start net potentials order.demand).Continues router.limit? := by
      refine ⟨wanted, Option.filter_eq_none_iff.mpr fun limit given => ?_⟩
      simpa [Progress.start, Nat.one_le_iff_ne_zero] using allowed limit given
    rw [route_proper w router proper, computed] at ran
    obtain ⟨ending, ended, rfl⟩ := Checked.map_eq_ok_iff.mp ran
    obtain ⟨survey, path, surveyed, simple, rfl⟩ := valid.ending_eq proper continues connected
      (fun path cost walk room => built.le_of_mem_rooms wide walk) ended
    have cheapest : IsLeast (net.walkCosts order.source order.sink)
        (order.fare survey.potentials) := surveyed.isLeast sound priced.1 connected
    rw [built.walkCosts_eq fun offer member => Int.lt_of_lt_of_le wanted (wide offer member)]
      at cheapest
    obtain ⟨way, same⟩ := built.walk_offers simple.1
    refine ⟨_, path.map (· / 2), cheapest, way, ?_, ?_, rfl, Int.zero_add _, fun k within => ?_⟩
    · rw [same]
      exact simple
    · exact congrArg (fun cost => Except.ok (Outcome.optimal cost)) (Int.zero_add _)
    · have flow := built.flow_pushedAlong simple.halves_nodup within order.demand
      rw [same] at flow
      exact flow

/-- The way around costs one a unit, and takes three of the four units it could. -/
theorem route_wide_detour : ∃ price path,
    IsLeast (Offer.walkCosts [⟨0, 2, 5, 4⟩, ⟨0, 1, 4, 3⟩, ⟨1, 2, 3, -2⟩] 0 2) price ∧
      SentAlong (Network.detour 0 0) [⟨0, 2, 5, 4⟩, ⟨0, 1, 4, 3⟩, ⟨1, 2, 3, -2⟩] ⟨0, 2, 3⟩
        ⟨⟨some 1, 3, 1, #[0, 3, 1]⟩, Network.detour 0 3, .ok (.optimal 3)⟩ path price := by
  have ran : (({ limit? := some 1 } : Router).route ⟨7⟩ (Network.detour 0 0) ⟨0, 2, 3⟩).result =
      .ok ⟨⟨some 1, 3, 1, #[0, 3, 1]⟩, Network.detour 0 3, .ok (.optimal 3)⟩ := by
    with_unfolding_all rfl
  have priced : (Network.detour 0 0).PricedBy #[0, 0, -2] :=
    Network.pricedBy_of_links (by decide) (by decide)
  have direct : (Network.detour 0 0).arc 0 = .ok ⟨0, 2, 5, 4⟩ := rfl
  have connected : (Network.detour 0 0).Connects 0 2 :=
    ⟨[0], _, .cons direct (by decide) (.nil 2)⟩
  have allowed : ∀ limit, ({ limit? := some 1 } : Router).limit? = some limit → 1 ≤ limit := by
    rintro limit ⟨⟩
    exact Nat.le_refl 1
  have ends := @route_wide _ _ _ _ ⟨0, 2, 3⟩ Network.detour_built (by decide) (by decide) allowed
    (by decide) priced.prices.no_negative_cycle connected
  exact ends.of_ok ran

end Router

end Transshipment
