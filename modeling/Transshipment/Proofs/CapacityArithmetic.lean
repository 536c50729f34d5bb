import Transshipment.Proofs.AmountBounds
import Transshipment.Proofs.ProblemRepresentation
import Transshipment.Proofs.ShrinkingReach

/-! Arithmetic on capacities. The two arcs of a link share the capacity that was inserted, what
a run delivered and what remains are the demand, and a lane carries no more than lies between
its bounds. So none of the sums and differences that are taken of these leaves the width, even
where the greatest amount was asked for. Costs are another matter. -/
namespace Transshipment

namespace Network

variable {w : Width} {net next : Network} {offers : List Offer} {path : List Nat}

/-- The arithmetic on the capacities of a network stays within the width. -/
structure Contained (w : Width) (net : Network) : Prop where
  /-- Both updates of a push go through if the arc has room for it. -/
  push : ∀ id arc amount, net.arc id = .ok arc → 0 ≤ amount → amount ≤ arc.residual →
    net.push w id amount = .ok (net.pushed id amount)
  shares : ∀ id ∈ net.forwardArcs, ∃ flow capacity, net.flow id = .ok flow ∧
    net.capacity w id = .ok capacity
  /-- A shipment leaves a rest of what was wanted. -/
  rest : ∀ path remaining amount, 0 ≤ remaining → w.Fits remaining →
    net.bottleneck path remaining = .ok amount → w.sub remaining amount = .ok (remaining - amount)

/-- No path lets through less than nothing, or more than is wanted. -/
theorem Sound.bottleneck_ends (sound : net.Sound) (path : List Nat) {bound : Int}
    (wanted : 0 ≤ bound) :
    Checked.Ends (net.bottleneck path bound) (fun _ => True)
      fun least => 0 ≤ least ∧ least ≤ bound := by
  refine Checked.ends_foldlM (fun _ least => 0 ≤ least ∧ least ≤ bound) ?_ path bound
    ⟨wanted, Int.le_refl bound⟩
  intro id rest least within
  cases held : net.arc id with
  | error fault => trivial
  | ok arc =>
    have room := sound.residual_nonneg held
    exact ⟨by omega, by omega⟩

private theorem Sound.amount_le_of_ship (sound : net.Sound) {remaining : Int} {shipment : Shipment}
    (wanted : 0 ≤ remaining) (shipped : net.ship w path remaining = .ok (shipment, next)) :
    shipment.amount ≤ remaining := by
  obtain ⟨amount, narrowest, shipped⟩ := Checked.bind_eq_ok_iff.mp shipped
  have bounds := (sound.bottleneck_ends path wanted).of_ok narrowest
  split at shipped
  · cases shipped
  · obtain ⟨sent, -, shipped⟩ := Checked.bind_eq_ok_iff.mp shipped
    obtain ⟨left, -, shipped⟩ := Checked.bind_eq_ok_iff.mp shipped
    cases shipped
    exact bounds.2

private theorem Sound.contained (sound : net.Sound) (fitting : net.Fitting w) :
    net.Contained w where
  push id arc amount held nonneg room := by
    have holds : net.Holds w fun _ => False := fitting.holds
    have pushes := push_ends nonneg held room (holds.moved sound nonneg held room)
    cases pushed : net.push w id amount with
    | error fault => exact (pushes.of_error pushed).elim
    | ok next => rw [pushes.of_ok pushed]
  shares id along := by
    obtain ⟨flow, capacity, shown, summed, -⟩ := sound.withinCapacity fitting id along
    exact ⟨flow, capacity, shown, summed⟩
  rest path remaining amount wanted fits narrowest := by
    have bounds := (sound.bottleneck_ends path wanted).of_ok narrowest
    have greatest := fits.2
    exact Width.keep_eq_ok_iff.mpr
      ⟨rfl, (Width.fits_iff_of_nonneg (by omega)).mpr (by omega)⟩

/-- A link that is attached without a look at it is one that a request would have inserted. -/
theorem Made.attach {tail head : Nat} {capacity cost : Int} (made : Made w net offers)
    (legal : tail < net.nodes ∧ head < net.nodes ∧ 0 ≤ capacity) (room : w.Fits capacity)
    (price : w.Fits cost) (attached : net.attach w tail head capacity cost = .ok next) :
    Made w next (offers ++ [⟨tail, head, capacity, cost⟩]) ∧ next.nodes = net.nodes := by
  have inserted : net.insertLink w tail head capacity cost = .ok (.ok (net.arcs, next)) := by
    simp [Network.insertLink, linkRefusal?_eq_none_iff.mpr legal, attached, bind, Except.bind,
      pure, Except.pure]
  obtain rfl := (attach_ends w net tail head capacity cost).of_ok attached
  exact ⟨.insertLink made room price inserted, nodes_attached net⟩

end Network

namespace Progress

variable {w : Width} {order : Order} {limit? : Option Nat} {origin : Network}
  {offers : List Offer} {p last : Progress}

/-- The amounts in the books of a run stay within the width before a search and after the
shipment that it leads to. -/
structure Contained (w : Width) (order : Order) (p : Progress) : Prop where
  net : p.net.Contained w
  owed : 0 ≤ p.remaining ∧ w.Fits p.remaining
  total : ∀ survey shipment after,
    p.net.dispatch w p.potentials order.source order.sink p.remaining =
      .ok ⟨survey, some (shipment, after)⟩ →
    w.add p.delivered shipment.amount = .ok (p.delivered + shipment.amount)

private theorem Valid.contained (valid : p.Valid order origin) (made : Network.Made w p.net offers)
    (demand : w.Fits order.demand) : p.Contained w order := by
  have counted := valid.counted
  have paced := valid.paced
  have owed := valid.owed
  have most := demand.2
  have owing : w.Fits p.remaining := (Width.fits_iff_of_nonneg owed).mpr (by omega)
  refine ⟨made.sound.contained made.fitting, ⟨owed, owing⟩, ?_⟩
  intro survey shipment after dispatched
  obtain ⟨path, -, shipped⟩ := Network.ship_of_dispatch dispatched
  have positive := (Network.ship_remaining shipped).1
  have within := valid.sound.amount_le_of_ship owed shipped
  exact Width.keep_eq_ok_iff.mpr ⟨rfl, (Width.fits_iff_of_nonneg (by omega)).mpr (by omega)⟩

/-- The network before each search is one that the requests lead to. -/
theorem Searches.made (searches : p.Searches w order limit? last)
    (made : Network.Made w p.net offers) : Network.Made w last.net offers := by
  induction searches with
  | here continues => exact made
  | later continues shipped _ ih =>
    obtain ⟨survey, shipment, dispatched, -⟩ := dispatch_of_shipped shipped
    obtain ⟨path, -, sent⟩ := Network.ship_of_dispatch dispatched
    exact ih (made.ship sent)

end Progress

namespace Problem

variable {w : Width} {problem : Problem} {ledger : Ledger} {net last : Network}
  {offers : List Offer}

/-- The arithmetic on the bounds and flows of a problem stays within the width. -/
structure Contained (w : Width) (problem : Problem) : Prop where
  /-- Of a lane that is not refused, the span is kept. -/
  span : ∀ tail head lower upper, problem.laneRefusal? tail head lower upper = none →
    w.Fits upper → w.sub upper lower = .ok (upper - lower)
  /-- Both sums that make up the view of a lane are kept. -/
  shown : ∀ k, ∃ view?, problem.lane? w k = .ok view?

private theorem Tallies.contained (tallies : problem.Tallies w ledger) : problem.Contained w where
  span tail head lower upper accepted fits := by
    obtain ⟨-, -, nonneg, least⟩ := laneRefusal?_eq_none_iff.mp accepted
    have greatest := fits.2
    exact Width.keep_eq_ok_iff.mpr
      ⟨rfl, (Width.fits_iff_of_nonneg (by omega)).mpr (by omega)⟩
  shown k := by
    cases held : problem.lanes[k]? with
    | none => exact ⟨none, lane?_eq_none (Array.getElem?_eq_none_iff.mp held)⟩
    | some lane => exact ⟨_, tallies.lane?_eq held⟩

/-- The costs of lanes are amounts that some caller had. -/
theorem Made.costs_fit {supplies : List (Nat × Int)} {lanes : List LaneTerms}
    (made : Made w problem supplies lanes) : ∀ terms ∈ lanes, w.Fits terms.cost := by
  induction made with
  | ofSites sites => simp
  | insertSite _ ih => exact ih
  | insertSites _ _ ih => exact ih
  | provide _ _ _ ih => exact ih
  | consume _ _ _ ih => exact ih
  | insertLane _ _ _ price _ ih => simpa [or_imp, forall_and] using ⟨ih, price⟩
  | settle _ _ ih => exact ih

private theorem attachLanes_made (lanes : List Lane) (made : Network.Made w net offers)
    (fit : ∀ lane ∈ lanes, (lane.tail < net.nodes ∧ lane.head < net.nodes ∧ 0 ≤ lane.span) ∧
      w.Fits lane.span ∧ w.Fits lane.cost)
    (attached : attachLanes w net lanes = .ok last) :
    (∃ links, Network.Made w last links) ∧ last.nodes = net.nodes := by
  induction lanes generalizing net offers with
  | nil =>
    cases attached
    exact ⟨⟨offers, made⟩, rfl⟩
  | cons lane rest ih =>
    unfold attachLanes at attached
    rw [List.foldlM_cons] at attached
    obtain ⟨next, first, attached⟩ := Checked.bind_eq_ok_iff.mp attached
    obtain ⟨legal, room, price⟩ := fit lane List.mem_cons_self
    obtain ⟨made, nodes⟩ := made.attach legal room price first
    rw [← nodes]
    refine ih made (fun other later => ?_) attached
    rw [nodes]
    exact fit other (List.mem_cons_of_mem lane later)

/-- What is offered and what is lacking was summed or negated, so it fits. -/
theorem attachSites_made {source sink node : Nat} {demand total : Int} (sites : List Site)
    (made : Network.Made w net offers) (sourceWithin : source < net.nodes)
    (sinkWithin : sink < net.nodes) (within : node + sites.length ≤ net.nodes)
    (nonneg : 0 ≤ demand) (fits : w.Fits demand)
    (attached : attachSites w source sink sites node demand net = .ok (last, total)) :
    (∃ links, Network.Made w last links) ∧ w.Fits total := by
  induction sites generalizing net offers node demand with
  | nil =>
    cases attached
    exact ⟨⟨offers, made⟩, fits⟩
  | cons site rest ih =>
    rw [List.length_cons] at within
    unfold attachSites at attached
    split at attached
    · rename_i positive
      obtain ⟨next, joined, attached⟩ := Checked.bind_eq_ok_iff.mp attached
      obtain ⟨sum, added, attached⟩ := Checked.bind_eq_ok_iff.mp attached
      obtain ⟨rfl, sumFits⟩ := Width.keep_eq_ok_iff.mp added
      have greatest := sumFits.2
      obtain ⟨made, nodes⟩ := made.attach ⟨sourceWithin, by omega, Int.le_of_lt positive⟩
        ((Width.fits_iff_of_nonneg (by omega)).mpr (by omega)) w.fits_zero joined
      exact ih made (by omega) (by omega) (by omega) (by omega) sumFits attached
    · split at attached
      · obtain ⟨lack, negated, attached⟩ := Checked.bind_eq_ok_iff.mp attached
        obtain ⟨rfl, lackFits⟩ := Width.keep_eq_ok_iff.mp negated
        obtain ⟨next, joined, attached⟩ := Checked.bind_eq_ok_iff.mp attached
        obtain ⟨made, nodes⟩ := made.attach ⟨by omega, sinkWithin, by omega⟩ lackFits
          w.fits_zero joined
        exact ih made (by omega) (by omega) (by omega) nonneg fits attached
      · exact ih made sourceWithin sinkWithin (by omega) nonneg fits attached

/-- The network over which a problem is settled is one that requests lead to, and what is
ordered over it fits. -/
theorem Served.toOrder_made {order : Order} (served : Served w problem ledger)
    (ordered : problem.toOrder w = .ok (net, order)) :
    (∃ links, Network.Made w net links) ∧ w.Fits order.demand := by
  have tallies := served.tallies
  have nodes : (Network.ofNodes problem.sites.size).nodes = problem.sites.size := by
    simp [Network.ofNodes, Network.nodes]
  have fit : ∀ lane ∈ problem.lanes.toList,
      (lane.tail < (Network.ofNodes problem.sites.size).nodes ∧
        lane.head < (Network.ofNodes problem.sites.size).nodes ∧ 0 ≤ lane.span) ∧
      w.Fits lane.span ∧ w.Fits lane.cost := by
    intro lane listed
    obtain ⟨k, held⟩ := List.mem_iff_getElem?.mp listed
    rw [Array.getElem?_toList] at held
    have ends := tallies.sound.ends k lane held
    have bounds := tallies.sound.bounded k lane held
    have noted : lane.terms ∈ ledger.lanes := by
      rw [← tallies.terms]
      exact List.mem_map_of_mem listed
    have greatest := (tallies.fit _ noted).2
    have price := served.made.costs_fit _ noted
    dsimp only [Lane.terms] at greatest price
    rw [nodes]
    exact ⟨⟨ends.1, ends.2, by omega⟩, (Width.fits_iff_of_nonneg (by omega)).mpr (by omega), price⟩
  obtain ⟨lanes, attached, ordered⟩ := Checked.bind_eq_ok_iff.mp ordered
  obtain ⟨⟨joined, demand⟩, fed, ordered⟩ := Checked.bind_eq_ok_iff.mp ordered
  cases ordered
  obtain ⟨⟨links, made⟩, same⟩ := attachLanes_made problem.lanes.toList (.ofNodes _) fit attached
  have grown : lanes.insertNode.2.insertNode.2.nodes = lanes.nodes + 2 := by
    simp [Network.nodes_insertNode]
  refine attachSites_made problem.sites.toList made.insertNode.insertNode ?_ ?_ ?_
    (Int.le_refl 0) w.fits_zero fed
  · omega
  · change lanes.insertNode.2.nodes < lanes.insertNode.2.insertNode.2.nodes
    rw [grown, Network.nodes_insertNode]
    omega
  · rw [Array.length_toList]
    omega

end Problem

/-- Every run over the network searches only over networks that the requests lead to, and its
books stay within the width. -/
def Network.ContainsRuns (w : Width) (net : Network) (offers : List Offer) : Prop :=
  ∀ (router : Router) order p, w.Fits order.demand → router.SearchesFrom w net order p →
    Network.Made w p.net offers ∧ p.Contained w order

private theorem Network.Made.containsRuns {w : Width} {net : Network} {offers : List Offer}
    (made : Network.Made w net offers) : net.ContainsRuns w offers := by
  intro router order p demand searches
  have valid := searches.valid_always made.sound
  obtain ⟨potentials, computed, searches⟩ := searches
  have same : Network.Made w p.net offers := searches.made made
  exact ⟨same, valid.contained same demand⟩

/-- The arithmetic on capacities stays within the width: on every network and in every problem
that requests lead to, in every run, and where a problem is settled, on the network that is
made for it. -/
theorem capacities_contained {w : Width} {net : Network} {offers : List Offer}
    {problem : Problem} {ledger : Problem.Ledger} (made : Network.Made w net offers)
    (served : Problem.Served w problem ledger) :
    net.Contained w ∧ net.ContainsRuns w offers ∧ problem.Contained w ∧
      ∀ inner order, problem.toOrder w = .ok (inner, order) → w.Fits order.demand ∧
        ∃ links, Network.Made w inner links ∧ inner.Contained w ∧ inner.ContainsRuns w links := by
  refine ⟨made.sound.contained made.fitting, made.containsRuns, served.tallies.contained, ?_⟩
  intro inner order ordered
  obtain ⟨⟨links, made⟩, demand⟩ := served.toOrder_made ordered
  exact ⟨demand, links, made, made.sound.contained made.fitting, made.containsRuns⟩

/-- Two links that hold the greatest amount of eight bits together, the first of them under way. -/
def Network.brimful (used : Int) : Network :=
  ⟨#[⟨0, 1, 0, 100 - used, used⟩, ⟨0, 1, 1, 27, 0⟩], #[#[0, 2], #[1, 3]]⟩

/-- A lane that may carry the greatest amount, of which one unit is routed in advance. -/
def Problem.brimful (routed : Int) : Problem :=
  ⟨#[⟨127, 126⟩, ⟨-127, -126⟩], #[⟨0, 1, 1, 126, routed, 0⟩]⟩

private theorem Problem.brimful_served :
    Served ⟨7⟩ (brimful 126) ⟨2, [(0, 127), (1, -127)], [⟨0, 1, 1, 127, 0⟩], true⟩ := by
  have offered : (addSupply ⟨7⟩ 0 127 (.ofSites 2)).result =
      .ok (⟨#[⟨127, 127⟩, ⟨0, 0⟩], #[]⟩, .ok ()) := by with_unfolding_all rfl
  have wanted : (addDemand ⟨7⟩ 1 127 ⟨#[⟨127, 127⟩, ⟨0, 0⟩], #[]⟩).result =
      .ok (⟨#[⟨127, 127⟩, ⟨-127, -127⟩], #[]⟩, .ok ()) := by with_unfolding_all rfl
  have joined : (addLane ⟨7⟩ ⟨0, 1, 1, 127, 0⟩ ⟨#[⟨127, 127⟩, ⟨-127, -127⟩], #[]⟩).result =
      .ok (brimful 0, .ok 0) := by with_unfolding_all rfl
  have settled : (({} : Router).settle ⟨7⟩ (brimful 0)).result =
      .ok ⟨⟨none, 126, 1, #[0, 0, 0, 0]⟩, brimful 126, .ok .optimal⟩ := by with_unfolding_all rfl
  have built := Served.addLane (.addDemand (.addSupply (.ofSites 2) (by decide) offered)
    (by decide) wanted) (by decide) (by decide) (by decide) joined
  exact built.settle settled

/-- The second shipment brings the total up to the greatest amount, and so does the view of the
lane. -/
theorem capacities_contained_brimful :
    (Network.brimful 0).push ⟨7⟩ 0 100 = .ok ((Network.brimful 0).pushed 0 100) ∧
      Width.add ⟨7⟩ 100 27 = .ok 127 ∧
      ∃ view?, (Problem.brimful 126).lane? ⟨7⟩ 0 = .ok view? := by
  have inserted : Network.insertOffers ⟨7⟩ (.ofNodes 2) [⟨0, 1, 100, 0⟩, ⟨0, 1, 27, 1⟩] =
      .ok (.ok (Network.brimful 0)) := by with_unfolding_all rfl
  have made := Network.Made.insertOffers (.ofNodes 2) (by decide) inserted
  have computed : ((Network.brimful 0).startPotentials ⟨7⟩).result = .ok (.ok #[0, 0]) := by
    with_unfolding_all rfl
  have shipped : ((Progress.start (Network.brimful 0) #[0, 0] 127).advance ⟨7⟩
      ⟨0, 1, 127⟩).result = .ok (.shipped ⟨Network.brimful 100, #[0, 0], 27, 0, 100, 1⟩) := by
    with_unfolding_all rfl
  have dispatched : (Network.brimful 100).dispatch ⟨7⟩ #[0, 0] 0 1 27 =
      .ok ⟨⟨⟨#[.settled 0 none, .settled 1 (some 2)]⟩, #[0, 1], true⟩,
        some (⟨27, 27, 0, [2]⟩, (Network.brimful 100).pushed 2 27)⟩ := by
    with_unfolding_all rfl
  have second : ({} : Router).SearchesFrom ⟨7⟩ (Network.brimful 0) ⟨0, 1, 127⟩
      ⟨Network.brimful 100, #[0, 0], 27, 0, 100, 1⟩ :=
    ⟨_, computed, .later (by decide) shipped (.here (by decide))⟩
  obtain ⟨contained, runs, shown, -⟩ := capacities_contained made Problem.brimful_served
  obtain ⟨-, books⟩ := runs _ _ _ (by decide) second
  exact ⟨contained.push 0 ⟨0, 1, 100, 0⟩ 100 rfl (by decide) (by decide),
    books.total _ _ _ dispatched, shown.shown 0⟩

end Transshipment
