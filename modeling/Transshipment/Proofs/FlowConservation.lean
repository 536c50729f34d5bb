import Transshipment.Proofs.RoutingRounds

/-! What a run leaves alone. Whatever a run ended in, it gave back the network that it
got but for the flow on it, and that flow still fits the capacities. What the books show
as delivered has left the source and arrived at the sink, and nothing was lost or gained
on the way. -/
namespace Transshipment

namespace Network

variable {w : Width} {net other next last : Network} {offers : List Offer} {k id : Nat}
  {link : Link} {amount remaining : Int}

/-- The capacity of every link fits the width. -/
def Fitting (w : Width) (net : Network) : Prop :=
  ∀ (k : Nat) link, net.links[k]? = some link → w.Fits (link.free + link.used)

/-- How a capacity is split does not matter. -/
theorem Fitting.of_unloaded (fitting : net.Fitting w) (same : net.unloaded = next.unloaded) :
    next.Fitting w := by
  intro k link held
  obtain ⟨twin, found, equal⟩ := link_of_unloaded same.symm held
  have capacities : twin.free + twin.used = link.free + link.used := by injection equal
  rw [← capacities]
  exact fitting k twin found

private theorem Fitting.attached {tail head : Nat} {capacity cost : Int} (fitting : net.Fitting w)
    (fits : w.Fits capacity) : (net.attached tail head capacity cost).Fitting w := by
  intro k link held
  simp only [Network.attached, Array.getElem?_push] at held
  split at held
  · cases held
    rwa [Int.add_zero]
  · exact fitting k link held

private theorem Fitting.push (fitting : net.Fitting w) (pushed : net.push w id amount = .ok next) :
    next.Fitting w := by
  obtain ⟨-, -, rfl⟩ := push_eq_ok pushed
  exact fitting.of_unloaded (unloaded_pushed net id amount).symm

/-- Capacities are amounts that some caller had, and no flow changes them. -/
theorem Made.fitting (made : Made w net offers) : net.Fitting w := by
  induction made with
  | ofNodes nodes =>
    intro k link held
    simp [Network.ofNodes] at held
  | insertNode _ fitting => exact fitting
  | @insertLink net next offers offer id _ fits _ inserted fitting =>
    obtain ⟨-, same⟩ := (insertLink_ends w net offer.tail offer.head offer.capacity
      offer.cost).of_ok inserted
    cases same
    exact fitting.attached fits
  | push _ pushed fitting => exact fitting.push pushed
  | ship _ shipped fitting =>
    exact ship_keeps (fun _ _ _ _ fitting pushed => fitting.push pushed) fitting shipped
  | @route net offers router order run made ran fitting =>
    exact fitting.of_unloaded ((Router.route_ends w made.sound router order).of_ok ran).2.symm

private theorem link_double (held : net.links[k]? = some link) : net.link (2 * k) = .ok link :=
  link_eq_ok_iff.mpr (by rwa [Nat.mul_div_cancel_left k (by decide)])

theorem flow_double (held : net.links[k]? = some link) : net.flow (2 * k) = .ok link.used := by
  rw [flow, Arc.along_double, if_pos rfl, link_double held]
  rfl

/-- The capacity of a link is what is free and what is used. -/
theorem capacity_double (held : net.links[k]? = some link) :
    net.capacity w (2 * k) = w.add link.free link.used := by
  rw [capacity, Arc.along_double, if_pos rfl, link_double held]
  rfl

/-- Every link carries something between nothing and its capacity. -/
def WithinCapacity (w : Width) (net : Network) : Prop :=
  ∀ id ∈ net.forwardArcs, ∃ flow capacity, net.flow id = .ok flow ∧
    net.capacity w id = .ok capacity ∧ 0 ≤ flow ∧ flow ≤ capacity

theorem Sound.withinCapacity (sound : net.Sound) (fitting : net.Fitting w) :
    net.WithinCapacity w := by
  intro id along
  obtain ⟨k, within, rfl⟩ := List.mem_map.mp along
  rw [List.mem_range] at within
  have held : net.links[k]? = some net.links[k] := Array.getElem?_eq_getElem within
  have bounds := sound.bounded k _ held
  refine ⟨_, _, flow_double held, ?_, bounds.2, Int.le_add_of_nonneg_left bounds.1⟩
  rw [capacity_double held]
  exact Width.keep_eq_ok_iff.mpr ⟨rfl, fitting k _ held⟩

/-- Of two networks the second differs from the first in its flow alone: it has the same
nodes, the same arcs in the same rows and in the same pairs, and the same capacities. -/
structure SameButFlow (w : Width) (first second : Network) : Prop where
  nodes : second.nodes = first.nodes
  arcs : second.arcs = first.arcs
  outgoing : ∀ node, second.outgoing node = first.outgoing node
  arc : ∀ id arc, first.arc id = .ok arc → ∃ twin, second.arc id = .ok twin ∧
    twin.tail = arc.tail ∧ twin.head = arc.head ∧ twin.cost = arc.cost
  mate : ∀ id arc, second.arc id = .ok arc → ∃ mate, second.arc (Arc.mate id) = .ok mate ∧
    mate.tail = arc.head ∧ mate.head = arc.tail ∧ mate.cost = -arc.cost
  capacity : ∀ id, second.capacity w id = first.capacity w id

theorem arcs_eq_of_unloaded (same : net.unloaded = other.unloaded) : net.arcs = other.arcs := by
  have links : net.links.map Link.unloaded = other.links.map Link.unloaded := by
    injection same
  have sizes := congrArg Array.size links
  rw [Array.size_map, Array.size_map] at sizes
  rw [arcs, arcs, sizes]

private theorem capacity_eq_of_unloaded (same : net.unloaded = other.unloaded) (id : Nat) :
    net.capacity w id = other.capacity w id := by
  unfold capacity
  split
  · cases held : net.links[id / 2]? with
    | some link =>
      obtain ⟨twin, found, equal⟩ := link_of_unloaded same held
      have capacities : twin.free + twin.used = link.free + link.used := by injection equal
      rw [link_eq_ok_iff.mpr held, link_eq_ok_iff.mpr found]
      change w.keep .addition _ = w.keep .addition _
      rw [capacities]
    | none =>
      have beyond : other.links[id / 2]? = none := by
        rw [← Option.not_isSome_iff_eq_none]
        intro present
        obtain ⟨twin, found⟩ := Option.isSome_iff_exists.mp present
        obtain ⟨link, again, -⟩ := link_of_unloaded same.symm found
        rw [held] at again
        cases again
      simp [Network.link, held, beyond, arcs_eq_of_unloaded same]
  · rfl

private theorem sameButFlow_of_unloaded (w : Width) (same : net.unloaded = other.unloaded) :
    net.SameButFlow w other where
  nodes := (nodes_eq_of_unloaded same).symm
  arcs := (arcs_eq_of_unloaded same).symm
  outgoing node := by rw [Network.outgoing, Network.outgoing, rows_eq_of_unloaded same]
  arc _ _ held := arc_of_unloaded same held
  mate _ _ held := arc_mate held
  capacity id := (capacity_eq_of_unloaded same id).symm

end Network

namespace Router

variable {w : Width} {net : Network} {offers : List Offer} {router : Router} {order : Order}
  {run : Run}

theorem blamesInput_of_orderRefusal? {refusal : Refusal}
    (refused : orderRefusal? net order = some refusal) : refusal.blamesInput = true := by
  unfold orderRefusal? at refused
  split_ifs at refused <;> cases refused <;> rfl

/-- What the books of a run show as delivered was brought from the source to the sink, if
the order was not refused as malformed. -/
theorem Concluded.brings (concluded : router.Concluded net order run)
    (formed : ∀ refusal, run.answer = .error refusal → refusal.blamesInput = false) :
    net.Brings net.carried run.net.carried order.source order.sink run.router.delivered := by
  have still : net.Brings net.carried net.carried order.source order.sink 0 := fun _ => by simp
  obtain ⟨refusal, refused, rfl⟩ |
    ⟨-, ⟨rfl, -⟩ | ⟨-, ⟨node, rfl, -⟩ | ⟨ending, rfl, valid, -⟩⟩⟩ := concluded
  · cases (blamesInput_of_orderRefusal? refused).symm.trans (formed refusal rfl)
  · exact still
  · exact still
  · exact valid.brought

end Router

namespace Network

/-- A short cut in the middle that the first unit takes and the second has to give back:
the cheap way through it blocks both of the others. -/
def crossing (near far cut : Int) : Network :=
  ⟨#[⟨0, 1, 1, 1 - near, near⟩, ⟨0, 2, 5, 1 - far, far⟩, ⟨1, 2, 1, 1 - cut, cut⟩,
      ⟨1, 3, 5, 1 - far, far⟩, ⟨2, 3, 1, 1 - near, near⟩],
    #[#[0, 2], #[1, 4, 6], #[3, 5, 8], #[7, 9]]⟩

theorem crossing_made : Made ⟨7⟩ (crossing 0 0 0)
    [⟨0, 1, 1, 1⟩, ⟨0, 2, 1, 5⟩, ⟨1, 2, 1, 1⟩, ⟨1, 3, 1, 5⟩, ⟨2, 3, 1, 1⟩] := by
  have inserted : insertOffers ⟨7⟩ (.ofNodes 4)
      [⟨0, 1, 1, 1⟩, ⟨0, 2, 1, 5⟩, ⟨1, 2, 1, 1⟩, ⟨1, 3, 1, 5⟩, ⟨2, 3, 1, 1⟩] =
      .ok (.ok (crossing 0 0 0)) := by decide
  exact .insertOffers (.ofNodes 4) (by decide) inserted

end Network

namespace Router

variable {w : Width} {net : Network} {offers : List Offer} {router : Router} {order : Order}
  {run : Run}

/-- Whatever a run ended in, every link carries something between nothing and its
capacity, the network is the same but for its flow, and unless the order was refused as
malformed, the outflow of the source has grown by what was delivered, that of the sink has
shrunk by as much, and all others are as before. -/
theorem route_conserves (made : Network.Made w net offers)
    (ran : (router.route w net order).result = .ok run) :
    run.net.WithinCapacity w ∧ net.SameButFlow w run.net ∧
      ((∀ refusal, run.answer = .error refusal → refusal.blamesInput = false) →
        ∀ node, run.net.outflow run.net.carried node = net.outflow net.carried node +
          (if node = order.source then run.router.delivered else 0) -
          (if node = order.sink then run.router.delivered else 0)) := by
  obtain ⟨sound, same⟩ := (route_ends w made.sound router order).of_ok ran
  refine ⟨sound.withinCapacity (made.fitting.of_unloaded same.symm),
    Network.sameButFlow_of_unloaded w same.symm, fun formed node => ?_⟩
  rw [Network.outflow_of_unloaded same]
  exact ((route_concludes w made.sound router order).of_ok ran).brings formed node

theorem route_conserves_crossing :
    (Network.crossing 1 1 0).WithinCapacity ⟨7⟩ ∧
      (Network.crossing 0 0 0).SameButFlow ⟨7⟩ (Network.crossing 1 1 0) ∧
      (Network.crossing 1 1 0).outflow (Network.crossing 1 1 0).carried 3 =
        (Network.crossing 0 0 0).outflow (Network.crossing 0 0 0).carried 3 + 0 - 2 := by
  have ran : (({} : Router).route ⟨7⟩ (Network.crossing 0 0 0) ⟨0, 3, 2⟩).result =
      .ok ⟨⟨none, 2, 2, #[0, 4, 5, 9]⟩, Network.crossing 1 1 0, .ok (.optimal 12)⟩ := by
    with_unfolding_all rfl
  obtain ⟨within, same, moved⟩ := route_conserves Network.crossing_made ran
  exact ⟨within, same, moved (fun _ refused => by cases refused) 3⟩

end Router

end Transshipment
