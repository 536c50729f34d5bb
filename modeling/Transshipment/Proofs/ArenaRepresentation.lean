import Transshipment.Proofs.ArenaLayout
import Transshipment.Proofs.RequestAnswers

/-! What an arena stores after any requests. It lays out a network that was made by the accepted
links, and such a network files each link under its number and each arc in the row of its tail,
in the order of the numbers. -/
namespace Transshipment

namespace Network

variable {w : Width} {net next : Network} {ledger : Arena.Ledger} {offer : Offer}

/-- Each row lists its numbers in order, and all of them are less than the bound. -/
def Ordered (rows : Array (Array Nat)) (bound : Nat) : Prop :=
  ∀ (node : Nat) row, rows[node]? = some row →
    row.toList.Pairwise (· < ·) ∧ ∀ id ∈ row.toList, id < bound

/-- The next number comes last in its row. -/
theorem Ordered.enter {rows : Array (Array Nat)} {id : Nat} (ordered : Ordered rows id)
    (node : Nat) : Ordered (rows.modify node (·.push id)) (id + 1) := by
  intro place row held
  rw [Array.getElem?_modify] at held
  split at held
  case isTrue =>
    obtain ⟨older, before, rfl⟩ := Option.map_eq_some_iff.mp held
    obtain ⟨sorted, below⟩ := ordered place older before
    rw [Array.toList_push]
    constructor
    · refine List.pairwise_append.mpr ⟨sorted, List.pairwise_singleton _ id, ?_⟩
      intro other member last final
      rw [List.mem_singleton.mp final]
      exact below other member
    · intro other member
      rcases List.mem_append.mp member with earlier | last
      · exact Nat.lt_succ_of_lt (below other earlier)
      · rw [List.mem_singleton.mp last]
        exact Nat.lt_succ_self id
  case isFalse =>
    obtain ⟨sorted, below⟩ := ordered place row held
    exact ⟨sorted, fun other member => Nat.lt_succ_of_lt (below other member)⟩

/-- A link adds its flow at the tail and takes it away at the head. -/
theorem divergenceOver_ends (w : Width) (node : Nat) (sum : Int) (link : Link) :
    Checked.Ends (divergenceOver w node sum link) Fault.IsOverflow
      (· = sum + ((if link.tail = node then link.used else 0) -
        (if link.head = node then link.used else 0))) := by
  have left : Checked.Ends (if link.tail = node then w.add sum link.used else pure sum)
      Fault.IsOverflow (· = sum + if link.tail = node then link.used else 0) := by
    split
    · exact w.add_ends Fault.isOverflow_overflow sum link.used
    · exact (Int.add_zero sum).symm
  have steps : divergenceOver w node sum link =
      (if link.tail = node then w.add sum link.used else pure sum) >>= fun left =>
        if link.head = node then w.sub left link.used else pure left := by
    unfold divergenceOver
    by_cases tail : link.tail = node
    · simp only [if_pos tail]
    · simp only [if_neg tail]
  rw [steps]
  apply left.bind
  rintro _ rfl
  rw [← Int.add_sub_assoc]
  split
  · exact w.sub_ends Fault.isOverflow_overflow _ link.used
  · exact (Int.sub_zero _).symm

/-- The network has that many nodes and holds the offered links in their order, and its rows
are in order. -/
structure Files (net : Network) (ledger : Arena.Ledger) : Prop where
  sound : net.Sound
  nodes : net.nodes = ledger.nodes
  links : net.links.toList.map Link.unloaded = ledger.offers.map Offer.link
  ordered : Ordered net.rows net.arcs

namespace Files

theorem ofNodes (nodes : Nat) : (Network.ofNodes nodes).Files { nodes } where
  sound := .ofNodes nodes
  nodes := nodes_ofNodes nodes
  links := rfl
  ordered node row held := by
    simp only [Network.ofNodes, Array.getElem?_replicate] at held
    split at held <;> cases held
    simp

theorem insertNode (files : net.Files ledger) :
    net.insertNode.2.Files { ledger with nodes := ledger.nodes + 1 } where
  sound := files.sound.insertNode
  nodes := by rw [nodes_insertNode, files.nodes]
  links := files.links
  ordered node row held := by
    simp only [Network.insertNode, Array.getElem?_push] at held
    split at held
    · cases held
      simp
    · exact files.ordered node row held

theorem insertLink {id : Nat} (files : net.Files ledger)
    (inserted : net.insertLink w offer.tail offer.head offer.capacity offer.cost =
      .ok (.ok (id, next))) :
    next.Files { ledger with offers := ledger.offers ++ [offer] } := by
  have sound := files.sound.insertLink inserted
  obtain ⟨-, same⟩ := (insertLink_ends w net offer.tail offer.head offer.capacity
    offer.cost).of_ok inserted
  cases same
  refine ⟨sound, ?_, ?_, ?_⟩
  · rw [nodes_attached, files.nodes]
  · simp [Network.attached, files.links, Link.unloaded, Offer.link]
  · have arcs : (net.attached offer.tail offer.head offer.capacity offer.cost).arcs =
        net.arcs + 1 + 1 := by
      simp [Network.attached, Network.arcs, Nat.mul_add]
    rw [arcs]
    exact (files.ordered.enter offer.tail).enter offer.head

/-- A change of the flow leaves all in its place. -/
theorem of_unloaded (files : net.Files ledger) (same : net.unloaded = next.unloaded)
    (sound : next.Sound) : next.Files ledger where
  sound := sound
  nodes := (nodes_eq_of_unloaded same).symm.trans files.nodes
  links := (unloaded_toList same).symm.trans files.links
  ordered := rows_eq_of_unloaded same ▸ arcs_eq_of_unloaded same ▸ files.ordered

theorem push {id : Nat} {amount : Int} (files : net.Files ledger)
    (pushed : net.push w id amount = .ok next) : next.Files ledger := by
  have sound := files.sound.push pushed
  obtain ⟨-, -, rfl⟩ := push_eq_ok pushed
  exact files.of_unloaded (unloaded_pushed net id amount).symm sound

theorem ship {path : List Nat} {remaining : Int} {shipment : Shipment} (files : net.Files ledger)
    (shipped : net.ship w path remaining = .ok (shipment, next)) : next.Files ledger :=
  ship_keeps (fun _ _ _ _ filed pushed => Files.push filed pushed) files shipped

theorem route {router : Router} {order : Order} {run : Run} (files : net.Files ledger)
    (ran : (router.route w net order).result = .ok run) : run.net.Files ledger := by
  obtain ⟨sound, same⟩ := (Router.route_ends w files.sound router order).of_ok ran
  exact files.of_unloaded same.symm sound

end Files

end Network

namespace Arena

open Network (Files)

variable {w : Width} {arena : Arena} {net : Network} {ledger : Ledger} {node k : Nat}
  {link : Link}

/-- Whatever was asked of an arena and whatever was refused, it lays out a network that files
what was accepted and came about by it. -/
theorem Served.lays (served : Served w arena ledger) :
    ∃ net, arena.Lays net ∧ net.Files ledger ∧ Network.Made w net ledger.offers := by
  induction served with
  | ofNodes nodes => exact ⟨_, .ofNodes nodes, .ofNodes nodes, .ofNodes nodes⟩
  | addNode _ added ih =>
    obtain ⟨net, lays, files, made⟩ := ih
    obtain ⟨_, grown, onward, -⟩ := (added ▸ lays.addNode).of_ok
    cases grown
    exact ⟨_, onward, files.insertNode, made.insertNode⟩
  | @addLink arena next ledger offer answer _ capacity cost added ih =>
    obtain ⟨net, lays, files, made⟩ := ih
    obtain ⟨⟨after, _⟩, joined, onward, rfl⟩ := (added ▸ lays.addLink w offer).of_ok
    rw [Network.addLink_eq] at joined
    obtain ⟨rfl, _, rfl⟩ | ⟨_, rfl, inserted⟩ := InPlace.spared_cases joined
    · exact ⟨_, onward, files, made⟩
    · exact ⟨_, onward, files.insertLink inserted, made.insertLink capacity cost inserted⟩
  | @push arena next ledger id amount _ pushed ih =>
    obtain ⟨net, lays, files, made⟩ := ih
    obtain ⟨_, moved, onward⟩ := (pushed ▸ lays.push (w := w) id amount).of_ok
    exact ⟨_, onward, files.push moved, made.push moved⟩
  | @ship arena next ledger path remaining shipment _ shipped ih =>
    obtain ⟨net, lays, files, made⟩ := ih
    obtain ⟨_, sent, -, onward⟩ := (shipped ▸ lays.ship (w := w) path remaining).of_ok
    exact ⟨_, onward, files.ship sent, made.ship sent⟩
  | route _ ran ih =>
    obtain ⟨net, lays, files, made⟩ := ih
    obtain ⟨run, routed, -, onward, -⟩ :=
      (ran ▸ (Clerk.route_matches faithful_lays lays files.sound _ _).2).of_ok
    exact ⟨_, onward, files.route routed, made.route routed⟩

/-- An arena that came about by requests is read as a network that came about by operations. -/
theorem Served.made (served : Served w arena ledger) :
    Network.Made w arena.network ledger.offers := by
  obtain ⟨net, lays, -, made⟩ := served.lays
  rwa [lays.network_eq]

/-- What a link brings away from a node, as the arena stores it. -/
def share (arena : Arena) (node id : Nat) : Int :=
  match arena.halves[id]? with
  | none => 0
  | some half =>
    let flow := ((arena.halves[half.mate]?).map Half.residual).getD 0
    (if half.tail = node then flow else 0) - (if half.head = node then flow else 0)

/-- The exact divergence of a node. -/
def outflow (arena : Arena) (node : Nat) : Int := (arena.alongs.map (arena.share node)).sum

/-- What an arena stores, in terms of what its callers asked for. -/
structure Stores (w : Width) (arena : Arena) (ledger : Ledger) : Prop where
  nodes : arena.nodes = ledger.nodes
  rows : arena.rows.size = arena.nodes
  halves : arena.halves.size = 2 * ledger.offers.length
  /-- The halves of a link name each other, run in opposite directions between nodes of the
  arena at opposite costs, and share the capacity. -/
  pair : ∀ (k : Nat) offer, ledger.offers[k]? = some offer → ∃ along against,
    arena.halves[2 * k]? = some along ∧ arena.halves[2 * k + 1]? = some against ∧
    along.mate = 2 * k + 1 ∧ against.mate = 2 * k ∧
    along.tail = offer.tail ∧ along.head = offer.head ∧ along.cost = offer.cost ∧
    against.tail = along.head ∧ against.head = along.tail ∧ against.cost = -along.cost ∧
    along.tail < arena.nodes ∧ along.head < arena.nodes ∧
    0 ≤ along.residual ∧ 0 ≤ against.residual ∧
    along.residual + against.residual = offer.capacity
  row : ∀ (node : Nat) row, arena.rows[node]? = some row → row.toList.Pairwise (· < ·) ∧
    ∀ id, id ∈ row.toList ↔ ∃ half, arena.halves[id]? = some half ∧ half.tail = node
  divergence : ∀ node, Checked.Ends (arena.divergence w node) Fault.IsOverflow
    (· = arena.outflow node)
  conserved : ∑ node ∈ Finset.range arena.nodes, arena.outflow node = 0

namespace Lays

private theorem alongs_eq (lays : arena.Lays net) : arena.alongs = net.forwardArcs := by
  have size := lays.size
  unfold Arena.alongs Network.forwardArcs Network.arcs at *
  rw [show (arena.halves.size + 1) / 2 = net.links.size by omega]

private theorem share_eq (lays : arena.Lays net) (held : net.links[k]? = some link) (node : Nat) :
    arena.share node (2 * k) = (if link.tail = node then link.used else 0) -
      (if link.head = node then link.used else 0) := by
  obtain ⟨along, against⟩ := lays.halves_of_link held
  unfold share
  rw [along]
  simp only [against]
  rfl

/-- The exact divergence in the arena is that of the flow on the network. -/
theorem outflow_eq (lays : arena.Lays net) (node : Nat) :
    arena.outflow node = net.outflow net.carried node := by
  unfold Arena.outflow Network.outflow
  rw [lays.alongs_eq, Network.forwardArcs, List.map_map]
  refine congrArg List.sum (List.ext_getElem? fun k => ?_)
  have listed : net.links.toList[k]? = net.links[k]? := Array.getElem?_toList
  rw [List.getElem?_map, List.getElem?_map, List.getElem?_zipIdx, listed, Nat.zero_add]
  cases held : net.links[k]? with
  | none =>
    rw [List.getElem?_eq_none (by simpa using Array.getElem?_eq_none_iff.mp held)]
    rfl
  | some link =>
    have within : k < net.links.size := (Array.getElem?_eq_some_iff.mp held).1
    rw [List.getElem?_range within, Option.map_some, Option.map_some, Option.map_some,
      Function.comp_apply, lays.share_eq held]
    dsimp only
    rw [Network.carried_of_link held]

private theorem flow_eq (lays : arena.Lays net) (held : net.links[k]? = some link) :
    arena.flow (2 * k) = .ok link.used := by
  obtain ⟨along, against⟩ := lays.halves_of_link held
  unfold Arena.flow
  rw [Arc.along_double, if_pos rfl, fetch_of_getElem? along]
  change Except.map Half.residual (Transshipment.fetch arena.halves (2 * k + 1)) = _
  rw [fetch_of_getElem? against]
  rfl

private theorem divergenceOver_eq (lays : arena.Lays net) (held : net.links[k]? = some link)
    (sum : Int) :
    arena.divergenceOver w node sum (2 * k) = Network.divergenceOver w node sum link := by
  unfold Arena.divergenceOver Network.divergenceOver
  rw [fetch_of_getElem? (lays.halves_of_link held).1, lays.flow_eq held]
  rfl

/-- The divergence is the exact one, unless it overflows. -/
theorem divergence_ends (lays : arena.Lays net) (w : Width) (node : Nat) :
    Checked.Ends (arena.divergence w node) Fault.IsOverflow (· = arena.outflow node) := by
  unfold Arena.divergence Arena.outflow
  rw [← Int.zero_add (List.sum _)]
  refine Checked.ends_foldlM_sum _ arena.alongs (fun sum id member => ?_) 0
  rw [lays.alongs_eq] at member
  obtain ⟨k, within, rfl⟩ := List.mem_map.mp member
  rw [List.mem_range] at within
  have held : net.links[k]? = some net.links[k] := Array.getElem?_eq_getElem within
  rw [lays.share_eq held, lays.divergenceOver_eq held]
  exact Network.divergenceOver_ends w node sum _

private theorem stores (lays : arena.Lays net) (files : net.Files ledger) :
    arena.Stores w ledger := by
  have links : ledger.offers.length = net.links.size := by
    rw [← Array.length_toList, ← List.length_map Offer.link, ← files.links, List.length_map]
  constructor
  case nodes => exact lays.nodes.trans files.nodes
  case rows => exact (congrArg Array.size lays.rows).trans lays.nodes.symm
  case halves => rw [lays.size, links, Network.arcs]
  case pair =>
    intro k offer noted
    have listed : (net.links.toList.map Link.unloaded)[k]? = some offer.link := by
      rw [files.links, List.getElem?_map, noted, Option.map_some]
    rw [List.getElem?_map, Array.getElem?_toList] at listed
    obtain ⟨link, held, unloaded⟩ := Option.map_eq_some_iff.mp listed
    obtain ⟨along, against⟩ := lays.halves_of_link held
    have ends := files.sound.ends k link held
    have bounded := files.sound.bounded k link held
    obtain ⟨tail, head, cost, capacity, -⟩ := Link.mk.inj unloaded
    rw [← lays.nodes] at ends
    exact ⟨_, _, along, against, rfl, rfl, tail, head, cost, rfl, rfl, rfl, ends.1, ends.2,
      bounded.1, bounded.2, capacity⟩
  case row =>
    intro node row held
    rw [lays.rows] at held
    refine ⟨(files.ordered node row held).1, fun id => ?_⟩
    rw [Array.mem_toList_iff, files.sound.rows node row held id, lays.halves]
    simp only [Network.arc_eq_ok_iff]
    cases net.links[id / 2]? <;> simp [Link.half]
  case divergence => exact lays.divergence_ends w
  case conserved =>
    have sum := files.sound.sum_outflow (fun _ => 1) net.carried
    rw [weighed_eq_zero fun _ _ _ => by rw [sub_self, zero_mul]] at sum
    simpa only [lays.nodes, lays.outflow_eq, one_mul] using sum

end Lays

/-- Whatever was asked of an arena and whatever was refused, it stores what was accepted. -/
theorem served_stores (served : Served w arena ledger) : arena.Stores w ledger := by
  obtain ⟨net, lays, files, -⟩ := served.lays
  exact lays.stores files

/-- A loop at the first node, and a link to a node that was added later. -/
def looped (used : Int) : Arena :=
  ⟨2, #[⟨0, 0, 2, 1, 1⟩, ⟨0, 0, 0, -1, 0⟩, ⟨0, 1, 3 - used, 2, 3⟩, ⟨1, 0, used, -2, 2⟩],
    #[#[0, 1, 2], #[3]]⟩

/-- A link to a third node was refused, two units were shipped and one of them was pushed
back. -/
theorem served_stores_looped : (looped 1).Stores ⟨7⟩ ⟨2, [⟨0, 0, 2, 1⟩, ⟨0, 1, 3, 2⟩]⟩ := by
  have closed : (addLink ⟨7⟩ ⟨0, 0, 2, 1⟩ (.ofNodes 1)).result =
      .ok (⟨1, #[⟨0, 0, 2, 1, 1⟩, ⟨0, 0, 0, -1, 0⟩], #[#[0, 1]]⟩, .ok 0) := by
    with_unfolding_all rfl
  have grown : (addNode ⟨1, #[⟨0, 0, 2, 1, 1⟩, ⟨0, 0, 0, -1, 0⟩], #[#[0, 1]]⟩).result =
      .ok (⟨2, #[⟨0, 0, 2, 1, 1⟩, ⟨0, 0, 0, -1, 0⟩], #[#[0, 1], #[]]⟩, .ok 1) := by
    with_unfolding_all rfl
  have joined : (addLink ⟨7⟩ ⟨0, 1, 3, 2⟩
      ⟨2, #[⟨0, 0, 2, 1, 1⟩, ⟨0, 0, 0, -1, 0⟩], #[#[0, 1], #[]]⟩).result =
      .ok (looped 0, .ok 2) := by with_unfolding_all rfl
  have refused : (addLink ⟨7⟩ ⟨0, 2, 1, 1⟩ (looped 0)).result =
      .ok (looped 0, .error (.nodeOutOfRange 2 2)) := by with_unfolding_all rfl
  have shipped : (looped 0).ship ⟨7⟩ [2] 2 = .ok (⟨2, 4, 0, [2]⟩, looped 2) := by
    with_unfolding_all rfl
  have returned : (looped 2).push ⟨7⟩ 3 1 = .ok (looped 1) := by with_unfolding_all rfl
  exact served_stores <| (Served.ofNodes 1).addLink (by decide) (by decide) closed
    |>.addNode grown
    |>.addLink (by decide) (by decide) joined
    |>.addLink (by decide) (by decide) refused
    |>.ship shipped
    |>.push returned

end Arena

end Transshipment
