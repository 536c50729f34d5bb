import Transshipment.Arena
import Transshipment.Proofs.ClerkRuns

/-! An arena lays out a network. The half at each number is the arc with that number, its mate
is the other arc of the link, and every operation on the arena does to the network what the
operation of that name does there, with the same answers and the same faults. -/
namespace Transshipment

namespace Link

/-- The arc of a link as it is stored under its number. -/
def half (link : Link) (id : Nat) : Half :=
  let arc := link.arc (Arc.along id)
  ⟨arc.tail, arc.head, arc.residual, arc.cost, Arc.mate id⟩

private theorem residual_half_mate (link : Link) (id : Nat) :
    (link.half (Arc.mate id)).residual = (link.arc !Arc.along id).residual := by
  unfold half
  rw [Arc.along_mate]

/-- What was moved on a link was taken from the one half and given to the other. -/
theorem half_moved (link : Link) (id : Nat) (amount : Int) :
    (link.moved (Arc.along id) amount).half id =
      { link.half id with residual := (link.half id).residual - amount } ∧
    (link.moved (Arc.along id) amount).half (Arc.mate id) =
      { link.half (Arc.mate id) with residual := (link.half (Arc.mate id)).residual + amount } := by
  unfold half
  rw [Arc.along_mate]
  cases Arc.along id <;> exact ⟨rfl, rfl⟩

end Link

namespace Arena

open Checked (Matches)
open InPlace

/-- The arena stores the arcs of the network. -/
structure Lays (arena : Arena) (net : Network) : Prop where
  nodes : arena.nodes = net.nodes
  rows : arena.rows = net.rows
  halves : ∀ id : Nat, arena.halves[id]? = net.links[id / 2]?.map (·.half id)

variable {w : Width} {arena : Arena} {net : Network} {link : Link} {id k : Nat}

/-- A half is entered at the end of its row. -/
theorem enter_bind {node : Nat} {α : Type} (within : node < arena.rows.size) (id : Nat)
    (further : Unit → InPlace Arena α) : (enter node id >>= further) arena =
      further () { arena with rows := arena.rows.modify node (·.push id) } := by
  have held : arena.rows[node]? = some arena.rows[node] := Array.getElem?_eq_getElem within
  have entered : enter node id arena =
      ⟨[], .ok ({ arena with rows := arena.rows.modify node (·.push id) }, .ok ())⟩ := by
    unfold enter
    rw [read_bind, checked_bind, fetch_of_getElem? held, ← setIfInBounds_eq_modify held]
    rfl
  change InPlace.bind (enter node id) further arena = _
  unfold InPlace.bind
  rw [entered]
  rfl

namespace Lays

theorem ofNodes (nodes : Nat) : (Arena.ofNodes nodes).Lays (.ofNodes nodes) where
  nodes := by simp [Arena.ofNodes, Network.ofNodes, Network.nodes]
  rows := rfl
  halves id := by simp [Arena.ofNodes, Network.ofNodes]

/-- There are two halves for each link. -/
theorem size (lays : arena.Lays net) : arena.halves.size = net.arcs := by
  have beyond (id : Nat) : arena.halves.size ≤ id ↔ net.links.size ≤ id / 2 := by
    rw [← Array.getElem?_eq_none_iff, lays.halves, Option.map_eq_none_iff,
      Array.getElem?_eq_none_iff]
  have least := beyond arena.halves.size
  have most := beyond net.arcs
  have last := beyond (net.arcs - 1)
  unfold Network.arcs at *
  omega

private theorem fetch (lays : arena.Lays net) (id : Nat) :
    fetch arena.halves id = (·.half id) <$> net.link id := by
  unfold Transshipment.fetch Network.link
  rw [lays.halves, lays.size]
  cases net.links[id / 2]? <;> rfl

/-- Both halves of a link. -/
theorem halves_of_link (lays : arena.Lays net) (held : net.links[k]? = some link) :
    arena.halves[2 * k]? = some ⟨link.tail, link.head, link.free, link.cost, 2 * k + 1⟩ ∧
      arena.halves[2 * k + 1]? = some ⟨link.head, link.tail, link.used, -link.cost, 2 * k⟩ := by
  rw [lays.halves, lays.halves, Nat.mul_div_cancel_left k (by decide),
    show (2 * k + 1) / 2 = k by omega, held]
  simp [Link.half, Link.arc, Arc.mate]

/-- Where both halves of a link are written, the link is. -/
theorem written (lays : arena.Lays net) (within : id / 2 < net.links.size) (link : Link) :
    Lays
      ⟨arena.nodes, (arena.halves.setIfInBounds id (link.half id)).setIfInBounds (Arc.mate id)
        (link.half (Arc.mate id)), arena.rows⟩
      ⟨net.links.setIfInBounds (id / 2) link, net.rows⟩ := by
  have size := lays.size
  have half := Arc.mate_half id
  unfold Network.arcs at size
  refine ⟨lays.nodes, lays.rows, fun other => ?_⟩
  rw [Array.getElem?_setIfInBounds, Array.getElem?_setIfInBounds, Array.getElem?_setIfInBounds,
    Array.size_setIfInBounds]
  by_cases mate : Arc.mate id = other
  · subst mate
    rw [if_pos rfl, if_pos (by omega), if_pos half.symm, if_pos within, Option.map_some]
  by_cases itself : id = other
  · subst itself
    rw [if_neg mate, if_pos rfl, if_pos (by omega), if_pos rfl, if_pos within, Option.map_some]
  · have apart : id / 2 ≠ other / 2 := fun same => by
      rcases Arc.eq_or_eq_mate_of_half same.symm with rfl | rfl
      · exact itself rfl
      · exact mate rfl
    rw [if_neg mate, if_neg itself, if_neg apart, lays.halves]

/-- A push at the stored number of the mate is a push on the link. The first write is to the
other half, so the mate is found as it was. -/
theorem push (lays : arena.Lays net) (id : Nat) (amount : Int) :
    Matches Lays (arena.push w id amount) (net.push w id amount) := by
  unfold Arena.push Network.push
  by_cases negative : amount < 0
  · rw [if_pos negative, if_pos negative]
    exact rfl
  rw [if_neg negative, if_neg negative, lays.fetch]
  cases linked : net.link id with
  | error fault => exact rfl
  | ok link =>
    have found := Network.link_eq_ok_iff.mp linked
    have within : id / 2 < net.links.size := (Array.getElem?_eq_some_iff.mp found).1
    change Matches Lays (if (link.arc (Arc.along id)).residual < amount then _ else _)
      (if (link.arc (Arc.along id)).residual < amount then _ else _)
    by_cases narrow : (link.arc (Arc.along id)).residual < amount
    · rw [if_pos narrow, if_pos narrow]
      exact rfl
    rw [if_neg narrow, if_neg narrow]
    have mate (half : Half) : Transshipment.fetch (arena.halves.setIfInBounds id half)
        (link.half id).mate = .ok (link.half (Arc.mate id)) := by
      apply fetch_of_getElem?
      change (arena.halves.setIfInBounds id half)[Arc.mate id]? = _
      rw [Array.getElem?_setIfInBounds_ne (Arc.mate_ne id).symm, lays.halves, Arc.mate_half, found]
      rfl
    rw [Link.shift_eq, ← link.residual_half_mate, bind_assoc]
    refine Checked.matches_bind fun left taken => ?_
    obtain rfl := (Width.keep_eq_ok_iff.mp taken).1
    simp only [mate, bind_assoc]
    change Matches Lays (w.add (link.half (Arc.mate id)).residual amount >>= _) _
    refine Checked.matches_bind fun given added => ?_
    obtain rfl := (Width.keep_eq_ok_iff.mp added).1
    have after := lays.written within (link.moved (Arc.along id) amount)
    obtain ⟨itself, other⟩ := link.half_moved id amount
    rw [itself, other] at after
    exact after

/-- Both send the same amount at the same cost. -/
theorem ship (lays : arena.Lays net) (path : List Nat) (remaining : Int) :
    Matches (fun sent shipped => sent.1 = shipped.1 ∧ sent.2.Lays shipped.2)
      (arena.ship w path remaining) (net.ship w path remaining) := by
  have bottleneck : arena.bottleneck path remaining = net.bottleneck path remaining := by
    unfold Arena.bottleneck Network.bottleneck
    refine congrArg (List.foldlM · remaining path) (funext fun least => funext fun id => ?_)
    rw [lays.fetch, Network.arc, bind_map_left, bind_assoc]
    rfl
  unfold Arena.ship Network.ship
  rw [bottleneck]
  refine Checked.matches_bind fun amount _ => ?_
  split
  · exact rfl
  have sent : Matches (fun sent shipped => sent.1.Lays shipped.1 ∧ sent.2 = shipped.2)
      (path.foldlM (Arena.traverse w amount) (arena, 0))
      (path.foldlM (Network.traverse w amount) (net, 0)) := by
    refine Checked.matches_foldlM ?_ path ⟨lays, rfl⟩
    rintro id ⟨arena, cost⟩ ⟨net, other⟩ ⟨lays, rfl⟩
    refine (lays.push id amount).bind fun next after onward => ?_
    rw [onward.fetch, Network.arc, bind_map_left, bind_assoc]
    refine Checked.matches_bind fun link _ => ?_
    refine Checked.matches_bind fun share _ => ?_
    refine Checked.matches_bind fun total _ => ?_
    exact ⟨onward, rfl⟩
  refine sent.bind ?_
  rintro ⟨arena, cost⟩ ⟨net, other⟩ ⟨lays, rfl⟩
  exact Checked.matches_bind fun left _ => ⟨rfl, lays⟩

private theorem insertNode (lays : arena.Lays net) :
    Lays ⟨arena.nodes + 1, arena.halves, arena.rows.push #[]⟩ net.insertNode.2 where
  nodes := by rw [lays.nodes, Network.nodes_insertNode]
  rows := congrArg (Array.push · #[]) lays.rows
  halves := lays.halves

/-- The halves of a new link take the next two numbers. -/
theorem attached (lays : arena.Lays net) (tail head : Nat) (capacity cost : Int) :
    Lays
      ⟨arena.nodes, (arena.halves.push ⟨tail, head, capacity, cost, arena.halves.size + 1⟩).push
          ⟨head, tail, 0, -cost, arena.halves.size⟩,
        (arena.rows.modify tail (·.push arena.halves.size)).modify head
          (·.push (arena.halves.size + 1))⟩
      (net.attached tail head capacity cost) := by
  refine ⟨?_, ?_, fun id => ?_⟩
  · rw [Network.nodes_attached, lays.nodes]
  · rw [lays.rows, lays.size]
    rfl
  · have size := lays.size
    unfold Network.arcs at size
    change _ = (net.links.push _)[id / 2]?.map _
    rw [Array.getElem?_push, Array.getElem?_push, Array.getElem?_push, Array.size_push, size]
    by_cases against : id = 2 * net.links.size + 1
    · rw [if_pos against, if_pos (by omega), Option.map_some]
      subst against
      simp [Link.half, Link.arc, Arc.mate]
    by_cases along : id = 2 * net.links.size
    · rw [if_neg against, if_pos along, if_pos (by omega), Option.map_some]
      subst along
      simp [Link.half, Link.arc, Arc.mate]
    · rw [if_neg against, if_neg along, if_neg (by omega), lays.halves]

theorem addNode (lays : arena.Lays net) :
    Matches (fun left after => left.1.Lays after.1 ∧ left.2 = after.2)
      (Arena.addNode arena).result (Network.addNode net).result :=
  ⟨lays.insertNode, congrArg Except.ok lays.nodes⟩

theorem addLink (lays : arena.Lays net) (w : Width) (offer : Offer) :
    Matches (fun left after => left.1.Lays after.1 ∧ left.2 = after.2)
      (Arena.addLink w offer arena).result (Network.addLink w offer net).result := by
  have nodes := lays.nodes
  have size := lays.size
  have rows : arena.rows.size = net.nodes := congrArg Array.size lays.rows
  have joined := lays.attached offer.tail offer.head offer.capacity offer.cost
  unfold Arena.addLink Network.addLink
  simp only [read_bind, refuseIf_bind, checked_bind, write_bind]
  rw [nodes] at joined ⊢
  by_cases tail : net.nodes ≤ offer.tail
  · rw [if_pos tail, if_pos tail]
    exact ⟨lays, rfl⟩
  by_cases head : net.nodes ≤ offer.head
  · rw [if_neg tail, if_neg tail, if_pos head, if_pos head]
    exact ⟨lays, rfl⟩
  by_cases negative : offer.capacity < 0
  · rw [if_neg tail, if_neg tail, if_neg head, if_neg head, if_pos negative, if_pos negative]
    exact ⟨lays, rfl⟩
  simp only [if_neg tail, if_neg head, if_neg negative]
  cases refunded : w.neg offer.cost with
  | error fault => exact rfl
  | ok refund =>
    obtain rfl := (Width.keep_eq_ok_iff.mp refunded).1
    dsimp only
    rw [enter_bind (by dsimp only; omega), enter_bind (by simp; omega)]
    exact ⟨joined, congrArg Except.ok size⟩

/-- An arena is read as the network that it lays out. -/
theorem network_eq (lays : arena.Lays net) : arena.network = net := by
  have size := lays.size
  unfold Network.arcs at size
  have links : arena.network.links = net.links := by
    apply Array.ext_getElem?
    intro k
    unfold Arena.network
    rw [Array.getElem?_ofFn]
    by_cases within : k < net.links.size
    · have held : net.links[k]? = some net.links[k] := Array.getElem?_eq_getElem within
      obtain ⟨along, against⟩ := lays.halves_of_link held
      obtain ⟨_, along⟩ := Array.getElem?_eq_some_iff.mp along
      obtain ⟨_, against⟩ := Array.getElem?_eq_some_iff.mp against
      rw [dif_pos (by omega), held]
      simp only [along, against]
    · rw [dif_neg (by omega), Array.getElem?_eq_none (by omega)]
  exact congrArg₂ Network.mk links lays.rows

end Lays

/-- A clerk works on an arena as on the network. -/
theorem faithful_lays : Carrier.Faithful Lays where
  network lays := lays.network_eq
  ship lays _ path remaining := lays.ship path remaining

end Arena

end Transshipment
