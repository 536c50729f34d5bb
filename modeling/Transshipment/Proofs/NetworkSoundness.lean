import Mathlib.Tactic.SplitIfs
import Transshipment.Proofs.Endings
import Transshipment.Specification

/-! What every operation on a network keeps: links join nodes of the network,
neither capacity of a link is negative, and the row of a node lists exactly the
arcs that leave it. A push changes nothing but the split of one capacity, so all
else is read off the network with its flow taken back. -/
namespace Transshipment

namespace Arc

@[simp] theorem along_double (k : Nat) : along (2 * k) = true := by simp [along]

@[simp] theorem along_double_succ (k : Nat) : along (2 * k + 1) = false := by
  simp [along, Nat.add_mod]

theorem mate_half (id : Nat) : mate id / 2 = id / 2 := by
  unfold mate along
  split <;> rename_i parity <;> simp at parity <;> omega

theorem along_mate (id : Nat) : along (mate id) = !along id := by
  unfold mate
  cases parity : along id <;> simp [along] at parity ⊢ <;> omega

theorem mate_mate (id : Nat) : mate (mate id) = id := by
  unfold mate along
  split <;> rename_i parity <;> simp at parity <;> split <;> rename_i other <;> simp at other <;>
    omega

theorem mate_ne (id : Nat) : mate id ≠ id := by
  intro same
  have other := along_mate id
  rw [same] at other
  simp at other

/-- A link has no more than its two arcs. -/
theorem eq_or_eq_mate_of_half (same : first / 2 = second / 2) :
    first = second ∨ first = mate second := by
  unfold mate along
  split <;> rename_i parity <;> simp at parity <;> omega

end Arc

namespace Link

/-- The link with its flow taken back. -/
def unloaded (link : Link) : Link := { link with free := link.free + link.used, used := 0 }

/-- The link after an amount went over one of its arcs. -/
def moved (link : Link) (along : Bool) (amount : Int) : Link :=
  match along with
  | true => { link with free := link.free - amount, used := link.used + amount }
  | false => { link with free := link.free + amount, used := link.used - amount }

@[simp] theorem unloaded_moved (link : Link) (along : Bool) (amount : Int) :
    (link.moved along amount).unloaded = link.unloaded := by
  cases along <;> simp only [moved, unloaded, mk.injEq, true_and, and_true] <;> omega

private theorem arc_tail_unloaded (link : Link) (along : Bool) :
    (link.unloaded.arc along).tail = (link.arc along).tail := by
  cases along <;> rfl

private theorem arc_head_unloaded (link : Link) (along : Bool) :
    (link.unloaded.arc along).head = (link.arc along).head := by
  cases along <;> rfl

private theorem arc_cost_unloaded (link : Link) (along : Bool) :
    (link.unloaded.arc along).cost = (link.arc along).cost := by
  cases along <;> rfl

/-- The arc that was walked loses the amount. -/
theorem residual_moved_self (link : Link) (along : Bool) (amount : Int) :
    ((link.moved along amount).arc along).residual = (link.arc along).residual - amount := by
  cases along <;> rfl

/-- A shift takes from one side and gives to the other. -/
theorem shift_eq (w : Width) (link : Link) (along : Bool) (amount : Int) :
    link.shift w along amount = (do
      let _ ← w.sub (link.arc along).residual amount
      let _ ← w.add (link.arc !along).residual amount
      return link.moved along amount) := by
  unfold shift
  cases along
  all_goals
    refine Checked.bind_congr_of_ok fun left taken => ?_
    obtain rfl := (Width.keep_eq_ok_iff.mp taken).1
    refine Checked.bind_congr_of_ok fun given added => ?_
    obtain rfl := (Width.keep_eq_ok_iff.mp added).1
    rfl

private theorem shift_ends {w : Width} {breaks : Fault → Prop} {link : Link} {along : Bool}
    {amount : Int} (free : w.Keeps breaks (link.moved along amount).free)
    (used : w.Keeps breaks (link.moved along amount).used) :
    Checked.Ends (link.shift w along amount) breaks (· = link.moved along amount) := by
  cases along with
  | true =>
    apply free.sub.bind
    rintro _ rfl
    apply used.add.bind
    rintro _ rfl
    exact rfl
  | false =>
    apply used.sub.bind
    rintro _ rfl
    apply free.add.bind
    rintro _ rfl
    exact rfl

end Link

namespace Network

/-- The network with all its flow taken back. -/
def unloaded (net : Network) : Network := { net with links := net.links.map Link.unloaded }

variable {net other next : Network} {id k node tail head : Nat} {link : Link} {arc : Arc}
  {capacity cost amount : Int} {w : Width}

theorem rows_eq_of_unloaded (same : net.unloaded = other.unloaded) :
    net.rows = other.rows := by
  injection same

theorem nodes_eq_of_unloaded (same : net.unloaded = other.unloaded) :
    net.nodes = other.nodes :=
  congrArg Array.size (rows_eq_of_unloaded same)

@[simp] theorem nodes_insertNode (net : Network) : net.insertNode.2.nodes = net.nodes + 1 := by
  simp [insertNode, nodes]

theorem link_of_unloaded (same : net.unloaded = other.unloaded)
    (held : net.links[k]? = some link) :
    ∃ twin, other.links[k]? = some twin ∧ twin.unloaded = link.unloaded := by
  have entries : (net.links.map Link.unloaded)[k]? = (other.links.map Link.unloaded)[k]? :=
    congrArg (fun net => net.links[k]?) same
  rw [Array.getElem?_map, Array.getElem?_map, held, Option.map_some] at entries
  obtain ⟨twin, found, equal⟩ := Option.map_eq_some_iff.mp entries.symm
  exact ⟨twin, found, equal⟩

theorem link_eq_ok_iff : net.link id = .ok link ↔ net.links[id / 2]? = some link := by
  unfold Network.link
  cases net.links[id / 2]? <;> simp

theorem arc_eq_ok_iff :
    net.arc id = .ok arc ↔
      ∃ link, net.links[id / 2]? = some link ∧ link.arc (Arc.along id) = arc := by
  unfold Network.arc Network.link
  cases net.links[id / 2]? <;> simp [bind, Except.bind, pure, Except.pure]

/-- The arc along a link. -/
theorem arc_double (held : net.links[k]? = some link) :
    net.arc (2 * k) = .ok (link.arc true) :=
  arc_eq_ok_iff.mpr ⟨link, by rwa [Nat.mul_div_cancel_left k (by decide)], by simp⟩

/-- The arc against it. -/
theorem arc_double_succ (held : net.links[k]? = some link) :
    net.arc (2 * k + 1) = .ok (link.arc false) :=
  arc_eq_ok_iff.mpr ⟨link, by rwa [show (2 * k + 1) / 2 = k by omega], by simp⟩

/-- Networks that differ in their flow alone have the same arcs but for the
residual capacities. -/
theorem arc_of_unloaded (same : net.unloaded = other.unloaded)
    (held : net.arc id = .ok arc) :
    ∃ twin, other.arc id = .ok twin ∧ twin.tail = arc.tail ∧ twin.head = arc.head ∧
      twin.cost = arc.cost := by
  obtain ⟨link, found, rfl⟩ := arc_eq_ok_iff.mp held
  obtain ⟨twin, twinFound, equal⟩ := link_of_unloaded same found
  refine ⟨twin.arc (Arc.along id), arc_eq_ok_iff.mpr ⟨twin, twinFound, rfl⟩, ?_, ?_, ?_⟩
  · rw [← Link.arc_tail_unloaded, equal, Link.arc_tail_unloaded]
  · rw [← Link.arc_head_unloaded, equal, Link.arc_head_unloaded]
  · rw [← Link.arc_cost_unloaded, equal, Link.arc_cost_unloaded]

/-- The two arcs of a link run in opposite directions at opposite costs. -/
theorem arc_mate (held : net.arc id = .ok arc) :
    ∃ mate, net.arc (Arc.mate id) = .ok mate ∧ mate.tail = arc.head ∧ mate.head = arc.tail ∧
      mate.cost = -arc.cost := by
  obtain ⟨link, found, rfl⟩ := arc_eq_ok_iff.mp held
  refine ⟨link.arc (!Arc.along id), arc_eq_ok_iff.mpr ⟨link, ?_, ?_⟩, ?_⟩
  · rw [Arc.mate_half, found]
  · rw [Arc.along_mate]
  · cases Arc.along id <;> simp [Link.arc]

/-- The state in which every operation finds and leaves a network. -/
structure Sound (net : Network) : Prop where
  /-- A link joins two nodes. -/
  ends : ∀ (k : Nat) link, net.links[k]? = some link → link.tail < net.nodes ∧ link.head < net.nodes
  /-- Neither of its arcs has less than no capacity. -/
  bounded : ∀ (k : Nat) link, net.links[k]? = some link → 0 ≤ link.free ∧ 0 ≤ link.used
  /-- The row of a node lists exactly the arcs that leave it. -/
  rows : ∀ node row, net.rows[node]? = some row →
    ∀ id, id ∈ row ↔ ∃ arc, net.arc id = .ok arc ∧ arc.tail = node

namespace Sound

theorem arc_ends (sound : net.Sound) (held : net.arc id = .ok arc) :
    arc.tail < net.nodes ∧ arc.head < net.nodes := by
  obtain ⟨link, found, rfl⟩ := arc_eq_ok_iff.mp held
  have ends := sound.ends _ link found
  cases Arc.along id with
  | true => exact ends
  | false => exact ⟨ends.2, ends.1⟩

theorem residual_nonneg (sound : net.Sound) (held : net.arc id = .ok arc) : 0 ≤ arc.residual := by
  obtain ⟨link, found, rfl⟩ := arc_eq_ok_iff.mp held
  have bounded := sound.bounded _ link found
  cases Arc.along id with
  | true => exact bounded.1
  | false => exact bounded.2

/-- The arcs out of a node can be fetched, and they are those of its row. -/
theorem outgoing (sound : net.Sound) (within : node < net.nodes) :
    ∃ row, net.outgoing node = .ok row ∧
      ∀ id, id ∈ row.toList ↔ ∃ arc, net.arc id = .ok arc ∧ arc.tail = node := by
  have held : net.rows[node]? = some net.rows[node] := Array.getElem?_eq_getElem within
  refine ⟨_, fetch_of_getElem? held, fun id => ?_⟩
  rw [Array.mem_toList_iff]
  exact sound.rows node _ held id

/-- Soundness survives every change of the flow that leaves no capacity
negative. -/
theorem of_unloaded (sound : net.Sound) (same : net.unloaded = next.unloaded)
    (bounded : ∀ (k : Nat) link, next.links[k]? = some link → 0 ≤ link.free ∧ 0 ≤ link.used) :
    next.Sound := by
  refine ⟨?_, bounded, ?_⟩
  · intro k link held
    obtain ⟨twin, found, equal⟩ := link_of_unloaded same.symm held
    have ends := sound.ends k twin found
    rw [← nodes_eq_of_unloaded same]
    have tails : twin.tail = link.tail := by injection equal
    have heads : twin.head = link.head := by injection equal
    exact ⟨tails ▸ ends.1, heads ▸ ends.2⟩
  · intro node row held id
    rw [← rows_eq_of_unloaded same] at held
    rw [sound.rows node row held id]
    constructor
    · rintro ⟨arc, found, leaves⟩
      obtain ⟨twin, twinFound, tail, _⟩ := arc_of_unloaded same found
      exact ⟨twin, twinFound, tail.trans leaves⟩
    · rintro ⟨arc, found, leaves⟩
      obtain ⟨twin, twinFound, tail, _⟩ := arc_of_unloaded same.symm found
      exact ⟨twin, twinFound, tail.trans leaves⟩

theorem ofNodes (nodes : Nat) : (Network.ofNodes nodes).Sound := by
  have noLink : ∀ k : Nat, (Network.ofNodes nodes).links[k]? = none := by
    simp [Network.ofNodes]
  refine ⟨?_, ?_, ?_⟩
  · intro k link held
    simp [noLink] at held
  · intro k link held
    simp [noLink] at held
  · intro node row held id
    have vacant : row = #[] := by
      simp only [Network.ofNodes, Array.getElem?_replicate] at held
      split at held <;> simp_all
    subst vacant
    constructor
    · intro member
      simp at member
    · rintro ⟨arc, found, _⟩
      obtain ⟨link, present, _⟩ := arc_eq_ok_iff.mp found
      simp [noLink] at present

/-- No arc leaves the new node, because links join older ones. -/
theorem insertNode (sound : net.Sound) : net.insertNode.2.Sound := by
  refine ⟨?_, sound.bounded, ?_⟩
  · intro k link held
    have ends := sound.ends k link held
    rw [nodes_insertNode]
    omega
  · intro node row held id
    simp only [Network.insertNode, Array.getElem?_push] at held
    split at held
    · rename_i fresh
      cases held
      constructor
      · intro member
        simp at member
      · rintro ⟨arc, found, leaves⟩
        have older := (sound.arc_ends found).1
        simp only [Network.nodes] at older
        omega
    · exact sound.rows node row held id

end Sound

/-- The network with one more link that carries nothing. -/
def attached (net : Network) (tail head : Nat) (capacity cost : Int) : Network :=
  ⟨net.links.push ⟨tail, head, cost, capacity, 0⟩,
    (net.rows.modify tail (·.push net.arcs)).modify head (·.push (net.arcs + 1))⟩

@[simp] theorem nodes_attached (net : Network) :
    (net.attached tail head capacity cost).nodes = net.nodes := by
  simp [attached, nodes]

theorem attach_ends (w : Width) (net : Network) (tail head : Nat) (capacity cost : Int) :
    Checked.Ends (net.attach w tail head capacity cost) Fault.IsOverflow
      (· = net.attached tail head capacity cost) := by
  apply (w.neg_ends Fault.isOverflow_overflow cost).bind
  rintro refund -
  exact rfl

/-- The new link has the next two arcs, and the older arcs stay. -/
theorem arc_attached :
    (net.attached tail head capacity cost).arc id = .ok arc ↔
      net.arc id = .ok arc ∨
        id = net.arcs ∧ arc = ⟨tail, head, capacity, cost⟩ ∨
        id = net.arcs + 1 ∧ arc = ⟨head, tail, 0, -cost⟩ := by
  rw [arc_eq_ok_iff, arc_eq_ok_iff]
  simp only [attached, Array.getElem?_push, arcs]
  by_cases last : id / 2 = net.links.size
  · have beyond : net.links[id / 2]? = none := by simp [last]
    obtain rfl | rfl : id = 2 * net.links.size ∨ id = 2 * net.links.size + 1 := by omega
    · simp [Link.arc, eq_comm]
    · simp [Link.arc, last, eq_comm]
  · have other : id ≠ 2 * net.links.size ∧ id ≠ 2 * net.links.size + 1 := by omega
    simp [last, other]

/-- The two arcs of a new link join the rows of the nodes that they leave. -/
theorem row_attached {row : Array Nat}
    (held : (net.attached tail head capacity cost).rows[node]? = some row) :
    ∃ older, net.rows[node]? = some older ∧ ∀ id, id ∈ row ↔
      id ∈ older ∨ (node = tail ∧ id = net.arcs) ∨ (node = head ∧ id = net.arcs + 1) := by
  simp only [Network.attached, Array.getElem?_modify] at held
  cases before : net.rows[node]? with
  | none => simp [before] at held
  | some older =>
    refine ⟨older, rfl, fun id => ?_⟩
    rw [before] at held
    by_cases isHead : head = node <;> by_cases isTail : tail = node <;>
      simp only [isHead, isTail, if_true, if_false, Option.map_some, Option.some.injEq] at held <;>
      subst held <;> simp [@eq_comm _ node, isHead, isTail, or_assoc]

theorem Sound.attached (sound : net.Sound) (tailWithin : tail < net.nodes)
    (headWithin : head < net.nodes) (capacityNonneg : 0 ≤ capacity) :
    (net.attached tail head capacity cost).Sound := by
  constructor
  case ends =>
    intro k link held
    rw [nodes_attached]
    simp only [Network.attached, Array.getElem?_push] at held
    split at held
    · cases held
      exact ⟨tailWithin, headWithin⟩
    · exact sound.ends k link held
  case bounded =>
    intro k link held
    simp only [Network.attached, Array.getElem?_push] at held
    split at held
    · cases held
      exact ⟨capacityNonneg, Int.le_refl 0⟩
    · exact sound.bounded k link held
  case rows =>
    intro node row held id
    obtain ⟨older, before, membership⟩ := row_attached held
    rw [membership, sound.rows node older before id]
    simp only [arc_attached]
    constructor
    · rintro (⟨arc, found, leaves⟩ | ⟨rfl, rfl⟩ | ⟨rfl, rfl⟩)
      · exact ⟨arc, .inl found, leaves⟩
      · exact ⟨_, .inr (.inl ⟨rfl, rfl⟩), rfl⟩
      · exact ⟨_, .inr (.inr ⟨rfl, rfl⟩), rfl⟩
    · rintro ⟨arc, found | ⟨rfl, rfl⟩ | ⟨rfl, rfl⟩, leaves⟩
      · exact .inl ⟨arc, found, leaves⟩
      · exact .inr (.inl ⟨leaves.symm, rfl⟩)
      · exact .inr (.inr ⟨leaves.symm, rfl⟩)

theorem linkRefusal?_eq_none_iff :
    net.linkRefusal? tail head capacity = none ↔
      tail < net.nodes ∧ head < net.nodes ∧ 0 ≤ capacity := by
  unfold linkRefusal?
  split_ifs <;> simp <;> omega

/-- A link is refused for a reason, or it is attached. -/
theorem insertLink_ends (w : Width) (net : Network) (tail head : Nat) (capacity cost : Int) :
    Checked.Ends (net.insertLink w tail head capacity cost) Fault.IsOverflow
      (Answered (net.linkRefusal? tail head capacity)
        (· = (net.arcs, net.attached tail head capacity cost))) := by
  unfold insertLink
  split
  · rename_i refusal refused
    exact refused
  · rename_i accepted
    apply (attach_ends w net tail head capacity cost).bind
    rintro _ rfl
    exact ⟨accepted, rfl⟩

theorem Sound.insertLink (sound : net.Sound)
    (inserted : net.insertLink w tail head capacity cost = .ok (.ok (id, next))) : next.Sound := by
  obtain ⟨accepted, same⟩ := (insertLink_ends w net tail head capacity cost).of_ok inserted
  cases same
  obtain ⟨tailWithin, headWithin, nonneg⟩ := linkRefusal?_eq_none_iff.mp accepted
  exact sound.attached tailWithin headWithin nonneg

/-- The network after an amount went over one arc. -/
def pushed (net : Network) (id : Nat) (amount : Int) : Network :=
  { net with links := net.links.modify (id / 2) (·.moved (Arc.along id) amount) }

theorem links_pushed (net : Network) (id : Nat) (amount : Int) (k : Nat) :
    (net.pushed id amount).links[k]? =
      if id / 2 = k then net.links[k]?.map (·.moved (Arc.along id) amount) else net.links[k]? := by
  simp [pushed, Array.getElem?_modify]

@[simp] theorem unloaded_pushed (net : Network) (id : Nat) (amount : Int) :
    (net.pushed id amount).unloaded = net.unloaded := by
  have entries : (net.pushed id amount).links.map Link.unloaded =
      net.links.map Link.unloaded := by
    apply Array.ext_getElem?
    intro k
    rw [Array.getElem?_map, Array.getElem?_map, links_pushed]
    split
    · cases net.links[k]? <;> simp
    · rfl
  exact congrArg (Network.mk · net.rows) entries

/-- A push that the arc has room for moves the amount, if the new split can be kept. -/
theorem push_ends {breaks : Fault → Prop} (nonneg : 0 ≤ amount)
    (held : net.arc id = .ok arc) (room : amount ≤ arc.residual)
    (kept : ∀ link, net.links[id / 2]? = some link →
      w.Keeps breaks (link.moved (Arc.along id) amount).free ∧
        w.Keeps breaks (link.moved (Arc.along id) amount).used) :
    Checked.Ends (net.push w id amount) breaks (· = net.pushed id amount) := by
  obtain ⟨link, found, rfl⟩ := arc_eq_ok_iff.mp held
  unfold push
  rw [if_neg (by omega)]
  apply Checked.ends_bind_of_ok (link_eq_ok_iff.mpr found)
  rw [if_neg (by omega)]
  obtain ⟨free, used⟩ := kept link found
  apply (Link.shift_ends free used).bind
  rintro _ rfl
  exact congrArg (Network.mk · net.rows)
    (setIfInBounds_eq_modify found (·.moved (Arc.along id) amount))

/-- A push that went through had room. -/
theorem room_of_push (ran : net.push w id amount = .ok next) :
    0 ≤ amount ∧ ∃ arc, net.arc id = .ok arc ∧ amount ≤ arc.residual := by
  unfold push at ran
  split at ran
  · cases ran
  · rename_i nonneg
    obtain ⟨link, found, ran⟩ := Checked.bind_eq_ok_iff.mp ran
    split at ran
    · cases ran
    · rename_i room
      refine ⟨by omega, link.arc (Arc.along id), ?_, by omega⟩
      unfold Network.arc
      rw [found]
      rfl

theorem push_eq_ok (ran : net.push w id amount = .ok next) :
    0 ≤ amount ∧ (∃ arc, net.arc id = .ok arc ∧ amount ≤ arc.residual) ∧
      next = net.pushed id amount := by
  obtain ⟨nonneg, arc, held, room⟩ := room_of_push ran
  have anyway := Width.keeps_of_overflows Fault.isOverflow_overflow w
  exact ⟨nonneg, ⟨arc, held, room⟩,
    (push_ends nonneg held room fun _ _ => ⟨anyway _, anyway _⟩).of_ok ran⟩

theorem Sound.pushed (sound : net.Sound) (nonneg : 0 ≤ amount)
    (held : net.arc id = .ok arc) (room : amount ≤ arc.residual) :
    (net.pushed id amount).Sound := by
  refine sound.of_unloaded (unloaded_pushed net id amount).symm ?_
  intro k link present
  rw [links_pushed] at present
  split at present
  · rename_i same
    subst same
    obtain ⟨before, found, rfl⟩ := Option.map_eq_some_iff.mp present
    have bounds := sound.bounded _ before found
    obtain ⟨_, again, rfl⟩ := arc_eq_ok_iff.mp held
    cases found.symm.trans again
    cases along : Arc.along id <;> simp only [along, Link.arc, Link.moved] at room ⊢ <;> omega
  · exact sound.bounded k link present

/-- Every amount that a link may hold on one of its sides is kept. -/
def Holds (w : Width) (breaks : Fault → Prop) (net : Network) : Prop :=
  ∀ (k : Nat) link, net.links[k]? = some link →
    ∀ amount, 0 ≤ amount → amount ≤ link.free + link.used → w.Keeps breaks amount

theorem Holds.of_unloaded {breaks : Fault → Prop} (holds : net.Holds w breaks)
    (same : net.unloaded = other.unloaded) : other.Holds w breaks := by
  intro k link held amount nonneg below
  obtain ⟨twin, found, equal⟩ := link_of_unloaded same.symm held
  have capacities : twin.free + twin.used = link.free + link.used := by injection equal
  exact holds k twin found amount nonneg (by omega)

/-- A push with room leaves both sides of its link with amounts that are kept. -/
theorem Holds.moved {breaks : Fault → Prop} (holds : net.Holds w breaks) (sound : net.Sound)
    (nonneg : 0 ≤ amount) (held : net.arc id = .ok arc) (room : amount ≤ arc.residual)
    (link : Link) (found : net.links[id / 2]? = some link) :
    w.Keeps breaks (link.moved (Arc.along id) amount).free ∧
      w.Keeps breaks (link.moved (Arc.along id) amount).used := by
  have after : (net.pushed id amount).links[id / 2]? = some (link.moved (Arc.along id) amount) := by
    rw [links_pushed, if_pos rfl, found, Option.map_some]
  obtain ⟨free, used⟩ := (sound.pushed nonneg held room).bounded _ _ after
  have capacities : (link.moved (Arc.along id) amount).free +
      (link.moved (Arc.along id) amount).used = link.free + link.used := by
    have equal := link.unloaded_moved (Arc.along id) amount
    injection equal
  exact ⟨holds _ link found _ free (by omega), holds _ link found _ used (by omega)⟩

theorem Sound.push (sound : net.Sound)
    (ran : net.push w id amount = .ok next) : next.Sound := by
  obtain ⟨nonneg, ⟨arc, held, room⟩, rfl⟩ := push_eq_ok ran
  exact sound.pushed nonneg held room

/-- A push touches no arc of another link. -/
theorem arc_pushed_of_ne {first : Nat} (other : first / 2 ≠ id / 2) :
    (net.pushed id amount).arc first = net.arc first := by
  unfold Network.arc Network.link
  rw [links_pushed, if_neg (Ne.symm other)]
  simp [pushed, Network.arcs]

/-- Where a push opens an arc, the arc is the mate of the one that was walked. -/
theorem open_of_pushed {first : Nat} (nonneg : 0 ≤ amount)
    (held : (net.pushed id amount).arc first = .ok arc) (isOpen : arc.Open) :
    (∃ before, net.arc first = .ok before ∧ before.Open ∧ before.tail = arc.tail ∧
      before.head = arc.head ∧ before.cost = arc.cost) ∨ first = Arc.mate id := by
  by_cases other : first / 2 = id / 2
  · obtain same | mate := Arc.eq_or_eq_mate_of_half other
    · subst same
      left
      obtain ⟨before, found, tail, head, cost⟩ :=
        arc_of_unloaded (unloaded_pushed net first amount) held
      refine ⟨before, found, ?_, tail, head, cost⟩
      obtain ⟨link, present, rfl⟩ := arc_eq_ok_iff.mp held
      rw [links_pushed, if_pos rfl] at present
      obtain ⟨older, earlier, rfl⟩ := Option.map_eq_some_iff.mp present
      obtain ⟨_, again, rfl⟩ := arc_eq_ok_iff.mp found
      cases earlier.symm.trans again
      unfold Arc.Open at isOpen ⊢
      rw [Link.residual_moved_self] at isOpen
      omega
    · exact .inr mate
  · rw [arc_pushed_of_ne other] at held
    exact .inl ⟨arc, held, isOpen, rfl, rfl, rfl⟩

end Network

end Transshipment
