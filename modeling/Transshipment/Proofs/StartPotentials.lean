import Mathlib.Data.Finset.Range
import Mathlib.Dynamics.PeriodicPts.Defs
import Transshipment.Network.Relaxation
import Transshipment.Proofs.CheapestWalks

/-! The start potentials price the network, or the refusal names a node on a
negative cycle. Each lowering is stamped with its sweep and its turn. A node that
was lowered in some sweep has a parent that was lowered in the sweep before or
later, so after as many sweeps as there are nodes the parents lead back into a
cycle; and along the parents no potential is cheaper than its link, one of them
being strictly dearer, so the cycle costs less than nothing. -/
namespace Transshipment

namespace Relaxation

/-- When a node was lowered last: the sweep, and the turn among all lowerings. A
node that was never lowered has zeros. -/
structure Stamp where
  sweep : Nat
  turn : Nat

/-- The potential of a node so far. -/
def price (r : Relaxation) (node : Nat) : Int := r.potentials.getD node 0

/-- An open arc from the parent accounts for the potential of the node, or for
more than that if the parent was lowered again since. -/
def Link (net : Network) (stamp : Nat → Stamp) (r : Relaxation) (parent node : Nat) : Prop :=
  (stamp node).sweep ≤ (stamp parent).sweep + 1 ∧
    ∃ id arc, net.arc id = .ok arc ∧ arc.Open ∧ arc.tail = parent ∧ arc.head = node ∧
      (r.price parent + arc.cost < r.price node ∨
        r.price parent + arc.cost = r.price node ∧ (stamp parent).turn < (stamp node).turn)

/-- The state within a sweep that still has some arcs due, after a number of
turns. -/
structure Lowers (net : Network) (sweep turns : Nat) (due : Nat → Prop) (stamp : Nat → Stamp)
    (r : Relaxation) : Prop where
  size : r.potentials.size = net.nodes ∧ r.parents.size = net.nodes
  /-- A potential is the cost of a walk. -/
  walked : ∀ node < net.nodes, ∃ source path, net.Walk source path node (r.price node)
  /-- The walk is no dearer than the empty one. -/
  capped : ∀ node, r.price node ≤ 0
  stamped : ∀ node, (stamp node).sweep ≤ sweep ∧ (stamp node).turn ≤ turns
  /-- A node that was lowered has a parent. -/
  led : ∀ node, 0 < (stamp node).sweep → ∃ parent, r.parents[node]? = some (some parent)
  linked : ∀ node parent, r.parents[node]? = some (some parent) → Link net stamp r parent node
  /-- An arc that could lower its head is due, or its tail was just lowered. -/
  settled : ∀ id arc, net.arc id = .ok arc → arc.Open →
    r.price arc.head ≤ r.price arc.tail + arc.cost ∨ sweep ≤ (stamp arc.tail).sweep ∨
      due id ∧ sweep ≤ (stamp arc.tail).sweep + 1
  last : ∀ node, r.lowered? = some node → node < net.nodes ∧ (stamp node).sweep = sweep
  quiet : r.lowered? = none → 0 < sweep → ∀ node, (stamp node).sweep < sweep

variable {net : Network} {r : Relaxation} {stamp : Nat → Stamp} {due next : Nat → Prop}
  {sweep turns id node parent : Nat} {arc : Arc}

private theorem Lowers.start (net : Network) :
    Lowers net 0 0 (fun _ => False) (fun _ => ⟨0, 0⟩) (Relaxation.start net.nodes) where
  size := by simp [Relaxation.start]
  walked node within := by
    refine ⟨node, [], ?_⟩
    simpa [price, Relaxation.start, Array.getD_eq_getD_getElem?, within] using Network.Walk.nil node
  capped node := by
    unfold price Relaxation.start
    rw [Array.getD_eq_getD_getElem?, Array.getElem?_replicate]
    split <;> simp
  stamped node := by simp
  led node lowered := by simp at lowered
  linked node parent held := by simp [Relaxation.start, Array.getElem?_replicate] at held
  settled id arc held isOpen := Or.inr (Or.inl (Nat.zero_le _))
  last node lowered := by simp [Relaxation.start] at lowered
  quiet _ positive := by simp at positive

/-- The next sweep has all arcs due. -/
theorem Lowers.resume (lowers : Lowers net sweep turns (fun _ => False) stamp r)
    (all : ∀ id arc, net.arc id = .ok arc → due id) :
    Lowers net (sweep + 1) turns due stamp { r with lowered? := none } where
  size := lowers.size
  walked := lowers.walked
  capped := lowers.capped
  stamped node := ⟨Nat.le_succ_of_le (lowers.stamped node).1, (lowers.stamped node).2⟩
  led := lowers.led
  linked := lowers.linked
  settled id arc held isOpen := by
    rcases lowers.settled id arc held isOpen with cheap | recent | ⟨absent, _⟩
    · exact Or.inl cheap
    · exact Or.inr (Or.inr ⟨all id arc held, Nat.succ_le_succ recent⟩)
    · exact absent.elim
  last node lowered := by simp at lowered
  quiet _ _ node := Nat.lt_succ_of_le (lowers.stamped node).1

private theorem Lowers.mono (lowers : Lowers net sweep turns due stamp r)
    (more : ∀ id, due id → next id) : Lowers net sweep turns next stamp r :=
  { lowers with
    settled := fun id arc held isOpen => (lowers.settled id arc held isOpen).imp_right <|
      Or.imp_right <| And.imp_left <| more id }

/-- An arc that is not open, or that offers no less, is no longer due. -/
theorem Lowers.skip (lowers : Lowers net sweep turns due stamp r)
    (rest : ∀ other, due other → next other ∨ other = id)
    (dear : ∀ arc, net.arc id = .ok arc → arc.Open →
      r.price arc.head ≤ r.price arc.tail + arc.cost) :
    Lowers net sweep turns next stamp r :=
  { lowers with
    settled := by
      intro other arc held isOpen
      rcases lowers.settled other arc held isOpen with cheap | recent | ⟨waits, recent⟩
      · exact Or.inl cheap
      · exact Or.inr (Or.inl recent)
      · rcases rest other waits with later | rfl
        · exact Or.inr (Or.inr ⟨later, recent⟩)
        · exact Or.inl (dear arc held isOpen) }

/-- The state after an arc lowered its head. -/
def lower (r : Relaxation) (arc : Arc) : Relaxation :=
  ⟨r.potentials.setIfInBounds arc.head (r.price arc.tail + arc.cost),
    r.parents.setIfInBounds arc.head (some arc.tail), some arc.head⟩

private theorem price_lower_self (within : arc.head < r.potentials.size) :
    (r.lower arc).price arc.head = r.price arc.tail + arc.cost := by
  simp [price, lower, Array.getD_eq_getD_getElem?, within]

private theorem price_lower_of_ne (other : node ≠ arc.head) :
    (r.lower arc).price node = r.price node := by
  simp [price, lower, Array.getD_eq_getD_getElem?, Array.getElem?_setIfInBounds_ne other.symm]

private theorem price_lower_le (within : arc.head < r.potentials.size)
    (cheaper : r.price arc.tail + arc.cost < r.price arc.head) (node : Nat) :
    (r.lower arc).price node ≤ r.price node := by
  by_cases here : node = arc.head
  · subst here
    rw [price_lower_self within]
    exact Int.le_of_lt cheaper
  · rw [price_lower_of_ne here]

private theorem parents_lower_self (within : arc.head < r.parents.size) :
    (r.lower arc).parents[arc.head]? = some (some arc.tail) := by
  simp [lower, within]

private theorem parents_lower_of_ne (other : node ≠ arc.head) :
    (r.lower arc).parents[node]? = r.parents[node]? := by
  rw [lower, Array.getElem?_setIfInBounds_ne other.symm]

/-- The stamps after an arc lowered its head. -/
def restamp (stamp : Nat → Stamp) (lowered sweep turn node : Nat) : Stamp :=
  if node = lowered then ⟨sweep, turn⟩ else stamp node

private theorem restamp_self (stamp : Nat → Stamp) (lowered sweep turn : Nat) :
    restamp stamp lowered sweep turn lowered = ⟨sweep, turn⟩ := if_pos rfl

private theorem restamp_of_ne {lowered turn : Nat} (other : node ≠ lowered) :
    restamp stamp lowered sweep turn node = stamp node := if_neg other

private theorem Link.lower (link : Link net stamp r parent node) (other : node ≠ arc.head)
    (stamped : (stamp arc.head).sweep ≤ sweep)
    (within : arc.head < r.potentials.size)
    (cheaper : r.price arc.tail + arc.cost < r.price arc.head) (turn : Nat) :
    Link net (restamp stamp arc.head sweep turn) (r.lower arc) parent node := by
  obtain ⟨recent, id, taken, held, isOpen, rfl, rfl, accounts⟩ := link
  refine ⟨?_, id, taken, held, isOpen, rfl, rfl, ?_⟩
  · rw [restamp_of_ne other]
    unfold restamp
    split
    · rename_i same
      rw [same] at recent
      exact Nat.le_trans recent (Nat.succ_le_succ stamped)
    · exact recent
  · rw [price_lower_of_ne other]
    by_cases same : taken.tail = arc.head
    · left
      rw [same, price_lower_self within]
      rw [same] at accounts
      omega
    · rw [price_lower_of_ne same, restamp_of_ne same, restamp_of_ne other]
      exact accounts

namespace Lowers

private theorem recent (lowers : Lowers net sweep turns due stamp r)
    (held : net.arc id = .ok arc) (isOpen : arc.Open)
    (cheaper : r.price arc.tail + arc.cost < r.price arc.head) :
    sweep ≤ (stamp arc.tail).sweep + 1 := by
  rcases lowers.settled id arc held isOpen with cheap | recent | ⟨-, recent⟩
  · omega
  · exact Nat.le_succ_of_le recent
  · exact recent

/-- The arc that lowers its head becomes the link to it. One that leads back to its tail pays
each time. -/
theorem link_lower (lowers : Lowers net sweep turns due stamp r)
    (within : arc.head < r.potentials.size) (held : net.arc id = .ok arc) (isOpen : arc.Open)
    (cheaper : r.price arc.tail + arc.cost < r.price arc.head) :
    Link net (restamp stamp arc.head sweep (turns + 1)) (r.lower arc) arc.tail arc.head := by
  refine ⟨?_, id, arc, held, isOpen, rfl, rfl, ?_⟩
  · rw [restamp_self]
    unfold restamp
    split
    · exact Nat.le_succ sweep
    · exact lowers.recent held isOpen cheaper
  · rw [price_lower_self within]
    by_cases loop : arc.tail = arc.head
    · left
      rw [loop, price_lower_self within, ← loop]
      rw [loop] at cheaper
      omega
    · right
      rw [price_lower_of_ne loop, restamp_self, restamp_of_ne loop]
      exact ⟨rfl, Nat.lt_succ_of_le (lowers.stamped arc.tail).2⟩

/-- The walk to the tail goes on over the arc. -/
theorem walked_lower (lowers : Lowers net sweep turns due stamp r) (sound : net.Sound)
    (within : arc.head < r.potentials.size) (held : net.arc id = .ok arc) (isOpen : arc.Open)
    (inside : node < net.nodes) :
    ∃ source path, net.Walk source path node ((r.lower arc).price node) := by
  by_cases here : node = arc.head
  · subst here
    obtain ⟨source, path, walk⟩ := lowers.walked arc.tail (sound.arc_ends held).1
    rw [price_lower_self within]
    exact ⟨source, path ++ [id], walk.snoc held isOpen⟩
  · rw [price_lower_of_ne here]
    exact lowers.walked node inside

private theorem stamped_lower (lowers : Lowers net sweep turns due stamp r) (lowered node : Nat) :
    (restamp stamp lowered sweep (turns + 1) node).sweep ≤ sweep ∧
      (restamp stamp lowered sweep (turns + 1) node).turn ≤ turns + 1 := by
  unfold restamp
  split
  · exact ⟨Nat.le_refl _, Nat.le_refl _⟩
  · exact ⟨(lowers.stamped node).1, Nat.le_succ_of_le (lowers.stamped node).2⟩

private theorem led_lower (lowers : Lowers net sweep turns due stamp r)
    (within : arc.head < r.parents.size)
    (lowered : 0 < (restamp stamp arc.head sweep (turns + 1) node).sweep) :
    ∃ parent, (r.lower arc).parents[node]? = some (some parent) := by
  by_cases here : node = arc.head
  · subst here
    exact ⟨arc.tail, parents_lower_self within⟩
  · rw [restamp_of_ne here] at lowered
    rw [parents_lower_of_ne here]
    exact lowers.led node lowered

private theorem linked_lower (lowers : Lowers net sweep turns due stamp r)
    (within : arc.head < r.potentials.size) (parented : arc.head < r.parents.size)
    (held : net.arc id = .ok arc) (isOpen : arc.Open)
    (cheaper : r.price arc.tail + arc.cost < r.price arc.head)
    (known : (r.lower arc).parents[node]? = some (some parent)) :
    Link net (restamp stamp arc.head sweep (turns + 1)) (r.lower arc) parent node := by
  by_cases here : node = arc.head
  · subst here
    cases (parents_lower_self parented).symm.trans known
    exact lowers.link_lower within held isOpen cheaper
  · rw [parents_lower_of_ne here] at known
    exact (lowers.linked node parent known).lower here (lowers.stamped _).1 within cheaper _

/-- An arc out of the lowered node may lower its head again, and this one does not. -/
theorem settled_lower (lowers : Lowers net sweep turns due stamp r)
    (rest : ∀ other, due other → next other ∨ other = id)
    (within : arc.head < r.potentials.size) (held : net.arc id = .ok arc)
    (cheaper : r.price arc.tail + arc.cost < r.price arc.head) {other : Nat} {further : Arc}
    (found : net.arc other = .ok further) (isOpen : further.Open) :
    (r.lower arc).price further.head ≤ (r.lower arc).price further.tail + further.cost ∨
      sweep ≤ (restamp stamp arc.head sweep (turns + 1) further.tail).sweep ∨
      next other ∧ sweep ≤ (restamp stamp arc.head sweep (turns + 1) further.tail).sweep + 1 := by
  by_cases recently : further.tail = arc.head
  · rw [recently, restamp_self]
    exact .inr (.inl (Nat.le_refl sweep))
  · rw [price_lower_of_ne recently, restamp_of_ne recently]
    have lower := price_lower_le within cheaper further.head
    rcases lowers.settled other further found isOpen with cheap | late | ⟨waits, late⟩
    · exact .inl (Int.le_trans lower cheap)
    · exact .inr (.inl late)
    · rcases rest other waits with later | rfl
      · exact .inr (.inr ⟨later, late⟩)
      · cases held.symm.trans found
        exact .inl (Int.le_of_eq (price_lower_self within))

/-- An open arc that offers less lowers its head in the next turn. -/
theorem lower (lowers : Lowers net sweep turns due stamp r) (sound : net.Sound)
    (rest : ∀ other, due other → next other ∨ other = id)
    (held : net.arc id = .ok arc) (isOpen : arc.Open)
    (cheaper : r.price arc.tail + arc.cost < r.price arc.head) :
    Lowers net sweep (turns + 1) next (restamp stamp arc.head sweep (turns + 1))
      (r.lower arc) := by
  have inside : arc.head < net.nodes := (sound.arc_ends held).2
  have within : arc.head < r.potentials.size := lowers.size.1.symm ▸ inside
  have parented : arc.head < r.parents.size := lowers.size.2.symm ▸ inside
  constructor
  case size => simpa [Relaxation.lower] using lowers.size
  case walked => exact fun node => lowers.walked_lower sound within held isOpen
  case capped =>
    exact fun node => Int.le_trans (price_lower_le within cheaper node) (lowers.capped node)
  case stamped => exact lowers.stamped_lower arc.head
  case led => exact fun node => lowers.led_lower parented
  case linked => exact fun node parent => lowers.linked_lower within parented held isOpen cheaper
  case settled => exact fun other further => lowers.settled_lower rest within held cheaper
  case last =>
    intro node lowered
    cases lowered
    exact ⟨inside, by rw [restamp_self]⟩
  case quiet =>
    intro lowered
    cases lowered

end Lowers

private theorem Lowers.fetch (lowers : Lowers net sweep turns due stamp r)
    (within : node < net.nodes) : fetch r.potentials node = .ok (r.price node) := by
  have inside : node < r.potentials.size := by rw [lowers.size.1]; exact within
  simp [Transshipment.fetch, price, inside, Array.getD_eq_getD_getElem?]

/-- The arcs out of some nodes. -/
def Leaving (net : Network) (nodes : List Nat) (id : Nat) : Prop :=
  ∃ arc, net.arc id = .ok arc ∧ arc.tail ∈ nodes

/-- What a relaxation may compute: the cost of a walk that is no dearer than the empty one,
continued by one arc. -/
def Tried (net : Network) (amount : Int) : Prop :=
  ∃ source path id arc cost, net.Walk source path arc.tail cost ∧ cost ≤ 0 ∧
    net.arc id = .ok arc ∧ arc.Open ∧ amount = cost + arc.cost

section Kept

variable {w : Width} {breaks : Fault → Prop}
  (kept : ∀ amount, Tried net amount → w.Keeps breaks amount)
include kept

private theorem relax_ends (sound : net.Sound) (lowers : Lowers net sweep turns due stamp r)
    (rest : ∀ other, due other → next other ∨ other = id) (held : net.arc id = .ok arc) :
    Checked.Ends (r.relax w net id) breaks fun after =>
      ∃ turns stamp, Lowers net sweep turns next stamp after := by
  have ends := sound.arc_ends held
  unfold relax
  apply Checked.ends_bind_of_ok held
  split
  · rename_i isOpen
    apply Checked.ends_bind_of_ok (lowers.fetch ends.1)
    obtain ⟨source, path, walk⟩ := lowers.walked arc.tail ends.1
    have tried := kept _ ⟨source, path, id, arc, _, walk, lowers.capped _, held, isOpen, rfl⟩
    apply tried.add.bind
    rintro offer rfl
    apply Checked.ends_bind_of_ok (lowers.fetch ends.2)
    split
    · rename_i cheaper
      exact ⟨_, _, lowers.lower sound rest held isOpen cheaper⟩
    · rename_i dear
      refine ⟨_, _, lowers.skip rest fun same found _ => ?_⟩
      obtain rfl : same = arc := Except.ok.inj (found.symm.trans held)
      exact Int.not_lt.mp dear
  · rename_i closed
    refine ⟨_, _, lowers.skip rest fun same found isOpen => ?_⟩
    obtain rfl : same = arc := Except.ok.inj (found.symm.trans held)
    exact absurd isOpen closed

/-- The arcs of one row, one after another. -/
theorem relaxRow_ends (sound : net.Sound) (ids : List Nat)
    (arcs : ∀ id ∈ ids, ∃ arc, net.arc id = .ok arc)
    (lowers : Lowers net sweep turns (fun id => id ∈ ids ∨ next id) stamp r) :
    Checked.Ends (ids.foldlM (relax w net) r) breaks fun after =>
      ∃ turns stamp, Lowers net sweep turns next stamp after := by
  refine (Checked.ends_foldlM
    (fun ids after => (∀ id ∈ ids, ∃ arc, net.arc id = .ok arc) ∧
      ∃ turns stamp, Lowers net sweep turns (fun id => id ∈ ids ∨ next id) stamp after)
    ?_ ids r ⟨arcs, turns, stamp, lowers⟩).weaken ?_
  · rintro id ids before ⟨arcs, turns, stamp, lowers⟩
    obtain ⟨arc, held⟩ := arcs id (by simp)
    refine (relax_ends kept sound lowers (fun other waits => ?_) held).weaken fun after lowers =>
      ⟨fun id member => arcs id (by simp [member]), lowers⟩
    rcases waits with member | later
    · rcases List.mem_cons.mp member with rfl | member
      · exact Or.inr rfl
      · exact Or.inl (Or.inl member)
    · exact Or.inl (Or.inr later)
  · rintro after ⟨-, turns, stamp, lowers⟩
    exact ⟨turns, stamp, lowers.mono fun id waits => by simpa using waits⟩

/-- A sweep leaves no arc due. -/
theorem sweep_ends (sound : net.Sound)
    (lowers : Lowers net sweep turns (fun _ => False) stamp r) :
    Checked.Ends (r.sweep w net) breaks fun after =>
      ∃ turns stamp, Lowers net (sweep + 1) turns (fun _ => False) stamp after := by
  refine (Checked.ends_foldlM
    (fun nodes after => (∀ node ∈ nodes, node < net.nodes) ∧
      ∃ turns stamp, Lowers net (sweep + 1) turns (Leaving net nodes) stamp after)
    ?_ _ _ ⟨fun node => List.mem_range.mp, turns, stamp, lowers.resume ?_⟩).weaken ?_
  · rintro node nodes before ⟨within, turns, stamp, lowers⟩
    obtain ⟨row, known, leave⟩ := sound.outgoing (within node (by simp))
    apply Checked.ends_bind_of_ok known
    refine (relaxRow_ends kept sound row.toList (fun id member => ?_)
      (lowers.mono fun id waits => ?_)).weaken fun after lowers =>
        ⟨fun node member => within node (by simp [member]), lowers⟩
    · obtain ⟨arc, held, -⟩ := (leave id).mp member
      exact ⟨arc, held⟩
    · obtain ⟨arc, held, member⟩ := waits
      rcases List.mem_cons.mp member with here | later
      · exact Or.inl ((leave id).mpr ⟨arc, held, here⟩)
      · exact Or.inr ⟨arc, held, later⟩
  · intro id arc held
    exact ⟨arc, held, List.mem_range.mpr (sound.arc_ends held).1⟩
  · rintro after ⟨-, turns, stamp, lowers⟩
    exact ⟨turns, stamp, lowers.mono fun id ⟨arc, _, member⟩ => by simp at member⟩

/-- Either a sweep found nothing to lower, or there was one for every node. -/
theorem sweeps_ends (sound : net.Sound) (budget : Nat)
    (lowers : Lowers net sweep turns (fun _ => False) stamp r)
    (all : sweep + budget = net.nodes) :
    Checked.Ends (sweeps w net budget r) breaks fun after =>
      ∃ sweep turns stamp, Lowers net sweep turns (fun _ => False) stamp after ∧
        (after.lowered? = none → 0 < sweep ∨ net.nodes = 0) ∧
        (after.lowered? ≠ none → sweep = net.nodes) := by
  induction budget generalizing sweep turns stamp r with
  | zero =>
    refine ⟨sweep, turns, stamp, lowers, fun _ => ?_, fun _ => all⟩
    omega
  | succ budget ih =>
    apply (sweep_ends kept sound lowers).bind
    rintro next ⟨turns, stamp, lowers⟩
    split
    · rename_i quiet
      exact ⟨sweep + 1, turns, stamp, lowers, fun _ => Or.inl (Nat.succ_pos sweep),
        fun lowered => absurd quiet lowered⟩
    · exact ih lowers (by omega)

end Kept

private theorem ancestor_eq_iterate (r : Relaxation) (steps node : Nat) :
    r.ancestor steps node = r.parent^[steps] node := by
  induction steps generalizing node with
  | zero => rfl
  | succ steps ih => exact ih (r.parent node)

/-- The parent of the node is recorded, together with the arc that leads from it. -/
def Linked (net : Network) (stamp : Nat → Stamp) (r : Relaxation) (node : Nat) : Prop :=
  Link net stamp r (r.parent node) node

private theorem Lowers.linked_of_lowered (lowers : Lowers net sweep turns due stamp r)
    (lowered : 0 < (stamp node).sweep) : Linked net stamp r node := by
  obtain ⟨parent, known⟩ := lowers.led node lowered
  have link := lowers.linked node parent known
  rwa [Linked, Relaxation.parent, known, Option.join_some, Option.getD_some]

/-- Each step back leads at most one sweep back. -/
theorem Lowers.sweep_le_iterate (lowers : Lowers net sweep turns due stamp r)
    (steps : Nat) (few : steps ≤ (stamp node).sweep) :
    (stamp node).sweep ≤ (stamp (r.parent^[steps] node)).sweep + steps := by
  induction steps with
  | zero => exact Nat.le_refl _
  | succ steps ih =>
    have before := ih (Nat.le_of_succ_le few)
    have link : Linked net stamp r (r.parent^[steps] node) :=
      lowers.linked_of_lowered (by omega)
    have back := link.1
    rw [Function.iterate_succ_apply']
    omega

private theorem Lowers.linked_iterate (lowers : Lowers net sweep turns due stamp r) (steps : Nat)
    (few : steps < (stamp node).sweep) : Linked net stamp r (r.parent^[steps] node) := by
  have late := lowers.sweep_le_iterate steps (Nat.le_of_lt few)
  exact lowers.linked_of_lowered (by omega)

private theorem Linked.parent_lt (sound : net.Sound) (linked : Linked net stamp r node) :
    r.parent node < net.nodes := by
  obtain ⟨-, id, arc, held, -, tail, -⟩ := linked
  exact tail ▸ (sound.arc_ends held).1

/-- Along the parents a walk leads back to the node, and it costs no more than
the potentials differ by; where it costs just that, all its links were made in
order. -/
theorem walk_of_linked (steps : Nat)
    (linked : ∀ step < steps, Linked net stamp r (r.parent^[step] node)) :
    ∃ path cost, net.Walk (r.parent^[steps] node) path node cost ∧
      net.departures path = ((List.range steps).map fun step => r.parent^[step + 1] node).reverse ∧
      (r.price (r.parent^[steps] node) + cost < r.price node ∨
        r.price (r.parent^[steps] node) + cost = r.price node ∧
          (steps = 0 ∨ (stamp (r.parent^[steps] node)).turn < (stamp node).turn)) := by
  induction steps with
  | zero => exact ⟨[], 0, .nil node, rfl, Or.inr ⟨by simp, Or.inl rfl⟩⟩
  | succ steps ih =>
    obtain ⟨path, cost, walk, departs, accounts⟩ :=
      ih fun step below => linked step (Nat.lt_succ_of_lt below)
    obtain ⟨-, id, arc, held, isOpen, tail, head, link⟩ := linked steps (Nat.lt_succ_self steps)
    have back : r.parent^[steps + 1] node = r.parent (r.parent^[steps] node) :=
      Function.iterate_succ_apply' r.parent steps node
    rw [← back] at tail link
    rw [← head] at walk
    refine ⟨id :: path, arc.cost + cost, ?_, ?_, ?_⟩
    · rw [← tail]
      exact .cons held isOpen walk
    · rw [Network.departures_cons held, departs, tail, List.range_succ, List.map_append,
        List.reverse_append]
      rfl
    · rcases link with strict | ⟨tight, order⟩
      · left
        omega
      · rcases accounts with strict | ⟨same, rfl | earlier⟩
        · left
          omega
        · right
          exact ⟨by omega, Or.inr order⟩
        · right
          exact ⟨by omega, Or.inr (Nat.lt_trans order earlier)⟩

/-- Where the parents lead round, the cycle costs less than nothing. -/
theorem onNegativeCycle_of_periodic (periodic : node ∈ Function.periodicPts r.parent)
    (linked : ∀ steps, Linked net stamp r (r.parent^[steps] node)) :
    net.OnNegativeCycle node := by
  obtain ⟨path, cost, walk, departs, accounts⟩ :=
    walk_of_linked (Function.minimalPeriod r.parent node) fun step _ => linked step
  rw [Function.iterate_minimalPeriod] at walk accounts
  refine ⟨path, cost, walk, ?_, ?_⟩
  · rw [departs, List.nodup_reverse]
    refine List.Nodup.map_on (fun first firstBelow second secondBelow same => ?_) List.nodup_range
    rw [Function.iterate_succ_apply, Function.iterate_succ_apply] at same
    rw [List.mem_range, ← Function.minimalPeriod_apply periodic] at firstBelow secondBelow
    exact Function.iterate_injOn_Iio_minimalPeriod firstBelow secondBelow same
  · have positive := Function.minimalPeriod_pos_of_mem_periodicPts periodic
    omega

/-- Steps among fewer numbers than there are steps pass one of them twice. -/
theorem exists_iterate_eq {f : Nat → Nat} {bound : Nat}
    (within : ∀ step ≤ bound, f^[step] node < bound) :
    ∃ first second, first < second ∧ second ≤ bound ∧ f^[first] node = f^[second] node := by
  obtain ⟨first, firstBelow, second, secondBelow, apart, same⟩ :=
    Finset.exists_ne_map_eq_of_card_lt_of_maps_to
      (s := Finset.range (bound + 1)) (t := Finset.range bound)
      (f := fun step => f^[step] node) (by simp)
      fun step below => by simpa using within step (by simpa [Nat.lt_succ_iff] using below)
  rw [Finset.mem_range, Nat.lt_succ_iff] at firstBelow secondBelow
  rcases Nat.lt_or_gt_of_ne apart with earlier | later
  · exact ⟨first, second, earlier, secondBelow, same⟩
  · exact ⟨second, first, later, firstBelow, same.symm⟩

/-- As many steps back as there are nodes come round to nodes that were passed before, and so end
on a negative cycle. -/
theorem Lowers.onNegativeCycle (lowers : Lowers net net.nodes turns due stamp r)
    (sound : net.Sound) (last : r.lowered? = some node) :
    net.OnNegativeCycle (r.ancestor net.nodes node) := by
  obtain ⟨within, late⟩ := lowers.last node last
  have linked : ∀ step < net.nodes, Linked net stamp r (r.parent^[step] node) :=
    fun step below => lowers.linked_iterate step (by omega)
  have inside : ∀ step ≤ net.nodes, r.parent^[step] node < net.nodes := by
    intro step most
    cases step with
    | zero => exact within
    | succ step =>
      rw [Function.iterate_succ_apply']
      exact (linked step most).parent_lt sound
  obtain ⟨first, second, earlier, most, same⟩ := exists_iterate_eq inside
  have periodic : Function.IsPeriodicPt r.parent (second - first) (r.parent^[first] node) := by
    change r.parent^[second - first] (r.parent^[first] node) = r.parent^[first] node
    rw [← Function.iterate_add_apply, Nat.sub_add_cancel (Nat.le_of_lt earlier), same]
  have split : r.ancestor net.nodes node =
      r.parent^[net.nodes - first] (r.parent^[first] node) := by
    rw [ancestor_eq_iterate, ← Function.iterate_add_apply, Nat.sub_add_cancel (by omega)]
  rw [split]
  have recorded : ∀ steps, Linked net stamp r
      (r.parent^[steps] (r.parent^[net.nodes - first] (r.parent^[first] node))) := by
    intro steps
    rw [← Function.iterate_add_apply, ← periodic.iterate_mod_apply, ← Function.iterate_add_apply]
    have round := Nat.mod_lt (steps + (net.nodes - first)) (show 0 < second - first by omega)
    exact linked _ (by omega)
  exact onNegativeCycle_of_periodic
    (Function.mk_mem_periodicPts (by omega) (periodic.apply_iterate _)) recorded

private theorem Lowers.pricedBy (lowers : Lowers net sweep turns (fun _ => False) stamp r)
    (sound : net.Sound) (quiet : r.lowered? = none) (swept : 0 < sweep ∨ net.nodes = 0) :
    net.PricedBy r.potentials := by
  refine ⟨lowers.size.1, fun id arc held isOpen => ?_⟩
  have ends := sound.arc_ends held
  have cheap : r.price arc.head ≤ r.price arc.tail + arc.cost := by
    rcases lowers.settled id arc held isOpen with cheap | recent | ⟨waits, -⟩
    · exact cheap
    · have before := lowers.quiet quiet (by omega) arc.tail
      omega
    · exact waits.elim
  change 0 ≤ arc.cost + r.price arc.tail - r.price arc.head
  omega

end Relaxation

namespace Network

variable {net : Network} {id : Nat} {arc : Arc}

private theorem cost_nonneg_of_no_bargain (none : net.hasBargain = false)
    (held : net.arc id = .ok arc) (isOpen : arc.Open) : 0 ≤ arc.cost := by
  obtain ⟨link, found, rfl⟩ := arc_eq_ok_iff.mp held
  obtain ⟨within, rfl⟩ := Array.getElem?_eq_some_iff.mp found
  unfold hasBargain at none
  rw [Array.any_eq_false] at none
  have quiet := none _ within
  by_contra negative
  refine quiet (List.any_eq_true.mpr ⟨Arc.along id, ?_, ?_⟩)
  · cases Arc.along id <;> simp
  · simpa using ⟨isOpen, Int.not_le.mp negative⟩

/-- The start potentials price the network and each is the cost of a walk that
ends at its node. A refusal names a node on a negative cycle. -/
def Started (net : Network) (answer : Except Refusal Potentials) : Prop :=
  match answer with
  | .ok potentials => net.PricedBy potentials ∧
      (∀ node < net.nodes, ∃ source path, net.Walk source path node (potentials.getD node 0)) ∧
      ∀ node, potentials.getD node 0 ≤ 0
  | .error refusal => ∃ node, refusal = .negativeCycle node ∧ net.OnNegativeCycle node

section Kept

variable {w : Width} {breaks : Fault → Prop}
  (kept : ∀ amount, Relaxation.Tried net amount → w.Keeps breaks amount)
include kept

private theorem relaxation_ends (sound : net.Sound) :
    Checked.Ends (net.relaxation w) breaks fun r =>
      (∀ node < net.nodes, ∃ source path, net.Walk source path node (r.price node)) ∧
        (∀ node, r.price node ≤ 0) ∧
        (r.lowered? = none → net.PricedBy r.potentials) ∧
        ∀ last, r.lowered? = some last → net.OnNegativeCycle (r.ancestor net.nodes last) := by
  have start := Relaxation.Lowers.start net
  unfold relaxation
  split
  · refine (Relaxation.sweeps_ends kept sound net.nodes start (by omega)).weaken ?_
    rintro r ⟨sweep, turns, stamp, lowers, quiet, full⟩
    refine ⟨lowers.walked, lowers.capped, fun none => lowers.pricedBy sound none (quiet none), ?_⟩
    intro last lowered
    obtain rfl := full (by simp [lowered])
    exact lowers.onNegativeCycle sound lowered
  · rename_i noBargain
    refine ⟨start.walked, start.capped,
      fun _ => ⟨start.size.1, fun id arc held isOpen => ?_⟩, ?_⟩
    · have nonneg := cost_nonneg_of_no_bargain (by simpa using noBargain) held isOpen
      have ends := sound.arc_ends held
      simpa [exactReducedCost, Relaxation.start, Array.getD_eq_getD_getElem?, ends] using nonneg
    · intro last lowered
      simp [Relaxation.start] at lowered

/-- The start potentials are found, or refused for a negative cycle, if the costs that are
tried on the way can be kept. -/
theorem startPotentials_ends_of_kept (sound : net.Sound) :
    Checked.Ends (net.startPotentials w).result breaks net.Started := by
  unfold startPotentials
  rw [Traced.result_bind, Traced.result_lift]
  apply (relaxation_ends kept sound).bind
  rintro r ⟨walked, capped, priced, blamed⟩
  split
  · rename_i quiet
    exact ⟨priced quiet, walked, capped⟩
  · rename_i last lowered
    rw [Traced.result_bind, Traced.result_emit]
    exact ⟨_, rfl, blamed last lowered⟩

end Kept

theorem startPotentials_ends (w : Width) (sound : net.Sound) :
    Checked.Ends (net.startPotentials w).result Fault.IsOverflow net.Started :=
  startPotentials_ends_of_kept
    (fun amount _ => w.keeps_of_overflows Fault.isOverflow_overflow amount) sound

end Network

end Transshipment
