import Mathlib.Data.Finset.Card
import Mathlib.Data.Finset.Filter
import Mathlib.Data.Finset.Range
import Transshipment.Network.Tree
import Transshipment.Proofs.CheapestWalks

/-! The search settles nodes in the order of their distance. While it grows, the
labelled part of its tree obeys one invariant that knows which arcs have still
to make their offers; when no tentative node is left, the tree holds a cheapest
simple walk to every node in reach. What may break the search off is told by the
arcs that it comes to. -/
namespace Transshipment

/-- The distance of a node that a search has come across, final or not. -/
def Mark.label? : Mark → Option Int
  | .unseen => none
  | .tentative distance _ | .settled distance _ => some distance

namespace Tree

variable {net : Network} {potentials : Potentials} {tree next : Tree} {pending path : List Nat}
  {source node id : Nat} {distance reach cost : Int} {arc : Arc} {mark : Mark}
  {nearest : Candidate} {via : Option Nat}

/-- The distance with which a node is labelled. -/
def label? (tree : Tree) (node : Nat) : Option Int := tree.marks[node]?.bind Mark.label?

/-- The arc over which a node is labelled. -/
def via? (tree : Tree) (node : Nat) : Option Nat := tree.marks[node]?.bind Mark.via

theorem label?_of_distance? (settled : tree.distance? node = some distance) :
    tree.label? node = some distance := by
  obtain ⟨mark, held, known⟩ := Option.bind_eq_some_iff.mp settled
  unfold label?
  rw [held]
  cases mark <;> simp_all [Mark.settled?, Mark.label?]

theorem lt_size_of_distance? (settled : tree.distance? node = some distance) :
    node < tree.marks.size := by
  obtain ⟨mark, held, -⟩ := Option.bind_eq_some_iff.mp settled
  exact (Array.getElem?_eq_some_iff.mp held).1

/-- A label that is not final is tentative. -/
theorem tentative_of_label (labelled : tree.label? node = some distance)
    (unsettled : tree.distance? node = none) :
    ∃ via, tree.marks[node]? = some (.tentative distance via) := by
  obtain ⟨mark, held, known⟩ := Option.bind_eq_some_iff.mp labelled
  cases mark with
  | unseen => cases known
  | tentative far via =>
    cases known
    exact ⟨via, held⟩
  | settled far via => simp [distance?, held, Mark.settled?] at unsettled

theorem mem_candidates :
    nearest ∈ tree.candidates ↔
      tree.marks[nearest.node]? = some (.tentative nearest.distance nearest.via) := by
  unfold candidates
  rw [List.mem_filterMap]
  constructor
  · rintro ⟨⟨mark, node⟩, member, chosen⟩
    have held := List.mk_mem_zipIdx_iff_getElem?.mp member
    cases mark with
    | tentative distance via =>
      cases chosen
      simpa using held
    | unseen => cases chosen
    | settled distance via => cases chosen
  · intro held
    exact ⟨(_, nearest.node), List.mk_mem_zipIdx_iff_getElem?.mpr (by simpa using held), rfl⟩

/-- The chosen node is tentative, and none is nearer. -/
theorem nearest?_eq_some (chosen : tree.nearest? = some nearest) :
    tree.marks[nearest.node]? = some (.tentative nearest.distance nearest.via) ∧
      ∀ (node : Nat) distance via, tree.marks[node]? = some (.tentative distance via) →
        nearest.distance ≤ distance := by
  refine ⟨mem_candidates.mp (List.minOn?_mem chosen), fun node distance via held => ?_⟩
  have member : (⟨node, distance, via⟩ : Candidate) ∈ tree.candidates := mem_candidates.mpr held
  have least := List.apply_get_minOn?_le_of_mem (f := Candidate.distance) member
  have found : tree.candidates.minOn? (·.distance) = some nearest := chosen
  simpa [found] using least

theorem nearest?_eq_none (none : tree.nearest? = none) (node : Nat) (distance : Int)
    (via : Option Nat) : tree.marks[node]? ≠ some (.tentative distance via) := by
  intro held
  have member : (⟨node, distance, via⟩ : Candidate) ∈ tree.candidates := mem_candidates.mpr held
  have found : tree.candidates.minOn? (·.distance) = Option.none := none
  simp [List.minOn?_eq_if] at found
  simp [found] at member

/-- A walk back over the arcs by which settled nodes were reached. -/
inductive Trail (net : Network) (potentials : Potentials) (source : Nat) (tree : Tree) :
    List Nat → Nat → Int → Prop
  | root : tree.distance? source = some 0 → tree.via? source = none →
    Trail net potentials source tree [] source 0
  | snoc {path : List Nat} {id : Nat} {arc : Arc} {distance : Int} :
    Trail net potentials source tree path arc.tail distance → net.arc id = .ok arc → arc.Open →
      tree.distance? arc.head = some (distance + Network.exactReducedCost potentials arc) →
      tree.via? arc.head = some id →
      Trail net potentials source tree (path ++ [id]) arc.head
        (distance + Network.exactReducedCost potentials arc)

namespace Trail

theorem settled (trail : tree.Trail net potentials source path node distance) :
    tree.distance? node = some distance := by
  cases trail with
  | root rooted _ => exact rooted
  | snoc _ _ _ settled _ => exact settled

/-- What is settled stays, so a trail does. -/
theorem extend (trail : tree.Trail net potentials source path node distance)
    (keeps : ∀ node distance, tree.distance? node = some distance →
      next.distance? node = some distance ∧ next.via? node = tree.via? node) :
    next.Trail net potentials source path node distance := by
  induction trail with
  | root rooted first =>
    obtain ⟨still, same⟩ := keeps source 0 rooted
    exact .root still (same.trans first)
  | snoc trail held isOpen settled through ih =>
    obtain ⟨still, same⟩ := keeps _ _ settled
    exact .snoc ih held isOpen still (same.trans through)

/-- The distance of a node is the cost of the trail, as the potentials show it. -/
theorem walk (trail : tree.Trail net potentials source path node distance) :
    net.Walk source path node
      (distance - potentials.getD source 0 + potentials.getD node 0) := by
  induction trail with
  | root _ _ =>
    have stays : net.Walk source [] source 0 := .nil source
    rwa [show (0 : Int) - potentials.getD source 0 + potentials.getD source 0 = 0 by omega]
  | @snoc path id arc distance trail held isOpen settled through ih =>
    have extended := ih.snoc held isOpen
    unfold Network.exactReducedCost
    rwa [show distance + (arc.cost + potentials.getD arc.tail 0 - potentials.getD arc.head 0) -
      potentials.getD source 0 + potentials.getD arc.head 0 =
      distance - potentials.getD source 0 + potentials.getD arc.tail 0 + arc.cost by omega]

/-- Every node on a trail is settled. -/
theorem departures_settled (trail : tree.Trail net potentials source path node distance) :
    ∀ place ∈ net.departures path, (tree.distance? place).isSome := by
  induction trail with
  | root _ _ => simp
  | snoc trail held isOpen settled through ih =>
    rw [Network.departures_append, Network.departures_cons held]
    intro place member
    rcases List.mem_append.mp member with member | member
    · exact ih place member
    · obtain rfl := List.mem_singleton.mp member
      rw [trail.settled]
      rfl

/-- Along a trail the distance grows by the reduced cost of each arc. -/
theorem tight (trail : tree.Trail net potentials source path node distance) :
    ∀ id ∈ path, ∀ arc, net.arc id = .ok arc → ∃ before,
      tree.distance? arc.tail = some before ∧
        tree.distance? arc.head = some (before + Network.exactReducedCost potentials arc) := by
  induction trail with
  | root _ _ => simp
  | snoc trail held isOpen settled through ih =>
    intro other member entry entryHeld
    rcases List.mem_append.mp member with member | member
    · exact ih other member entry entryHeld
    · obtain rfl := List.mem_singleton.mp member
      cases held.symm.trans entryHeld
      exact ⟨_, trail.settled, settled⟩

/-- Each arc of a trail is the one over which its head is labelled. -/
theorem labels (trail : tree.Trail net potentials source path node distance) :
    ∀ id ∈ path, ∃ arc, net.arc id = .ok arc ∧ arc.Open ∧ tree.via? arc.head = some id := by
  induction trail with
  | root _ _ => simp
  | snoc trail held isOpen settled through ih =>
    intro other member
    rcases List.mem_append.mp member with member | member
    · exact ih other member
    · obtain rfl := List.mem_singleton.mp member
      exact ⟨_, held, isOpen, through⟩

private theorem fetch_marks (settled : tree.distance? node = some distance) :
    ∃ mark, fetch tree.marks node = .ok mark ∧ mark.via = tree.via? node := by
  obtain ⟨mark, held, -⟩ := Option.bind_eq_some_iff.mp settled
  exact ⟨mark, fetch_of_getElem? held, by simp [via?, held]⟩

/-- Climbing from the end of a trail with enough budget follows it to its
start. -/
theorem climb_eq (trail : tree.Trail net potentials source path node distance) (budget : Nat)
    (enough : path.length ≤ budget) (beyond : List Nat) :
    tree.climb net budget node beyond = .ok (path ++ beyond) := by
  induction trail generalizing budget beyond with
  | root rooted first =>
    obtain ⟨mark, fetched, through⟩ := fetch_marks rooted
    rw [first] at through
    cases budget <;> simp [climb, fetched, through, bind, Except.bind, pure, Except.pure]
  | @snoc path id arc distance trail held isOpen settled last ih =>
    rw [List.length_append, List.length_singleton] at enough
    obtain ⟨mark, fetched, through⟩ := fetch_marks settled
    rw [last] at through
    cases budget with
    | zero => omega
    | succ budget =>
      have rest := ih budget (by omega) (id :: beyond)
      simpa [climb, fetched, through, held, bind, Except.bind] using rest

end Trail

/-- What holds of a tree while it grows. The pending arcs leave settled nodes and
have still to make their offers. -/
structure Growing (net : Network) (potentials : Potentials) (source : Nat)
    (pending : List Nat) (tree : Tree) : Prop where
  size : tree.marks.size = net.nodes
  root : tree.label? source = some 0 ∧ tree.via? source = none
  only_root : ∀ node distance, tree.label? node = some distance → tree.via? node = none →
    node = source
  nonneg : ∀ node distance, tree.label? node = some distance → 0 ≤ distance
  /-- Nothing is settled before its turn. -/
  ordered : ∀ first last near far, tree.distance? first = some near →
    tree.distance? last = none → tree.label? last = some far → near ≤ far
  /-- A label stands for a settled node and an open arc that leaves it. -/
  reached : ∀ node distance id, tree.label? node = some distance → tree.via? node = some id →
    ∃ arc before, net.arc id = .ok arc ∧ arc.Open ∧ arc.head = node ∧
      tree.distance? arc.tail = some before ∧
      distance = before + Network.exactReducedCost potentials arc
  /-- A settled node has made its offers, the pending ones excepted. -/
  relaxed : ∀ id arc distance, net.arc id = .ok arc → arc.Open →
    tree.distance? arc.tail = some distance → id ∉ pending →
    0 ≤ Network.exactReducedCost potentials arc ∧ ∃ label, tree.label? arc.head = some label ∧
      label ≤ distance + Network.exactReducedCost potentials arc
  /-- A settled node has a trail that comes to no node twice. -/
  trail : ∀ node distance, tree.distance? node = some distance →
    ∃ path, tree.Trail net potentials source path node distance ∧
      (net.departures path ++ [node]).Nodup

/-- The search comes to an open arc at this distance of its tail from the source. -/
def Met (net : Network) (potentials : Potentials) (source id : Nat) (arc : Arc)
    (distance : Int) : Prop :=
  net.arc id = .ok arc ∧ arc.Open ∧ ∃ path, net.SimpleWalk source path arc.tail
    (distance - potentials.getD source 0 + potentials.getD arc.tail 0)

/-- What a search computes at the arcs that it comes to is kept, and a negative reduced cost
there is among the faults. -/
structure Foreseen (w : Width) (breaks : Fault → Prop) (net : Network) (potentials : Potentials)
    (source : Nat) : Prop where
  raised : ∀ id arc distance, Met net potentials source id arc distance →
    w.Keeps breaks (arc.cost + potentials.getD arc.tail 0)
  reduced : ∀ id arc distance, Met net potentials source id arc distance →
    w.Keeps breaks (Network.exactReducedCost potentials arc)
  reach : ∀ id arc distance, Met net potentials source id arc distance →
    w.Keeps breaks (distance + Network.exactReducedCost potentials arc)
  negative : ∀ id arc distance, Met net potentials source id arc distance →
    Network.exactReducedCost potentials arc < 0 → breaks (.negativeReducedCost id)

/-- Under valid potentials nothing but an overflow has to be foreseen. -/
theorem foreseen_of_priced (w : Width) (priced : net.PricedBy potentials) (source : Nat) :
    Foreseen w Fault.IsOverflow net potentials source where
  raised _ _ _ _ := w.keeps_of_overflows Fault.isOverflow_overflow _
  reduced _ _ _ _ := w.keeps_of_overflows Fault.isOverflow_overflow _
  reach _ _ _ _ := w.keeps_of_overflows Fault.isOverflow_overflow _
  negative id arc _ met negative := by
    have nonneg := priced.2 id arc met.1 met.2.1
    omega

theorem reducedCost_ends {w : Width} {breaks : Fault → Prop} (sound : net.Sound)
    (counted : potentials.size = net.nodes) (held : net.arc id = .ok arc)
    (raised : w.Keeps breaks (arc.cost + potentials.getD arc.tail 0))
    (reduced : w.Keeps breaks (Network.exactReducedCost potentials arc)) :
    Checked.Ends (net.reducedCost w potentials id) breaks
      (· = Network.exactReducedCost potentials arc) := by
  have ends := sound.arc_ends held
  have priced : ∀ node < net.nodes,
      fetch potentials node = .ok (potentials.getD node 0) := by
    intro node within
    exact fetch_of_getElem? (by simp [counted, within])
  unfold Network.reducedCost
  apply Checked.ends_bind_of_ok held
  apply Checked.ends_bind_of_ok (priced _ ends.1)
  apply raised.add.bind
  rintro raised rfl
  apply Checked.ends_bind_of_ok (priced _ ends.2)
  exact reduced.sub

/-- An offer is declined by a label that is no farther, or it takes over the label
of a node that is not yet settled. -/
theorem offer_cases (reach : Int) (id : Nat) (held : tree.marks[node]? = some mark) :
    (mark.offer reach id = mark ∧ ∃ known, tree.label? node = some known ∧
        (known ≤ reach ∨ tree.distance? node = some known)) ∨
      mark.offer reach id = .tentative reach (some id) ∧ tree.distance? node = none ∧
        ∀ known, tree.label? node = some known → reach < known := by
  unfold distance? label?
  cases mark with
  | unseen => exact .inr ⟨rfl, by simp [held, Mark.settled?], by simp [held, Mark.label?]⟩
  | settled distance via =>
    exact .inl ⟨rfl, distance, by simp [held, Mark.label?], .inr (by simp [held, Mark.settled?])⟩
  | tentative known via =>
    by_cases better : reach < known
    · exact .inr ⟨by simp [Mark.offer, better], by simp [held, Mark.settled?],
        by simp [held, Mark.label?, better]⟩
    · exact .inl ⟨by simp [Mark.offer, better], known, by simp [held, Mark.label?],
        .inl (Int.not_lt.mp better)⟩

/-- The tree with another mark at one node. -/
def write (tree : Tree) (node : Nat) (mark : Mark) : Tree :=
  ⟨tree.marks.setIfInBounds node mark⟩

@[simp] theorem size_write : (tree.write node mark).marks.size = tree.marks.size :=
  Array.size_setIfInBounds

theorem write_eq_self (held : tree.marks[node]? = some mark) : tree.write node mark = tree :=
  congrArg Tree.mk (setIfInBounds_eq_self held)

private theorem getElem?_write (mark : Mark) (within : node < tree.marks.size) (place : Nat) :
    (tree.write node mark).marks[place]? =
      if node = place then some mark else tree.marks[place]? := by
  simp [write, Array.getElem?_setIfInBounds, within]

/-- A label leaves all distances alone where the node is not settled. -/
theorem label_views (distance : Int) (via : Option Nat) (within : node < tree.marks.size)
    (unsettled : tree.distance? node = none) :
    (∀ place, (tree.write node (.tentative distance via)).distance? place =
        tree.distance? place) ∧
      ∀ place, (tree.write node (.tentative distance via)).label? place =
          (if place = node then some distance else tree.label? place) ∧
        (tree.write node (.tentative distance via)).via? place =
          if place = node then via else tree.via? place := by
  have after := getElem?_write (.tentative distance via) within
  constructor
  · intro place
    by_cases here : place = node
    · rw [here, unsettled]
      simp [distance?, after, Mark.settled?]
    · simp [distance?, after, Ne.symm here]
  · intro place
    by_cases here : place = node
    · simp [label?, via?, after, here, Mark.label?, Mark.via]
    · simp [label?, via?, after, here, Ne.symm here]

/-- Settling makes one label final. -/
theorem settle_views (held : tree.marks[node]? = some (.tentative distance via)) :
    (∀ place, (tree.write node (.settled distance via)).distance? place =
        if place = node then some distance else tree.distance? place) ∧
      ∀ place, (tree.write node (.settled distance via)).label? place = tree.label? place ∧
        (tree.write node (.settled distance via)).via? place = tree.via? place := by
  have after := getElem?_write (.settled distance via) (Array.getElem?_eq_some_iff.mp held).1
  constructor
  · intro place
    by_cases here : place = node
    · simp [distance?, after, here, Mark.settled?]
    · simp [distance?, after, here, Ne.symm here]
  · intro place
    by_cases here : place = node
    · simp [label?, via?, after, here, held, Mark.label?, Mark.via]
    · simp [label?, via?, after, Ne.symm here]

end Tree

end Transshipment
