import Transshipment.Proofs.SearchTree

/-! Each offer and each settled node keeps the invariant of a growing tree, and
the budget suffices to settle every node in reach. The finished tree spans the
nodes in reach by cheapest simple walks. -/
namespace Transshipment.Tree

variable {net : Network} {potentials : Potentials} {tree next : Tree} {pending path : List Nat}
  {source node id : Nat} {distance cost : Int} {arc : Arc} {nearest : Candidate}

namespace Growing

private theorem source_of_label (growing : tree.Growing net potentials source pending)
    (labelled : tree.label? node = some distance) (first : tree.via? node = none) :
    node = source ∧ distance = 0 := by
  obtain rfl := growing.only_root node distance labelled first
  exact ⟨rfl, Option.some.inj (labelled.symm.trans growing.root.1)⟩

/-- An arc that is closed has nothing to offer. -/
theorem skip (growing : tree.Growing net potentials source (id :: pending))
    (held : net.arc id = .ok arc) (closed : ¬ arc.Open) :
    tree.Growing net potentials source pending := by
  refine { growing with relaxed := fun other entry before entryHeld isOpen settled fresh => ?_ }
  refine growing.relaxed other entry before entryHeld isOpen settled ?_
  rw [List.mem_cons, not_or]
  refine ⟨?_, fresh⟩
  rintro rfl
  cases held.symm.trans entryHeld
  exact closed isOpen

/-- An offer that is not better is recorded by the label that it did not
change. -/
theorem decline (growing : tree.Growing net potentials source (id :: pending))
    (held : net.arc id = .ok arc) (settled : tree.distance? arc.tail = some distance)
    (step : 0 ≤ Network.exactReducedCost potentials arc) {known : Int}
    (labelled : tree.label? arc.head = some known)
    (better : known ≤ distance + Network.exactReducedCost potentials arc) :
    tree.Growing net potentials source pending := by
  refine { growing with relaxed := fun other entry before entryHeld isOpen entrySettled fresh => ?_ }
  by_cases here : other = id
  · subst here
    cases held.symm.trans entryHeld
    cases settled.symm.trans entrySettled
    exact ⟨step, known, labelled, better⟩
  · exact growing.relaxed other entry before entryHeld isOpen entrySettled (by simp [here, fresh])

end Growing

/-- An open arc of a settled node has a better distance for its head than the label there, and
no node was settled at a greater distance than its tail. -/
structure Improves (net : Network) (potentials : Potentials) (tree : Tree) (id : Nat) (arc : Arc)
    (distance : Int) : Prop where
  held : net.arc id = .ok arc
  isOpen : arc.Open
  within : arc.head < tree.marks.size
  settled : tree.distance? arc.tail = some distance
  latest : ∀ node known, tree.distance? node = some known → known ≤ distance
  step : 0 ≤ Network.exactReducedCost potentials arc
  unsettled : tree.distance? arc.head = none
  better : ∀ known, tree.label? arc.head = some known →
    distance + Network.exactReducedCost potentials arc < known

/-- The tree in which the head of an arc has taken its offer. -/
def improved (tree : Tree) (potentials : Potentials) (id : Nat) (arc : Arc) (distance : Int) :
    Tree :=
  tree.write arc.head (.tentative (distance + Network.exactReducedCost potentials arc) (some id))

namespace Improves

variable {label : Int}

private theorem distance?_improved (improves : tree.Improves net potentials id arc distance)
    (node : Nat) :
    (tree.improved potentials id arc distance).distance? node = tree.distance? node :=
  (label_views _ _ improves.within improves.unsettled).1 node

private theorem via?_head (improves : tree.Improves net potentials id arc distance) :
    (tree.improved potentials id arc distance).via? arc.head = some id := by
  rw [improved, ((label_views _ _ improves.within improves.unsettled).2 arc.head).2, if_pos rfl]

private theorem via?_of_ne (improves : tree.Improves net potentials id arc distance)
    (elsewhere : node ≠ arc.head) :
    (tree.improved potentials id arc distance).via? node = tree.via? node := by
  rw [improved, ((label_views _ _ improves.within improves.unsettled).2 node).2, if_neg elsewhere]

private theorem label?_head (improves : tree.Improves net potentials id arc distance) :
    (tree.improved potentials id arc distance).label? arc.head =
      some (distance + Network.exactReducedCost potentials arc) := by
  rw [improved, ((label_views _ _ improves.within improves.unsettled).2 arc.head).1, if_pos rfl]

private theorem label?_of_ne (improves : tree.Improves net potentials id arc distance)
    (elsewhere : node ≠ arc.head) :
    (tree.improved potentials id arc distance).label? node = tree.label? node := by
  rw [improved, ((label_views _ _ improves.within improves.unsettled).2 node).1, if_neg elsewhere]

/-- A label is the one that was just taken, or stands as before. -/
theorem label_cases (improves : tree.Improves net potentials id arc distance)
    (labelled : (tree.improved potentials id arc distance).label? node = some label) :
    (node = arc.head ∧ label = distance + Network.exactReducedCost potentials arc) ∨
      node ≠ arc.head ∧ tree.label? node = some label := by
  by_cases here : node = arc.head
  · subst here
    exact .inl ⟨rfl, Option.some.inj (labelled.symm.trans improves.label?_head)⟩
  · exact .inr ⟨here, (improves.label?_of_ne here).symm.trans labelled⟩

/-- The source is labelled with zero, which no offer undercuts. -/
theorem source_ne (improves : tree.Improves net potentials id arc distance)
    (growing : tree.Growing net potentials source (id :: pending)) : source ≠ arc.head := by
  intro same
  have early : 0 ≤ distance := growing.nonneg _ _ (label?_of_distance? improves.settled)
  have undercut := improves.better 0 (same ▸ growing.root.1)
  have step := improves.step
  omega

/-- What was settled is nearer than the new label, as it is not beyond the tail. -/
theorem ordered (improves : tree.Improves net potentials id arc distance)
    (growing : tree.Growing net potentials source (id :: pending)) {first last : Nat}
    {near : Int} (firstSettled : tree.distance? first = some near)
    (lastUnsettled : tree.distance? last = none)
    (labelled : (tree.improved potentials id arc distance).label? last = some label) :
    near ≤ label := by
  obtain ⟨-, rfl⟩ | ⟨-, before⟩ := improves.label_cases labelled
  · have earlier := improves.latest first near firstSettled
    have step := improves.step
    omega
  · exact growing.ordered first last near label firstSettled lastUnsettled before

/-- The new label stands for the arc that offered it. -/
theorem reached (improves : tree.Improves net potentials id arc distance)
    (growing : tree.Growing net potentials source (id :: pending)) {through : Nat}
    (labelled : (tree.improved potentials id arc distance).label? node = some label)
    (led : (tree.improved potentials id arc distance).via? node = some through) :
    ∃ entry before, net.arc through = .ok entry ∧ entry.Open ∧ entry.head = node ∧
      tree.distance? entry.tail = some before ∧
      label = before + Network.exactReducedCost potentials entry := by
  obtain ⟨rfl, rfl⟩ | ⟨elsewhere, before⟩ := improves.label_cases labelled
  · cases improves.via?_head.symm.trans led
    exact ⟨arc, distance, improves.held, improves.isOpen, rfl, improves.settled, rfl⟩
  · exact growing.reached node label through before ((improves.via?_of_ne elsewhere).symm.trans led)

/-- Labels only fall, so what was offered before is still recorded. -/
theorem label_le (improves : tree.Improves net potentials id arc distance)
    (labelled : tree.label? node = some label) :
    ∃ lower, (tree.improved potentials id arc distance).label? node = some lower ∧
      lower ≤ label := by
  by_cases here : node = arc.head
  · subst here
    exact ⟨_, improves.label?_head, Int.le_of_lt (improves.better label labelled)⟩
  · exact ⟨label, (improves.label?_of_ne here).trans labelled, Int.le_refl label⟩

private theorem relaxed (improves : tree.Improves net potentials id arc distance)
    (growing : tree.Growing net potentials source (id :: pending)) {other : Nat} {entry : Arc}
    {before : Int} (held : net.arc other = .ok entry) (isOpen : entry.Open)
    (settled : tree.distance? entry.tail = some before) (fresh : other ∉ pending) :
    0 ≤ Network.exactReducedCost potentials entry ∧
      ∃ label, (tree.improved potentials id arc distance).label? entry.head = some label ∧
        label ≤ before + Network.exactReducedCost potentials entry := by
  by_cases here : other = id
  · subst here
    cases improves.held.symm.trans held
    cases improves.settled.symm.trans settled
    exact ⟨improves.step, _, improves.label?_head, Int.le_refl _⟩
  · obtain ⟨nonneg, label, labelled, below⟩ :=
      growing.relaxed other entry before held isOpen settled (by simp [here, fresh])
    obtain ⟨lower, lowered, le⟩ := improves.label_le labelled
    exact ⟨nonneg, lower, lowered, Int.le_trans le below⟩

/-- A trail passes settled nodes only, and the head is none. -/
theorem trail (improves : tree.Improves net potentials id arc distance)
    (before : tree.Trail net potentials source path node cost) :
    (tree.improved potentials id arc distance).Trail net potentials source path node cost := by
  refine before.extend fun place known settled => ?_
  refine ⟨(improves.distance?_improved place).trans settled, improves.via?_of_ne ?_⟩
  rintro rfl
  cases improves.unsettled.symm.trans settled

/-- A better offer takes over the label of a node that is not yet settled. -/
theorem growing (improves : tree.Improves net potentials id arc distance)
    (growing : tree.Growing net potentials source (id :: pending)) :
    (tree.improved potentials id arc distance).Growing net potentials source pending where
  size := size_write.trans growing.size
  root := by
    have elsewhere := improves.source_ne growing
    rw [improves.label?_of_ne elsewhere, improves.via?_of_ne elsewhere]
    exact growing.root
  only_root node label labelled none := by
    obtain ⟨rfl, -⟩ | ⟨elsewhere, before⟩ := improves.label_cases labelled
    · cases improves.via?_head.symm.trans none
    · exact growing.only_root node label before ((improves.via?_of_ne elsewhere).symm.trans none)
  nonneg node label labelled := by
    obtain ⟨-, rfl⟩ | ⟨-, before⟩ := improves.label_cases labelled
    · exact Int.add_nonneg (growing.nonneg _ _ (label?_of_distance? improves.settled))
        improves.step
    · exact growing.nonneg node label before
  ordered first last near far firstSettled lastUnsettled labelled := by
    rw [improves.distance?_improved] at firstSettled lastUnsettled
    exact improves.ordered growing firstSettled lastUnsettled labelled
  reached node label through labelled led := by
    simp only [improves.distance?_improved]
    exact improves.reached growing labelled led
  relaxed other entry before held isOpen settled fresh := by
    rw [improves.distance?_improved] at settled
    exact improves.relaxed growing held isOpen settled fresh
  trail node known settled := by
    rw [improves.distance?_improved] at settled
    obtain ⟨path, trail, distinct⟩ := growing.trail node known settled
    exact ⟨path, improves.trail trail, distinct⟩

end Improves

/-- What one offer, or all offers of one node, leave unchanged. -/
def SameSettled (tree next : Tree) : Prop := ∀ node, next.distance? node = tree.distance? node

private theorem relax_ends {w : Width} {breaks : Fault → Prop}
    (foreseen : Foreseen w breaks net potentials source) (sound : net.Sound)
    (counted : potentials.size = net.nodes)
    (growing : tree.Growing net potentials source (id :: pending))
    (held : net.arc id = .ok arc) (settled : tree.distance? arc.tail = some distance)
    (latest : ∀ node known, tree.distance? node = some known → known ≤ distance) :
    Checked.Ends (tree.relax w net potentials distance id) breaks
      fun next => next.Growing net potentials source pending ∧ tree.SameSettled next := by
  have within : arc.head < net.nodes := (sound.arc_ends held).2
  unfold relax
  apply Checked.ends_bind_of_ok held
  split
  · rename_i isOpen
    obtain ⟨path, trail, distinct⟩ := growing.trail _ _ settled
    have met : Met net potentials source id arc distance :=
      ⟨held, isOpen, path, trail.walk, distinct⟩
    apply (reducedCost_ends sound counted held (foreseen.raised _ _ _ met)
      (foreseen.reduced _ _ _ met)).bind
    rintro step rfl
    split
    · rename_i negative
      exact foreseen.negative _ _ _ met negative
    · rename_i nonneg
      apply (foreseen.reach _ _ _ met).add.bind
      rintro reach rfl
      obtain ⟨mark, marked⟩ : ∃ mark, tree.marks[arc.head]? = some mark :=
        ⟨_, Array.getElem?_eq_getElem (growing.size.symm ▸ within)⟩
      apply Checked.ends_bind_of_ok (fetch_of_getElem? marked)
      rcases offer_cases (distance + Network.exactReducedCost potentials arc) id marked with
        ⟨declined, known, labelled, offered⟩ | ⟨accepted, unsettled, better⟩
      · rw [declined]
        have unchanged : (⟨tree.marks.setIfInBounds arc.head mark⟩ : Tree) = tree :=
          write_eq_self marked
        have below : known ≤ distance + Network.exactReducedCost potentials arc := by
          rcases offered with below | final
          · exact below
          · have earlier := latest _ _ final
            omega
        rw [unchanged]
        exact ⟨growing.decline held settled (by omega) labelled below, fun _ => rfl⟩
      · rw [accepted]
        have improves : tree.Improves net potentials id arc distance :=
          ⟨held, isOpen, growing.size.symm ▸ within, settled, latest, by omega, unsettled, better⟩
        exact ⟨improves.growing growing, improves.distance?_improved⟩
  · rename_i closed
    exact ⟨growing.skip held closed, fun _ => rfl⟩

/-- What becomes of a tree when its nearest tentative node is settled. -/
def settleNearest (tree : Tree) (nearest : Candidate) : Tree :=
  tree.write nearest.node (.settled nearest.distance nearest.via)

/-- The chosen node is labelled, and its label is not yet final. -/
theorem Growing.chosen_views (held : tree.marks[nearest.node]? =
    some (.tentative nearest.distance nearest.via)) :
    tree.distance? nearest.node = none ∧ tree.label? nearest.node = some nearest.distance ∧
      tree.via? nearest.node = nearest.via := by
  simp [distance?, label?, via?, held, Mark.settled?, Mark.label?, Mark.via]

/-- No label that is not final yet is less than that of the nearest node. -/
theorem nearest_le_label (chosen : tree.nearest? = some nearest)
    (unsettled : tree.distance? node = none) (labelled : tree.label? node = some distance) :
    nearest.distance ≤ distance := by
  obtain ⟨via, held⟩ := tentative_of_label labelled unsettled
  exact (nearest?_eq_some chosen).2 node distance via held

section Settling

variable (held : tree.marks[nearest.node]? = some (.tentative nearest.distance nearest.via))
include held

private theorem label?_settleNearest (node : Nat) :
    (tree.settleNearest nearest).label? node = tree.label? node :=
  ((settle_views held).2 node).1

private theorem via?_settleNearest (node : Nat) :
    (tree.settleNearest nearest).via? node = tree.via? node :=
  ((settle_views held).2 node).2

private theorem distance?_settleNearest (node : Nat) : (tree.settleNearest nearest).distance? node =
    if node = nearest.node then some nearest.distance else tree.distance? node :=
  (settle_views held).1 node

private theorem distance?_settleNearest_self :
    (tree.settleNearest nearest).distance? nearest.node = some nearest.distance := by
  rw [distance?_settleNearest held, if_pos rfl]

/-- What was settled before stays settled. -/
theorem settled_settleNearest (settled : tree.distance? node = some distance) :
    (tree.settleNearest nearest).distance? node = some distance := by
  rw [distance?_settleNearest held, if_neg]
  · exact settled
  · rintro rfl
    cases (Growing.chosen_views held).1.symm.trans settled

/-- A node is settled now, or it was settled before. -/
theorem settled_cases (settled : (tree.settleNearest nearest).distance? node = some distance) :
    (node = nearest.node ∧ distance = nearest.distance) ∨
      node ≠ nearest.node ∧ tree.distance? node = some distance := by
  rw [distance?_settleNearest held] at settled
  split at settled
  · rename_i here
    exact .inl ⟨here, (Option.some.inj settled).symm⟩
  · rename_i elsewhere
    exact .inr ⟨elsewhere, settled⟩

private theorem unsettled_of_settleNearest
    (unsettled : (tree.settleNearest nearest).distance? node = none) :
    tree.distance? node = none := by
  rw [distance?_settleNearest held] at unsettled
  split at unsettled
  · cases unsettled
  · exact unsettled

private theorem trail_settleNearest (trail : tree.Trail net potentials source path node distance) :
    (tree.settleNearest nearest).Trail net potentials source path node distance :=
  trail.extend fun place _ settled =>
    ⟨settled_settleNearest held settled, via?_settleNearest held place⟩

/-- The trail to a tail is settled throughout, and the chosen node was not. -/
theorem nodup_snoc (trail : tree.Trail net potentials source path arc.tail distance)
    (distinct : (net.departures path ++ [arc.tail]).Nodup) (arcHeld : net.arc id = .ok arc) :
    (net.departures (path ++ [id]) ++ [nearest.node]).Nodup := by
  have unsettled := (Growing.chosen_views held).1
  rw [Network.departures_append, Network.departures_cons arcHeld, Network.departures_nil]
  refine List.nodup_append.mpr ⟨distinct, by simp, fun place member other single => ?_⟩
  obtain rfl := List.mem_singleton.mp single
  rintro rfl
  rcases List.mem_append.mp member with passed | last
  · have known := trail.departures_settled _ passed
    rw [unsettled] at known
    cases known
  · rw [List.mem_singleton.mp last, trail.settled] at unsettled
    cases unsettled

/-- The arc that labels the chosen node continues the trail to its tail. -/
theorem trail_chosen (growing : tree.Growing net potentials source pending) :
    ∃ path, (tree.settleNearest nearest).Trail net potentials source path nearest.node
        nearest.distance ∧ (net.departures path ++ [nearest.node]).Nodup := by
  obtain ⟨-, labelled, through⟩ := Growing.chosen_views held
  cases back : nearest.via with
  | none =>
    obtain ⟨same, zero⟩ := growing.source_of_label labelled (through.trans back)
    refine ⟨[], ?_, by simp⟩
    rw [zero, same]
    apply Trail.root
    · rw [← same, distance?_settleNearest_self held, zero]
    · rw [via?_settleNearest held]
      exact growing.root.2
  | some id =>
    obtain ⟨arc, before, arcHeld, isOpen, head, tailSettled, sum⟩ :=
      growing.reached _ _ id labelled (through.trans back)
    obtain ⟨path, trail, distinct⟩ := growing.trail _ _ tailSettled
    refine ⟨path ++ [id], ?_, nodup_snoc held trail distinct arcHeld⟩
    rw [sum, ← head]
    apply (trail_settleNearest held trail).snoc arcHeld isOpen
    · rw [head, distance?_settleNearest_self held, sum]
    · rw [head, via?_settleNearest held, through, back]

/-- The chosen node is the farthest of the settled ones. -/
theorem le_nearest (growing : tree.Growing net potentials source pending)
    (settled : (tree.settleNearest nearest).distance? node = some distance) :
    distance ≤ nearest.distance := by
  obtain ⟨unsettled, labelled, -⟩ := Growing.chosen_views held
  obtain ⟨-, rfl⟩ | ⟨-, before⟩ := settled_cases held settled
  · exact Int.le_refl _
  · exact growing.ordered node nearest.node distance nearest.distance before unsettled labelled

end Settling

/-- The nearest tentative node can be settled, as no other is nearer. Its arcs
have then still to make their offers. -/
theorem Growing.settle (growing : tree.Growing net potentials source [])
    (chosen : tree.nearest? = some nearest) {row : List Nat}
    (row_spec : ∀ id, id ∈ row ↔ ∃ arc, net.arc id = .ok arc ∧ arc.tail = nearest.node) :
    (tree.settleNearest nearest).Growing net potentials source row := by
  have held := (nearest?_eq_some chosen).1
  constructor
  case size => exact size_write.trans growing.size
  case root =>
    rw [label?_settleNearest held, via?_settleNearest held]
    exact growing.root
  case only_root =>
    intro node known
    rw [label?_settleNearest held, via?_settleNearest held]
    exact growing.only_root node known
  case nonneg =>
    intro node known
    rw [label?_settleNearest held]
    exact growing.nonneg node known
  case ordered =>
    intro first last near far firstSettled lastUnsettled labelled
    rw [label?_settleNearest held] at labelled
    have before := unsettled_of_settleNearest held lastUnsettled
    obtain ⟨-, rfl⟩ | ⟨-, settled⟩ := settled_cases held firstSettled
    · exact nearest_le_label chosen before labelled
    · exact growing.ordered first last near far settled before labelled
  case reached =>
    intro node known id labelled through
    rw [label?_settleNearest held] at labelled
    rw [via?_settleNearest held] at through
    obtain ⟨arc, before, arcHeld, isOpen, head, settled, sum⟩ :=
      growing.reached node known id labelled through
    exact ⟨arc, before, arcHeld, isOpen, head, settled_settleNearest held settled, sum⟩
  case relaxed =>
    intro id arc known arcHeld isOpen settled fresh
    rw [label?_settleNearest held]
    obtain ⟨leaves, -⟩ | ⟨-, before⟩ := settled_cases held settled
    · exact absurd ((row_spec id).mpr ⟨arc, arcHeld, leaves⟩) fresh
    · exact growing.relaxed id arc known arcHeld isOpen before (by simp)
  case trail =>
    intro node known settled
    obtain ⟨rfl, rfl⟩ | ⟨-, before⟩ := settled_cases held settled
    · exact trail_chosen held growing
    · obtain ⟨path, trail, distinct⟩ := growing.trail node known before
      exact ⟨path, trail_settleNearest held trail, distinct⟩

/-- Something besides the invariant that a tree keeps while it grows: when a node makes its
offers, in the order of its row, and when the nearest node is settled. -/
structure Keeps (w : Width) (net : Network) (potentials : Potentials) (source : Nat)
    (holds : Tree → Prop) : Prop where
  offer : ∀ tree next id arc distance row offered pending,
    tree.Growing net potentials source (id :: pending) → net.arc id = .ok arc →
    tree.distance? arc.tail = some distance → net.outgoing arc.tail = .ok row →
    row.toList = offered ++ id :: pending → tree.relax w net potentials distance id = .ok next →
    holds tree → holds next
  choice : ∀ tree nearest, tree.nearest? = some nearest → holds tree →
    holds (tree.settleNearest nearest)

theorem Keeps.trivial (w : Width) (net : Network) (potentials : Potentials) (source : Nat) :
    Keeps w net potentials source fun _ => True where
  offer _ _ _ _ _ _ _ _ _ _ _ _ _ _ held := held
  choice _ _ _ held := held

variable {holds : Tree → Prop}

private theorem settle_keeps {w : Width} {breaks : Fault → Prop}
    (foreseen : Foreseen w breaks net potentials source)
    (keeps : Keeps w net potentials source holds) (sound : net.Sound)
    (counted : potentials.size = net.nodes)
    (growing : tree.Growing net potentials source []) (held : holds tree)
    (chosen : tree.nearest? = some nearest) :
    Checked.Ends (tree.settle w net potentials nearest) breaks fun next =>
      next.Growing net potentials source [] ∧ holds next ∧
        ∀ node, next.distance? node =
          if node = nearest.node then some nearest.distance else tree.distance? node := by
  obtain ⟨marked, -⟩ := nearest?_eq_some chosen
  have within : nearest.node < net.nodes := by
    rw [← growing.size]
    exact (Array.getElem?_eq_some_iff.mp marked).1
  obtain ⟨row, fetched, row_spec⟩ := sound.outgoing within
  unfold settle
  apply Checked.ends_bind_of_ok fetched
  refine (Checked.ends_foldlM (fun pending (next : Tree) =>
    next.Growing net potentials source pending ∧ holds next ∧
      (∃ offered, row.toList = offered ++ pending) ∧
      (tree.settleNearest nearest).SameSettled next) ?_ row.toList _
    ⟨growing.settle chosen row_spec, keeps.choice tree nearest chosen held, ⟨[], rfl⟩,
      fun _ => rfl⟩).weaken ?_
  · rintro id pending next ⟨nextGrowing, nextHeld, ⟨offered, split⟩, same⟩
    obtain ⟨arc, arcHeld, leaves⟩ := (row_spec id).mp (by simp [split])
    have settled : next.distance? arc.tail = some nearest.distance := by
      rw [same, leaves, distance?_settleNearest_self marked]
    refine (relax_ends foreseen sound counted nextGrowing arcHeld settled ?_).weaken_of_ok ?_
    · intro node known final
      rw [same] at final
      exact le_nearest marked growing final
    · rintro after relaxed ⟨afterGrowing, afterSame⟩
      refine ⟨afterGrowing, ?_, ⟨offered ++ [id], by simp [split]⟩,
        fun node => (afterSame node).trans (same node)⟩
      exact keeps.offer _ _ _ _ _ row offered pending nextGrowing arcHeld settled
        (leaves ▸ fetched) split relaxed nextHeld
  · rintro last ⟨lastGrowing, lastHeld, -, same⟩
    exact ⟨lastGrowing, lastHeld, fun node =>
      (same node).trans (distance?_settleNearest marked node)⟩

/-- The nodes that are not settled yet. -/
def unsettled (tree : Tree) (nodes : Nat) : Finset Nat :=
  (Finset.range nodes).filter fun node => tree.distance? node = none

private theorem Growing.nearest_mem_unsettled (growing : tree.Growing net potentials source [])
    (chosen : tree.nearest? = some nearest) : nearest.node ∈ tree.unsettled net.nodes := by
  obtain ⟨held, -⟩ := nearest?_eq_some chosen
  refine Finset.mem_filter.mpr ⟨Finset.mem_range.mpr ?_, by simp [distance?, held, Mark.settled?]⟩
  rw [← growing.size]
  exact (Array.getElem?_eq_some_iff.mp held).1

/-- As every step settles one more node, the budget lasts until no tentative
node is left. -/
theorem grow_keeps {w : Width} {breaks : Fault → Prop}
    (foreseen : Foreseen w breaks net potentials source)
    (keeps : Keeps w net potentials source holds) (sound : net.Sound)
    (counted : potentials.size = net.nodes) (budget : Nat) (tree : Tree)
    (growing : tree.Growing net potentials source []) (held : holds tree)
    (enough : (tree.unsettled net.nodes).card ≤ budget) :
    Checked.Ends (tree.grow w net potentials budget) breaks fun last =>
      last.Growing net potentials source [] ∧ holds last ∧ last.nearest? = none := by
  induction budget generalizing tree with
  | zero =>
    refine ⟨growing, held, ?_⟩
    cases chosen : tree.nearest? with
    | none => rfl
    | some nearest =>
      have positive := Finset.card_pos.mpr ⟨_, growing.nearest_mem_unsettled chosen⟩
      omega
  | succ budget ih =>
    unfold grow
    cases chosen : tree.nearest? with
    | none => exact ⟨growing, held, chosen⟩
    | some nearest =>
      apply (settle_keeps foreseen keeps sound counted growing held chosen).bind
      rintro next ⟨nextGrowing, nextHeld, distances⟩
      have fewer : next.unsettled net.nodes ⊂ tree.unsettled net.nodes := by
        refine Finset.ssubset_iff_subset_ne.mpr ⟨fun node member => ?_, fun same => ?_⟩
        · obtain ⟨inside, still⟩ := Finset.mem_filter.mp member
          rw [distances] at still
          split at still
          · cases still
          · exact Finset.mem_filter.mpr ⟨inside, still⟩
        · have settled := (Finset.mem_filter.mp
            (same ▸ growing.nearest_mem_unsettled chosen)).2
          rw [distances, if_pos rfl] at settled
          cases settled
      have smaller := Finset.card_lt_card fewer
      exact ih next nextGrowing nextHeld (by omega)

theorem grow_ends {w : Width} {breaks : Fault → Prop}
    (foreseen : Foreseen w breaks net potentials source) (sound : net.Sound)
    (counted : potentials.size = net.nodes) (budget : Nat) (tree : Tree)
    (growing : tree.Growing net potentials source [])
    (enough : (tree.unsettled net.nodes).card ≤ budget) :
    Checked.Ends (tree.grow w net potentials budget) breaks fun last =>
      last.Growing net potentials source [] ∧ last.nearest? = none :=
  (grow_keeps foreseen (Keeps.trivial ..) sound counted budget tree growing trivial
    enough).weaken fun _ ended => ⟨ended.1, ended.2.2⟩

/-- At first only the source is labelled, and nothing is settled. -/
theorem start_views (within : source < net.nodes) :
    (∀ node, (start net.nodes source).distance? node = none) ∧
      ∀ node, (start net.nodes source).label? node = (if source = node then some 0 else none) ∧
        (start net.nodes source).via? node = none := by
  have marks : ∀ node : Nat, (start net.nodes source).marks[node]? =
      if source = node then some (.tentative 0 none)
      else if node < net.nodes then some .unseen else none := by
    intro node
    simp only [start, Array.getElem?_setIfInBounds, Array.size_replicate, within, if_true,
      Array.getElem?_replicate]
  constructor
  · intro node
    unfold distance?
    rw [marks]
    split_ifs <;> rfl
  · intro node
    unfold label? via?
    rw [marks]
    split_ifs <;> exact ⟨rfl, rfl⟩

theorem growing_start (within : source < net.nodes) :
    (start net.nodes source).Growing net potentials source [] := by
  obtain ⟨distances, labels⟩ := start_views within
  constructor
  case size => simp [start]
  case root =>
    rw [(labels source).1, if_pos rfl]
    exact ⟨rfl, (labels source).2⟩
  case only_root =>
    intro node distance labelled _
    rw [(labels node).1] at labelled
    split at labelled
    · rename_i same
      exact same.symm
    · cases labelled
  case nonneg =>
    intro node distance labelled
    rw [(labels node).1] at labelled
    split at labelled
    · cases labelled
      exact Int.le_refl 0
    · cases labelled
  case ordered =>
    intro first last near far settled
    rw [distances] at settled
    cases settled
  case reached =>
    intro node distance id _ through
    rw [(labels node).2] at through
    cases through
  case relaxed =>
    intro id arc distance _ _ settled
    rw [distances] at settled
    cases settled
  case trail =>
    intro node distance settled
    rw [distances] at settled
    cases settled

/-- A finished tree: the nodes in reach of the source have a distance, which is
what the cheapest simple walk to them costs as the potentials show it. -/
structure Spans (net : Network) (potentials : Potentials) (source : Nat) (tree : Tree) :
    Prop where
  size : tree.marks.size = net.nodes
  root : tree.distance? source = some 0
  nonneg : ∀ node distance, tree.distance? node = some distance → 0 ≤ distance
  /-- No open arc leaves the tree, and none is a shortcut. -/
  relaxed : ∀ id arc distance, net.arc id = .ok arc → arc.Open →
    tree.distance? arc.tail = some distance →
    0 ≤ Network.exactReducedCost potentials arc ∧ ∃ further, tree.distance? arc.head = some further ∧
      further ≤ distance + Network.exactReducedCost potentials arc
  /-- The trail to a node is a simple walk, and each arc of it is tight. -/
  trail : ∀ node distance, tree.distance? node = some distance →
    ∃ path, tree.trailTo net node = .ok path ∧
      net.SimpleWalk source path node
        (distance - potentials.getD source 0 + potentials.getD node 0) ∧
      ∀ id ∈ path, ∀ arc, net.arc id = .ok arc → ∃ before,
        tree.distance? arc.tail = some before ∧
          tree.distance? arc.head = some (before + Network.exactReducedCost potentials arc)

/-- A trail that comes to no node twice is found again on the way back from its end. -/
theorem Growing.trailTo_eq (growing : tree.Growing net potentials source pending)
    (sound : net.Sound) (trail : tree.Trail net potentials source path node distance)
    (distinct : (net.departures path ++ [node]).Nodup) : tree.trailTo net node = .ok path := by
  have simple : net.SimpleWalk source path node _ := ⟨trail.walk, distinct⟩
  have within : node < net.nodes := growing.size ▸ lt_size_of_distance? trail.settled
  have short := simple.length_lt sound within
  unfold trailTo
  rw [trail.climb_eq _ (by omega), List.append_nil]

/-- Where nothing is tentative any more, a label is a final distance. -/
theorem settled_of_label (finished : tree.nearest? = none)
    (labelled : tree.label? node = some distance) : tree.distance? node = some distance := by
  cases settled : tree.distance? node with
  | some final => exact (label?_of_distance? settled).symm.trans labelled
  | none =>
    obtain ⟨via, held⟩ := tentative_of_label labelled settled
    exact absurd held (nearest?_eq_none finished node distance via)

theorem Growing.spans (sound : net.Sound) (growing : tree.Growing net potentials source [])
    (finished : tree.nearest? = none) : tree.Spans net potentials source := by
  refine ⟨growing.size, settled_of_label finished growing.root.1, fun node distance settled =>
    growing.nonneg node distance (label?_of_distance? settled), ?_, ?_⟩
  · intro id arc distance held isOpen settled
    obtain ⟨nonneg, label, labelled, below⟩ :=
      growing.relaxed id arc distance held isOpen settled (by simp)
    exact ⟨nonneg, label, settled_of_label finished labelled, below⟩
  · intro node distance settled
    obtain ⟨path, trail, distinct⟩ := growing.trail node distance settled
    exact ⟨path, growing.trailTo_eq sound trail distinct, ⟨trail.walk, distinct⟩, trail.tight⟩

/-- A search spans the nodes in reach, or breaks off as foreseen. -/
theorem ofSource_ends {w : Width} {breaks : Fault → Prop}
    (foreseen : Foreseen w breaks net potentials source) (sound : net.Sound)
    (counted : potentials.size = net.nodes) (within : source < net.nodes) :
    Checked.Ends (ofSource w net potentials source) breaks
      (Spans net potentials source) := by
  unfold ofSource
  rw [if_neg (not_not.mpr counted), if_neg (by omega)]
  refine (grow_ends foreseen sound counted net.nodes _ (growing_start within) ?_).weaken ?_
  · exact (Finset.card_filter_le _ _).trans_eq (Finset.card_range _)
  · rintro last ⟨growing, finished⟩
    exact growing.spans sound finished

/-- A walk from a settled node comes to settled nodes only, and none of them is farther away
than the walk makes it. -/
theorem Spans.le_of_walk {first last : Nat} (spans : tree.Spans net potentials source)
    (walk : net.Walk first path last cost) (start : tree.distance? first = some distance) :
    ∃ further, tree.distance? last = some further ∧
      further ≤ distance + potentials.getD first 0 - potentials.getD last 0 + cost := by
  induction walk generalizing distance with
  | nil node => exact ⟨distance, start, by omega⟩
  | cons held isOpen walk ih =>
    obtain ⟨-, near, settled, step⟩ := spans.relaxed _ _ _ held isOpen start
    obtain ⟨further, last, onward⟩ := ih settled
    unfold Network.exactReducedCost at step
    exact ⟨further, last, by omega⟩

/-- The tree holds exactly the nodes in reach. -/
theorem Spans.isSome_distance?_iff (spans : tree.Spans net potentials source) :
    (tree.distance? node).isSome ↔ net.Connects source node := by
  constructor
  · intro settled
    obtain ⟨distance, held⟩ := Option.isSome_iff_exists.mp settled
    obtain ⟨path, -, simple, -⟩ := spans.trail node distance held
    exact ⟨path, _, simple.1⟩
  · rintro ⟨path, cost, walk⟩
    obtain ⟨further, settled, -⟩ := spans.le_of_walk walk spans.root
    exact Option.isSome_of_eq_some settled

end Transshipment.Tree
