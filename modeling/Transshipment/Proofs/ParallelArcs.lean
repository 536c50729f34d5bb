import Transshipment.Proofs.PotentialDistances
import Transshipment.Proofs.SearchEffort

/-! Arcs that lead from the same node to the same node, along a link or against it. A search
takes a cheapest of them, and the first of these in the order of insertion: rows keep that
order, and only a strictly better offer takes over a label. -/
namespace Transshipment

namespace Network

/-- The rival is an open arc that leads from the same node to the same node. -/
structure Rivals (net : Network) (arc : Arc) (other : Nat) (rival : Arc) : Prop where
  held : net.arc other = .ok rival
  isOpen : rival.Open
  tail : rival.tail = arc.tail
  head : rival.head = arc.head

/-- No open arc between the same nodes costs less than the arc with this number, and none that
costs as little was inserted earlier. -/
def Foremost (net : Network) (id : Nat) (arc : Arc) : Prop :=
  ∀ other rival, net.Rivals arc other rival →
    arc.cost ≤ rival.cost ∧ (rival.cost = arc.cost → id ≤ other)

/-- Whatever the potentials are, they show rivals as far apart as their costs are. -/
theorem Rivals.sub_eq {net : Network} {arc rival : Arc} {other : Nat}
    (rivals : net.Rivals arc other rival) (potentials : Potentials) :
    exactReducedCost potentials rival - exactReducedCost potentials arc =
      rival.cost - arc.cost := by
  unfold exactReducedCost
  rw [rivals.tail, rivals.head]
  omega

/-- Where a row is worked off in its order, what is still pending was inserted later. -/
theorem Ordered.le_of_pending {rows : Array (Array Nat)} {bound node id : Nat} {row : Array Nat}
    {offered pending : List Nat} (ordered : Ordered rows bound) (held : rows[node]? = some row)
    (split : row.toList = offered ++ id :: pending) : ∀ other ∈ id :: pending, id ≤ other := by
  have sorted := (ordered node row held).1
  rw [split] at sorted
  have behind := (List.pairwise_cons.mp (List.pairwise_append.mp sorted).2.1).1
  intro other waits
  rcases List.mem_cons.mp waits with rfl | waits
  · exact Nat.le_refl other
  · exact Nat.le_of_lt (behind other waits)

end Network

namespace Tree

variable {w : Width} {net : Network} {potentials : Potentials} {tree next : Tree}
  {source id node : Nat} {pending : List Nat} {distance : Int} {arc : Arc}

/-- An offer changes nothing, or it is better than the label that it takes over. -/
theorem relax_cases (sound : net.Sound) (counted : potentials.size = net.nodes)
    (held : net.arc id = .ok arc) (relaxed : tree.relax w net potentials distance id = .ok next) :
    next = tree ∨ ∃ reach, reach = distance + Network.exactReducedCost potentials arc ∧
      arc.head < tree.marks.size ∧ tree.distance? arc.head = none ∧
      (∀ known, tree.label? arc.head = some known → reach < known) ∧
      next = tree.write arc.head (.tentative reach (some id)) := by
  have anyway : ∀ exact, w.Keeps (fun _ => True) exact := w.keeps_of_overflows fun _ => trivial
  unfold relax at relaxed
  obtain ⟨_, again, relaxed⟩ := Checked.bind_eq_ok_iff.mp relaxed
  cases held.symm.trans again
  split at relaxed
  · obtain ⟨step, reduced, relaxed⟩ := Checked.bind_eq_ok_iff.mp relaxed
    obtain rfl := (reducedCost_ends sound counted held (anyway _) (anyway _)).of_ok reduced
    split at relaxed
    · cases relaxed
    · obtain ⟨reach, summed, relaxed⟩ := Checked.bind_eq_ok_iff.mp relaxed
      obtain ⟨rfl, -⟩ := Width.keep_eq_ok_iff.mp summed
      obtain ⟨mark, fetched, relaxed⟩ := Checked.bind_eq_ok_iff.mp relaxed
      have marked := fetch_eq_ok_iff.mp fetched
      cases relaxed
      rcases offer_cases (distance + Network.exactReducedCost potentials arc) id marked with
        ⟨declined, -⟩ | ⟨accepted, unsettled, better⟩
      · left
        rw [declined]
        exact write_eq_self marked
      · right
        refine ⟨_, rfl, (Array.getElem?_eq_some_iff.mp marked).1, unsettled, better, ?_⟩
        rw [accepted]
        rfl
  · cases relaxed
    exact .inl rfl

/-- Of the open arcs between the same nodes, those inserted before the arc of a label cost
more. -/
def Earliest (net : Network) (tree : Tree) : Prop :=
  ∀ node id arc, tree.via? node = some id → net.arc id = .ok arc →
    ∀ other rival, net.Rivals arc other rival → other < id → arc.cost < rival.cost

/-- When an arc makes its offer, the earlier arcs of the row have made theirs. One that leads to
the same node left a label there that is undercut only by a lesser cost. -/
theorem earliest_offer (growing : tree.Growing net potentials source (id :: pending))
    (settled : tree.distance? arc.tail = some distance)
    (better : ∀ known, tree.label? arc.head = some known →
      distance + Network.exactReducedCost potentials arc < known)
    (later : ∀ other ∈ id :: pending, id ≤ other) {other : Nat} {rival : Arc}
    (rivals : net.Rivals arc other rival) (earlier : other < id) : arc.cost < rival.cost := by
  have made : other ∉ id :: pending := fun waits => Nat.not_le.mpr earlier (later other waits)
  obtain ⟨-, label, labelled, least⟩ := growing.relaxed other rival distance rivals.held
    rivals.isOpen (rivals.tail ▸ settled) made
  have undercut := better label (rivals.head ▸ labelled)
  have apart := rivals.sub_eq potentials
  omega

private theorem keeps_earliest {bound : Nat} (w : Width) (sound : net.Sound)
    (ordered : Network.Ordered net.rows bound) (counted : potentials.size = net.nodes) :
    Keeps w net potentials source (Earliest net) where
  offer tree next id arc distance row offered pending growing held settled fetched split relaxed
      earliest := by
    obtain rfl | ⟨reach, rfl, within, unsettled, better, rfl⟩ :=
      relax_cases sound counted held relaxed
    · exact earliest
    · have later := ordered.le_of_pending (fetch_eq_ok_iff.mp fetched) split
      intro node via entry through entryHeld other rival rivals earlier
      rw [((label_views _ _ within unsettled).2 node).2] at through
      split at through
      · cases through
        cases held.symm.trans entryHeld
        exact earliest_offer growing settled better later rivals earlier
      · exact earliest node via entry through entryHeld other rival rivals earlier
  choice tree nearest chosen earliest node id := by
    rw [settleNearest, ((settle_views (nearest?_eq_some chosen).1).2 node).2]
    exact earliest node id

private theorem earliest_start (net : Network) (within : source < net.nodes) :
    Earliest net (start net.nodes source) := by
  intro node id arc through
  rw [((start_views within).2 node).2] at through
  cases through

/-- The arcs of a finished tree are foremost: a final distance exceeds no offer, and among
equal offers the earliest stands. -/
theorem foremost_of_ofSource {bound : Nat} (sound : net.Sound)
    (ordered : Network.Ordered net.rows bound) (counted : potentials.size = net.nodes)
    (within : source < net.nodes) (found : ofSource w net potentials source = .ok tree)
    (settled : tree.distance? node = some distance) :
    ∃ path, tree.trailTo net node = .ok path ∧
      ∀ id ∈ path, ∃ arc, net.arc id = .ok arc ∧ arc.Open ∧ net.Foremost id arc := by
  obtain ⟨growing, earliest, finished⟩ := growing_of_ofSource sound
    (keeps_earliest w sound ordered counted) (earliest_start net within) found
  have spans := growing.spans sound finished
  obtain ⟨path, trail, distinct⟩ := growing.trail node distance settled
  refine ⟨path, growing.trailTo_eq sound trail distinct, fun id member => ?_⟩
  obtain ⟨arc, held, isOpen, through⟩ := trail.labels id member
  obtain ⟨before, tailSettled, tight⟩ := trail.tight id member arc held
  refine ⟨arc, held, isOpen, fun other rival rivals => ⟨?_, ?_⟩⟩
  · obtain ⟨-, further, final, least⟩ := spans.relaxed other rival before rivals.held
      rivals.isOpen (rivals.tail ▸ tailSettled)
    cases (rivals.head ▸ final).symm.trans tight
    have apart := rivals.sub_eq potentials
    omega
  · intro same
    by_contra late
    have more := earliest arc.head id arc through held other rival rivals (Nat.not_le.mp late)
    omega

end Tree

namespace Network

/-- Three links between two nodes, the second of them in the opposite direction. -/
def thereAndBack (used : Int) : Network :=
  ⟨#[⟨0, 1, 2, 1, 0⟩, ⟨1, 0, -1, 1 - used, used⟩, ⟨0, 1, 1, 1, 0⟩],
    #[#[0, 3, 4], #[1, 2, 5]]⟩

private theorem thereAndBack_made :
    Made ⟨7⟩ (thereAndBack 1) [⟨0, 1, 1, 2⟩, ⟨1, 0, 1, -1⟩, ⟨0, 1, 1, 1⟩] := by
  have inserted : insertOffers ⟨7⟩ (.ofNodes 2) [⟨0, 1, 1, 2⟩, ⟨1, 0, 1, -1⟩, ⟨0, 1, 1, 1⟩] =
      .ok (.ok (thereAndBack 0)) := by with_unfolding_all rfl
  have pushed : (thereAndBack 0).push ⟨7⟩ 2 1 = .ok (thereAndBack 1) := by
    with_unfolding_all rfl
  exact .push (.insertOffers (.ofNodes 2) (by decide) inserted) pushed

end Network

namespace Chart

variable {w : Width} {net : Network} {offers : List Offer} {potentials : Potentials}

/-- The search comes to the sink against the second link. -/
def back : Tree := ⟨#[.settled 0 none, .settled 1 (some 3)]⟩

/-- From valid potentials a search finds a path to every node in reach, and each arc of it is
foremost among the open arcs between the same nodes: it is a cheapest of them, and of the
cheapest the one that was inserted first. Only an overflow or an end that is no node breaks the
search off. -/
theorem search_takes_foremost (made : Network.Made w net offers) (chart : Chart)
    (priced : net.PricedBy potentials) (source sink : Nat) :
    Checked.Ends (chart.search w net potentials source sink)
      (fun fault => fault.IsOverflow ∨ net.Strays source sink fault)
      fun (left, _, reached) => (reached = true ↔ net.Connects source sink) ∧
        ∀ node, net.Connects source node → ∃ path, left.pathTo net node = .ok path ∧
          ∀ id ∈ path, ∃ arc, net.arc id = .ok arc ∧ arc.Open ∧ net.Foremost id arc := by
  obtain ⟨nodes, files⟩ := made.files
  rw [search_eq w made.sound]
  refine ((Network.survey_ends_of_priced w made.sound priced source sink).weaken_of_ok ?_).map
  rintro survey searched ⟨within, -, surveyed⟩
  have connects : ∀ node, (survey.tree.distance? node).isSome ↔ net.Connects source node :=
    fun node => surveyed.spans.isSome_distance?_iff
  rw [surveyed.reached]
  refine ⟨connects sink, fun node connected => ?_⟩
  obtain ⟨distance, settled⟩ := Option.isSome_iff_exists.mp ((connects node).mpr connected)
  rw [pathTo_chart]
  exact Tree.foremost_of_ofSource made.sound files.ordered priced.1 within
    (Network.ofSource_of_survey searched) settled

/-- The second link carries a unit that would be refunded. Its arc against costs as much as the
third link and is less than the first, and it was inserted before the third. -/
theorem search_takes_foremost_thereAndBack :
    ∃ left raised, used.search ⟨7⟩ (Network.thereAndBack 1) #[0, 0] 0 1 =
        .ok (left, raised, true) ∧
      left.pathTo (Network.thereAndBack 1) 1 = .ok [3] ∧
      (Network.thereAndBack 1).Foremost 3 ⟨0, 1, 1, 1⟩ := by
  have made := Network.thereAndBack_made
  have priced : (Network.thereAndBack 1).PricedBy #[0, 0] :=
    Network.pricedBy_of_links rfl (by decide)
  have searched : used.search ⟨7⟩ (Network.thereAndBack 1) #[0, 0] 0 1 =
      .ok (back.chart, #[0, 1], true) := by
    have surveyed : (Network.thereAndBack 1).survey ⟨7⟩ #[0, 0] 0 1 =
        .ok ⟨back, #[0, 1], true⟩ := by with_unfolding_all rfl
    rw [search_eq ⟨7⟩ made.sound, surveyed]
    rfl
  have led : back.chart.pathTo (Network.thereAndBack 1) 1 = .ok [3] := by
    rw [pathTo_chart]
    with_unfolding_all rfl
  obtain ⟨reach, foremost⟩ := (search_takes_foremost made used priced 0 1).of_ok searched
  obtain ⟨path, again, arcs⟩ := foremost 1 (reach.mp rfl)
  cases led.symm.trans again
  obtain ⟨arc, held, -, first⟩ := arcs 3 (List.mem_singleton.mpr rfl)
  obtain rfl : ⟨0, 1, 1, 1⟩ = arc := Except.ok.inj held
  exact ⟨_, _, searched, led, first⟩

end Chart

end Transshipment
