import Transshipment.Network.Shipment
import Transshipment.Proofs.ShipmentEffect
import Transshipment.Proofs.TreeGrowth

/-! Raising the potentials by the distances of a search keeps all reduced costs
non-negative, also on arcs that leave nodes out of reach, and makes the arcs of
the tree tight. A shipment over tight arcs opens only arcs that are tight
themselves, so the raised potentials price the network that it leaves. -/
namespace Transshipment

namespace Tree

variable {net : Network} {potentials raised : Potentials} {tree : Tree} {source node : Nat}
  {distance : Int}

/-- What a search adds to the potential of a node. -/
def rise (tree : Tree) (node : Nat) : Int := (tree.distance? node).getD tree.farthest

private theorem le_foldl_max (start : Int) (amounts : List Int) :
    start ≤ amounts.foldl max start ∧ ∀ amount ∈ amounts, amount ≤ amounts.foldl max start := by
  induction amounts generalizing start with
  | nil => simp
  | cons first rest ih =>
    obtain ⟨fromStart, fromRest⟩ := ih (max start first)
    rw [List.foldl_cons]
    refine ⟨by omega, fun amount member => ?_⟩
    rcases List.mem_cons.mp member with rfl | later
    · omega
    · exact fromRest amount later

/-- No node that was reached is farther away than the nodes out of reach are
taken to be. -/
theorem rise_le_farthest (tree : Tree) (node : Nat) : tree.rise node ≤ tree.farthest := by
  unfold rise
  cases settled : tree.distance? node with
  | none => exact Int.le_refl _
  | some distance =>
    obtain ⟨mark, held, known⟩ := Option.bind_eq_some_iff.mp settled
    have member : distance ∈ tree.marks.toList.filterMap Mark.settled? :=
      List.mem_filterMap.mpr
        ⟨mark, Array.mem_toList_iff.mpr (Array.mem_of_getElem? held), known⟩
    exact (le_foldl_max 0 _).2 distance member

theorem farthest_nonneg (tree : Tree) : 0 ≤ tree.farthest :=
  (le_foldl_max 0 _).1

private theorem foldl_max_le {start bound : Int} {amounts : List Int} (first : start ≤ bound)
    (all : ∀ amount ∈ amounts, amount ≤ bound) : amounts.foldl max start ≤ bound := by
  induction amounts generalizing start with
  | nil => exact first
  | cons amount rest ih =>
    rw [List.foldl_cons]
    have here := all amount (by simp)
    exact ih (by omega) fun other later => all other (by simp [later])

theorem farthest_le {bound : Int} (nonneg : 0 ≤ bound)
    (all : ∀ node distance, tree.distance? node = some distance → distance ≤ bound) :
    tree.farthest ≤ bound := by
  refine foldl_max_le nonneg fun distance member => ?_
  obtain ⟨mark, listed, known⟩ := List.mem_filterMap.mp member
  obtain ⟨node, held⟩ := List.mem_iff_getElem?.mp listed
  rw [Array.getElem?_toList] at held
  exact all node distance (by rw [distance?, held]; exact known)

theorem raise_ends {w : Width} {breaks : Fault → Prop} (tree : Tree) (potentials : Potentials)
    (kept : ∀ node < potentials.size,
      w.Keeps breaks (potentials.getD node 0 + tree.rise node)) :
    Checked.Ends (tree.raise w potentials) breaks fun raised =>
      raised.size = potentials.size ∧
        ∀ node < potentials.size, raised.getD node 0 = potentials.getD node 0 + tree.rise node := by
  unfold raise
  refine (Checked.ends_mapM (f := fun entry : Int × Nat => entry.1 + tree.rise entry.2) _
    fun entry member => ?_).bind ?_
  · have held := List.mem_zipIdx_iff_getElem?.mp member
    rw [Array.getElem?_toList] at held
    obtain ⟨within, same⟩ := Array.getElem?_eq_some_iff.mp held
    have sum := kept entry.2 within
    rw [Array.getD_eq_getD_getElem?, held] at sum
    exact sum.add
  · rintro _ rfl
    refine ⟨by simp, fun node within => ?_⟩
    simp [Array.getD_eq_getD_getElem?, within]

/-- What the search does to the reduced cost of an arc. -/
theorem exactReducedCost_raised {arc : Arc}
    (rises : ∀ node < potentials.size,
      raised.getD node 0 = potentials.getD node 0 + tree.rise node)
    (tail : arc.tail < potentials.size) (head : arc.head < potentials.size) :
    Network.exactReducedCost raised arc =
      Network.exactReducedCost potentials arc + tree.rise arc.tail - tree.rise arc.head := by
  unfold Network.exactReducedCost
  rw [rises _ tail, rises _ head]
  omega

private theorem Spans.pricedBy_raised (spans : tree.Spans net potentials source) (sound : net.Sound)
    (priced : net.PricedBy potentials) (size : raised.size = potentials.size)
    (rises : ∀ node < potentials.size,
      raised.getD node 0 = potentials.getD node 0 + tree.rise node) :
    net.PricedBy raised := by
  refine ⟨size.trans priced.1, fun id arc held isOpen => ?_⟩
  have ends := sound.arc_ends held
  rw [exactReducedCost_raised rises (by rw [priced.1]; exact ends.1)
    (by rw [priced.1]; exact ends.2)]
  have before := priced.2 id arc held isOpen
  cases settled : tree.distance? arc.tail with
  | none =>
    have atTail : tree.rise arc.tail = tree.farthest := by simp [rise, settled]
    have atHead := tree.rise_le_farthest arc.head
    omega
  | some distance =>
    obtain ⟨-, further, headSettled, near⟩ := spans.relaxed id arc distance held isOpen settled
    have atTail : tree.rise arc.tail = distance := by simp [rise, settled]
    have atHead : tree.rise arc.head = further := by simp [rise, headSettled]
    omega

/-- The trail to a node is tight under the raised potentials. -/
theorem Spans.tight_raised (spans : tree.Spans net potentials source) (sound : net.Sound)
    (counted : potentials.size = net.nodes)
    (rises : ∀ node < potentials.size,
      raised.getD node 0 = potentials.getD node 0 + tree.rise node)
    (settled : tree.distance? node = some distance) :
    ∃ path cost, tree.trailTo net node = .ok path ∧ net.SimpleWalk source path node cost ∧
      ∀ id ∈ path, ∀ arc, net.arc id = .ok arc → Network.exactReducedCost raised arc = 0 := by
  obtain ⟨path, led, simple, tight⟩ := spans.trail node distance settled
  refine ⟨path, _, led, simple, fun id member arc held => ?_⟩
  have ends := sound.arc_ends held
  obtain ⟨before, tail, head⟩ := tight id member arc held
  rw [exactReducedCost_raised rises (by rw [counted]; exact ends.1) (by rw [counted]; exact ends.2)]
  simp only [rise, tail, head, Option.getD_some]
  omega

end Tree

namespace Network

variable {net last : Network} {potentials : Potentials} {path : List Nat} {source sink : Nat}
  {amount cost remaining : Int}

/-- Over tight arcs a shipment leaves the prices valid. -/
theorem Conveyed.pricedBy (conveyed : net.Conveyed last path source sink amount cost)
    (priced : net.PricedBy potentials)
    (tight : ∀ id ∈ path, ∀ arc, net.arc id = .ok arc → exactReducedCost potentials arc = 0) :
    last.PricedBy potentials := by
  refine ⟨priced.1.trans (nodes_eq_of_unloaded conveyed.same).symm, fun id arc held isOpen => ?_⟩
  rcases conveyed.opened id arc held isOpen with ⟨before, found, wasOpen, tail, head, price⟩ | taken
  · have kept := priced.2 id before found wasOpen
    unfold exactReducedCost at kept ⊢
    rwa [← tail, ← head, ← price]
  · obtain ⟨twin, twinHeld, tail, head, price⟩ := arc_of_unloaded conveyed.same held
    obtain ⟨mate, mateHeld, mateTail, mateHead, matePrice⟩ := arc_mate twinHeld
    have zero := tight _ taken mate mateHeld
    unfold exactReducedCost at zero ⊢
    rw [mateTail, mateHead, matePrice, tail, head, price] at zero
    omega

/-- What a round computes over a network is kept, so far as it is not for the books. -/
structure Secure (w : Width) (breaks : Fault → Prop) (net : Network) (potentials : Potentials)
    (source : Nat) (remaining : Int) : Prop where
  search : Tree.Foreseen w breaks net potentials source
  raise : ∀ tree : Tree, tree.Spans net potentials source → ∀ node < potentials.size,
    w.Keeps breaks (potentials.getD node 0 + tree.rise node)
  room : net.Holds w breaks
  ship : ∀ path sink cost amount, sink < net.nodes → net.SimpleWalk source path sink cost →
    0 < amount → amount ≤ remaining →
      net.Fares w breaks source path amount 0 ∧ w.Keeps breaks (remaining - amount)

/-- Under valid potentials a round is secure but for overflows. -/
theorem secure_of_priced (w : Width) (priced : net.PricedBy potentials) (source : Nat)
    (remaining : Int) : net.Secure w Fault.IsOverflow potentials source remaining := by
  have anyway := Width.keeps_of_overflows Fault.isOverflow_overflow w
  exact ⟨Tree.foreseen_of_priced w priced source, fun _ _ _ _ => anyway _,
    fun _ _ _ _ _ _ => anyway _, fun _ _ _ _ _ _ _ _ =>
      ⟨⟨fun _ _ _ _ => anyway _, fun _ _ _ _ _ _ => anyway _⟩, anyway _⟩⟩

/-- A shipment along a simple walk between two different nodes goes through if it is secure. -/
theorem Secure.ship_ends {w : Width} {breaks : Fault → Prop}
    (secure : net.Secure w breaks potentials source remaining) (sound : net.Sound)
    (within : sink < net.nodes) (apart : source ≠ sink) (wanted : 0 < remaining)
    (simple : net.SimpleWalk source path sink cost) :
    Checked.Ends (net.ship w path remaining) breaks fun sent =>
      0 < sent.1.amount ∧ sent.1.amount ≤ remaining ∧
        sent.1.remaining = remaining - sent.1.amount ∧
        sent.1.cost = sent.1.amount * cost ∧ sent.1.path = path ∧
        net.Conveyed sent.2 path source sink sent.1.amount cost := by
  have leads : path ≠ [] := fun none => apart (simple.eq_nil_iff.mp none).symm
  exact Network.ship_ends sound simple leads wanted secure.room fun amount positive below =>
    secure.ship path sink cost amount within simple positive below

/-- What a search found out: it spans the nodes in reach, hands on valid potentials, and
tells whether the sink is in reach. -/
structure Surveyed (net : Network) (potentials : Potentials) (source sink : Nat)
    (survey : Survey) : Prop where
  spans : survey.tree.Spans net potentials source
  priced : net.PricedBy survey.potentials
  rises : ∀ node < potentials.size, survey.potentials.getD node 0 =
    potentials.getD node 0 + survey.tree.rise node
  reached : survey.reached = (survey.tree.distance? sink).isSome

/-- The source keeps its potential. -/
theorem Surveyed.source_eq {survey : Survey}
    (surveyed : net.Surveyed potentials source sink survey) (within : source < potentials.size) :
    survey.potentials.getD source 0 = potentials.getD source 0 := by
  have still : survey.tree.rise source = 0 := by simp [Tree.rise, surveyed.spans.root]
  rw [surveyed.rises source within, still, Int.add_zero]

/-- No potential falls. -/
theorem Surveyed.le {survey : Survey} {node : Nat}
    (surveyed : net.Surveyed potentials source sink survey) (within : node < potentials.size) :
    potentials.getD node 0 ≤ survey.potentials.getD node 0 := by
  have nonneg : 0 ≤ survey.tree.rise node := by
    unfold Tree.rise
    cases settled : survey.tree.distance? node with
    | none => exact survey.tree.farthest_nonneg
    | some distance => exact surveyed.spans.nonneg node distance settled
  rw [surveyed.rises node within]
  omega

/-- Where the search and the raise are foreseen, a survey spans the nodes in reach, raises each
potential, and tells whether the tree holds the sink. -/
theorem survey_spans {w : Width} {breaks : Fault → Prop} (sound : net.Sound)
    (counted : potentials.size = net.nodes) (foreseen : Tree.Foreseen w breaks net potentials source)
    (raised : ∀ tree : Tree, tree.Spans net potentials source → ∀ node < potentials.size,
      w.Keeps breaks (potentials.getD node 0 + tree.rise node))
    (sourceWithin : source < net.nodes) (sinkWithin : sink < net.nodes) :
    Checked.Ends (net.survey w potentials source sink) breaks fun survey =>
      survey.tree.Spans net potentials source ∧ survey.potentials.size = potentials.size ∧
        (∀ node < potentials.size, survey.potentials.getD node 0 =
          potentials.getD node 0 + survey.tree.rise node) ∧
        survey.reached = (survey.tree.distance? sink).isSome := by
  unfold survey
  apply (Tree.ofSource_ends foreseen sound counted sourceWithin).bind
  intro tree spans
  apply (tree.raise_ends potentials (raised tree spans)).bind
  rintro raised ⟨size, rises⟩
  have within : sink < tree.marks.size := spans.size ▸ sinkWithin
  have held : tree.marks[sink]? = some tree.marks[sink] := Array.getElem?_eq_getElem within
  have reaches : tree.reaches sink = .ok (tree.distance? sink).isSome := by
    simp [Tree.reaches, fetch_of_getElem? held, Tree.distance?, held, bind, Except.bind, pure,
      Except.pure]
  apply Checked.ends_bind_of_ok reaches
  exact ⟨spans, size, rises, rfl⟩

theorem survey_ends {w : Width} {breaks : Fault → Prop} (sound : net.Sound)
    (priced : net.PricedBy potentials) (secure : net.Secure w breaks potentials source remaining)
    (sourceWithin : source < net.nodes) (sinkWithin : sink < net.nodes) :
    Checked.Ends (net.survey w potentials source sink) breaks
      (net.Surveyed potentials source sink) := by
  refine (survey_spans sound priced.1 secure.search secure.raise sourceWithin sinkWithin).weaken ?_
  rintro survey ⟨spans, size, rises, reached⟩
  exact ⟨spans, spans.pricedBy_raised sound priced size rises, rises, reached⟩

/-- What a dispatch found out and did: there is no way to the sink, or a shipment
went along a tight simple walk. -/
def Dispatched (net : Network) (potentials : Potentials) (source sink : Nat) (remaining : Int)
    (dispatch : Dispatch) : Prop :=
  net.Surveyed potentials source sink dispatch.survey ∧
    match dispatch.shipped? with
    | none => ¬ net.Connects source sink
    | some (shipment, last) =>
      0 < shipment.amount ∧ shipment.amount ≤ remaining ∧
        shipment.remaining = remaining - shipment.amount ∧
        last.PricedBy dispatch.survey.potentials ∧
        ∃ cost, shipment.cost = shipment.amount * cost ∧
          net.SimpleWalk source shipment.path sink cost ∧
          net.Conveyed last shipment.path source sink shipment.amount cost

theorem dispatch_ends {w : Width} {breaks : Fault → Prop} (sound : net.Sound)
    (priced : net.PricedBy potentials) (secure : net.Secure w breaks potentials source remaining)
    (sourceWithin : source < net.nodes) (sinkWithin : sink < net.nodes) (apart : source ≠ sink)
    (wanted : 0 < remaining) :
    Checked.Ends (net.dispatch w potentials source sink remaining) breaks
      (net.Dispatched potentials source sink remaining) := by
  unfold dispatch
  refine (survey_ends sound priced secure sourceWithin sinkWithin).bind fun survey surveyed => ?_
  split
  · rename_i found
    rw [surveyed.reached] at found
    obtain ⟨distance, settled⟩ := Option.isSome_iff_exists.mp found
    obtain ⟨path, cost, led, simple, tight⟩ :=
      surveyed.spans.tight_raised sound priced.1 surveyed.rises settled
    apply Checked.ends_bind_of_ok led
    refine (secure.ship_ends sound sinkWithin apart wanted simple).bind ?_
    rintro ⟨shipment, last⟩ ⟨positive, below, left, paid, rfl, conveyed⟩
    exact ⟨surveyed, positive, below, left, conveyed.pricedBy surveyed.priced tight, cost, paid,
      simple, conveyed⟩
  · rename_i missed
    refine ⟨surveyed, fun connected => missed ?_⟩
    rw [surveyed.reached]
    exact surveyed.spans.isSome_distance?_iff.mpr connected

end Network

end Transshipment
