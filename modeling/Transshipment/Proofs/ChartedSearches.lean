import Mathlib.Data.List.Basic
import Transshipment.Network.Chart
import Transshipment.Network.Shipment
import Transshipment.Proofs.Matching
import Transshipment.Proofs.TreeGrowth

/-! A search on a chart finds out what a search by its tree does, whatever the chart was used
for before. Entries of visited nodes are passed over, and every other entry that comes to its
turn is that of the nearest tentative node: as no reduced cost is negative, the distances of
the entries only grow from turn to turn, and no offer is better than a final distance. -/
namespace Transshipment

namespace Entry

variable {queue rest : List Entry} {entry other : Entry}

theorem Precedes.trans {last : Entry} (first : entry.Precedes other)
    (second : other.Precedes last) : entry.Precedes last := by
  unfold Precedes at *
  omega

theorem Precedes.total (entry other : Entry) (behind : ¬ entry.Precedes other) :
    other.Precedes entry := by
  unfold Precedes at *
  omega

private theorem next?_eq_none (none : next? queue = none) : queue = [] := by
  cases queue with
  | nil => rfl
  | cons first rest =>
    unfold next? at none
    split at none
    · cases none
    · split at none <;> cases none

private theorem Precedes.distance_le (first : entry.Precedes other) :
    entry.distance ≤ other.distance := by
  unfold Precedes at first
  omega

/-- The entry whose turn it is precedes all others. -/
theorem next?_precedes (next : next? queue = some entry) (member : other ∈ queue) :
    entry.Precedes other := by
  fun_induction next? queue generalizing entry with
  | case1 => cases next
  | case2 first rest none ih =>
    cases next
    rw [next?_eq_none none] at member
    obtain rfl := List.mem_singleton.mp member
    exact .inr ⟨rfl, Nat.le_refl _⟩
  | case3 first rest further found sooner ih =>
    cases next
    rcases List.mem_cons.mp member with rfl | later
    · exact .inr ⟨rfl, Nat.le_refl _⟩
    · exact sooner.trans (ih found later)
  | case4 first rest further found later ih =>
    cases next
    rcases List.mem_cons.mp member with rfl | member
    · exact Precedes.total _ _ later
    · exact ih found member

private theorem pop?_eq_some (popped : pop? queue = some (entry, rest)) :
    entry ∈ queue ∧ (∀ other ∈ queue, entry.Precedes other) ∧ rest = queue.erase entry := by
  obtain ⟨next, found, same⟩ := Option.map_eq_some_iff.mp popped
  cases same
  exact ⟨next?_mem found, fun other member => next?_precedes found member, rfl⟩

end Entry

namespace Tree

variable {w : Width} {net : Network} {potentials : Potentials} {tree : Tree} {node : Nat}
  {distance : Int} {via : Option Nat}

/-- Nothing before the entry is as near, and nothing behind it is nearer. -/
private theorem minOn?_eq_some {f : α → Int} {before after : List α} {entry : α}
    (first : ∀ other ∈ before, f entry < f other) (least : ∀ other ∈ after, f entry ≤ f other) :
    (before ++ entry :: after).minOn? f = some entry := by
  induction before with
  | nil =>
    rw [List.nil_append, List.minOn?_cons]
    cases found : after.minOn? f with
    | none => rfl
    | some other => exact congrArg some (minOn_eq_left (least other (List.minOn?_mem found)))
  | cons other rest ih =>
    rw [List.cons_append, List.minOn?_cons, ih fun far member => first far (by simp [member])]
    exact congrArg some (minOn_eq_right (Int.not_le.mpr (first other (by simp))))

/-- Candidates stand in the order of their nodes. -/
theorem candidates_sorted (tree : Tree) : tree.candidates.Pairwise (·.node < ·.node) := by
  have numbered : (tree.marks.toList.zipIdx).Pairwise (·.2 < ·.2) := by
    rw [← List.pairwise_map, List.zipIdx_map_snd]
    exact List.pairwise_lt_range'
  refine numbered.filterMap _ fun earlier later before first one second two => ?_
  obtain ⟨mark, node⟩ := earlier
  obtain ⟨other, place⟩ := later
  cases mark <;> cases one
  cases other <;> cases two
  exact before

/-- The tentative node of least distance is the nearest, if it has the least number among
those. -/
theorem nearest?_of_first (held : tree.marks[node]? = some (.tentative distance via))
    (first : ∀ other far, tree.label? other = some far → tree.distance? other = none →
      (Entry.mk distance node).Precedes ⟨far, other⟩) :
    tree.nearest? = some ⟨node, distance, via⟩ := by
  have member : (⟨node, distance, via⟩ : Candidate) ∈ tree.candidates := mem_candidates.mpr held
  have precedes : ∀ other ∈ tree.candidates, (Entry.mk distance node).Precedes
      ⟨other.distance, other.node⟩ := by
    intro other listed
    have marked := mem_candidates.mp listed
    exact first _ _ (by simp [label?, marked, Mark.label?])
      (by simp [distance?, marked, Mark.settled?])
  obtain ⟨before, after, split⟩ := List.mem_iff_append.mp member
  have sorted := tree.candidates_sorted
  unfold nearest?
  rw [split] at precedes sorted ⊢
  refine minOn?_eq_some (fun other earlier => ?_) fun other later => ?_
  · have lower : other.node < node := (List.pairwise_append.mp sorted).2.2 _ earlier _
      (List.mem_cons_self ..)
    have order := precedes other (by simp [earlier])
    unfold Entry.Precedes at order
    dsimp only at order ⊢
    omega
  · have order := precedes other (by simp [later])
    unfold Entry.Precedes at order
    dsimp only at order ⊢
    omega

private theorem grow_eq_self (finished : tree.nearest? = none) (budget : Nat) :
    tree.grow w net potentials budget = .ok tree := by
  cases budget with
  | zero => rfl
  | succ budget => simp [grow, finished]

/-- Whatever could have broken it off, a search that comes to an end left a full-grown tree. -/
theorem growing_of_ofSource {source : Nat} {holds : Tree → Prop} (sound : net.Sound)
    (keeps : Keeps w net potentials source holds) (start : holds (start net.nodes source))
    (found : ofSource w net potentials source = .ok tree) :
    tree.Growing net potentials source [] ∧ holds tree ∧ tree.nearest? = none := by
  have kept : ∀ exact, w.Keeps (fun _ => True) exact := w.keeps_of_overflows fun _ => trivial
  have foreseen : Foreseen w (fun _ => True) net potentials source :=
    ⟨fun _ _ _ _ => kept _, fun _ _ _ _ => kept _, fun _ _ _ _ => kept _, fun _ _ _ _ _ => trivial⟩
  unfold ofSource at found
  split at found
  · cases found
  · rename_i counted
    split at found
    · cases found
    · rename_i within
      exact (grow_keeps foreseen keeps sound (not_not.mp counted) net.nodes _
        (growing_start (Nat.not_le.mp within)) start
        ((Finset.card_filter_le _ _).trans_eq (Finset.card_range _))).of_ok found

/-- Its nodes are those in reach. -/
theorem spans_of_ofSource {source : Nat} (sound : net.Sound)
    (found : ofSource w net potentials source = .ok tree) : tree.Spans net potentials source := by
  obtain ⟨growing, -, finished⟩ := growing_of_ofSource sound (Keeps.trivial ..) trivial found
  exact growing.spans sound finished

/-- The chart of a search that left this tree. -/
def chart (tree : Tree) : Chart :=
  ⟨tree.marks.map Mark.label?, tree.marks.map Mark.via, tree.marks.map (·.settled?.isSome)⟩

private theorem chart_write (tree : Tree) (node : Nat) (mark : Mark) :
    (tree.write node mark).chart = ⟨tree.chart.distances.setIfInBounds node mark.label?,
      tree.chart.vias.setIfInBounds node mark.via,
      tree.chart.visited.setIfInBounds node mark.settled?.isSome⟩ := by
  simp [chart, write]

theorem visited_chart (within : node < tree.marks.size) :
    tree.chart.visited[node]? = some (tree.distance? node).isSome := by
  simp [chart, distance?, within]

/-- To make a tentative distance final is to visit the node. -/
theorem chart_settle (held : tree.marks[node]? = some (.tentative distance via)) :
    (tree.write node (.settled distance via)).chart =
      { tree.chart with visited := tree.chart.visited.setIfInBounds node true } := by
  have labelled : tree.chart.distances[node]? = some (some distance) := by
    simp [chart, held, Mark.label?]
  have led : tree.chart.vias[node]? = some via := by simp [chart, held, Mark.via]
  rw [chart_write]
  simp only [Mark.label?, Mark.via, Mark.settled?, Option.isSome_some]
  rw [setIfInBounds_eq_self labelled, setIfInBounds_eq_self led]

end Tree

/-- What the tables and the queue say of a tree, at a turn of this distance. -/
structure Frontier.Follows (tree : Tree) (visited : Array Bool) (turn : Int)
    (frontier : Frontier) : Prop where
  charted : tree.chart = ⟨frontier.distances, frontier.vias, visited⟩
  /-- A tentative node waits with the distance that it has now. -/
  waiting : ∀ node distance, tree.label? node = some distance → tree.distance? node = none →
    ⟨distance, node⟩ ∈ frontier.queue
  /-- An entry is one of a node that may have come nearer since. -/
  known : ∀ entry ∈ frontier.queue, ∃ label, tree.label? entry.node = some label ∧
    label ≤ entry.distance
  behind : ∀ node distance, tree.distance? node = some distance → distance ≤ turn
  ahead : ∀ entry ∈ frontier.queue, turn ≤ entry.distance

namespace Frontier

variable {w : Width} {net : Network} {potentials : Potentials} {tree : Tree}
  {visited : Array Bool} {turn : Int} {frontier : Frontier} {entry : Entry} {rest : List Entry}

private theorem Follows.fetch_distances (follows : frontier.Follows tree visited turn)
    (node : Nat) : fetch frontier.distances node = Mark.label? <$> fetch tree.marks node := by
  have same : tree.marks.map Mark.label? = frontier.distances :=
    congrArg Chart.distances follows.charted
  rw [← same, fetch_map]

/-- A better offer to a node without a final distance takes over its label, and the node
waits with it from now on. -/
theorem Follows.accept {node id : Nat} {reach : Int} (follows : frontier.Follows tree visited turn)
    (within : node < tree.marks.size) (unsettled : tree.distance? node = none)
    (better : ∀ known, tree.label? node = some known → reach < known) (onward : turn ≤ reach) :
    Follows (tree.write node (.tentative reach (some id))) visited turn
      ⟨frontier.distances.setIfInBounds node (some reach),
        frontier.vias.setIfInBounds node (some id), ⟨reach, node⟩ :: frontier.queue⟩ := by
  obtain ⟨distances, labels⟩ := Tree.label_views reach (some id) within unsettled
  constructor
  case charted =>
    have still := Tree.visited_chart within
    rw [Tree.chart_write, Mark.settled?, ← unsettled, setIfInBounds_eq_self still,
      follows.charted]
    rfl
  case waiting =>
    intro place distance
    rw [(labels place).1, distances]
    split
    · rintro same -
      cases same
      simp_all
    · intro labelled tentative
      exact List.mem_cons_of_mem _ (follows.waiting place distance labelled tentative)
  case known =>
    intro entry member
    rw [(labels entry.node).1]
    rcases List.mem_cons.mp member with rfl | earlier
    · exact ⟨reach, if_pos rfl, Int.le_refl _⟩
    · obtain ⟨label, labelled, least⟩ := follows.known entry earlier
      split
      · rename_i same
        have improved := better label (same ▸ labelled)
        exact ⟨reach, rfl, by omega⟩
      · exact ⟨label, labelled, least⟩
  case behind =>
    intro place distance
    rw [distances]
    exact follows.behind place distance
  case ahead =>
    intro entry member
    rcases List.mem_cons.mp member with rfl | earlier
    · exact onward
    · exact follows.ahead entry earlier

/-- What an arc offers at a turn makes the same difference to the tables as to the tree. A final
distance is behind, so such a label is no farther than the offer. -/
theorem Follows.relax (follows : frontier.Follows tree visited turn) (sound : net.Sound)
    (id : Nat) : Checked.Matches (fun offered next => offered.Follows next visited turn)
      (frontier.relax w net potentials turn id) (tree.relax w net potentials turn id) := by
  unfold Frontier.relax Tree.relax
  refine Checked.matches_bind fun arc held => ?_
  have room := sound.residual_nonneg held
  by_cases isOpen : arc.Open
  · rw [if_neg (by unfold Arc.Open at isOpen; omega), if_pos isOpen]
    refine Checked.matches_bind fun step _ => ?_
    by_cases negative : step < 0
    · rw [if_pos negative, if_pos negative]
      exact rfl
    · rw [if_neg negative, if_neg negative]
      refine Checked.matches_bind fun reach summed => ?_
      obtain ⟨rfl, -⟩ := Width.keep_eq_ok_iff.mp summed
      rw [follows.fetch_distances, bind_map_left]
      refine Checked.matches_bind fun mark fetched => ?_
      have marked := fetch_eq_ok_iff.mp fetched
      have label : tree.label? arc.head = mark.label? := by simp [Tree.label?, marked]
      rw [← label]
      rcases Tree.offer_cases (turn + step) id marked with
        ⟨declined, known, labelled, offered⟩ | ⟨accepted, unsettled, better⟩
      · have least : known ≤ turn + step := by
          rcases offered with least | final
          · exact least
          · have passed := follows.behind _ _ final
            omega
        have same : (⟨tree.marks.setIfInBounds arc.head mark⟩ : Tree) = tree :=
          Tree.write_eq_self marked
        rw [declined, same, labelled, if_neg (by simpa using least)]
        exact follows
      · rw [accepted, if_pos (by simpa [Option.all_eq_true] using better)]
        exact follows.accept (Array.getElem?_eq_some_iff.mp marked).1 unsettled better (by omega)
  · rw [if_pos (by unfold Arc.Open at isOpen; omega), if_neg isOpen]
    exact follows

private theorem Follows.relaxRow (follows : frontier.Follows tree visited turn) (sound : net.Sound)
    (row : List Nat) : Checked.Matches (fun offered next => offered.Follows next visited turn)
      (row.foldlM (Frontier.relax w net potentials turn) frontier)
      (row.foldlM (Tree.relax w net potentials turn) tree) :=
  Checked.matches_foldlM (fun id _ _ follows => follows.relax sound id) row follows

/-- The node of an entry has a mark, and it was visited if that is final. -/
theorem Follows.fetch_entry (follows : frontier.Follows tree visited turn)
    (popped : Entry.pop? frontier.queue = some (entry, rest)) :
    fetch visited entry.node = .ok (tree.distance? entry.node).isSome := by
  obtain ⟨label, labelled, -⟩ := follows.known entry (Entry.pop?_eq_some popped).1
  obtain ⟨mark, held, -⟩ := Option.bind_eq_some_iff.mp labelled
  have visited : tree.chart.visited = visited := congrArg Chart.visited follows.charted
  rw [← visited]
  exact fetch_of_getElem? (Tree.visited_chart (Array.getElem?_eq_some_iff.mp held).1)

/-- Where no entry is left, no node is tentative. -/
theorem Follows.nearest?_eq_none (follows : frontier.Follows tree visited turn)
    (done : Entry.pop? frontier.queue = none) : tree.nearest? = none := by
  have empty := Entry.next?_eq_none (Option.map_eq_none_iff.mp done)
  cases chosen : tree.nearest? with
  | none => rfl
  | some nearest =>
    obtain ⟨held, -⟩ := Tree.nearest?_eq_some chosen
    obtain ⟨unsettled, labelled, -⟩ := Tree.Growing.chosen_views held
    have waits := follows.waiting _ _ labelled unsettled
    simp [empty] at waits

/-- An entry that is passed over leaves a queue that says as much. -/
theorem Follows.pass {distance : Int} (follows : frontier.Follows tree visited turn)
    (popped : Entry.pop? frontier.queue = some (entry, rest))
    (settled : tree.distance? entry.node = some distance) :
    Follows tree visited entry.distance { frontier with queue := rest } := by
  obtain ⟨member, first, rfl⟩ := Entry.pop?_eq_some popped
  refine ⟨follows.charted, fun place far labelled tentative => ?_, fun other later =>
    follows.known other (List.mem_of_mem_erase later), fun place near final =>
    (follows.behind place near final).trans (follows.ahead entry member), fun other later => ?_⟩
  · have waits := follows.waiting place far labelled tentative
    refine (List.mem_erase_of_ne ?_).mpr waits
    rintro rfl
    simp_all
  · exact (first other (List.mem_of_mem_erase later)).distance_le

/-- Any other entry that comes to its turn is that of the nearest tentative node, which
becomes final. The node waits with its label, so the entry cannot be an older one. -/
theorem Follows.visit (follows : frontier.Follows tree visited turn)
    (popped : Entry.pop? frontier.queue = some (entry, rest))
    (unsettled : tree.distance? entry.node = none) :
    ∃ via, tree.nearest? = some ⟨entry.node, entry.distance, via⟩ ∧
      Follows (tree.settleNearest ⟨entry.node, entry.distance, via⟩)
        (visited.setIfInBounds entry.node true) entry.distance { frontier with queue := rest } := by
  obtain ⟨member, first, rfl⟩ := Entry.pop?_eq_some popped
  obtain ⟨label, labelled, least⟩ := follows.known entry member
  obtain rfl : label = entry.distance :=
    Int.le_antisymm least (first _ (follows.waiting _ _ labelled unsettled)).distance_le
  obtain ⟨via, held⟩ := Tree.tentative_of_label labelled unsettled
  obtain ⟨distances, labels⟩ := Tree.settle_views held
  refine ⟨via, Tree.nearest?_of_first held fun other far labelled tentative =>
    first _ (follows.waiting other far labelled tentative), ?_⟩
  unfold Tree.settleNearest
  constructor
  case charted => rw [Tree.chart_settle held, follows.charted]
  case waiting =>
    intro place far
    rw [(labels place).1, distances]
    split
    · intro _ none
      cases none
    · rename_i elsewhere
      intro labelled tentative
      refine (List.mem_erase_of_ne ?_).mpr (follows.waiting place far labelled tentative)
      rintro rfl
      exact elsewhere rfl
  case known =>
    intro other later
    rw [(labels other.node).1]
    exact follows.known other (List.mem_of_mem_erase later)
  case behind =>
    intro place near
    rw [distances]
    split
    · intro same
      cases same
      exact Int.le_refl _
    · intro final
      exact (follows.behind place near final).trans (follows.ahead entry member)
  case ahead =>
    intro other later
    exact (first other (List.mem_of_mem_erase later)).distance_le

end Frontier

namespace Chart

variable {w : Width} {net : Network} {potentials : Potentials}

/-- To work off the queue is to grow the tree, with a budget for each node not visited. An entry
that is passed over costs none, as the tree and the turn change only with a visit. -/
theorem explore_eq (w : Width) (sound : net.Sound) (potentials : Potentials)
    (visited : Array Bool) (frontier : Frontier) {tree : Tree} {turn : Int}
    (follows : frontier.Follows tree visited turn) (budget : Nat)
    (enough : visited.count false ≤ budget) :
    explore w net potentials visited frontier =
      Tree.chart <$> tree.grow w net potentials budget := by
  fun_induction explore w net potentials visited frontier generalizing tree turn budget with
  | case1 visited frontier done =>
    rw [Tree.grow_eq_self (follows.nearest?_eq_none done) budget]
    exact congrArg Except.ok follows.charted.symm
  | case2 visited frontier entry rest popped fault broke =>
    rw [follows.fetch_entry popped] at broke
    cases broke
  | case3 visited frontier entry rest popped was ih =>
    rw [follows.fetch_entry popped] at was
    obtain ⟨distance, settled⟩ := Option.isSome_iff_exists.mp (Except.ok.inj was)
    exact ih (follows.pass popped settled) budget enough
  | case4 visited frontier entry rest popped waits ih =>
    have fewer := count_visit_lt waits
    rw [follows.fetch_entry popped] at waits
    have unsettled := Option.isSome_eq_false_iff.mp (Except.ok.inj waits)
    obtain ⟨via, nearest, next⟩ := follows.visit popped (Option.isNone_iff_eq_none.mp unsettled)
    cases budget with
    | zero => omega
    | succ budget =>
      unfold Tree.grow Tree.settle
      simp only [nearest, map_bind, bind_assoc]
      congr 1
      funext row
      exact (next.relaxRow sound row.toList).bind_eq fun offered tree follows =>
        ih offered follows budget (by omega)

variable {tree : Tree} {source sink node : Nat}

private theorem distance?_chart (tree : Tree) : tree.chart.distance? = tree.distance? := by
  funext node
  unfold distance? Tree.distance? Tree.chart
  cases held : tree.marks[node]? with
  | none => simp [held]
  | some mark => cases mark <;> simp [held, Mark.settled?, Mark.label?]

/-- The visited nodes in order are the nodes with a final distance. -/
private theorem distances_chart (tree : Tree) :
    (List.range tree.chart.visited.size).filterMap tree.chart.distance? =
      tree.marks.toList.filterMap Mark.settled? := by
  have nodes : List.range tree.chart.visited.size = tree.marks.toList.zipIdx.map Prod.snd := by
    simp [Tree.chart, List.range_eq_range']
  have marks : tree.marks.toList = tree.marks.toList.zipIdx.map Prod.fst := by simp
  rw [nodes, distance?_chart, List.filterMap_map]
  conv_rhs => rw [marks, List.filterMap_map]
  refine List.filterMap_congr fun entry member => ?_
  have held := List.mem_zipIdx_iff_getElem?.mp member
  rw [Array.getElem?_toList] at held
  simp [Tree.distance?, held]

private theorem max?_getD {amounts : List Int} (nonneg : ∀ amount ∈ amounts, 0 ≤ amount) :
    amounts.max?.getD 0 = amounts.foldl max 0 := by
  cases amounts with
  | nil => rfl
  | cons first rest =>
    rw [List.max?_cons', Option.getD_some, List.foldl_cons,
      Int.max_eq_right (nonneg first (by simp))]

private theorem farthest_chart (nonneg : ∀ node distance, tree.distance? node = some distance →
    0 ≤ distance) : tree.chart.farthest = tree.farthest := by
  unfold farthest
  rw [distances_chart]
  refine max?_getD fun distance member => ?_
  obtain ⟨mark, listed, known⟩ := List.mem_filterMap.mp member
  obtain ⟨node, held⟩ := List.mem_iff_getElem?.mp listed
  rw [Array.getElem?_toList] at held
  exact nonneg node distance (by rw [Tree.distance?, held]; exact known)

private theorem raise_chart (spans : tree.Spans net potentials source) :
    tree.chart.raise w potentials = tree.raise w potentials := by
  unfold raise Tree.raise
  rw [farthest_chart spans.nonneg, distance?_chart]

private theorem fetch_visited (tree : Tree) (node : Nat) :
    fetch tree.chart.visited node = tree.reaches node := by
  unfold Tree.reaches
  exact (fetch_map _ _ _).trans (map_eq_pure_bind _ _)

/-- Whatever the tables held before, nothing of it is left. -/
theorem wiped_eq (chart : Chart) (nodes : Nat) : chart.wiped nodes =
    ⟨Array.replicate nodes none, Array.replicate nodes none, Array.replicate nodes false⟩ := by
  simp [wiped, resize]

/-- At first the source waits for its turn. -/
theorem follows_start (within : source < net.nodes) :
    Frontier.Follows (Tree.start net.nodes source) (Array.replicate net.nodes false) 0
      ⟨(Array.replicate net.nodes none).setIfInBounds source (some 0),
        Array.replicate net.nodes none, [⟨0, source⟩]⟩ := by
  obtain ⟨distances, labels⟩ := Tree.start_views within
  constructor
  case charted =>
    have via : (Array.replicate net.nodes (none : Option Nat))[source]? = some none := by
      simp [within]
    have visited : (Array.replicate net.nodes false)[source]? = some false := by simp [within]
    unfold Tree.chart Tree.start
    simp only [Array.map_setIfInBounds, Array.map_replicate, Mark.label?, Mark.via, Mark.settled?,
      Option.isSome_none]
    rw [setIfInBounds_eq_self via, setIfInBounds_eq_self visited]
  case waiting =>
    intro node distance labelled _
    rw [(labels node).1] at labelled
    split at labelled
    · rename_i same
      cases labelled
      simp [same]
    · cases labelled
  case known =>
    intro entry member
    obtain rfl := List.mem_singleton.mp member
    exact ⟨0, by rw [(labels source).1, if_pos rfl], Int.le_refl 0⟩
  case behind =>
    intro node distance settled
    rw [distances] at settled
    cases settled
  case ahead =>
    intro entry member
    obtain rfl := List.mem_singleton.mp member
    exact Int.le_refl 0

/-- A search on a chart leaves the chart of the tree that a survey finds, and finds the same
besides, whatever it was used for before. -/
theorem search_eq (w : Width) (sound : net.Sound) (potentials : Potentials) (source sink : Nat)
    (chart : Chart) : chart.search w net potentials source sink =
      (fun survey => (survey.tree.chart, survey.potentials, survey.reached)) <$>
        net.survey w potentials source sink := by
  unfold search Network.survey
  by_cases counted : potentials.size = net.nodes
  · rw [if_neg (not_not.mpr counted), wiped_eq]
    by_cases within : source < net.nodes
    · have fetched : fetch (Array.replicate net.nodes (none : Option Int)) source = .ok none :=
        fetch_of_getElem? (by simp [within])
      have ofSource : Tree.ofSource w net potentials source =
          (Tree.start net.nodes source).grow w net potentials net.nodes := by
        unfold Tree.ofSource
        rw [if_neg (not_not.mpr counted), if_neg (by omega)]
      have explored := explore_eq w sound potentials _ _ (follows_start within) net.nodes (by simp)
      simp only [fetched, explored, ← ofSource]
      cases found : Tree.ofSource w net potentials source with
      | error fault => rfl
      | ok tree =>
        change (do
          let raised ← tree.chart.raise w potentials
          return (tree.chart, raised, ← fetch tree.chart.visited sink)) = _ <$> (do
          let raised ← tree.raise w potentials
          return (⟨tree, raised, ← tree.reaches sink⟩ : Survey))
        rw [raise_chart (Tree.spans_of_ofSource sound found), fetch_visited]
        simp only [map_bind, map_pure]
    · have missing : fetch (Array.replicate net.nodes (none : Option Int)) source =
          .error (.outOfBounds net.nodes source) := by simp [fetch, within]
      have ofSource : Tree.ofSource w net potentials source =
          .error (.outOfBounds net.nodes source) := by
        unfold Tree.ofSource
        rw [if_neg (not_not.mpr counted), if_pos (by omega)]
      rw [ofSource]
      simp only [missing]
      rfl
  · unfold Tree.ofSource
    rw [if_pos counted, if_pos counted]
    rfl

/-- The way back over the tables is the way back through the tree. -/
theorem retrace_chart (tree : Tree) (net : Network) (node : Nat) (path : List Nat) :
    tree.chart.retrace net node path = tree.climb net (net.nodes - 1 - path.length) node path := by
  fun_induction retrace tree.chart net node path with
  | case1 node path ih =>
    change fetch (tree.marks.map Mark.via) node >>= _ = _
    rw [fetch_map, bind_map_left]
    cases budget : net.nodes - 1 - path.length with
    | zero =>
      unfold Tree.climb
      refine bind_congr fun mark => ?_
      cases mark.via with
      | none => rfl
      | some id => exact bind_congr fun arc => if_neg (by omega)
    | succ left =>
      unfold Tree.climb
      refine bind_congr fun mark => ?_
      cases mark.via with
      | none => rfl
      | some id =>
        refine bind_congr fun arc => ?_
        have further := ih id arc (by omega)
        rw [show net.nodes - 1 - (id :: path).length = left by rw [List.length_cons]; omega]
          at further
        exact (if_pos (by omega)).trans further

theorem pathTo_chart (tree : Tree) (net : Network) (node : Nat) :
    tree.chart.pathTo net node = tree.trailTo net node :=
  retrace_chart tree net node []

end Chart

end Transshipment
