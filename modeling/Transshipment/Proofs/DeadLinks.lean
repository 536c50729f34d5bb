import Transshipment.Proofs.SearchEffort

/-! Links without any capacity. Neither of their arcs is ever open, so nobody who looks for a
path looks at their cost or at the nodes that they join. What start potentials and searches
find in a network they find, step by step, in every other that differs from it only there. -/
namespace Transshipment

/-- Neither arc of the link has capacity left. -/
def Link.Dead (link : Link) : Prop := link.free = 0 ∧ link.used = 0

instance (link : Link) : Decidable link.Dead := inferInstanceAs (Decidable (_ ∧ _))

theorem Link.Dead.residual_eq_zero {link : Link} (dead : link.Dead) (along : Bool) :
    (link.arc along).residual = 0 := by
  cases along with
  | true => exact dead.1
  | false => exact dead.2

/-- Tables of the same size have an entry in the same places. -/
theorem getElem?_cases {α β : Type} {table : Array α} {other : Array β}
    (size : table.size = other.size) (index : Nat) :
    (table[index]? = none ∧ other[index]? = none) ∨
      ∃ entry twin, table[index]? = some entry ∧ other[index]? = some twin := by
  by_cases within : index < table.size
  · exact .inr ⟨_, _, Array.getElem?_eq_getElem within, Array.getElem?_eq_getElem (size ▸ within)⟩
  · exact .inl ⟨Array.getElem?_eq_none (Nat.not_lt.mp within),
      Array.getElem?_eq_none (size ▸ Nat.not_lt.mp within)⟩

namespace Network

/-- The networks have the same nodes and the same links in the same order, but for links that
are dead in both: these may differ in their cost and in the nodes that they join. -/
structure Twins (net other : Network) : Prop where
  nodes : net.nodes = other.nodes
  size : net.links.size = other.links.size
  links : ∀ (k : Nat) link twin, net.links[k]? = some link → other.links[k]? = some twin →
    link = twin ∨ link.Dead ∧ twin.Dead

instance (net other : Network) : Decidable (net.Twins other) :=
  decidable_of_iff (net.nodes = other.nodes ∧ ∃ size : net.links.size = other.links.size,
      ∀ k : Fin net.links.size, net.links[k] = other.links[k] ∨
        net.links[k].Dead ∧ other.links[k].Dead) <| by
    constructor
    · rintro ⟨nodes, size, same⟩
      refine ⟨nodes, size, fun k link twin held twinHeld => ?_⟩
      obtain ⟨within, rfl⟩ := Array.getElem?_eq_some_iff.mp held
      obtain ⟨twinWithin, rfl⟩ := Array.getElem?_eq_some_iff.mp twinHeld
      exact same ⟨k, within⟩
    · rintro ⟨nodes, size, same⟩
      exact ⟨nodes, size, fun k => same k _ _ (Array.getElem?_eq_getElem _)
        (Array.getElem?_eq_getElem _)⟩

/-- Twins whose rows list the arcs in the order of insertion. -/
structure Alike (net other : Network) : Prop extends Twins net other where
  filed : ∃ ledger, net.Files ledger
  twinFiled : ∃ ledger, other.Files ledger

/-- The arc is there and it is closed. -/
def shut (net : Network) (id : Nat) : Bool :=
  match net.arc id with
  | .ok arc => !decide arc.Open
  | .error _ => false

variable {w : Width} {net other : Network} {potentials : Potentials} {id node : Nat}
  {σ : Type}

private theorem shut_eq_true_iff :
    net.shut id = true ↔ ∃ arc, net.arc id = .ok arc ∧ ¬ arc.Open := by
  unfold shut
  cases net.arc id <;> simp

private theorem shut_eq_false_iff_of_ok {arc : Arc} (held : net.arc id = .ok arc) :
    net.shut id = false ↔ arc.Open := by
  simp [shut, held]

/-- A step that passes over closed arcs sees only the others. -/
theorem foldlM_filter_shut (net : Network) {step : σ → Nat → Checked σ}
    (skips : ∀ state id, net.shut id = true → step state id = .ok state) (row : List Nat)
    (state : σ) : (row.filter (!net.shut ·)).foldlM step state = row.foldlM step state := by
  rw [List.foldlM_filter]
  congr
  funext state id
  cases closed : net.shut id with
  | true => exact (skips state id closed).symm
  | false => rfl

namespace Twins

theorem symm (twins : net.Twins other) : other.Twins net where
  nodes := twins.nodes.symm
  size := twins.size.symm
  links k twin link twinHeld held := by
    rcases twins.links k link twin held twinHeld with same | ⟨dead, twinDead⟩
    · exact .inl same.symm
    · exact .inr ⟨twinDead, dead⟩

theorem arcs_eq (twins : net.Twins other) : net.arcs = other.arcs :=
  congrArg (2 * ·) twins.size

/-- A number names the same link in both, or a dead one. -/
theorem link_cases (twins : net.Twins other) (id : Nat) :
    net.link id = other.link id ∨ ∃ link twin, net.link id = .ok link ∧
      other.link id = .ok twin ∧ link.Dead ∧ twin.Dead := by
  unfold link
  rcases getElem?_cases twins.size (id / 2) with ⟨beyond, twinBeyond⟩ | ⟨link, twin, held, twinHeld⟩
  · simp [beyond, twinBeyond, twins.arcs_eq]
  · rcases twins.links _ link twin held twinHeld with same | ⟨dead, twinDead⟩
    · simp [held, twinHeld, same]
    · simp [held, twinHeld, dead, twinDead]

/-- And so the same arc, or one that is closed. -/
theorem arc_cases (twins : net.Twins other) (id : Nat) :
    net.arc id = other.arc id ∨ ∃ arc twin, net.arc id = .ok arc ∧ other.arc id = .ok twin ∧
      arc.residual = 0 ∧ twin.residual = 0 := by
  unfold arc
  rcases twins.link_cases id with same | ⟨link, twin, held, twinHeld, dead, twinDead⟩
  · exact .inl (by rw [same])
  · exact .inr ⟨_, _, by rw [held]; rfl, by rw [twinHeld]; rfl, dead.residual_eq_zero _,
      twinDead.residual_eq_zero _⟩

private theorem arc_of_open (twins : net.Twins other) {arc : Arc} (held : net.arc id = .ok arc)
    (isOpen : arc.Open) : other.arc id = .ok arc := by
  rcases twins.arc_cases id with same | ⟨_, twin, again, -, none, -⟩
  · exact same ▸ held
  · cases held.symm.trans again
    unfold Arc.Open at isOpen
    omega

private theorem shut_eq (twins : net.Twins other) (id : Nat) : net.shut id = other.shut id := by
  unfold shut
  rcases twins.arc_cases id with same | ⟨arc, twin, held, twinHeld, none, twinNone⟩
  · rw [same]
  · simp [held, twinHeld, Arc.Open, none, twinNone]

/-- Whoever does something only with an open arc does the same in both networks. -/
theorem arc_bind (twins : net.Twins other) (id : Nat) {next onward : Arc → Checked σ}
    {closed : Checked σ} (same : ∀ arc, net.arc id = .ok arc → other.arc id = .ok arc →
      next arc = onward arc) :
    (net.arc id >>= fun arc => if arc.Open then next arc else closed) =
      other.arc id >>= fun arc => if arc.Open then onward arc else closed := by
  rcases twins.arc_cases id with held | ⟨arc, twin, held, twinHeld, none, twinNone⟩
  · rw [← held]
    exact Checked.bind_congr_of_ok fun arc found => by rw [same arc found (held ▸ found)]
  · simp [held, twinHeld, Arc.Open, none, twinNone, bind, Except.bind]

/-- What is a bargain in the one is the same open arc in the other. -/
theorem hasBargain_of_twin (twins : net.Twins other) (bargain : net.hasBargain = true) :
    other.hasBargain = true := by
  unfold hasBargain at bargain ⊢
  obtain ⟨k, within, cheap⟩ := Array.any_eq_true.mp bargain
  have twinWithin : k < other.links.size := twins.size ▸ within
  refine Array.any_eq_true.mpr ⟨k, twinWithin, ?_⟩
  rcases twins.links k _ _ (Array.getElem?_eq_getElem within)
    (Array.getElem?_eq_getElem twinWithin) with same | ⟨dead, -⟩
  · rwa [← same]
  · simp [Arc.Open, dead.residual_eq_zero] at cheap

private theorem hasBargain_eq (twins : net.Twins other) : net.hasBargain = other.hasBargain :=
  Bool.eq_iff_iff.mpr ⟨twins.hasBargain_of_twin, twins.symm.hasBargain_of_twin⟩

end Twins

namespace Alike

theorem symm (alike : net.Alike other) : other.Alike net :=
  ⟨alike.toTwins.symm, alike.twinFiled, alike.filed⟩

theorem sound (alike : net.Alike other) : net.Sound := alike.filed.elim fun _ files => files.sound

/-- An arc in a row that is not closed stands in the row of the same node of the twin. -/
theorem mem_row (alike : net.Alike other) {row twin : Array Nat}
    (held : net.rows[node]? = some row) (twinHeld : other.rows[node]? = some twin)
    (member : id ∈ row) (isOpen : net.shut id = false) : id ∈ twin := by
  obtain ⟨arc, found, leaves⟩ := (alike.sound.rows node row held id).mp member
  have twinFound := alike.arc_of_open found ((shut_eq_false_iff_of_ok found).mp isOpen)
  exact (alike.symm.sound.rows node twin twinHeld id).mpr ⟨arc, twinFound, leaves⟩

/-- Both rows of a node list the same open arcs, and both do so in the order of insertion. -/
theorem filter_row (alike : net.Alike other) {row twin : Array Nat}
    (held : net.rows[node]? = some row) (twinHeld : other.rows[node]? = some twin) :
    row.toList.filter (!net.shut ·) = twin.toList.filter (!other.shut ·) := by
  obtain ⟨_, files⟩ := alike.filed
  obtain ⟨_, twinFiles⟩ := alike.twinFiled
  refine List.Pairwise.eq_of_mem_iff ((files.ordered node row held).1.filter _)
    ((twinFiles.ordered node twin twinHeld).1.filter _) fun id => ?_
  simp only [List.mem_filter, Array.mem_toList_iff, Bool.not_eq_true']
  constructor
  · rintro ⟨member, isOpen⟩
    exact ⟨alike.mem_row held twinHeld member isOpen, alike.shut_eq id ▸ isOpen⟩
  · rintro ⟨member, isOpen⟩
    exact ⟨alike.symm.mem_row twinHeld held member isOpen, alike.shut_eq id ▸ isOpen⟩

/-- A step that passes over closed arcs comes to the same end along both rows of a node. -/
theorem scan_eq (alike : net.Alike other) {step : σ → Nat → Checked σ}
    (skips : ∀ state id, net.shut id = true → step state id = .ok state) (node : Nat)
    (state : σ) :
    (net.outgoing node >>= fun row => row.toList.foldlM step state) =
      other.outgoing node >>= fun row => row.toList.foldlM step state := by
  have skipsToo : ∀ state id, other.shut id = true → step state id = .ok state :=
    fun state id closed => skips state id ((alike.shut_eq id).trans closed)
  have nodes : net.rows.size = other.rows.size := alike.nodes
  unfold outgoing fetch
  rcases getElem?_cases nodes node with ⟨beyond, twinBeyond⟩ | ⟨row, twin, held, twinHeld⟩
  · rw [beyond, twinBeyond, nodes]
  · rw [held, twinHeld]
    change row.toList.foldlM step state = twin.toList.foldlM step state
    rw [← foldlM_filter_shut net skips row.toList, ← foldlM_filter_shut other skipsToo twin.toList,
      alike.filter_row held twinHeld]

end Alike

end Network

namespace Relaxation

variable {w : Width} {net other : Network} {id : Nat}

private theorem relax_shut (r : Relaxation) (closed : net.shut id = true) :
    r.relax w net id = .ok r := by
  obtain ⟨arc, held, closed⟩ := Network.shut_eq_true_iff.mp closed
  simp [relax, held, closed, bind, Except.bind, pure, Except.pure]

private theorem relax_alike (twins : net.Twins other) (r : Relaxation) (id : Nat) :
    r.relax w net id = r.relax w other id :=
  twins.arc_bind id fun _ _ _ => rfl

private theorem sweep_alike (alike : net.Alike other) (r : Relaxation) :
    r.sweep w net = r.sweep w other := by
  have same : relax w other = relax w net := by
    funext r id
    exact (relax_alike alike.toTwins r id).symm
  unfold sweep
  rw [alike.nodes, same]
  refine congrArg (List.foldlM · _ _) ?_
  funext r node
  exact alike.scan_eq (fun r id => relax_shut r) node r

private theorem sweeps_alike (alike : net.Alike other) (budget : Nat) (r : Relaxation) :
    r.sweeps w net budget = r.sweeps w other budget := by
  induction budget generalizing r with
  | zero => rfl
  | succ budget ih =>
    unfold sweeps
    simp only [sweep_alike alike, ih]

end Relaxation

/-- The start potentials, the refusal and the message are the same. -/
theorem Network.startPotentials_alike {net other : Network} (alike : net.Alike other) (w : Width) :
    net.startPotentials w = other.startPotentials w := by
  unfold startPotentials relaxation
  simp only [alike.nodes, alike.hasBargain_eq, Relaxation.sweeps_alike alike]

namespace Tree

variable {w : Width} {net other : Network} {potentials : Potentials} {id : Nat} {distance : Int}

private theorem relax_shut (tree : Tree) (closed : net.shut id = true) :
    tree.relax w net potentials distance id = .ok tree := by
  obtain ⟨arc, held, closed⟩ := Network.shut_eq_true_iff.mp closed
  simp [relax, held, closed, bind, Except.bind, pure, Except.pure]

private theorem relax_alike (twins : net.Twins other) (tree : Tree) (id : Nat) :
    tree.relax w net potentials distance id = tree.relax w other potentials distance id := by
  refine twins.arc_bind id fun arc held twinHeld => ?_
  have step : net.reducedCost w potentials id = other.reducedCost w potentials id := by
    simp only [Network.reducedCost, held, twinHeld]
  rw [step]

private theorem settle_alike (alike : net.Alike other) (tree : Tree) (nearest : Candidate) :
    tree.settle w net potentials nearest = tree.settle w other potentials nearest := by
  have same : relax w other potentials nearest.distance =
      relax w net potentials nearest.distance := by
    funext tree id
    exact (relax_alike alike.toTwins tree id).symm
  unfold settle
  rw [same]
  exact alike.scan_eq (fun tree id => relax_shut tree) nearest.node _

private theorem grow_alike (alike : net.Alike other) (budget : Nat) (tree : Tree) :
    tree.grow w net potentials budget = tree.grow w other potentials budget := by
  induction budget generalizing tree with
  | zero => rfl
  | succ budget ih =>
    unfold grow
    simp only [settle_alike alike, ih]

/-- Every label but that of the source stands for an open arc. -/
theorem Growing.open_of_via {tree : Tree} {source node : Nat} {pending : List Nat}
    (growing : tree.Growing net potentials source pending) (through : tree.via? node = some id) :
    ∃ arc, net.arc id = .ok arc ∧ arc.Open := by
  obtain ⟨mark, held, via⟩ := Option.bind_eq_some_iff.mp through
  obtain ⟨known, labelled⟩ : ∃ known, tree.label? node = some known := by
    unfold label?
    rw [held]
    cases mark <;> simp_all [Mark.via, Mark.label?]
  obtain ⟨arc, _, found, isOpen, -⟩ := growing.reached node known id labelled through
  exact ⟨arc, found, isOpen⟩

end Tree

theorem Network.survey_alike {net other : Network} (alike : net.Alike other) (w : Width)
    (potentials : Potentials) (source sink : Nat) :
    net.survey w potentials source sink = other.survey w potentials source sink := by
  unfold survey Tree.ofSource
  rw [alike.nodes, Tree.grow_alike alike]

namespace Chart

variable {w : Width} {net other : Network} {potentials : Potentials} {chart left : Chart}

/-- A search over twins finds the same and takes down the same, whatever the chart was used
for before. -/
theorem search_alike (alike : net.Alike other) (w : Width) (potentials : Potentials)
    (source sink : Nat) (chart : Chart) :
    chart.search w net potentials source sink = chart.search w other potentials source sink := by
  rw [search_eq w alike.sound, search_eq w alike.symm.sound, Network.survey_alike alike]

/-- No node was reached over a dead link, according to the chart. -/
def Avoids (net : Network) (chart : Chart) : Prop :=
  ∀ (node : Nat) id link, chart.vias[node]? = some (some id) → net.link id = .ok link →
    ¬ link.Dead

/-- A link that is dead has always been, as flow only moves from one of its arcs to the other. -/
theorem Avoids.of_unloaded {before : Network} (avoids : chart.Avoids before)
    (sound : before.Sound) (same : before.unloaded = net.unloaded) : chart.Avoids net := by
  intro node id link recorded held dead
  obtain ⟨earlier, found, unloaded⟩ :=
    Network.link_of_unloaded same.symm (Network.link_eq_ok_iff.mp held)
  have capacities : earlier.free + earlier.used = link.free + link.used := by injection unloaded
  have bounded := sound.bounded _ earlier found
  have none := dead.1
  have noneUsed := dead.2
  exact avoids node id earlier recorded (Network.link_eq_ok_iff.mpr found) ⟨by omega, by omega⟩

theorem avoids_of_survey {source sink : Nat} {survey : Survey} (sound : net.Sound)
    (surveyed : net.survey w potentials source sink = .ok survey) :
    survey.tree.chart.Avoids net := by
  obtain ⟨growing, -⟩ := Tree.growing_of_ofSource sound (Tree.Keeps.trivial ..) trivial
    (Network.ofSource_of_survey surveyed)
  intro node id link recorded held dead
  have through : survey.tree.via? node = some id := by
    simpa [Tree.chart, Tree.via?, Option.bind_eq_some_iff] using recorded
  obtain ⟨arc, found, isOpen⟩ := growing.open_of_via through
  unfold Network.arc at found
  rw [held] at found
  cases found
  simp [Arc.Open, dead.residual_eq_zero] at isOpen

/-- Only open arcs are taken down by a search. -/
theorem avoids_of_search {source sink : Nat} {raised : Potentials} {reached : Bool}
    (sound : net.Sound)
    (searched : chart.search w net potentials source sink = .ok (left, raised, reached)) :
    left.Avoids net := by
  rw [search_eq w sound] at searched
  obtain ⟨survey, surveyed, same⟩ := Checked.map_eq_ok_iff.mp searched
  cases same
  exact avoids_of_survey sound surveyed

/-- The way back leads over the same arcs, as whatever was taken down belongs to a link that is
the same in both. -/
theorem pathTo_alike (twins : net.Twins other) (avoids : chart.Avoids net) (node : Nat) :
    chart.pathTo net node = chart.pathTo other node := by
  unfold pathTo
  fun_induction retrace chart net node [] with
  | case1 node path ih =>
    conv_rhs => unfold retrace
    refine Checked.bind_congr_of_ok fun via recorded => ?_
    cases via with
    | none => rfl
    | some id =>
      have found : net.arc id = other.arc id := by
        rcases twins.link_cases id with same | ⟨link, _, held, -, dead, -⟩
        · simp only [Network.arc, same]
        · exact absurd dead (avoids node id link (fetch_eq_ok_iff.mp recorded) held)
      dsimp only
      rw [← found, ← twins.nodes]
      refine Checked.bind_congr_of_ok fun arc _ => ?_
      split
      · exact ih id arc (by assumption)
      · rfl

end Chart

end Transshipment
