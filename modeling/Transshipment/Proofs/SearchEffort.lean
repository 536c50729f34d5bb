import Transshipment.Proofs.ArenaRepresentation
import Transshipment.Proofs.CheapestPaths

/-! How much a search does. It is followed step by step, and what it does is taken down: the
nodes whose rows it scans, and the entries that it takes from its queue. No row is scanned
twice, because its node is visited from then on. An arc enters at most one entry when its row
is scanned, so there are at most as many entries as arcs, and the one of the source. -/
namespace Transshipment

/-- What a search does until it comes to a result: the nodes whose rows it scans, in their
order, and how many entries it takes from its queue. -/
structure Effort (α : Type) where
  scanned : List Nat
  turns : Nat
  result : Checked α

namespace Effort

/-- Nothing has to be done for the result. -/
def none (result : Checked α) : Effort α := ⟨[], 0, result⟩

/-- An entry is taken first, and passed over. -/
def afterPass (rest : Effort α) : Effort α := { rest with turns := rest.turns + 1 }

/-- An entry is taken first, and the row of its node is scanned. -/
def afterScan (node : Nat) (rest : Effort α) : Effort α :=
  ⟨node :: rest.scanned, rest.turns + 1, rest.result⟩

/-- The result is used for more that is neither. -/
def andThen (effort : Effort α) (next : α → Checked β) : Effort β :=
  ⟨effort.scanned, effort.turns, effort.result >>= next⟩

end Effort

/-- The arcs in the row of a node make their offers. -/
def Frontier.scan (w : Width) (net : Network) (potentials : Potentials) (entry : Entry)
    (frontier : Frontier) : Checked Frontier := do
  (← net.outgoing entry.node).toList.foldlM (relax w net potentials entry.distance) frontier

/-- The arcs in the row of a node. -/
def Network.row (net : Network) (node : Nat) : List Nat := (net.rows.getD node #[]).toList

namespace Chart

/-- Works off the queue in the steps of `explore`, and takes them down. A scan counts even if
it breaks off. -/
def exploreNoted (w : Width) (net : Network) (potentials : Potentials) (visited : Array Bool)
    (frontier : Frontier) : Effort Chart :=
  match _ : Entry.pop? frontier.queue with
  | none => .none (.ok ⟨frontier.distances, frontier.vias, visited⟩)
  | some (entry, queue) =>
    match _ : fetch visited entry.node with
    | .error fault => Effort.afterPass (.none (.error fault))
    | .ok true => (exploreNoted w net potentials visited { frontier with queue }).afterPass
    | .ok false =>
      match Frontier.scan w net potentials entry { frontier with queue } with
      | .error fault => Effort.afterScan entry.node (.none (.error fault))
      | .ok offered =>
        (exploreNoted w net potentials (visited.setIfInBounds entry.node true) offered).afterScan
          entry.node
termination_by (visited.count false, frontier.queue.length)
decreasing_by
  · exact Prod.Lex.right _ (Entry.length_pop? (by assumption))
  · exact Prod.Lex.left _ _ (count_visit_lt (by assumption))

/-- Searches from the source in the steps of `search`, and takes down what is done. -/
def searchNoted (w : Width) (net : Network) (potentials : Potentials) (source sink : Nat)
    (chart : Chart) : Effort (Chart × Potentials × Bool) :=
  if potentials.size ≠ net.nodes then .none (.error (.potentialCount potentials.size net.nodes))
  else
    let chart := chart.wiped net.nodes
    match fetch chart.distances source with
    | .error fault => .none (.error fault)
    | .ok _ =>
      (exploreNoted w net potentials chart.visited
        ⟨chart.distances.setIfInBounds source (some 0), chart.vias, [⟨0, source⟩]⟩).andThen
      fun chart => do
        let raised ← chart.raise w potentials
        return (chart, raised, ← fetch chart.visited sink)

variable {w : Width} {net : Network} {potentials : Potentials} {visited : Array Bool}
  {frontier next : Frontier} {entry : Entry} {rest : List Entry} {source sink node : Nat}

/-- What is done with an entry depends on whether its node was visited. -/
theorem explore_of_pop? (popped : Entry.pop? frontier.queue = some (entry, rest)) :
    explore w net potentials visited frontier = (do
      if ← fetch visited entry.node then
        explore w net potentials visited { frontier with queue := rest }
      else do
        let offered ← Frontier.scan w net potentials entry { frontier with queue := rest }
        explore w net potentials (visited.setIfInBounds entry.node true) offered) := by
  conv_lhs => unfold explore
  split <;> rename_i found <;> cases popped.symm.trans found
  split <;> rename_i fetched <;> rw [fetched]
  · rfl
  · rfl
  · unfold Frontier.scan
    simp only [bind_assoc]
    rfl

/-- What is taken down does not change what is found. -/
theorem result_exploreNoted (w : Width) (net : Network) (potentials : Potentials)
    (visited : Array Bool) (frontier : Frontier) :
    (exploreNoted w net potentials visited frontier).result =
      explore w net potentials visited frontier := by
  fun_induction exploreNoted w net potentials visited frontier with
  | case1 visited frontier done =>
    unfold explore
    split <;> rename_i found <;> cases done.symm.trans found
    rfl
  | case2 visited frontier entry rest popped fault broke =>
    rw [explore_of_pop? popped, broke]
    rfl
  | case3 visited frontier entry rest popped was ih =>
    rw [explore_of_pop? popped, was]
    exact ih
  | case4 visited frontier entry rest popped waits fault broke =>
    rw [explore_of_pop? popped, waits]
    change _ = Frontier.scan _ _ _ _ _ >>= _
    rw [broke]
    rfl
  | case5 visited frontier entry rest popped waits offered scanned ih =>
    rw [explore_of_pop? popped, waits]
    change _ = Frontier.scan _ _ _ _ _ >>= _
    rw [scanned]
    exact ih

/-- A row is scanned only if its node was not visited before, and never again: whatever is
scanned later is not visited when this node already is. -/
theorem scanned_exploreNoted (w : Width) (net : Network) (potentials : Potentials)
    (visited : Array Bool) (frontier : Frontier) :
    (exploreNoted w net potentials visited frontier).scanned.Nodup ∧
      ∀ node ∈ (exploreNoted w net potentials visited frontier).scanned,
        visited[node]? = some false := by
  fun_induction exploreNoted w net potentials visited frontier with
  | case1 visited frontier done => simp [Effort.none]
  | case2 visited frontier entry rest popped fault broke => simp [Effort.none, Effort.afterPass]
  | case3 visited frontier entry rest popped was ih => exact ih
  | case4 visited frontier entry rest popped waits fault broke =>
    simpa [Effort.none, Effort.afterScan] using fetch_eq_ok_iff.mp waits
  | case5 visited frontier entry rest popped waits offered scanned ih =>
    obtain ⟨nodup, unvisited⟩ := ih
    have waits := fetch_eq_ok_iff.mp waits
    refine ⟨List.nodup_cons.mpr ⟨fun again => ?_, nodup⟩, fun node member => ?_⟩
    · have marked := unvisited entry.node again
      rw [Array.getElem?_setIfInBounds_self] at marked
      split at marked <;> simp_all
    · rcases List.mem_cons.mp member with rfl | later
      · exact waits
      · have unmarked := unvisited node later
        rw [Array.getElem?_setIfInBounds] at unmarked
        split at unmarked <;> simp_all

/-- The nodes visited in the end are those that were visited before and those whose rows were
scanned. -/
theorem visited_exploreNoted {left : Chart}
    (explored : (exploreNoted w net potentials visited frontier).result = .ok left) (node : Nat) :
    left.visited[node]? = some true ↔ visited[node]? = some true ∨
      node ∈ (exploreNoted w net potentials visited frontier).scanned := by
  fun_induction exploreNoted w net potentials visited frontier with
  | case1 visited frontier done =>
    cases explored
    simp [Effort.none]
  | case2 visited frontier entry rest popped fault broke => cases explored
  | case3 visited frontier entry rest popped was ih => exact ih explored
  | case4 visited frontier entry rest popped waits fault broke => cases explored
  | case5 visited frontier entry rest popped waits offered scanned ih =>
    have within := (Array.getElem?_eq_some_iff.mp (fetch_eq_ok_iff.mp waits)).1
    rw [ih explored, Array.getElem?_setIfInBounds]
    simp only [Effort.afterScan, List.mem_cons]
    by_cases here : entry.node = node
    · simp [here.symm, within]
    · simp [here, Ne.symm here]

end Chart

namespace Frontier

variable {w : Width} {net : Network} {potentials : Potentials} {frontier next : Frontier}
  {entry : Entry} {distance : Int} {id : Nat}

/-- An offer enters at most one entry. -/
theorem length_relax (relaxed : frontier.relax w net potentials distance id = .ok next) :
    next.queue.length ≤ frontier.queue.length + 1 := by
  obtain ⟨arc, -, relaxed⟩ := Checked.bind_eq_ok_iff.mp relaxed
  split at relaxed
  · cases relaxed
    exact Nat.le_succ _
  · obtain ⟨step, -, relaxed⟩ := Checked.bind_eq_ok_iff.mp relaxed
    split at relaxed
    · cases relaxed
    · obtain ⟨reach, -, relaxed⟩ := Checked.bind_eq_ok_iff.mp relaxed
      obtain ⟨known, -, relaxed⟩ := Checked.bind_eq_ok_iff.mp relaxed
      split at relaxed <;> cases relaxed
      · exact Nat.le_refl _
      · exact Nat.le_succ _

/-- A scan enters at most one entry for each arc in the row. -/
theorem length_scan (scanned : frontier.scan w net potentials entry = .ok next) :
    next.queue.length ≤ frontier.queue.length + (net.row entry.node).length := by
  obtain ⟨row, held, scanned⟩ := Checked.bind_eq_ok_iff.mp scanned
  have same : net.row entry.node = row.toList := by
    rw [Network.row, Array.getD_eq_getD_getElem?, fetch_eq_ok_iff.mp held]
    rfl
  have kept : Checked.Ends (row.toList.foldlM (relax w net potentials entry.distance) frontier)
      (fun _ => True) fun last => last.queue.length + ([] : List Nat).length ≤
        frontier.queue.length + row.toList.length := by
    refine Checked.ends_foldlM (fun rest (state : Frontier) =>
      state.queue.length + rest.length ≤ frontier.queue.length + row.toList.length)
      (fun id rest state bound => Checked.ends_iff.mpr ⟨?_, fun _ _ => trivial⟩) _ _
      (Nat.le_refl _)
    intro after relaxed
    have entered := length_relax relaxed
    rw [List.length_cons] at bound
    omega
  rw [same]
  exact kept.of_ok scanned

end Frontier

namespace Chart

variable {w : Width} {net : Network} {potentials : Potentials} {ledger : Arena.Ledger}

/-- Each turn takes an entry that was in the queue at first or was entered in a scan. One that is
passed over was counted when it was entered. -/
theorem turns_exploreNoted (w : Width) (net : Network) (potentials : Potentials)
    (visited : Array Bool) (frontier : Frontier) :
    (exploreNoted w net potentials visited frontier).turns ≤ frontier.queue.length +
      ((exploreNoted w net potentials visited frontier).scanned.flatMap net.row).length := by
  fun_induction exploreNoted w net potentials visited frontier with
  | case1 visited frontier done => exact Nat.zero_le _
  | case2 visited frontier entry rest popped fault broke =>
    have shorter := Entry.length_pop? popped
    change 0 + 1 ≤ _ + 0
    omega
  | case3 visited frontier entry rest popped was ih =>
    have shorter := Entry.length_pop? popped
    dsimp only [Effort.afterPass] at ih ⊢
    omega
  | case4 visited frontier entry rest popped waits fault broke =>
    have shorter := Entry.length_pop? popped
    change 0 + 1 ≤ _
    omega
  | case5 visited frontier entry rest popped waits offered scanned ih =>
    have shorter := Entry.length_pop? popped
    have entered := Frontier.length_scan scanned
    simp only [Effort.afterScan, List.flatMap_cons, List.length_append] at entered ⊢
    omega

end Chart

namespace Network

variable {w : Width} {net : Network} {ledger : Arena.Ledger} {offers : List Offer}
  {node id : Nat} {nodes : List Nat}

namespace Files

private theorem row_cases (net : Network) (node : Nat) :
    net.row node = [] ∨ ∃ row, net.rows[node]? = some row ∧ net.row node = row.toList := by
  unfold Network.row
  rw [Array.getD_eq_getD_getElem?]
  cases net.rows[node]? with
  | none => exact .inl rfl
  | some row => exact .inr ⟨row, rfl, rfl⟩

private theorem nodup_row (files : net.Files ledger) (node : Nat) : (net.row node).Nodup := by
  obtain empty | ⟨row, held, same⟩ := row_cases net node
  · simp [empty]
  · rw [same]
    exact (files.ordered node row held).1.imp Nat.ne_of_lt

private theorem of_mem_row (files : net.Files ledger) (member : id ∈ net.row node) :
    id < net.arcs ∧ ∃ arc, net.arc id = .ok arc ∧ arc.tail = node := by
  obtain empty | ⟨row, held, same⟩ := row_cases net node
  · simp [empty] at member
  · rw [same] at member
    exact ⟨(files.ordered node row held).2 id member,
      (files.sound.rows node row held id).mp (Array.mem_toList_iff.mp member)⟩

/-- No arc is in the rows of two nodes, or in one row twice. -/
theorem length_rows_le (files : net.Files ledger) (nodup : nodes.Nodup) :
    (nodes.flatMap net.row).length ≤ net.arcs := by
  have apart : (nodes.flatMap net.row).Nodup := by
    refine List.nodup_flatMap.mpr ⟨fun node _ => files.nodup_row node, nodup.imp ?_⟩
    rintro first second different id inFirst inSecond
    obtain ⟨-, arc, held, rfl⟩ := files.of_mem_row inFirst
    obtain ⟨-, again, heldAgain, rfl⟩ := files.of_mem_row inSecond
    cases held.symm.trans heldAgain
    exact different rfl
  have within : nodes.flatMap net.row ⊆ List.range net.arcs := by
    intro id member
    obtain ⟨node, -, member⟩ := List.mem_flatMap.mp member
    exact List.mem_range.mpr (files.of_mem_row member).1
  have few := (apart.subperm within).length_le
  rwa [List.length_range] at few

end Files

/-- A network that was made files the links that were accepted. -/
theorem Made.files (made : Made w net offers) : ∃ nodes, net.Files ⟨nodes, offers⟩ := by
  induction made with
  | ofNodes nodes => exact ⟨_, .ofNodes nodes⟩
  | insertNode _ ih => exact ih.elim fun _ files => ⟨_, files.insertNode⟩
  | insertLink _ _ _ inserted ih => exact ih.elim fun _ files => ⟨_, files.insertLink inserted⟩
  | push _ pushed ih => exact ih.imp fun _ files => files.push pushed
  | ship _ shipped ih => exact ih.imp fun _ files => files.ship shipped
  | route _ ran ih => exact ih.imp fun _ files => files.route ran

end Network

namespace Chart

variable {w : Width} {net : Network} {potentials : Potentials} {ledger : Arena.Ledger}
  {source sink : Nat} {chart : Chart}

/-- A search does no more than it has to. It comes to what it comes to without being followed,
scans the rows of different nodes, and takes no more entries from its queue than there are
arcs, and the first one. -/
structure Thrifty (w : Width) (net : Network) (potentials : Potentials) (source sink : Nat)
    (chart : Chart) : Prop where
  result : (chart.searchNoted w net potentials source sink).result =
    chart.search w net potentials source sink
  nodup : (chart.searchNoted w net potentials source sink).scanned.Nodup
  within : ∀ node ∈ (chart.searchNoted w net potentials source sink).scanned, node < net.nodes
  turns : (chart.searchNoted w net potentials source sink).turns ≤ net.arcs + 1
  /-- No row is missing: those of all visited nodes were scanned. -/
  visited : ∀ left raised reached,
    chart.search w net potentials source sink = .ok (left, raised, reached) → ∀ node,
      left.visited[node]? = some true ↔
        node ∈ (chart.searchNoted w net potentials source sink).scanned

private theorem result_searchNoted (w : Width) (net : Network) (potentials : Potentials)
    (source sink : Nat) (chart : Chart) :
    (chart.searchNoted w net potentials source sink).result =
      chart.search w net potentials source sink := by
  unfold searchNoted search
  split
  · rfl
  · dsimp only
    cases fetched : fetch (chart.wiped net.nodes).distances source with
    | error fault => rfl
    | ok known =>
      change (exploreNoted _ _ _ _ _).result >>= _ = _
      rw [result_exploreNoted]
      rfl

/-- On wiped tables the source alone waits for its turn. -/
def awaiting (nodes source : Nat) : Frontier :=
  ⟨(Array.replicate nodes none).setIfInBounds source (some 0), Array.replicate nodes none,
    [⟨0, source⟩]⟩

/-- A search breaks off before it takes the first entry, or works off its queue. -/
theorem searchNoted_cases (w : Width) (net : Network) (potentials : Potentials)
    (source sink : Nat) (chart : Chart) :
    (∃ fault, chart.searchNoted w net potentials source sink = .none (.error fault)) ∨
      chart.searchNoted w net potentials source sink =
        (exploreNoted w net potentials (Array.replicate net.nodes false)
          (awaiting net.nodes source)).andThen fun chart => do
          let raised ← chart.raise w potentials
          return (chart, raised, ← fetch chart.visited sink) := by
  unfold searchNoted
  split
  · exact .inl ⟨_, rfl⟩
  · rw [wiped_eq]
    dsimp only
    cases fetch (Array.replicate net.nodes (none : Option Int)) source with
    | error fault => exact .inl ⟨fault, rfl⟩
    | ok known => exact .inr rfl

theorem search_thrifty (files : net.Files ledger) (w : Width) (potentials : Potentials)
    (source sink : Nat) (chart : Chart) : chart.Thrifty w net potentials source sink := by
  have result := result_searchNoted w net potentials source sink chart
  obtain ⟨fault, broke⟩ | worked := searchNoted_cases w net potentials source sink chart
  · refine ⟨result, ?_, ?_, ?_, fun left raised reached searched => ?_⟩
    · simp [broke, Effort.none]
    · simp [broke, Effort.none]
    · simp [broke, Effort.none]
    · rw [← result, broke] at searched
      cases searched
  · obtain ⟨nodup, unvisited⟩ := scanned_exploreNoted w net potentials
      (Array.replicate net.nodes false) (awaiting net.nodes source)
    have turns := turns_exploreNoted w net potentials (Array.replicate net.nodes false)
      (awaiting net.nodes source)
    have few := files.length_rows_le nodup
    refine ⟨result, ?_, ?_, ?_, fun left raised reached searched node => ?_⟩
    · rwa [worked]
    · rw [worked]
      intro node member
      simpa using (Array.getElem?_eq_some_iff.mp (unvisited node member)).1
    · rw [worked]
      change _ ≤ 1 + _ at turns
      change Effort.turns (exploreNoted _ _ _ _ _) ≤ _
      omega
    · rw [← result] at searched
      rw [worked] at searched ⊢
      obtain ⟨finished, explored, searched⟩ := Checked.bind_eq_ok_iff.mp searched
      obtain ⟨potentials, -, searched⟩ := Checked.bind_eq_ok_iff.mp searched
      obtain ⟨visited, -, searched⟩ := Checked.bind_eq_ok_iff.mp searched
      cases searched
      have unvisited : (Array.replicate net.nodes false)[node]? ≠ some true := by
        simp [Array.getElem?_replicate]
      rw [visited_exploreNoted explored, or_iff_right unvisited]
      rfl

end Chart

end Transshipment
