import Transshipment.Network.Relaxation
import Transshipment.Proofs.Repricing

/-! A network with one more node, which no link touches. What is computed over the network
is computed over the larger one in the same steps, with one more entry in each table. Only
raising the potentials does something with the new node: no search reaches it, so it is
raised by the largest distance, which may be more than the width can hold. -/
namespace Transshipment

private theorem fetch_push {α : Type} {table : Array α} {index : Nat} {entry : α}
    (held : fetch table index = .ok entry) (last : α) :
    fetch (table.push last) index = .ok entry := by
  rw [fetch_eq_ok_iff] at held ⊢
  obtain ⟨within, -⟩ := Array.getElem?_eq_some_iff.mp held
  rw [Array.getElem?_push, if_neg (Nat.ne_of_lt within), held]

private theorem lt_size_of_fetch {α : Type} {table : Array α} {index : Nat} {entry : α}
    (held : fetch table index = .ok entry) : index < table.size :=
  (Array.getElem?_eq_some_iff.mp (fetch_eq_ok_iff.mp held)).1

private theorem setIfInBounds_push {α : Type} {table : Array α} {index : Nat}
    (within : index < table.size) (entry last : α) :
    (table.push last).setIfInBounds index entry = (table.setIfInBounds index entry).push last := by
  apply Array.ext_getElem?
  intro k
  simp only [Array.getElem?_setIfInBounds, Array.getElem?_push, Array.size_push,
    Array.size_setIfInBounds]
  split_ifs <;> first | rfl | omega

theorem modify_push {α : Type} {table : Array α} {index : Nat} (within : index < table.size)
    (f : α → α) (last : α) :
    (table.push last).modify index f = (table.modify index f).push last := by
  apply Array.ext_getElem?
  intro k
  simp only [Array.getElem?_modify, Array.getElem?_push, Array.size_modify]
  split_ifs <;> first | rfl | omega

namespace Checked

variable {σ τ α : Type} {step : σ → α → Checked σ} {entries : List α} {state last : σ}

/-- Where each step of one fold is matched by a step of another, so are the folds. -/
theorem foldlM_matched (wide : τ → α → Checked τ) (Match : σ → τ → Prop)
    (each : ∀ state other entry next, Match state other → step state entry = .ok next →
      ∃ further, wide other entry = .ok further ∧ Match next further)
    {other : τ} (start : Match state other) (ran : entries.foldlM step state = .ok last) :
    ∃ final, entries.foldlM wide other = .ok final ∧ Match last final := by
  induction entries generalizing state other with
  | nil =>
    cases ran
    exact ⟨other, rfl, start⟩
  | cons entry rest ih =>
    rw [List.foldlM_cons] at ran ⊢
    obtain ⟨next, first, later⟩ := bind_eq_ok_iff.mp ran
    obtain ⟨further, matched, still⟩ := each state other entry next start first
    obtain ⟨final, done, last⟩ := ih still later
    exact ⟨final, bind_eq_ok_iff.mpr ⟨further, matched, done⟩, last⟩

/-- The same where each state of the one fold stands for one of the other. -/
theorem foldlM_widened (wide : τ → α → Checked τ) (widen : σ → τ)
    (each : ∀ state entry next, step state entry = .ok next →
      wide (widen state) entry = .ok (widen next))
    (ran : entries.foldlM step state = .ok last) :
    entries.foldlM wide (widen state) = .ok (widen last) := by
  obtain ⟨final, done, rfl⟩ := foldlM_matched wide (fun state other => other = widen state)
    (fun state other entry next same first => ⟨widen next, same ▸ each state entry next first, rfl⟩)
    rfl ran
  exact done

end Checked

namespace Network

variable {w : Width} {net next : Network} {potentials : Potentials} {id node : Nat} {amount : Int}

private theorem outgoing_insertNode {row : Array Nat} (held : net.outgoing node = .ok row) :
    net.insertNode.2.outgoing node = .ok row :=
  fetch_push held #[]

/-- Nothing leaves the new node. -/
theorem outgoing_last (net : Network) : net.insertNode.2.outgoing net.nodes = .ok #[] := by
  simp [outgoing, fetch, insertNode, nodes]

private theorem reducedCost_insertNode {step : Int}
    (computed : net.reducedCost w potentials id = .ok step)
    (last : Int) : net.insertNode.2.reducedCost w (potentials.push last) id = .ok step := by
  unfold reducedCost at computed ⊢
  simp only [Checked.bind_eq_ok_iff] at computed ⊢
  obtain ⟨arc, held, tail, atTail, raised, sum, head, atHead, computed⟩ := computed
  exact ⟨arc, held, tail, fetch_push atTail last, raised, sum, head, fetch_push atHead last,
    computed⟩

private theorem push_insertNode (pushed : net.push w id amount = .ok next) :
    net.insertNode.2.push w id amount = .ok next.insertNode.2 := by
  unfold push at pushed ⊢
  split at pushed
  · cases pushed
  · rename_i nonneg
    obtain ⟨link, held, pushed⟩ := Checked.bind_eq_ok_iff.mp pushed
    rw [if_neg nonneg]
    refine Checked.bind_eq_ok_iff.mpr ⟨link, held, ?_⟩
    split at pushed
    · cases pushed
    · rename_i room
      obtain ⟨shifted, moved, pushed⟩ := Checked.bind_eq_ok_iff.mp pushed
      cases pushed
      rw [if_neg room]
      exact Checked.bind_eq_ok_iff.mpr ⟨shifted, moved, rfl⟩

private theorem traverse_insertNode {sent after : Network × Int}
    (passed : traverse w amount sent id = .ok after) :
    traverse w amount (sent.1.insertNode.2, sent.2) id = .ok (after.1.insertNode.2, after.2) := by
  unfold traverse at passed ⊢
  simp only [Checked.bind_eq_ok_iff] at passed ⊢
  obtain ⟨pushed, moved, arc, held, share, priced, total, sum, passed⟩ := passed
  cases passed
  exact ⟨_, push_insertNode moved, arc, held, share, priced, total, sum, rfl⟩

/-- A shipment uses the links alone. -/
theorem ship_insertNode {path : List Nat} {remaining : Int} {shipment : Shipment}
    (sent : net.ship w path remaining = .ok (shipment, next)) :
    net.insertNode.2.ship w path remaining = .ok (shipment, next.insertNode.2) := by
  unfold ship at sent ⊢
  obtain ⟨amount, narrowest, sent⟩ := Checked.bind_eq_ok_iff.mp sent
  refine Checked.bind_eq_ok_iff.mpr ⟨amount, narrowest, ?_⟩
  split at sent
  · cases sent
  · rename_i positive
    rw [if_neg positive]
    obtain ⟨⟨last, cost⟩, traversed, sent⟩ := Checked.bind_eq_ok_iff.mp sent
    obtain ⟨left, kept, sent⟩ := Checked.bind_eq_ok_iff.mp sent
    cases sent
    have matched := Checked.foldlM_widened (traverse w amount)
      (fun sent => (sent.1.insertNode.2, sent.2)) (fun _ _ _ => traverse_insertNode) traversed
    exact Checked.bind_eq_ok_iff.mpr ⟨_, matched, Checked.bind_eq_ok_iff.mpr ⟨left, kept, rfl⟩⟩

end Network

namespace Relaxation

variable {w : Width} {net : Network} {r last wide : Relaxation}

/-- The larger relaxation has found out as much, and nothing about the new node. The
parents are left out, since they are only looked at once a cycle was found. -/
structure Widens (r wide : Relaxation) : Prop where
  potentials : wide.potentials = r.potentials.push 0
  lowered : wide.lowered? = r.lowered?

private theorem Widens.relax {id : Nat} (widens : r.Widens wide)
    (ran : Relaxation.relax w net r id = .ok last) :
    ∃ final, Relaxation.relax w net.insertNode.2 wide id = .ok final ∧ last.Widens final := by
  unfold Relaxation.relax at ran ⊢
  obtain ⟨arc, held, ran⟩ := Checked.bind_eq_ok_iff.mp ran
  have same : net.insertNode.2.arc id = .ok arc := held
  simp only [same, Checked.bind_eq_ok_iff, Except.ok.injEq, exists_eq_left', widens.potentials]
  split at ran
  · rename_i isOpen
    simp only [Checked.bind_eq_ok_iff] at ran
    obtain ⟨tail, atTail, offer, sum, head, atHead, ran⟩ := ran
    simp only [if_pos isOpen, Checked.bind_eq_ok_iff, fetch_push atTail, fetch_push atHead,
      Except.ok.injEq, exists_eq_left', sum]
    split at ran
    · rename_i less
      cases ran
      rw [if_pos less]
      refine ⟨_, rfl, ?_, rfl⟩
      exact setIfInBounds_push (lt_size_of_fetch atHead) offer 0
    · rename_i more
      cases ran
      rw [if_neg more]
      exact ⟨wide, rfl, widens⟩
  · rename_i closed
    cases ran
    rw [if_neg closed]
    exact ⟨wide, rfl, widens⟩

private theorem Widens.relaxRow {node : Nat} (widens : r.Widens wide)
    (ran : (net.outgoing node >>= fun row =>
      row.toList.foldlM (Relaxation.relax w net) r) = .ok last) :
    ∃ final, (net.insertNode.2.outgoing node >>= fun row =>
      row.toList.foldlM (Relaxation.relax w net.insertNode.2) wide) = .ok final ∧
        last.Widens final := by
  obtain ⟨row, held, ran⟩ := Checked.bind_eq_ok_iff.mp ran
  obtain ⟨final, relaxed, matched⟩ := Checked.foldlM_matched (Relaxation.relax w net.insertNode.2)
    Widens (fun _ _ _ _ widens ran => widens.relax ran) widens ran
  have wide := Network.outgoing_insertNode held
  exact ⟨final, Checked.bind_eq_ok_iff.mpr ⟨row, wide, relaxed⟩, matched⟩

/-- A sweep comes to the new node last, and finds nothing there. -/
theorem Widens.sweep (widens : r.Widens wide) (ran : Relaxation.sweep w net r = .ok last) :
    ∃ final, Relaxation.sweep w net.insertNode.2 wide = .ok final ∧ last.Widens final := by
  unfold Relaxation.sweep at ran ⊢
  have started : Widens { r with lowered? := none } { wide with lowered? := none } :=
    ⟨widens.potentials, rfl⟩
  obtain ⟨final, swept, matched⟩ := Checked.foldlM_matched
    (fun r node => net.insertNode.2.outgoing node >>= fun row =>
      row.toList.foldlM (Relaxation.relax w net.insertNode.2) r)
    Widens (fun _ _ _ _ widens ran => widens.relaxRow ran) started ran
  refine ⟨final, ?_, matched⟩
  rw [Network.nodes_insertNode, List.range_succ, List.foldlM_append, swept]
  change (net.insertNode.2.outgoing net.nodes >>= fun row => _) >>= _ = _
  rw [Network.outgoing_last]
  rfl

/-- Sweeps that come to rest within their budget do so within a larger one. -/
theorem Widens.sweeps {budget : Nat} (widens : r.Widens wide) (some : 0 < budget)
    (ran : Relaxation.sweeps w net budget r = .ok last) (quiet : last.lowered? = none) :
    ∃ final, Relaxation.sweeps w net.insertNode.2 (budget + 1) wide = .ok final ∧
      last.Widens final := by
  induction budget generalizing r wide with
  | zero => exact absurd some (Nat.lt_irrefl 0)
  | succ budget ih =>
    obtain ⟨next, swept, ran⟩ := Checked.bind_eq_ok_iff.mp ran
    obtain ⟨further, sweptToo, matched⟩ := widens.sweep swept
    cases lowered : next.lowered? with
    | none =>
      rw [lowered] at ran
      cases ran
      refine ⟨further, Checked.bind_eq_ok_iff.mpr ⟨further, sweptToo, ?_⟩, matched⟩
      rw [matched.lowered.trans lowered]
      rfl
    | some node =>
      rw [lowered] at ran
      rcases Nat.eq_zero_or_pos budget with rfl | more
      · cases ran
        cases quiet.symm.trans lowered
      · obtain ⟨final, rest, last⟩ := ih matched more ran
        refine ⟨final, Checked.bind_eq_ok_iff.mpr ⟨further, sweptToo, ?_⟩, last⟩
        rw [matched.lowered.trans lowered]
        exact rest

private theorem start_widens (nodes : Nat) : (start nodes).Widens (start (nodes + 1)) :=
  ⟨Array.replicate_succ, rfl⟩

end Relaxation

namespace Network

/-- The new node starts at its empty walk. -/
theorem startPotentials_insertNode {w : Width} {net : Network} {potentials : Potentials}
    (some : 0 < net.nodes) (computed : (net.startPotentials w).result = .ok (.ok potentials)) :
    (net.insertNode.2.startPotentials w).result = .ok (.ok (potentials.push 0)) := by
  unfold startPotentials at computed ⊢
  rw [Traced.result_bind, Traced.result_lift] at computed ⊢
  obtain ⟨r, relaxed, computed⟩ := Checked.bind_eq_ok_iff.mp computed
  cases lowered : r.lowered? with
  | some last =>
    rw [lowered] at computed
    cases computed
  | none =>
    rw [lowered] at computed
    cases computed
    have wider : ∃ final, net.insertNode.2.relaxation w = .ok final ∧ r.Widens final := by
      unfold relaxation at relaxed ⊢
      have same : net.insertNode.2.hasBargain = net.hasBargain := rfl
      rw [same, nodes_insertNode]
      dsimp only at relaxed ⊢
      split at relaxed
      · rename_i bargain
        rw [if_pos bargain]
        exact (Relaxation.start_widens net.nodes).sweeps some relaxed lowered
      · rename_i none
        cases relaxed
        rw [if_neg none]
        exact ⟨_, rfl, Relaxation.start_widens net.nodes⟩
    obtain ⟨final, relaxedToo, widens⟩ := wider
    refine Checked.bind_eq_ok_iff.mpr ⟨final, relaxedToo, ?_⟩
    rw [widens.lowered, lowered, widens.potentials]
    rfl

end Network

namespace Tree

variable {w : Width} {net : Network} {potentials : Potentials} {tree last : Tree} {z : Int}

/-- The tree with a new node that no search has come across. -/
def widened (tree : Tree) : Tree := ⟨tree.marks.push .unseen⟩

@[simp] theorem distance?_widened (tree : Tree) (node : Nat) :
    tree.widened.distance? node = tree.distance? node := by
  unfold widened distance?
  rw [Array.getElem?_push]
  split_ifs with here
  · subst here
    simp [Mark.settled?]
  · rfl

@[simp] theorem farthest_widened (tree : Tree) : tree.widened.farthest = tree.farthest := by
  rw [farthest, widened, Array.toList_push, List.filterMap_append, List.foldl_append]
  rfl

@[simp] theorem nearest?_widened (tree : Tree) : tree.widened.nearest? = tree.nearest? := by
  simp [widened, nearest?, candidates, List.zipIdx_append]

private theorem relax_widened {distance : Int} {id : Nat}
    (ran : relax w net potentials distance tree id = .ok last) :
    relax w net.insertNode.2 (potentials.push z) distance tree.widened id = .ok last.widened := by
  unfold relax at ran ⊢
  obtain ⟨arc, held, ran⟩ := Checked.bind_eq_ok_iff.mp ran
  have same : net.insertNode.2.arc id = .ok arc := held
  simp only [same, Checked.bind_eq_ok_iff, Except.ok.injEq, exists_eq_left']
  split at ran
  · rename_i isOpen
    rw [if_pos isOpen]
    obtain ⟨step, reduced, ran⟩ := Checked.bind_eq_ok_iff.mp ran
    refine Checked.bind_eq_ok_iff.mpr ⟨step, Network.reducedCost_insertNode reduced z, ?_⟩
    split at ran
    · cases ran
    · rename_i nonneg
      simp only [Checked.bind_eq_ok_iff] at ran
      obtain ⟨reach, sum, mark, found, ran⟩ := ran
      cases ran
      rw [if_neg nonneg]
      simp only [Checked.bind_eq_ok_iff]
      refine ⟨reach, sum, mark, fetch_push found .unseen, ?_⟩
      exact congrArg (fun marks => Except.ok (Tree.mk marks))
        (setIfInBounds_push (lt_size_of_fetch found) _ _)
  · rename_i closed
    cases ran
    rw [if_neg closed]
    rfl

private theorem settle_widened {nearest : Candidate} (chosen : tree.nearest? = some nearest)
    (ran : tree.settle w net potentials nearest = .ok last) :
    tree.widened.settle w net.insertNode.2 (potentials.push z) nearest = .ok last.widened := by
  unfold settle at ran ⊢
  obtain ⟨row, held, ran⟩ := Checked.bind_eq_ok_iff.mp ran
  refine Checked.bind_eq_ok_iff.mpr ⟨row, Network.outgoing_insertNode held, ?_⟩
  have within := (Array.getElem?_eq_some_iff.mp (nearest?_eq_some chosen).1).1
  have marked : (⟨tree.widened.marks.setIfInBounds nearest.node
      (.settled nearest.distance nearest.via)⟩ : Tree) = widened ⟨tree.marks.setIfInBounds
        nearest.node (.settled nearest.distance nearest.via)⟩ :=
    congrArg Tree.mk (setIfInBounds_push within _ _)
  rw [marked]
  exact Checked.foldlM_widened _ widened (fun _ _ _ => relax_widened) ran

/-- A search that comes to its end within its budget does so within a larger one. -/
theorem grow_widened {budget : Nat} (ran : tree.grow w net potentials budget = .ok last)
    (finished : last.nearest? = none) :
    tree.widened.grow w net.insertNode.2 (potentials.push z) (budget + 1) = .ok last.widened := by
  induction budget generalizing tree with
  | zero =>
    cases ran
    unfold grow
    rw [nearest?_widened, finished]
  | succ budget ih =>
    unfold grow at ran ⊢
    rw [nearest?_widened]
    cases chosen : tree.nearest? with
    | none =>
      rw [chosen] at ran
      cases ran
      rfl
    | some nearest =>
      rw [chosen] at ran
      obtain ⟨next, settled, ran⟩ := Checked.bind_eq_ok_iff.mp ran
      exact Checked.bind_eq_ok_iff.mpr ⟨next.widened, settle_widened chosen settled, ih ran⟩

private theorem start_widened {nodes source : Nat} (within : source < nodes) :
    start (nodes + 1) source = (start nodes source).widened := by
  refine congrArg Tree.mk ?_
  rw [Array.replicate_succ]
  exact setIfInBounds_push (by rwa [Array.size_replicate]) _ _

/-- A search over the larger network finds the same. -/
theorem ofSource_widened {source : Nat} (sound : net.Sound) (priced : net.PricedBy potentials)
    (within : source < net.nodes) (ran : ofSource w net potentials source = .ok tree) :
    ofSource w net.insertNode.2 (potentials.push z) source = .ok tree.widened := by
  unfold ofSource at ran ⊢
  rw [if_neg (not_not.mpr priced.1), if_neg (Nat.not_le.mpr within)] at ran
  have finished : tree.nearest? = none :=
    ((grow_ends (foreseen_of_priced w priced source) sound priced.1 net.nodes _
      (growing_start within)
      ((Finset.card_filter_le _ _).trans_eq (Finset.card_range _))).of_ok ran).2
  rw [Network.nodes_insertNode, if_neg (by rw [Array.size_push, priced.1]; exact not_not.mpr rfl),
    if_neg (by omega), start_widened within]
  exact grow_widened ran finished

/-- Every node is raised as before, and the new one by the largest distance. -/
theorem raise_widened {raised : Potentials} (ran : tree.raise w potentials = .ok raised)
    (beyond : tree.distance? potentials.size = none) :
    tree.widened.raise w (potentials.push z) =
      (fun total => raised.push total) <$> w.add z tree.farthest := by
  unfold raise at ran ⊢
  obtain ⟨totals, summed, ran⟩ := Checked.bind_eq_ok_iff.mp ran
  cases ran
  simp only [distance?_widened, farthest_widened, Array.toList_push, List.zipIdx_append,
    List.zipIdx_singleton, List.mapM_append, Array.length_toList, Nat.zero_add]
  dsimp only at summed
  rw [summed]
  simp only [List.mapM_cons, List.mapM_nil, beyond, Option.getD_none]
  cases w.add z tree.farthest <;>
    simp [bind, Except.bind, pure, Except.pure, Functor.map, Except.map]

theorem reaches_widened {sink : Nat} {reached : Bool} (ran : tree.reaches sink = .ok reached) :
    tree.widened.reaches sink = .ok reached := by
  unfold reaches at ran ⊢
  obtain ⟨mark, found, ran⟩ := Checked.bind_eq_ok_iff.mp ran
  exact Checked.bind_eq_ok_iff.mpr ⟨mark, fetch_push found .unseen, ran⟩

private theorem climb_widened {budget node : Nat} {path full : List Nat}
    (ran : tree.climb net budget node path = .ok full) :
    tree.widened.climb net.insertNode.2 (budget + 1) node path = .ok full := by
  induction budget generalizing node path with
  | zero =>
    unfold climb at ran ⊢
    obtain ⟨mark, found, ran⟩ := Checked.bind_eq_ok_iff.mp ran
    refine Checked.bind_eq_ok_iff.mpr ⟨mark, fetch_push found .unseen, ?_⟩
    cases via : mark.via with
    | none =>
      rw [via] at ran
      exact ran
    | some id =>
      rw [via] at ran
      obtain ⟨arc, -, ran⟩ := Checked.bind_eq_ok_iff.mp ran
      cases ran
  | succ budget ih =>
    unfold climb at ran ⊢
    obtain ⟨mark, found, ran⟩ := Checked.bind_eq_ok_iff.mp ran
    refine Checked.bind_eq_ok_iff.mpr ⟨mark, fetch_push found .unseen, ?_⟩
    cases via : mark.via with
    | none =>
      rw [via] at ran
      exact ran
    | some id =>
      rw [via] at ran
      obtain ⟨arc, held, ran⟩ := Checked.bind_eq_ok_iff.mp ran
      exact Checked.bind_eq_ok_iff.mpr ⟨arc, held, ih ran⟩

/-- The trail to a node is the same. -/
theorem trailTo_widened {node : Nat} {path : List Nat} (some : 0 < net.nodes)
    (led : tree.trailTo net node = .ok path) :
    tree.widened.trailTo net.insertNode.2 node = .ok path := by
  unfold trailTo at led ⊢
  rw [Network.nodes_insertNode, show net.nodes + 1 - 1 = net.nodes - 1 + 1 by omega]
  exact climb_widened led

end Tree

end Transshipment
