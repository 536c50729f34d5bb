import Transshipment.Network.Basic

/-! A search as it is carried out on tables that outlive it. A chart has for each node the
least distance offered so far, the arc that offered it, and whether the node was visited; it
is wiped before each search and grows with the network. Nodes wait in a queue with the
distance at which they were entered. A better offer enters a node once more, and the older
entry is passed over when its turn comes. -/
namespace Transshipment

/-- A node that waits for its turn, with the distance that was offered to it. -/
structure Entry where
  distance : Int
  node : Nat
  deriving DecidableEq

namespace Entry

/-- The nearer entry comes first, and at equal distances the one of the lesser node. -/
def Precedes (first second : Entry) : Prop :=
  first.distance < second.distance ∨
    first.distance = second.distance ∧ first.node ≤ second.node

instance (first second : Entry) : Decidable (first.Precedes second) :=
  inferInstanceAs (Decidable (_ ∨ _ ∧ _))

/-- The entry whose turn it is. -/
def next? : List Entry → Option Entry
  | [] => none
  | entry :: queue =>
    match next? queue with
    | none => some entry
    | some other => if entry.Precedes other then some entry else some other

/-- Takes that entry out of the queue. -/
def pop? (queue : List Entry) : Option (Entry × List Entry) :=
  (next? queue).map fun entry => (entry, queue.erase entry)

theorem next?_mem {queue : List Entry} {entry : Entry} (next : next? queue = some entry) :
    entry ∈ queue := by
  fun_induction next? queue with
  | case1 => cases next
  | case2 first rest none ih => simp_all
  | case3 first rest other found sooner ih => simp_all
  | case4 first rest other found later ih => simp_all

/-- The queue is shorter afterwards. -/
theorem length_pop? {queue rest : List Entry} {entry : Entry}
    (popped : pop? queue = some (entry, rest)) : rest.length < queue.length := by
  obtain ⟨next, found, same⟩ := Option.map_eq_some_iff.mp popped
  cases same
  have member := next?_mem found
  have positive := List.length_pos_of_mem member
  rw [List.length_erase_of_mem member]
  omega

end Entry

/-- What a search takes down for each node. -/
structure Chart where
  distances : Array (Option Int) := #[]
  vias : Array (Option Nat) := #[]
  visited : Array Bool := #[]
  deriving DecidableEq

/-- The part of a chart that an offer can change, and the queue. -/
structure Frontier where
  distances : Array (Option Int)
  vias : Array (Option Nat)
  queue : List Entry

/-- An arc with capacity left offers its head a distance. Only a strictly better one is taken
down, so among equal offers the first stands. -/
def Frontier.relax (w : Width) (net : Network) (potentials : Potentials) (distance : Int)
    (frontier : Frontier) (id : Nat) : Checked Frontier := do
  let arc ← net.arc id
  if arc.residual = 0 then return frontier
  else do
    let step ← net.reducedCost w potentials id
    if step < 0 then .error (.negativeReducedCost id) else do
      let reach ← w.add distance step
      let known ← fetch frontier.distances arc.head
      if known.all (reach < ·) then
        return ⟨frontier.distances.setIfInBounds arc.head (some reach),
          frontier.vias.setIfInBounds arc.head (some id), ⟨reach, arc.head⟩ :: frontier.queue⟩
      else return frontier

namespace Chart

/-- A visit ends the wait of a node for good. -/
theorem count_visit_lt {visited : Array Bool} {node : Nat}
    (waits : fetch visited node = .ok false) :
    (visited.setIfInBounds node true).count false < visited.count false := by
  have found := fetch_eq_ok_iff.mp waits
  obtain ⟨within, unvisited⟩ := Array.getElem?_eq_some_iff.mp found
  have positive : 0 < visited.count false := Array.count_pos_iff.mpr (Array.mem_of_getElem? found)
  rw [Array.setIfInBounds_def, dif_pos within, Array.count_set within]
  rw [unvisited]
  exact Nat.sub_lt positive Nat.one_pos

/-- Works off the queue. An entry of a node that was visited before is passed over; any other
node is visited, and its arcs make their offers. -/
def explore (w : Width) (net : Network) (potentials : Potentials) (visited : Array Bool)
    (frontier : Frontier) : Checked Chart :=
  match _ : Entry.pop? frontier.queue with
  | none => .ok ⟨frontier.distances, frontier.vias, visited⟩
  | some (entry, queue) =>
    match _ : fetch visited entry.node with
    | .error fault => .error fault
    | .ok true => explore w net potentials visited { frontier with queue }
    | .ok false => do
      let row ← net.outgoing entry.node
      let offered ← row.toList.foldlM (Frontier.relax w net potentials entry.distance)
        { frontier with queue }
      explore w net potentials (visited.setIfInBounds entry.node true) offered
termination_by (visited.count false, frontier.queue.length)
decreasing_by
  · exact Prod.Lex.right _ (Entry.length_pop? (by assumption))
  · exact Prod.Lex.left _ _ (count_visit_lt (by assumption))

/-- A table of this size again, cut off or filled up with the entry. -/
def resize (table : Array α) (size : Nat) (entry : α) : Array α :=
  table.extract 0 size ++ Array.replicate (size - table.size) entry

/-- The chart with nothing taken down, for a network of this many nodes. Its tables are
emptied before they are filled up again. -/
def wiped (chart : Chart) (nodes : Nat) : Chart :=
  ⟨resize (chart.distances.extract 0 0) nodes none, resize (chart.vias.extract 0 0) nodes none,
    resize (chart.visited.extract 0 0) nodes false⟩

/-- The distance of a node, if the node was visited. -/
def distance? (chart : Chart) (node : Nat) : Option Int :=
  if chart.visited[node]? = some true then chart.distances[node]?.join else none

/-- The largest distance of a visited node. -/
def farthest (chart : Chart) : Int :=
  ((List.range chart.visited.size).filterMap chart.distance?).max?.getD 0

/-- Raises the potential of each visited node by its distance, and those of all others by the
largest one. -/
def raise (w : Width) (chart : Chart) (potentials : Potentials) : Checked Potentials := do
  let farthest := chart.farthest
  let raised ← potentials.toList.zipIdx.mapM fun (potential, node) =>
    w.add potential ((chart.distance? node).getD farthest)
  return raised.toArray

/-- Searches from the source: the chart that the search leaves, the raised potentials, and
whether the sink was visited. -/
def search (w : Width) (net : Network) (potentials : Potentials) (source sink : Nat)
    (chart : Chart) : Checked (Chart × Potentials × Bool) :=
  if potentials.size ≠ net.nodes then .error (.potentialCount potentials.size net.nodes) else do
    let chart := chart.wiped net.nodes
    let _ ← fetch chart.distances source
    let chart ← explore w net potentials chart.visited
      ⟨chart.distances.setIfInBounds source (some 0), chart.vias, [⟨0, source⟩]⟩
    let raised ← chart.raise w potentials
    return (chart, raised, ← fetch chart.visited sink)

/-- Goes back from a node over the arcs that were taken down, and puts them in front of a
path. The path stays shorter than there are nodes. -/
def retrace (chart : Chart) (net : Network) (node : Nat) (path : List Nat) :
    Checked (List Nat) := do
  match ← fetch chart.vias node with
  | none => return path
  | some id =>
    let arc ← net.arc id
    if path.length + 1 < net.nodes then chart.retrace net arc.tail (id :: path)
    else .error .endlessPath
termination_by net.nodes - path.length
decreasing_by simp only [List.length_cons]; omega

/-- The arcs from the source of the last search to a node, in the order in which they are
walked. -/
def pathTo (chart : Chart) (net : Network) (node : Nat) : Checked (List Nat) :=
  chart.retrace net node []

end Chart

end Transshipment
