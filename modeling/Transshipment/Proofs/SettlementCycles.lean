import Transshipment.Proofs.SettlementFlows
import Transshipment.Specification

/-! Cycles of lanes and cycles of links. The network starts out without flow, so
its open arcs lead along its links; nothing leads into the new source and nothing
out of the new sink, so a cycle passes neither and consists of lanes. -/
namespace Transshipment.Problem

/-- The lanes admit more than their lower bounds and lead from the first site to
the second, and their costs sum to the cost. -/
inductive Walk (problem : Problem) : (source : Nat) → (path : List Nat) → (sink : Nat) →
    (cost : Int) → Prop
  | nil (node : Nat) : Walk problem node [] node 0
  | cons {k : Nat} {lane : Lane} {path : List Nat} {sink : Nat} {cost : Int} :
    problem.lanes[k]? = some lane → 0 < lane.span → Walk problem lane.head path sink cost →
      Walk problem lane.tail (k :: path) sink (lane.cost + cost)

/-- The sites that a path leaves, in order. -/
def departures (problem : Problem) (path : List Nat) : List Nat :=
  path.filterMap fun k => problem.lanes[k]?.map Lane.tail

/-- The site lies on a cycle of lanes that admit more than their lower bounds,
passes no site twice and costs less than nothing. -/
def OnNegativeCycle (problem : Problem) (node : Nat) : Prop :=
  ∃ path cost, problem.Walk node path node cost ∧ (problem.departures path).Nodup ∧ cost < 0

variable {problem : Problem} {net : Network} {order : Order} {id source sink node : Nat}
  {arc : Arc} {lane : Lane} {path : List Nat} {cost : Int} {k : Nat}

theorem departures_cons (laid : problem.lanes[k]? = some lane) :
    problem.departures (k :: path) = lane.tail :: problem.departures path := by
  rw [departures, departures, List.filterMap_cons_some (by rw [laid]; rfl)]

/-- A walk over lanes is one over their links. -/
theorem Walk.links
    (laid : ∀ (k : Nat) lane, problem.lanes[k]? = some lane → net.links[k]? = some lane.link)
    (walk : problem.Walk source path sink cost) :
    net.Walk source (path.map (2 * ·)) sink cost ∧
      net.departures (path.map (2 * ·)) = problem.departures path := by
  induction walk with
  | nil node => exact ⟨.nil node, rfl⟩
  | @cons k lane path sink cost held room walk ih =>
    have along := Network.arc_double (laid k lane held)
    refine ⟨.cons along room ih.1, ?_⟩
    rw [List.map_cons, Network.departures_cons along, ih.2, departures_cons held]
    rfl

/-- So a negative cycle of lanes is one of links. -/
theorem OnNegativeCycle.links
    (laid : ∀ (k : Nat) lane, problem.lanes[k]? = some lane → net.links[k]? = some lane.link)
    (cycle : problem.OnNegativeCycle node) : net.OnNegativeCycle node := by
  obtain ⟨path, cost, walk, distinct, negative⟩ := cycle
  obtain ⟨links, departs⟩ := walk.links laid
  exact ⟨_, cost, links, departs ▸ distinct, negative⟩

namespace Translates

/-- An open arc stands for a lane with a span, leaves the source or enters the
sink. -/
theorem open_arc_cases (translates : problem.Translates net order)
    (held : net.arc id = .ok arc) (isOpen : arc.Open) :
    (∃ lane, problem.lanes[id / 2]? = some lane ∧ 0 < lane.span ∧ arc.tail = lane.tail ∧
      arc.head = lane.head ∧ arc.cost = lane.cost) ∨
    (arc.tail = problem.sites.size ∧ arc.head < problem.sites.size) ∨
    arc.tail < problem.sites.size ∧ arc.head = problem.sites.size + 1 := by
  obtain ⟨link, found, -, rfl⟩ :=
    Network.along_of_open translates.carried_eq_zero held isOpen
  obtain ⟨lane, laid, rfl⟩ | ⟨i, -, joined⟩ := translates.link_cases found
  · exact .inl ⟨lane, laid, isOpen, rfl, rfl, rfl⟩
  · exact .inr (siteLink_ends (List.mem_of_getElem? joined)).2.2

/-- A walk that starts at a site ends at the sink, or it stays on the lanes. -/
theorem walk_of_site (translates : problem.Translates net order) (sound : problem.Sound)
    (walk : net.Walk source path sink cost) (within : source < problem.sites.size) :
    sink = problem.sites.size + 1 ∨
      sink < problem.sites.size ∧ problem.Walk source (path.map (· / 2)) sink cost ∧
        net.departures path = problem.departures (path.map (· / 2)) := by
  induction walk with
  | nil node => exact .inr ⟨within, .nil node, rfl⟩
  | @cons id arc path sink cost held isOpen walk ih =>
    obtain ⟨lane, laid, room, tail, head, price⟩ | ⟨tail, -⟩ | ⟨-, head⟩ :=
      translates.open_arc_cases held isOpen
    · have ends := sound.ends _ lane laid
      obtain ended | ⟨inside, onward, departs⟩ := ih (by omega)
      · exact .inl ended
      · refine .inr ⟨inside, ?_, ?_⟩
        · rw [tail, price]
          exact .cons laid room (head ▸ onward)
        · rw [Network.departures_cons held, departs, tail, List.map_cons, departures_cons laid]
    · omega
    · rw [head] at walk
      generalize start : problem.sites.size + 1 = node at walk
      cases walk with
      | nil => exact .inl rfl
      | @cons other next _ _ _ found openToo _ =>
        obtain ⟨lane, laid, -, tail, -⟩ | ⟨tail, -⟩ | ⟨tail, -⟩ :=
          translates.open_arc_cases found openToo
        · have ends := sound.ends _ lane laid
          omega
        · omega
        · omega

/-- A negative cycle of the network is one of the problem. -/
theorem onNegativeCycle (translates : problem.Translates net order) (sound : problem.Sound)
    (cycle : net.OnNegativeCycle node) :
    node < problem.sites.size ∧ problem.OnNegativeCycle node := by
  obtain ⟨path, cost, walk, distinct, negative⟩ := cycle
  rcases Nat.lt_or_ge node problem.sites.size with within | beyond
  · obtain ended | ⟨-, lanes, departs⟩ := translates.walk_of_site sound walk within
    · omega
    · exact ⟨within, path.map (· / 2), cost, lanes, departs ▸ distinct, negative⟩
  · cases walk with
    | nil => omega
    | @cons id arc _ _ _ held isOpen rest =>
      obtain ⟨lane, laid, -, tail, -⟩ | ⟨tail, head⟩ | ⟨tail, -⟩ :=
        translates.open_arc_cases held isOpen
      · have ends := sound.ends _ lane laid
        omega
      · obtain ended | ⟨inside, -⟩ := translates.walk_of_site sound rest head <;> omega
      · omega

/-- The network has the negative cycles of the problem and no others. -/
theorem onNegativeCycle_iff (translates : problem.Translates net order) (sound : problem.Sound) :
    net.OnNegativeCycle node ↔ problem.OnNegativeCycle node :=
  ⟨fun cycle => (translates.onNegativeCycle sound cycle).2,
    fun cycle => cycle.links fun _ _ laid => translates.link_of_lane laid⟩

end Translates

end Transshipment.Problem
