import Mathlib.Data.Finset.Dedup
import Mathlib.Data.Finset.Order
import Mathlib.Data.Int.LeastGreatest
import Mathlib.Data.List.Nodup
import Mathlib.Data.List.Perm.Subperm
import Transshipment.Proofs.NetworkSoundness
import Transshipment.Specification

/-! Walks can be joined, split and shortened. Prices telescope along a walk, so
they bound its cost from below. Without a negative cycle no detour pays, every
node has a cheapest walk that ends there, and the costs of these walks are
prices themselves. -/
namespace Transshipment.Network

variable {net : Network} {source node middle sink id : Nat} {path : List Nat} {cost : Int}
  {arc : Arc} {price : Nat → Int}

/-- Under these prices of the nodes no open arc looks like a bargain. -/
def Prices (net : Network) (price : Nat → Int) : Prop :=
  ∀ id arc, net.arc id = .ok arc → arc.Open → 0 ≤ arc.cost + price arc.tail - price arc.head

theorem PricedBy.prices {potentials : Potentials} (priced : net.PricedBy potentials) :
    net.Prices (fun node => potentials.getD node 0) := priced.2

@[simp] theorem departures_nil : net.departures [] = [] := rfl

theorem departures_cons (held : net.arc id = .ok arc) :
    net.departures (id :: path) = arc.tail :: net.departures path := by
  simp [departures, held, Except.toOption]

@[simp] theorem departures_append (first second : List Nat) :
    net.departures (first ++ second) = net.departures first ++ net.departures second := by
  simp [departures, List.filterMap_append]

namespace Walk

theorem single (held : net.arc id = .ok arc) (isOpen : arc.Open) :
    net.Walk arc.tail [id] arc.head arc.cost := by
  simpa using Walk.cons held isOpen (.nil arc.head)

theorem append {rest : List Nat} {onward : Int} (first : net.Walk source path middle cost)
    (second : net.Walk middle rest sink onward) :
    net.Walk source (path ++ rest) sink (cost + onward) := by
  induction first with
  | nil node => simpa using second
  | cons held isOpen walk ih =>
    rw [Int.add_assoc]
    exact .cons held isOpen (ih second)

theorem snoc (walk : net.Walk source path arc.tail cost) (held : net.arc id = .ok arc)
    (isOpen : arc.Open) : net.Walk source (path ++ [id]) arc.head (cost + arc.cost) :=
  walk.append (single held isOpen)

private theorem length_departures (walk : net.Walk source path sink cost) :
    (net.departures path).length = path.length := by
  induction walk with
  | nil node => rfl
  | cons held isOpen walk ih => simp [departures_cons held, ih]

private theorem departures_lt (sound : net.Sound) (walk : net.Walk source path sink cost) :
    ∀ node ∈ net.departures path, node < net.nodes := by
  induction walk with
  | nil node => simp
  | cons held isOpen walk ih =>
    rw [departures_cons held]
    intro node member
    rcases List.mem_cons.mp member with rfl | member
    · exact (sound.arc_ends held).1
    · exact ih node member

theorem open_of_mem (walk : net.Walk source path sink cost) (member : id ∈ path) :
    ∃ arc, net.arc id = .ok arc ∧ arc.Open := by
  induction walk with
  | nil node => simp at member
  | cons held isOpen walk ih =>
    rcases List.mem_cons.mp member with rfl | later
    · exact ⟨_, held, isOpen⟩
    · exact ih later

private theorem source_mem (walk : net.Walk source path sink cost) :
    source ∈ net.departures path ++ [sink] := by
  cases walk with
  | nil node => simp
  | cons held isOpen walk => simp [departures_cons held]

/-- A walk leaves the tail of each of its arcs and comes to the head. -/
theorem ends_mem (walk : net.Walk source path sink cost) (member : id ∈ path)
    (held : net.arc id = .ok arc) :
    arc.tail ∈ net.departures path ∧ arc.head ∈ net.departures path ++ [sink] := by
  induction walk with
  | nil node => simp at member
  | @cons first step path sink cost found isOpen walk ih =>
    rw [departures_cons found, List.cons_append]
    rcases List.mem_cons.mp member with rfl | later
    · obtain rfl : step = arc := Except.ok.inj (found.symm.trans held)
      exact ⟨List.mem_cons_self .., List.mem_cons_of_mem _ walk.source_mem⟩
    · obtain ⟨tail, head⟩ := ih later
      exact ⟨List.mem_cons_of_mem _ tail, List.mem_cons_of_mem _ head⟩

/-- A walk passes through each node that it comes to, and can be cut where it
first does. -/
theorem split (walk : net.Walk source path sink cost)
    (visited : node ∈ net.departures path ++ [sink]) :
    ∃ before after first second, path = before ++ after ∧ cost = first + second ∧
      net.Walk source before node first ∧ net.Walk node after sink second ∧
      node ∉ net.departures before := by
  induction walk with
  | nil start =>
    obtain rfl : node = start := by simpa using visited
    exact ⟨[], [], 0, 0, rfl, rfl, .nil node, .nil node, by simp⟩
  | @cons id arc path sink cost held isOpen walk ih =>
    by_cases here : node = arc.tail
    · subst here
      exact ⟨[], id :: path, 0, arc.cost + cost, rfl, by omega, .nil _, .cons held isOpen walk,
        by simp⟩
    · rw [departures_cons held] at visited
      have later : node ∈ net.departures path ++ [sink] := by simpa [here] using visited
      obtain ⟨before, after, first, second, rfl, rfl, start, rest, fresh⟩ := ih later
      refine ⟨id :: before, after, arc.cost + first, second, rfl, by omega,
        .cons held isOpen start, rest, ?_⟩
      rw [departures_cons held]
      simpa [here] using fresh

/-- Along a walk the prices of the inner nodes cancel. -/
theorem price_le (prices : net.Prices price) (walk : net.Walk source path sink cost) :
    price sink - price source ≤ cost := by
  induction walk with
  | nil node => omega
  | cons held isOpen walk ih =>
    have step := prices _ _ held isOpen
    omega

end Walk

theorem Connects.refl (net : Network) (node : Nat) : net.Connects node node :=
  ⟨[], 0, .nil node⟩

theorem Connects.step (connected : net.Connects source arc.tail) (held : net.arc id = .ok arc)
    (isOpen : arc.Open) : net.Connects source arc.head := by
  obtain ⟨path, cost, walk⟩ := connected
  exact ⟨path ++ [id], cost + arc.cost, walk.snoc held isOpen⟩

/-- A walk comes to the tails of all its arcs. -/
theorem Walk.connects_tail (walk : net.Walk source path sink cost) (member : id ∈ path)
    (held : net.arc id = .ok arc) : net.Connects source arc.tail := by
  obtain ⟨before, after, first, second, -, -, start, -, -⟩ :=
    walk.split (List.mem_append_left _ (walk.ends_mem member held).1)
  exact ⟨before, first, start⟩

/-- A closed walk under prices costs nothing or more. -/
theorem Prices.no_negative_cycle (prices : net.Prices price) (node : Nat) :
    ¬ net.OnNegativeCycle node := by
  rintro ⟨path, cost, walk, _, negative⟩
  have bound := walk.price_le prices
  omega

private theorem length_le_of_lt {nodes : List Nat} (distinct : nodes.Nodup)
    (within : ∀ node ∈ nodes, node < bound) : nodes.length ≤ bound := by
  have inside : nodes ⊆ List.range bound := fun node member =>
    List.mem_range.mpr (within node member)
  simpa using (List.subperm_of_subset distinct inside).length_le

private theorem Walk.length_le (sound : net.Sound) (walk : net.Walk source path sink cost)
    (distinct : (net.departures path).Nodup) : path.length ≤ net.nodes := by
  rw [← walk.length_departures]
  exact length_le_of_lt distinct (walk.departures_lt sound)

theorem SimpleWalk.length_lt (sound : net.Sound) (within : sink < net.nodes)
    (simple : net.SimpleWalk source path sink cost) : path.length < net.nodes := by
  obtain ⟨walk, distinct⟩ := simple
  have inside : ∀ node ∈ net.departures path ++ [sink], node < net.nodes := by
    intro node member
    rcases List.mem_append.mp member with member | member
    · exact walk.departures_lt sound node member
    · obtain rfl : node = sink := by simpa using member
      exact within
  have short := length_le_of_lt distinct inside
  rw [List.length_append, walk.length_departures] at short
  exact short

/-- A simple walk that comes back to its source has not left it. -/
theorem SimpleWalk.eq_nil_iff (simple : net.SimpleWalk source path sink cost) :
    path = [] ↔ sink = source := by
  obtain ⟨walk, distinct⟩ := simple
  cases walk with
  | nil node => simp
  | cons held isOpen walk =>
    rw [departures_cons held, List.cons_append, List.nodup_cons] at distinct
    refine ⟨nofun, ?_⟩
    rintro rfl
    simp at distinct

/-- A simple walk never comes back to a link, in neither direction. -/
theorem SimpleWalk.halves_nodup (simple : net.SimpleWalk source path sink cost) :
    (path.map (· / 2)).Nodup := by
  obtain ⟨walk, distinct⟩ := simple
  induction walk with
  | nil node => simp
  | @cons id arc path sink cost held isOpen walk ih =>
    rw [departures_cons held, List.cons_append, List.nodup_cons] at distinct
    rw [List.map_cons, List.nodup_cons]
    refine ⟨fun member => ?_, ih distinct.2⟩
    obtain ⟨again, later, same⟩ := List.mem_map.mp member
    refine distinct.1 ?_
    obtain rfl | rfl := Arc.eq_or_eq_mate_of_half same
    · exact List.mem_append_left _ (walk.ends_mem later held).1
    · obtain ⟨back, found, -, head, -⟩ := arc_mate held
      exact head ▸ (walk.ends_mem later found).2

/-- Where no cycle pays, every detour of a walk can be left out: an arc closes a cycle with the
walk back to its tail. -/
theorem Walk.exists_simple (acyclic : ∀ node, ¬ net.OnNegativeCycle node)
    (walk : net.Walk source path sink cost) :
    ∃ direct least, net.SimpleWalk source direct sink least ∧ least ≤ cost := by
  induction walk with
  | nil node => exact ⟨[], 0, ⟨.nil node, by simp⟩, Int.le_refl 0⟩
  | @cons id arc path sink cost held isOpen walk ih =>
    obtain ⟨direct, least, ⟨rest, distinct⟩, cheaper⟩ := ih
    by_cases visited : arc.tail ∈ net.departures direct ++ [sink]
    · obtain ⟨before, after, first, second, rfl, rfl, back, onward, fresh⟩ := rest.split visited
      rw [departures_append, List.append_assoc] at distinct
      have closed : (net.departures (id :: before)).Nodup := by
        rw [departures_cons held]
        exact List.nodup_cons.mpr ⟨fresh, distinct.of_append_left⟩
      have worthwhile : 0 ≤ arc.cost + first := by
        by_contra negative
        exact acyclic arc.tail
          ⟨id :: before, arc.cost + first, .cons held isOpen back, closed, by omega⟩
      exact ⟨after, second, ⟨onward, distinct.of_append_right⟩, by omega⟩
    · refine ⟨id :: direct, arc.cost + least, ⟨.cons held isOpen rest, ?_⟩, by omega⟩
      rw [departures_cons held, List.cons_append]
      exact List.nodup_cons.mpr ⟨visited, distinct⟩

/-- No arc costs or refunds more than the bound. -/
def CostsWithin (net : Network) (bound : Nat) : Prop :=
  ∀ id arc, net.arc id = .ok arc → arc.cost.natAbs ≤ bound

/-- Both arcs of a link cost what it does, up to the sign. -/
theorem costsWithin_of_links {bound : Nat}
    (within : ∀ link ∈ net.links.toList, link.cost.natAbs ≤ bound) : net.CostsWithin bound := by
  intro id arc held
  obtain ⟨link, found, rfl⟩ := arc_eq_ok_iff.mp held
  have least := within link (Array.mem_toList_iff.mpr (Array.mem_of_getElem? found))
  cases Arc.along id <;> simpa [Link.arc] using least

private theorem exists_cost_bound (net : Network) : ∃ bound : Nat, net.CostsWithin bound := by
  obtain ⟨bound, bounds⟩ := (net.links.toList.map (·.cost.natAbs)).toFinset.exists_le
  exact ⟨bound, costsWithin_of_links fun link member =>
    bounds _ (List.mem_toFinset.mpr (List.mem_map_of_mem member))⟩

theorem Walk.natAbs_cost_le {bound : Nat} (costs : net.CostsWithin bound)
    (walk : net.Walk source path sink cost) : cost.natAbs ≤ path.length * bound := by
  induction walk with
  | nil node => simp
  | @cons id arc path sink cost held isOpen walk ih =>
    have step := costs id arc held
    rw [List.length_cons, Nat.succ_mul]
    omega

/-- The cheapest walks to all nodes exist, and their costs are prices. -/
theorem exists_prices (sound : net.Sound) (acyclic : ∀ node, ¬ net.OnNegativeCycle node) :
    ∃ price, net.Prices price := by
  obtain ⟨bound, bounds⟩ := net.exists_cost_bound
  have cheapest : ∀ node, ∃ least,
      (∃ source path, net.Walk source path node least) ∧
        ∀ cost, (∃ source path, net.Walk source path node cost) → least ≤ cost := by
    intro node
    refine Int.exists_least_of_bdd ⟨-(net.nodes * bound : Nat), ?_⟩ ⟨0, node, [], .nil node⟩
    rintro cost ⟨source, path, walk⟩
    obtain ⟨direct, least, simple, cheaper⟩ := walk.exists_simple acyclic
    have short := simple.1.length_le sound simple.2.of_append_left
    have limit := simple.1.natAbs_cost_le bounds
    have scaled : direct.length * bound ≤ net.nodes * bound := Nat.mul_le_mul_right bound short
    omega
  choose price attained least using cheapest
  refine ⟨price, fun id arc held isOpen => ?_⟩
  obtain ⟨source, path, walk⟩ := attained arc.tail
  have extended := least arc.head _ ⟨source, path ++ [id], walk.snoc held isOpen⟩
  omega

end Transshipment.Network
