import Mathlib.Algebra.BigOperators.Ring.Finset
import Mathlib.Tactic.Linarith
import Mathlib.Tactic.Ring
import Transshipment.Proofs.CheapestWalks
import Transshipment.Specification

/-! Outflows and costs are weighed sums of the amounts on the links. Prices of
the nodes turn the one kind of sum into the other, which is what judges a flow
from outside: prices without a bargain show that it is cheapest, and a saturated
cut shows that no more can be sent. -/
namespace Transshipment

/-- The sum over a list in which each entry weighs the amount at its position. -/
def weighed (weight : α → Int) (flow : Assignment) : List α → (start : Nat) → Int
  | [], _ => 0
  | entry :: rest, start => weight entry * flow start + weighed weight flow rest (start + 1)

section Weighed
variable {weight other : α → Int} {flow second : Assignment} {entries : List α} {start : Nat}

theorem sum_zipIdx_eq_weighed (share : α × Nat → Int)
    (linear : ∀ entry k, share (entry, k) = weight entry * flow k) :
    ((entries.zipIdx start).map share).sum = weighed weight flow entries start := by
  induction entries generalizing start with
  | nil => rfl
  | cons entry rest ih =>
    rw [List.zipIdx_cons, List.map_cons, List.sum_cons, ih, linear, weighed]

theorem weighed_append (first rest : List α) :
    weighed weight flow (first ++ rest) start =
      weighed weight flow first start + weighed weight flow rest (start + first.length) := by
  induction first generalizing start with
  | nil => simp [weighed]
  | cons entry first ih =>
    rw [List.cons_append, weighed, weighed, ih, List.length_cons, Int.add_assoc]
    congr 3
    omega

theorem weighed_map (f : β → α) (entries : List β) :
    weighed weight flow (entries.map f) start = weighed (weight ∘ f) flow entries start := by
  induction entries generalizing start with
  | nil => rfl
  | cons entry rest ih => rw [List.map_cons, weighed, weighed, ih]; rfl

/-- Term by term, one weighed sum is at most another. -/
theorem weighed_le
    (below : ∀ (i : Nat) entry, entries[i]? = some entry →
      weight entry * flow (start + i) ≤ other entry * second (start + i)) :
    weighed weight flow entries start ≤ weighed other second entries start := by
  induction entries generalizing start with
  | nil => exact Int.le_refl 0
  | cons entry rest ih =>
    rw [weighed, weighed]
    refine Int.add_le_add (below 0 entry rfl) (ih fun i later held => ?_)
    have step := below (i + 1) later held
    rwa [show start + 1 + i = start + (i + 1) by omega]

theorem weighed_congr
    (same : ∀ (i : Nat) entry, entries[i]? = some entry →
      weight entry * flow (start + i) = other entry * second (start + i)) :
    weighed weight flow entries start = weighed other second entries start :=
  Int.le_antisymm (weighed_le fun i entry held => Int.le_of_eq (same i entry held))
    (weighed_le fun i entry held => Int.le_of_eq (same i entry held).symm)

private theorem weighed_nonneg
    (terms : ∀ (i : Nat) entry, entries[i]? = some entry → 0 ≤ weight entry * flow (start + i)) :
    0 ≤ weighed weight flow entries start := by
  induction entries generalizing start with
  | nil => exact Int.le_refl 0
  | cons entry rest ih =>
    rw [weighed]
    refine Int.add_nonneg (terms 0 entry rfl) (ih fun i later held => ?_)
    have step := terms (i + 1) later held
    rwa [show start + 1 + i = start + (i + 1) by omega]

/-- Terms that are not negative cancel only if each of them is zero. -/
theorem eq_zero_of_weighed_eq_zero
    (terms : ∀ (i : Nat) entry, entries[i]? = some entry → 0 ≤ weight entry * flow (start + i))
    (cancel : weighed weight flow entries start = 0) :
    ∀ (i : Nat) entry, entries[i]? = some entry → weight entry * flow (start + i) = 0 := by
  induction entries generalizing start with
  | nil => simp
  | cons head rest ih =>
    have further : ∀ (i : Nat) entry, rest[i]? = some entry →
        0 ≤ weight entry * flow (start + 1 + i) := by
      intro i entry held
      rw [show start + 1 + i = start + (i + 1) by omega]
      exact terms (i + 1) entry held
    have first := terms 0 head rfl
    have others := weighed_nonneg further
    rw [weighed] at cancel
    intro i entry held
    cases i with
    | zero =>
      obtain rfl : head = entry := by simpa using held
      rw [Nat.add_zero] at first ⊢
      omega
    | succ i =>
      rw [show start + (i + 1) = start + 1 + i by omega]
      rw [Nat.add_zero] at first
      exact ih further (by omega) i entry held

theorem weighed_eq_zero
    (terms : ∀ (i : Nat) entry, entries[i]? = some entry → weight entry * flow (start + i) = 0) :
    weighed weight flow entries start = 0 := by
  induction entries generalizing start with
  | nil => rfl
  | cons entry rest ih =>
    have first : weight entry * flow start = 0 := terms 0 entry rfl
    rw [weighed, first, zero_add]
    refine ih fun i later held => ?_
    rw [show start + 1 + i = start + (i + 1) by omega]
    exact terms (i + 1) later held

@[simp] theorem weighed_zero : weighed weight (fun _ => 0) entries start = 0 :=
  weighed_eq_zero fun _ entry _ => mul_zero (weight entry)

theorem weighed_sub :
    weighed weight (fun k => flow k - second k) entries start =
      weighed weight flow entries start - weighed weight second entries start := by
  induction entries generalizing start with
  | nil => rfl
  | cons entry rest ih => rw [weighed, weighed, weighed, ih]; ring

theorem weighed_add :
    weighed weight (fun k => flow k + second k) entries start =
      weighed weight flow entries start + weighed weight second entries start := by
  induction entries generalizing start with
  | nil => rfl
  | cons entry rest ih => rw [weighed, weighed, weighed, ih]; ring

theorem weighed_add_weight :
    weighed (fun entry => weight entry + other entry) flow entries start =
      weighed weight flow entries start + weighed other flow entries start := by
  induction entries generalizing start with
  | nil => rfl
  | cons entry rest ih => rw [weighed, weighed, weighed, ih]; ring

/-- Weighed sums are linear in the weights. -/
theorem sum_mul_weighed (scope : Finset Nat) (factor : Nat → Int) (weights : Nat → α → Int) :
    ∑ node ∈ scope, factor node * weighed (weights node) flow entries start =
      weighed (fun entry => ∑ node ∈ scope, factor node * weights node entry) flow entries
        start := by
  induction entries generalizing start with
  | nil => simp [weighed]
  | cons entry rest ih =>
    simp only [weighed, mul_add, Finset.sum_add_distrib, ih, Finset.sum_mul, mul_assoc]

/-- More at one position adds its weight as often. -/
theorem weighed_add_at (held : entries[i]? = some entry) (amount : Int) :
    weighed weight (fun k => flow k + if k = start + i then amount else 0) entries start =
      weighed weight flow entries start + weight entry * amount := by
  induction entries generalizing start i with
  | nil => simp at held
  | cons head rest ih =>
    rw [weighed, weighed]
    cases i with
    | zero =>
      obtain rfl : head = entry := by simpa using held
      have unchanged : weighed weight (fun k => flow k + if k = start + 0 then amount else 0) rest
          (start + 1) = weighed weight flow rest (start + 1) := by
        refine weighed_congr fun i _ _ => ?_
        rw [if_neg (by omega), Int.add_zero]
      rw [unchanged, if_pos (Nat.add_zero start).symm]
      ring
    | succ i =>
      have later : rest[i]? = some entry := by simpa using held
      have further := @ih (start + 1) i later
      rw [show start + 1 + i = start + (i + 1) by omega] at further
      rw [further, if_neg (by omega)]
      ring

/-- Where the amounts are read off the entries, their positions do not count. -/
theorem weighed_eq_sum (read : α → Int)
    (reads : ∀ (i : Nat) entry, entries[i]? = some entry → flow (start + i) = read entry) :
    weighed weight flow entries start = (entries.map fun entry => weight entry * read entry).sum := by
  induction entries generalizing start with
  | nil => rfl
  | cons entry rest ih =>
    have first : flow start = read entry := reads 0 entry rfl
    rw [weighed, List.map_cons, List.sum_cons, first, ih fun i later held => ?_]
    rw [show start + 1 + i = start + (i + 1) by omega]
    exact reads (i + 1) later held

end Weighed

/-- How often an arc or a link leaves a node rather than enters it. -/
def turn (tail head node : Nat) : Int :=
  (if tail = node then 1 else 0) - (if head = node then 1 else 0)

private theorem turn_swap (tail head node : Nat) : turn head tail node = -turn tail head node := by
  unfold turn
  omega

theorem turn_add_turn (first second third node : Nat) :
    turn first second node + turn second third node = turn first third node := by
  unfold turn
  omega

/-- Summed over all nodes, only the ends of a link count. -/
theorem sum_mul_turn (price : Nat → Int) (tailWithin : tail < bound) (headWithin : head < bound) :
    ∑ node ∈ Finset.range bound, price node * turn tail head node = price tail - price head := by
  simp [turn, mul_sub, Finset.sum_sub_distrib, tailWithin, headWithin]

/-- Summed over all nodes, the flow on a link counts at the prices of its ends. -/
theorem sum_mul_weighed_turn {tail head : α → Nat} {flow : Assignment} {entries : List α}
    (price : Nat → Int)
    (within : ∀ (i : Nat) entry, entries[i]? = some entry → tail entry < bound ∧ head entry < bound) :
    ∑ node ∈ Finset.range bound,
        price node * weighed (fun entry => turn (tail entry) (head entry) node) flow entries 0 =
      weighed (fun entry => price (tail entry) - price (head entry)) flow entries 0 := by
  rw [sum_mul_weighed]
  refine weighed_congr fun i entry held => ?_
  have ends := within i entry held
  rw [sum_mul_turn price ends.1 ends.2]

/-- The flows out of all nodes cancel. -/
theorem sum_weighed_turn {tail head : α → Nat} {flow : Assignment} {entries : List α}
    (within : ∀ (i : Nat) entry, entries[i]? = some entry → tail entry < bound ∧ head entry < bound) :
    ∑ node ∈ Finset.range bound,
      weighed (fun entry => turn (tail entry) (head entry) node) flow entries 0 = 0 := by
  have total := @sum_mul_weighed_turn _ _ _ _ flow _ (fun _ => 1) within
  simp only [one_mul, sub_self] at total
  rw [total]
  exact weighed_eq_zero fun i _ _ => zero_mul (flow (0 + i))

namespace Network

variable {net other : Network} {flow second : Assignment} {price : Nat → Int}
  {source sink node id k : Nat} {amount : Int} {arc : Arc} {link : Link}

theorem outflow_eq_weighed (net : Network) (flow : Assignment) (node : Nat) :
    net.outflow flow node =
      weighed (fun link : Link => turn link.tail link.head node) flow net.links.toList 0 := by
  refine sum_zipIdx_eq_weighed _ fun link k => ?_
  dsimp only [turn]
  split_ifs <;> ring

theorem price_eq_weighed (net : Network) (flow : Assignment) :
    net.price flow = weighed Link.cost flow net.links.toList 0 :=
  sum_zipIdx_eq_weighed _ fun _ _ => rfl

theorem brings_iff_turn : net.Brings flow second source sink amount ↔
    ∀ node, net.outflow second node = net.outflow flow node + amount * turn source sink node := by
  refine forall_congr' fun node => ?_
  have shares : amount * turn source sink node =
      (if node = source then amount else 0) - (if node = sink then amount else 0) := by
    simp only [turn, mul_sub, mul_ite, mul_one, mul_zero, @eq_comm _ node]
  rw [shares, Int.add_sub_assoc]

private theorem outflow_sub : net.outflow (fun k => flow k - second k) node =
    net.outflow flow node - net.outflow second node := by
  simp only [outflow_eq_weighed, weighed_sub]

theorem price_sub : net.price (fun k => flow k - second k) =
    net.price flow - net.price second := by
  simp only [price_eq_weighed, weighed_sub]

theorem unloaded_toList (same : net.unloaded = other.unloaded) :
    net.links.toList.map Link.unloaded = other.links.toList.map Link.unloaded := by
  have links : net.links.map Link.unloaded = other.links.map Link.unloaded := by
    injection same
  simpa using congrArg Array.toList links

theorem outflow_of_unloaded (same : net.unloaded = other.unloaded) (flow : Assignment)
    (node : Nat) : net.outflow flow node = other.outflow flow node := by
  rw [outflow_eq_weighed, outflow_eq_weighed]
  have ends : (fun link : Link => turn link.tail link.head node) =
      (fun link : Link => turn link.tail link.head node) ∘ Link.unloaded := rfl
  rw [ends, ← weighed_map, ← weighed_map, unloaded_toList same]

theorem price_of_unloaded (same : net.unloaded = other.unloaded) (flow : Assignment) :
    net.price flow = other.price flow := by
  rw [price_eq_weighed, price_eq_weighed]
  have costs : Link.cost = Link.cost ∘ Link.unloaded := rfl
  rw [costs, ← weighed_map, ← weighed_map, unloaded_toList same]

theorem admits_of_unloaded (same : net.unloaded = other.unloaded) (admits : net.Admits flow) :
    other.Admits flow := by
  intro k link held
  obtain ⟨twin, found, equal⟩ := link_of_unloaded same.symm held
  have capacities : twin.free + twin.used = link.free + link.used := by injection equal
  have bounds := admits k twin found
  omega

theorem brings_of_unloaded (same : net.unloaded = other.unloaded)
    (brings : net.Brings flow second source sink amount) :
    other.Brings flow second source sink amount := by
  intro node
  rw [← outflow_of_unloaded same, ← outflow_of_unloaded same]
  exact brings node

/-- What is brought first and what is brought then add up. -/
theorem Brings.trans {third : Assignment} {more : Int}
    (first : net.Brings flow second source sink amount)
    (further : net.Brings second third source sink more) :
    net.Brings flow third source sink (amount + more) := by
  rw [brings_iff_turn] at first further ⊢
  intro node
  rw [further, first, add_mul, Int.add_assoc]

/-- What is brought in all, less what was brought first, is brought then. -/
theorem Brings.rest {third : Assignment} {total : Int}
    (whole : net.Brings flow third source sink total)
    (first : net.Brings flow second source sink amount) :
    net.Brings second third source sink (total - amount) := by
  rw [brings_iff_turn] at whole first ⊢
  intro node
  rw [whole, first, sub_mul]
  omega

theorem carried_of_link {link : Link} (held : net.links[k]? = some link) :
    net.carried k = link.used := by
  simp [carried, held]

/-- Against a link without flow nothing can be sent back, so the open arcs run along their links. -/
theorem along_of_open (idle : net.carried = fun _ => 0) (held : net.arc id = .ok arc)
    (isOpen : arc.Open) :
    ∃ link, net.links[id / 2]? = some link ∧ Arc.along id = true ∧ arc = link.arc true := by
  obtain ⟨link, found, rfl⟩ := arc_eq_ok_iff.mp held
  have unused : link.used = 0 := by rw [← carried_of_link found, idle]
  cases along : Arc.along id with
  | true => exact ⟨link, found, rfl, rfl⟩
  | false =>
    rw [along] at isOpen
    change 0 < link.used at isOpen
    omega

theorem Sound.admits_carried (sound : net.Sound) : net.Admits net.carried := by
  intro k link held
  have bounds := sound.bounded k link held
  rw [carried_of_link held]
  omega

/-- A push adds to the flow on its link, or takes back from it. -/
theorem carried_pushed (held : net.arc id = .ok arc) (amount : Int) :
    (net.pushed id amount).carried = fun k =>
      net.carried k + if k = 0 + id / 2 then (if Arc.along id then amount else -amount) else 0 := by
  obtain ⟨link, found, -⟩ := arc_eq_ok_iff.mp held
  funext k
  unfold carried
  rw [links_pushed, Nat.zero_add]
  by_cases here : id / 2 = k
  · subst here
    rw [if_pos rfl, found, if_pos rfl]
    cases Arc.along id
    · simp only [Link.moved, Option.map_some, Option.getD_some, Bool.false_eq_true, if_false]
      omega
    · simp [Link.moved]
  · rw [if_neg here, if_neg (Ne.symm here), Int.add_zero]

/-- A push over an arc brings the amount from its tail to its head. -/
theorem outflow_pushed (held : net.arc id = .ok arc) (amount : Int) (node : Nat) :
    (net.pushed id amount).outflow (net.pushed id amount).carried node =
      net.outflow net.carried node + amount * turn arc.tail arc.head node := by
  rw [outflow_of_unloaded (unloaded_pushed net id amount), carried_pushed held]
  obtain ⟨link, found, rfl⟩ := arc_eq_ok_iff.mp held
  rw [outflow_eq_weighed, outflow_eq_weighed,
    weighed_add_at (by rw [Array.getElem?_toList]; exact found)]
  cases Arc.along id
  · simp only [Link.arc, turn_swap link.tail link.head, Bool.false_eq_true, if_false]
    ring
  · simp only [Link.arc, if_true]
    ring

/-- A push over an arc is paid at the cost of the arc. -/
theorem price_pushed (held : net.arc id = .ok arc) (amount : Int) :
    (net.pushed id amount).price (net.pushed id amount).carried =
      net.price net.carried + amount * arc.cost := by
  rw [price_of_unloaded (unloaded_pushed net id amount), carried_pushed held]
  obtain ⟨link, found, rfl⟩ := arc_eq_ok_iff.mp held
  rw [price_eq_weighed, price_eq_weighed,
    weighed_add_at (by rw [Array.getElem?_toList]; exact found)]
  cases Arc.along id
  · simp only [Link.arc, Bool.false_eq_true, if_false]
    ring
  · simp only [Link.arc, if_true]
    ring

/-- What prices make of the outflows at the nodes, they make of the flow on the
links. -/
theorem Sound.sum_outflow (sound : net.Sound) (price : Nat → Int) (flow : Assignment) :
    ∑ node ∈ Finset.range net.nodes, price node * net.outflow flow node =
      weighed (fun link : Link => price link.tail - price link.head) flow net.links.toList 0 := by
  simp only [outflow_eq_weighed]
  refine sum_mul_weighed_turn price fun k link held => ?_
  exact sound.ends k link (by rwa [Array.getElem?_toList] at held)

/-- Prices without a bargain bound what any other flow costs, whatever its outflows: it saves no
more than the prices make of the difference. More flow on a link needs the arc along it to be
open, and less the arc against it. -/
theorem Sound.price_carried_le_add (sound : net.Sound) (prices : net.Prices price)
    (admits : net.Admits flow) :
    net.price net.carried ≤ net.price flow + ∑ node ∈ Finset.range net.nodes,
      price node * net.outflow (fun k => flow k - net.carried k) node := by
  have reduced : 0 ≤ weighed (fun link : Link => link.cost + (price link.tail - price link.head))
      (fun k => flow k - net.carried k) net.links.toList 0 := by
    refine weighed_nonneg fun k link held => ?_
    rw [Array.getElem?_toList] at held
    rw [Nat.zero_add, carried_of_link held]
    have bounds := sound.bounded k link held
    have limits := admits k link held
    rcases Int.lt_trichotomy (flow k) link.used with less | same | more
    · have against := prices (2 * k + 1) (link.arc false) (arc_double_succ held)
        (by change 0 < link.used; omega)
      simp only [Link.arc] at against
      nlinarith
    · rw [same, sub_self, mul_zero]
    · have along := prices (2 * k) (link.arc true) (arc_double held)
        (by change 0 < link.free; omega)
      simp only [Link.arc] at along
      nlinarith
  rw [weighed_add_weight, ← sound.sum_outflow, ← price_eq_weighed, price_sub] at reduced
  linarith

/-- Prices without a bargain show that a flow is the cheapest with its outflows. -/
theorem Sound.price_carried_le (sound : net.Sound) (prices : net.Prices price)
    (admits : net.Admits flow)
    (balanced : ∀ node, net.outflow flow node = net.outflow net.carried node) :
    net.price net.carried ≤ net.price flow := by
  have bound := sound.price_carried_le_add prices admits
  simpa only [outflow_sub, balanced, sub_self, mul_zero, Finset.sum_const_zero, add_zero] using bound

/-- What is brought on top of the present flow costs at least the difference of the prices at
its ends for each unit. -/
theorem Sound.price_brought_ge (sound : net.Sound) (prices : net.Prices price)
    (sourceWithin : source < net.nodes) (sinkWithin : sink < net.nodes)
    (admits : net.Admits flow) (brings : net.Brings net.carried flow source sink amount) :
    net.price net.carried + amount * (price sink - price source) ≤ net.price flow := by
  have bound := sound.price_carried_le_add prices admits
  have charged : ∑ node ∈ Finset.range net.nodes,
      price node * net.outflow (fun k => flow k - net.carried k) node =
        amount * (price source - price sink) := by
    rw [← sum_mul_turn price sourceWithin sinkWithin, Finset.mul_sum]
    refine Finset.sum_congr rfl fun node _ => ?_
    rw [outflow_sub, brings_iff_turn.mp brings node]
    ring
  rw [charged] at bound
  linarith

/-- Prices that are one in reach of a node and zero elsewhere see only the flow
that crosses the cut around the nodes in reach. -/
noncomputable def inReach (net : Network) (source : Nat) : Nat → Int :=
  Set.indicator {node | net.Connects source node} 1

private theorem inReach_eq_one (reached : net.Connects source node) : net.inReach source node = 1 :=
  Set.indicator_of_mem reached 1

private theorem inReach_eq_zero (apart : ¬ net.Connects source node) :
    net.inReach source node = 0 :=
  Set.indicator_of_notMem apart 1

/-- A link out of the nodes in reach is full. -/
theorem Sound.free_eq_zero (sound : net.Sound) (held : net.links[k]? = some link)
    (reached : net.Connects source link.tail) (apart : ¬ net.Connects source link.head) :
    link.free = 0 := by
  have bounds := sound.bounded k link held
  by_contra room
  have isOpen : (link.arc true).Open := by
    change 0 < link.free
    omega
  exact apart (reached.step (arc_double held) isOpen)

/-- A link into the nodes in reach from elsewhere is empty. -/
theorem Sound.used_eq_zero (sound : net.Sound) (held : net.links[k]? = some link)
    (reached : net.Connects source link.head) (apart : ¬ net.Connects source link.tail) :
    link.used = 0 := by
  have bounds := sound.bounded k link held
  by_contra flowing
  have isOpen : (link.arc false).Open := by
    change 0 < link.used
    omega
  exact apart (reached.step (arc_double_succ held) isOpen)

/-- No admissible flow takes more across the cut on a link than the network
carries. -/
theorem Sound.crossing_nonpos (sound : net.Sound) (admits : net.Admits flow)
    (held : net.links[k]? = some link) :
    (net.inReach source link.tail - net.inReach source link.head) * (flow k - link.used) ≤ 0 := by
  have limits := admits k link held
  by_cases tail : net.Connects source link.tail
  · by_cases head : net.Connects source link.head
    · rw [inReach_eq_one tail, inReach_eq_one head]
      omega
    · have full := sound.free_eq_zero held tail head
      rw [inReach_eq_one tail, inReach_eq_zero head]
      omega
  · by_cases head : net.Connects source link.head
    · have vacant := sound.used_eq_zero held head tail
      rw [inReach_eq_zero tail, inReach_eq_one head]
      omega
    · rw [inReach_eq_zero tail, inReach_eq_zero head]
      omega

/-- Where the sink is out of reach, the nodes in reach form a saturated cut, and
nothing more can be brought across it. -/
theorem Sound.brings_nonpos (sound : net.Sound) (within : source < net.nodes)
    (cut : ¬ net.Connects source sink) (admits : net.Admits flow)
    (brings : net.Brings net.carried flow source sink amount) : amount ≤ 0 := by
  have crossing := sound.sum_outflow (net.inReach source) fun k => flow k - net.carried k
  have brought : ∀ node, net.outflow (fun k => flow k - net.carried k) node =
      (if node = source then amount else 0) - (if node = sink then amount else 0) := by
    intro node
    rw [outflow_sub, brings node]
    omega
  have sent : ∑ node ∈ Finset.range net.nodes,
      net.inReach source node * net.outflow (fun k => flow k - net.carried k) node = amount := by
    simp only [brought, mul_sub, mul_ite, mul_zero, Finset.sum_sub_distrib, Finset.sum_ite_eq',
      Finset.mem_range, within, if_true, inReach_eq_one (.refl net source), inReach_eq_zero cut,
      one_mul, zero_mul, ite_self, sub_zero]
  have nothing : weighed Link.cost (fun _ => 0) net.links.toList 0 = 0 := weighed_zero
  rw [← sent, crossing]
  refine (weighed_le fun k link held => ?_).trans_eq nothing
  rw [Array.getElem?_toList] at held
  rw [Nat.zero_add, carried_of_link held, mul_zero]
  exact sound.crossing_nonpos admits held

end Network

end Transshipment
