import Mathlib.Algebra.Order.BigOperators.Group.List
import Transshipment.Proofs.ProblemSoundness
import Transshipment.Request

/-! The network of a problem, told without the computation that builds it: the
links of the lanes come first, in the order of the lanes, and the links that feed
the sites from the new source or drain them to the new sink come after. -/
namespace Transshipment

/-- The link that stands for a lane carries what the lane admits beyond its lower
bound. -/
def Lane.link (lane : Lane) : Link := ⟨lane.tail, lane.head, lane.cost, lane.span, 0⟩

namespace Network

/-- The network got further links behind its own, and nothing else. -/
structure Extended (net : Network) (links : List Link) (next : Network) : Prop where
  sound : next.Sound
  nodes : next.nodes = net.nodes
  links : next.links.toList = net.links.toList ++ links

variable {net middle next : Network} {first second : List Link} {tail head : Nat}
  {capacity cost : Int}

theorem Extended.refl (sound : net.Sound) : net.Extended [] net := ⟨sound, rfl, by simp⟩

theorem Extended.trans (early : net.Extended first middle)
    (late : middle.Extended second next) : net.Extended (first ++ second) next :=
  ⟨late.sound, late.nodes.trans early.nodes, by rw [late.links, early.links, List.append_assoc]⟩

theorem attached_extends (sound : net.Sound)
    (legal : tail < net.nodes ∧ head < net.nodes ∧ 0 ≤ capacity) :
    net.Extended [⟨tail, head, cost, capacity, 0⟩] (net.attached tail head capacity cost) :=
  ⟨sound.attached legal.1 legal.2.1 legal.2.2, nodes_attached net, by simp [attached]⟩

private theorem attach_extends (w : Width) (sound : net.Sound)
    (legal : tail < net.nodes ∧ head < net.nodes ∧ 0 ≤ capacity) :
    Checked.Ends (net.attach w tail head capacity cost) Fault.IsOverflow
      (net.Extended [⟨tail, head, cost, capacity, 0⟩]) := by
  refine (attach_ends w net tail head capacity cost).weaken ?_
  rintro _ rfl
  exact attached_extends sound legal

end Network

namespace Problem

variable {problem : Problem} {net : Network} {source sink node : Nat} {sites : List Site}
  {demand : Int}

/-- The links that join the sites from a node on to the source or the sink. -/
def feeds (source sink : Nat) : List Site → (node : Nat) → List Link
  | [], _ => []
  | site :: rest, node =>
    if 0 < site.excess then
      ⟨source, node, 0, site.excess, 0⟩ :: feeds source sink rest (node + 1)
    else if site.excess < 0 then
      ⟨node, sink, 0, -site.excess, 0⟩ :: feeds source sink rest (node + 1)
    else feeds source sink rest (node + 1)

/-- The links that join the sites of a problem to its new source and sink. -/
def siteLinks (problem : Problem) : List Link :=
  feeds problem.sites.size (problem.sites.size + 1) problem.sites.toList 0

/-- What the source has to send. -/
def offered (sites : List Site) : Int := (sites.map fun site => max site.excess 0).sum

/-- What the sink can take. -/
def lacking (sites : List Site) : Int := (sites.map fun site => max (-site.excess) 0).sum

theorem attachLanes_ends (w : Width) (lanes : List Lane) (net : Network) (sound : net.Sound)
    (fit : ∀ lane ∈ lanes, lane.tail < net.nodes ∧ lane.head < net.nodes ∧ 0 ≤ lane.span) :
    Checked.Ends (attachLanes w net lanes) Fault.IsOverflow
      (net.Extended (lanes.map Lane.link)) := by
  induction lanes generalizing net with
  | nil => exact .refl sound
  | cons lane rest ih =>
    unfold attachLanes
    rw [List.foldlM_cons]
    refine (Network.attach_extends w sound (fit lane (by simp))).bind fun next first => ?_
    refine (ih next first.sound fun lane member => ?_).weaken fun last => first.trans
    rw [first.nodes]
    exact fit lane (by simp [member])

private theorem attachSites_ends (w : Width) (sites : List Site) (net : Network) (sound : net.Sound)
    (sourceWithin : source < net.nodes) (sinkWithin : sink < net.nodes)
    (within : node + sites.length ≤ net.nodes) :
    Checked.Ends (attachSites w source sink sites node demand net) Fault.IsOverflow fun made =>
      net.Extended (feeds source sink sites node) made.1 ∧ made.2 = demand + offered sites := by
  induction sites generalizing net node demand with
  | nil => exact ⟨.refl sound, by simp [offered]⟩
  | cons site rest ih =>
    rw [List.length_cons] at within
    unfold attachSites feeds
    split
    · rename_i positive
      refine (Network.attach_extends w sound
        ⟨sourceWithin, by omega, Int.le_of_lt positive⟩).bind fun next first => ?_
      apply (w.add_ends Fault.isOverflow_overflow demand site.excess).bind
      rintro _ rfl
      refine (ih next first.sound (by rwa [first.nodes]) (by rwa [first.nodes])
        (by rw [first.nodes]; omega)).weaken ?_
      rintro ⟨last, total⟩ ⟨further, sum⟩
      refine ⟨first.trans further, sum.trans ?_⟩
      rw [offered, offered, List.map_cons, List.sum_cons, max_eq_left (Int.le_of_lt positive)]
      ring
    · rename_i nonpos
      have nothing : offered (site :: rest) = offered rest := by
        rw [offered, offered, List.map_cons, List.sum_cons, max_eq_right (Int.not_lt.mp nonpos)]
        ring
      rw [nothing]
      split
      · rename_i negative
        apply (w.neg_ends Fault.isOverflow_overflow site.excess).bind
        rintro _ rfl
        refine (Network.attach_extends w sound ⟨by omega, sinkWithin, by omega⟩).bind
          fun next first => ?_
        refine (ih next first.sound (by rwa [first.nodes]) (by rwa [first.nodes])
          (by rw [first.nodes]; omega)).weaken ?_
        rintro ⟨last, total⟩ ⟨further, sum⟩
        exact ⟨first.trans further, sum⟩
      · exact ih net sound sourceWithin sinkWithin (by omega)

/-- The network and the order stand for the problem. -/
structure Translates (problem : Problem) (net : Network) (order : Order) : Prop where
  sound : net.Sound
  nodes : net.nodes = problem.sites.size + 2
  links : net.links.toList = problem.lanes.toList.map Lane.link ++ problem.siteLinks
  order : order = ⟨problem.sites.size, problem.sites.size + 1, offered problem.sites.toList⟩

theorem toOrder_ends (w : Width) (sound : problem.Sound) :
    Checked.Ends (problem.toOrder w) Fault.IsOverflow fun made =>
      problem.Translates made.1 made.2 := by
  unfold toOrder
  refine (attachLanes_ends w problem.lanes.toList _ (Network.Sound.ofNodes _) ?_).bind ?_
  · intro lane member
    obtain ⟨k, held⟩ := List.mem_iff_getElem?.mp member
    rw [Array.getElem?_toList] at held
    have ends := sound.ends k lane held
    have bounds := sound.bounded k lane held
    simp only [Network.ofNodes, Network.nodes, Array.size_replicate]
    omega
  · intro lanes laid
    have nodes : lanes.nodes = problem.sites.size := by
      rw [laid.nodes]
      simp [Network.ofNodes, Network.nodes]
    have grown : lanes.insertNode.2.insertNode.2.nodes = problem.sites.size + 2 := by
      rw [← nodes]
      simp [Network.insertNode, Network.nodes]
    have numbers : lanes.insertNode.1 = problem.sites.size ∧
        lanes.insertNode.2.insertNode.1 = problem.sites.size + 1 := by
      rw [← nodes]
      simp [Network.insertNode, Network.nodes]
    dsimp only
    rw [numbers.1, numbers.2]
    refine (attachSites_ends w problem.sites.toList _ laid.sound.insertNode.insertNode
      (by omega) (by omega) (by simp [grown])).bind ?_
    rintro ⟨net, demand⟩ ⟨fed, rfl⟩
    refine ⟨fed.sound, fed.nodes.trans grown, ?_, by simp⟩
    rw [fed.links]
    congr 1
    exact laid.links

/-! ### What the feeds carry -/

/-- The excess of the site at a node, where the sites start at another. -/
def excessAt (sites : List Site) (start node : Nat) : Int :=
  if start ≤ node then (sites[node - start]?.map Site.excess).getD 0 else 0

private theorem excessAt_cons (site : Site) (rest : List Site) (start node : Nat) :
    excessAt (site :: rest) start node =
      (if start = node then site.excess else 0) + excessAt rest (start + 1) node := by
  unfold excessAt
  rcases Nat.lt_trichotomy start node with below | rfl | above
  · obtain ⟨gap, rfl⟩ := Nat.exists_eq_add_of_lt below
    rw [show start + gap + 1 - start = gap + 1 by omega,
      show start + gap + 1 - (start + 1) = gap by omega, List.getElem?_cons_succ,
      if_pos (by omega), if_neg (by omega), if_pos (by omega), zero_add]
  · simp
  · rw [if_neg (by omega), if_neg (by omega), if_neg (by omega), zero_add]

/-- Full feeds bring to every site its excess. -/
theorem sum_feeds (source sink : Nat) (sites : List Site) (start node : Nat) :
    ((feeds source sink sites start).map fun link => turn link.tail link.head node * link.free).sum =
      (if source = node then offered sites else 0) - (if sink = node then lacking sites else 0) -
        excessAt sites start node := by
  induction sites generalizing start with
  | nil => simp [feeds, offered, lacking, excessAt]
  | cons site rest ih =>
    have more : offered (site :: rest) = max site.excess 0 + offered rest := by
      simp [offered]
    have less : lacking (site :: rest) = max (-site.excess) 0 + lacking rest := by
      simp [lacking]
    rw [more, less, excessAt_cons]
    unfold feeds
    split
    · rw [List.map_cons, List.sum_cons, ih]
      unfold turn
      dsimp only
      split_ifs <;> omega
    · split
      · rw [List.map_cons, List.sum_cons, ih]
        unfold turn
        dsimp only
        split_ifs <;> omega
      · rw [ih]
        split_ifs <;> omega

/-- Every feed is free of charge, and leaves the source or enters the sink. -/
theorem feeds_ends (sites : List Site) (start : Nat)
    (sourceBeyond : start + sites.length ≤ source) (sinkBeyond : start + sites.length ≤ sink) :
    ∀ link ∈ feeds source sink sites start, link.cost = 0 ∧ link.used = 0 ∧
      (link.tail = source ∧ link.head < start + sites.length ∨
        link.tail < start + sites.length ∧ link.head = sink) := by
  induction sites generalizing start with
  | nil => simp [feeds]
  | cons site rest ih =>
    rw [List.length_cons] at sourceBeyond sinkBeyond ⊢
    have later := ih (start + 1) (by omega) (by omega)
    rw [show start + 1 + rest.length = start + (rest.length + 1) by omega] at later
    unfold feeds
    split
    · intro link member
      rcases List.mem_cons.mp member with rfl | member
      · exact ⟨rfl, rfl, .inl ⟨rfl, by dsimp only; omega⟩⟩
      · exact later link member
    · split
      · intro link member
        rcases List.mem_cons.mp member with rfl | member
        · exact ⟨rfl, rfl, .inr ⟨by dsimp only; omega, rfl⟩⟩
        · exact later link member
      · exact later

private theorem offered_sub_lacking (sites : List Site) :
    offered sites - lacking sites = (sites.map Site.excess).sum := by
  induction sites with
  | nil => rfl
  | cons site rest ih =>
    simp only [offered, lacking, List.map_cons, List.sum_cons] at ih ⊢
    omega

private theorem Sound.sum_outflow (sound : problem.Sound) (flow : Assignment) :
    ∑ node ∈ Finset.range problem.sites.size, problem.outflow flow node = 0 := by
  simp only [outflow_eq_weighed]
  refine sum_weighed_turn fun k lane held => ?_
  exact sound.ends k lane (by rwa [Array.getElem?_toList] at held)

/-- A sum over a list is one over its positions. -/
theorem sum_map_eq_sum_range (f : α → Int) (entries : List α) :
    (entries.map f).sum = ∑ i ∈ Finset.range entries.length, (entries[i]?.map f).getD 0 := by
  induction entries with
  | nil => rfl
  | cons entry rest ih =>
    rw [List.map_cons, List.sum_cons, List.length_cons, Finset.sum_range_succ', ih]
    simp [add_comm]

/-- The lower bounds move excess between the sites but make none. -/
theorem Sound.sum_excess (sound : problem.Sound) :
    (problem.sites.toList.map Site.excess).sum = (problem.sites.toList.map Site.supply).sum := by
  rw [sum_map_eq_sum_range, sum_map_eq_sum_range, ← sub_eq_zero, ← Finset.sum_sub_distrib,
    ← neg_eq_zero, ← sound.sum_outflow problem.lowers, ← Finset.sum_neg_distrib]
  refine Finset.sum_congr (by simp) fun node member => ?_
  have within : node < problem.sites.size := by simpa using member
  have held : problem.sites[node]? = some problem.sites[node] := Array.getElem?_eq_getElem within
  have kept := sound.excess node _ held
  rw [Array.getElem?_toList, held]
  simp only [Option.map_some, Option.getD_some]
  omega

theorem Sound.offered_eq_lacking (sound : problem.Sound)
    (balanced : (problem.sites.toList.map Site.supply).sum = 0) :
    offered problem.sites.toList = lacking problem.sites.toList := by
  have difference := offered_sub_lacking problem.sites.toList
  rw [sound.sum_excess, balanced] at difference
  omega

end Problem

end Transshipment
