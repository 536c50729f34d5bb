import Transshipment.History
import Transshipment.Proofs.FlowDuality

/-! What every problem keeps that came about by its operations. The excess of a
site is its supply less what the lower bounds alone would send from it, so a flow
meets the supplies exactly if what it adds to the lower bounds meets the
excesses. -/
namespace Transshipment

namespace Problem

variable {problem next : Problem} {flow second : Assignment} {w : Width} {node tail head : Nat}
  {lower upper cost amount : Int} {site : Site} {lane : Lane}

/-- What the lanes have to carry at least. -/
def lowers (problem : Problem) : Assignment :=
  fun k => (problem.lanes[k]?.map Lane.lower).getD 0

theorem outflow_eq_weighed (problem : Problem) (flow : Assignment) (node : Nat) :
    problem.outflow flow node =
      weighed (fun lane : Lane => turn lane.tail lane.head node) flow problem.lanes.toList 0 := by
  refine sum_zipIdx_eq_weighed _ fun lane k => ?_
  dsimp only [turn]
  split_ifs <;> ring

theorem price_eq_weighed (problem : Problem) (flow : Assignment) :
    problem.price flow = weighed Lane.cost flow problem.lanes.toList 0 :=
  sum_zipIdx_eq_weighed _ fun _ _ => rfl

theorem outflow_sub : problem.outflow (fun k => flow k - second k) node =
    problem.outflow flow node - problem.outflow second node := by
  simp only [outflow_eq_weighed, weighed_sub]

theorem price_sub : problem.price (fun k => flow k - second k) =
    problem.price flow - problem.price second := by
  simp only [price_eq_weighed, weighed_sub]

theorem outflow_add : problem.outflow (fun k => flow k + second k) node =
    problem.outflow flow node + problem.outflow second node := by
  simp only [outflow_eq_weighed, weighed_add]

theorem price_add : problem.price (fun k => flow k + second k) =
    problem.price flow + problem.price second := by
  simp only [price_eq_weighed, weighed_add]

theorem outflow_congr
    (same : ∀ (k : Nat) lane, problem.lanes[k]? = some lane → flow k = second k) :
    problem.outflow flow node = problem.outflow second node := by
  rw [outflow_eq_weighed, outflow_eq_weighed]
  refine weighed_congr fun k lane held => ?_
  rw [Nat.zero_add, same k lane (by rwa [Array.getElem?_toList] at held)]

theorem price_congr
    (same : ∀ (k : Nat) lane, problem.lanes[k]? = some lane → flow k = second k) :
    problem.price flow = problem.price second := by
  rw [price_eq_weighed, price_eq_weighed]
  refine weighed_congr fun k lane held => ?_
  rw [Nat.zero_add, same k lane (by rwa [Array.getElem?_toList] at held)]

theorem lowers_of_lane (held : problem.lanes[k]? = some lane) : problem.lowers k = lane.lower := by
  simp [lowers, held]

/-- What the lower bounds alone send from a node. -/
theorem outflow_lowers (problem : Problem) (node : Nat) :
    problem.outflow problem.lowers node =
      (problem.lanes.toList.map fun lane => turn lane.tail lane.head node * lane.lower).sum := by
  rw [outflow_eq_weighed]
  refine weighed_eq_sum Lane.lower fun k lane held => ?_
  rw [Array.getElem?_toList] at held
  rw [Nat.zero_add, lowers_of_lane held]

/-- The invariant of all problems that came about by their operations. -/
structure Sound (problem : Problem) : Prop where
  /-- A lane joins two sites. -/
  ends : ∀ (k : Nat) lane, problem.lanes[k]? = some lane →
    lane.tail < problem.sites.size ∧ lane.head < problem.sites.size
  /-- Its flow lies within its bounds. -/
  bounded : ∀ (k : Nat) lane, problem.lanes[k]? = some lane →
    0 ≤ lane.lower ∧ 0 ≤ lane.routed ∧ lane.routed ≤ lane.span
  /-- The excess of a site is what the lower bounds leave of its supply. -/
  excess : ∀ (node : Nat) site, problem.sites[node]? = some site →
    site.excess = site.supply - problem.outflow problem.lowers node

theorem Sound.ofSites (sites : Nat) : (Problem.ofSites sites).Sound where
  ends k lane held := by simp [Problem.ofSites] at held
  bounded k lane held := by simp [Problem.ofSites] at held
  excess node site held := by
    rw [outflow_lowers]
    obtain ⟨-, rfl⟩ : node < sites ∧ ⟨0, 0⟩ = site := by
      simpa [Problem.ofSites, Array.getElem?_replicate] using held
    simp [Problem.ofSites]

/-- No lane leads to or from a node that is not a site. -/
theorem Sound.outflow_eq_zero (sound : problem.Sound) (beyond : problem.sites.size ≤ node)
    (flow : Assignment) : problem.outflow flow node = 0 := by
  rw [outflow_eq_weighed]
  refine weighed_eq_zero fun k lane held => ?_
  have ends := sound.ends k lane (by rwa [Array.getElem?_toList] at held)
  have apart : turn lane.tail lane.head node = 0 := by
    unfold turn
    rw [if_neg (by omega), if_neg (by omega), sub_zero]
  rw [apart, zero_mul]

/-- New sites have neither supply nor lanes. -/
theorem Sound.insertSites (sound : problem.Sound) (count : Nat) :
    (problem.insertSites count).2.Sound where
  ends k lane held := by
    have ends := sound.ends k lane held
    simp only [Problem.insertSites, Array.size_append]
    omega
  bounded := sound.bounded
  excess node site held := by
    change (problem.sites ++ Array.replicate count ⟨0, 0⟩)[node]? = some site at held
    change site.excess = site.supply - problem.outflow problem.lowers node
    rw [Array.getElem?_append] at held
    split at held
    · exact sound.excess node site held
    · rename_i beyond
      obtain ⟨-, rfl⟩ : _ ∧ (⟨0, 0⟩ : Site) = site := by
        simpa [Array.getElem?_replicate] using held
      rw [sound.outflow_eq_zero (Nat.not_lt.mp beyond)]
      rfl

theorem insertSite_eq_insertSites (problem : Problem) :
    problem.insertSite.2 = (problem.insertSites 1).2 := by
  simp [Problem.insertSite, Problem.insertSites]

theorem Sound.insertSite (sound : problem.Sound) : problem.insertSite.2.Sound := by
  rw [insertSite_eq_insertSites]
  exact sound.insertSites 1

/-- The problem with another supply and excess at one site. -/
def supplied (problem : Problem) (node : Nat) (amount : Int) : Problem :=
  { problem with
    sites := problem.sites.modify node fun site => ⟨site.supply + amount, site.excess + amount⟩ }

/-- Why a node is refused where a site is asked for, if it is. -/
def siteRefusal? (sites node : Nat) : Option Refusal :=
  if sites ≤ node then some (.nodeOutOfRange node sites) else none

/-- A supply is refused where there is no site, or it is added. -/
theorem provide_ends (w : Width) (problem : Problem) (node : Nat) (amount : Int) :
    Checked.Ends (problem.provide w node amount) Fault.IsOverflow
      (Answered (siteRefusal? problem.sites.size node) (· = problem.supplied node amount)) := by
  unfold provide
  split
  · rename_i missing
    exact if_pos (Array.getElem?_eq_none_iff.mp missing)
  · rename_i site held
    have within := (Array.getElem?_eq_some_iff.mp held).1
    apply (w.add_ends Fault.isOverflow_overflow _ amount).bind
    rintro _ rfl
    apply (w.add_ends Fault.isOverflow_overflow _ amount).bind
    rintro _ rfl
    exact ⟨if_neg (Nat.not_le.mpr within), congrArg (Problem.mk · problem.lanes)
      (setIfInBounds_eq_modify held fun site => ⟨site.supply + amount, site.excess + amount⟩)⟩

theorem Sound.supplied (sound : problem.Sound) : (problem.supplied node amount).Sound where
  ends k lane held := by
    have ends := sound.ends k lane held
    simpa [Problem.supplied] using ends
  bounded := sound.bounded
  excess k site held := by
    change (problem.sites.modify node _)[k]? = some site at held
    change site.excess = site.supply - problem.outflow problem.lowers k
    rw [Array.getElem?_modify] at held
    split at held
    · obtain ⟨before, found, rfl⟩ := Option.map_eq_some_iff.mp held
      have kept := sound.excess k before found
      rw [kept]
      ring
    · exact sound.excess k site held

theorem Sound.provide (sound : problem.Sound)
    (provided : problem.provide w node amount = .ok (.ok next)) : next.Sound := by
  obtain ⟨-, rfl⟩ := (provide_ends w problem node amount).of_ok provided
  exact sound.supplied

theorem consume_ends (w : Width) (problem : Problem) (node : Nat) (amount : Int) :
    Checked.Ends (problem.consume w node amount) Fault.IsOverflow
      (Answered (siteRefusal? problem.sites.size node) (· = problem.supplied node (-amount))) := by
  apply (w.neg_ends Fault.isOverflow_overflow amount).bind
  rintro _ rfl
  exact provide_ends w problem node (-amount)

theorem Sound.consume (sound : problem.Sound)
    (consumed : problem.consume w node amount = .ok (.ok next)) : next.Sound := by
  obtain ⟨-, rfl⟩ := (consume_ends w problem node amount).of_ok consumed
  exact sound.supplied

theorem laneRefusal?_eq_none_iff : problem.laneRefusal? tail head lower upper = none ↔
    tail < problem.sites.size ∧ head < problem.sites.size ∧ 0 ≤ lower ∧ lower ≤ upper := by
  unfold laneRefusal?
  split_ifs <;> simp <;> omega

/-- The problem with one more lane, its lower bound routed. -/
def joined (problem : Problem) (tail head : Nat) (lower upper cost : Int) : Problem :=
  ⟨problem.sites.mapIdx fun node site =>
      { site with excess := site.excess - turn tail head node * lower },
    problem.lanes.push ⟨tail, head, lower, upper - lower, 0, cost⟩⟩

private theorem adjust_ends {sites : Array Site} {change : Int → Checked Int} {shift : Int}
    (held : sites[node]? = some site)
    (changed : Checked.Ends (change site.excess) Fault.IsOverflow (· = site.excess + shift)) :
    Checked.Ends (adjust sites node change) Fault.IsOverflow
      (· = sites.modify node fun site => { site with excess := site.excess + shift }) := by
  apply Checked.ends_bind_of_ok (fetch_of_getElem? held)
  refine changed.bind ?_
  rintro _ rfl
  exact setIfInBounds_eq_modify held fun site => { site with excess := site.excess + shift }

/-- A lane is refused for a reason, or it is joined to the others. -/
theorem insertLane_ends (w : Width) (problem : Problem) (tail head : Nat)
    (lower upper cost : Int) :
    Checked.Ends (problem.insertLane w tail head lower upper cost) Fault.IsOverflow
      (Answered (problem.laneRefusal? tail head lower upper)
        (· = (problem.lanes.size, problem.joined tail head lower upper cost))) := by
  unfold insertLane
  split
  · rename_i refusal refused
    exact refused
  · rename_i accepted
    have legal := laneRefusal?_eq_none_iff.mp accepted
    have headWithin := legal.2.1
    apply (w.sub_ends Fault.isOverflow_overflow upper lower).bind
    rintro _ rfl
    refine (adjust_ends (Array.getElem?_eq_getElem legal.1)
      (w.sub_ends Fault.isOverflow_overflow _ lower)).bind ?_
    rintro _ rfl
    refine (adjust_ends (Array.getElem?_eq_getElem (by simpa using headWithin))
      (w.add_ends Fault.isOverflow_overflow _ lower)).bind ?_
    rintro _ rfl
    refine ⟨accepted, congrArg (problem.lanes.size, Problem.mk · _) ?_⟩
    apply Array.ext_getElem?
    intro k
    rw [Array.getElem?_modify, Array.getElem?_modify, Array.getElem?_mapIdx]
    unfold turn
    split_ifs <;> cases problem.sites[k]? <;> simp
    omega

theorem Sound.joined (sound : problem.Sound) (tailWithin : tail < problem.sites.size)
    (headWithin : head < problem.sites.size) (nonneg : 0 ≤ lower) (order : lower ≤ upper) :
    (problem.joined tail head lower upper cost).Sound where
  ends k lane held := by
    simp only [Problem.joined, Array.getElem?_push, Array.size_mapIdx] at held ⊢
    split at held
    · cases held
      exact ⟨tailWithin, headWithin⟩
    · exact sound.ends k lane held
  bounded k lane held := by
    simp only [Problem.joined, Array.getElem?_push] at held
    split at held
    · cases held
      dsimp only
      omega
    · exact sound.bounded k lane held
  excess node site held := by
    simp only [Problem.joined, Array.getElem?_mapIdx] at held
    obtain ⟨before, found, rfl⟩ := Option.map_eq_some_iff.mp held
    have kept := sound.excess node before found
    rw [outflow_lowers] at kept ⊢
    simp only [Problem.joined, Array.toList_push, List.map_append, List.map_cons, List.map_nil,
      List.sum_append, List.sum_cons, List.sum_nil]
    omega

theorem Sound.insertLane {number : Nat} (sound : problem.Sound)
    (inserted : problem.insertLane w tail head lower upper cost = .ok (.ok (number, next))) :
    next.Sound := by
  obtain ⟨accepted, same⟩ :=
    (insertLane_ends w problem tail head lower upper cost).of_ok inserted
  cases same
  obtain ⟨tailWithin, headWithin, nonneg, order⟩ := laneRefusal?_eq_none_iff.mp accepted
  exact sound.joined tailWithin headWithin nonneg order

end Problem

end Transshipment
