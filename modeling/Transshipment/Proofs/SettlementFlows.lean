import Transshipment.Proofs.RoutingOptimality
import Transshipment.Proofs.SettlementNetwork

/-! Flows survive the translation in both directions. What a network flow adds to
the lower bounds solves the problem exactly if it brings the whole demand, because
then no feed has room left; and a solution less the lower bounds, with all feeds
full, is a flow that brings the demand. Both cost the same but for the lower
bounds, so the cheapest flow is read back as a cheapest solution. -/
namespace Transshipment.Problem

variable {problem : Problem} {net : Network} {order : Order} {flow other : Assignment}
  {lane : Lane} {link : Link} {k i node : Nat}

private theorem excessAt_of_site {site : Site} (held : problem.sites[node]? = some site) :
    excessAt problem.sites.toList 0 node = site.excess := by
  simp [excessAt, held]

private theorem excessAt_of_beyond (beyond : problem.sites.size ≤ node) :
    excessAt problem.sites.toList 0 node = 0 := by
  simp [excessAt, Array.getElem?_eq_none beyond]

/-- A flow beyond the lower bounds solves the problem if it respects the spans and
meets the excesses. -/
theorem Sound.solvedBy_add_iff (sound : problem.Sound) :
    problem.SolvedBy (fun k => problem.lowers k + flow k) ↔
      (∀ (k : Nat) lane, problem.lanes[k]? = some lane → 0 ≤ flow k ∧ flow k ≤ lane.span) ∧
        ∀ (node : Nat) site, problem.sites[node]? = some site →
          problem.outflow flow node = site.excess := by
  refine and_congr (forall₃_congr fun k lane held => ?_) (forall₃_congr fun node site held => ?_)
  · dsimp only
    rw [lowers_of_lane held]
    omega
  · rw [sound.excess node site held, outflow_add]
    omega

theorem SolvedBy.congr (solved : problem.SolvedBy other)
    (same : ∀ (k : Nat) lane, problem.lanes[k]? = some lane → flow k = other k) :
    problem.SolvedBy flow := by
  refine ⟨fun k lane held => ?_, fun node site held => ?_⟩
  · rw [same k lane held]
    exact solved.1 k lane held
  · rw [outflow_congr same]
    exact solved.2 node site held

/-- No site link has room left. -/
def Fills (problem : Problem) (flow : Assignment) : Prop :=
  ∀ (i : Nat) link, problem.siteLinks[i]? = some link →
    flow (problem.lanes.size + i) = link.free

namespace Translates

theorem link_of_lane (translates : problem.Translates net order)
    (held : problem.lanes[k]? = some lane) : net.links[k]? = some lane.link := by
  obtain ⟨within, -⟩ := Array.getElem?_eq_some_iff.mp held
  rw [← Array.getElem?_toList, translates.links, List.getElem?_append_left (by simpa using within),
    List.getElem?_map, Array.getElem?_toList, held, Option.map_some]

private theorem link_of_site (translates : problem.Translates net order)
    (held : problem.siteLinks[i]? = some link) :
    net.links[problem.lanes.size + i]? = some link := by
  rw [← Array.getElem?_toList, translates.links, List.getElem?_append_right (by simp)]
  simpa using held

/-- A link stands for a lane or joins a site. -/
theorem link_cases (translates : problem.Translates net order)
    (held : net.links[k]? = some link) :
    (∃ lane, problem.lanes[k]? = some lane ∧ link = lane.link) ∨
      ∃ i, k = problem.lanes.size + i ∧ problem.siteLinks[i]? = some link := by
  rw [← Array.getElem?_toList, translates.links] at held
  rcases Nat.lt_or_ge k problem.lanes.size with within | beyond
  · rw [List.getElem?_append_left (by simpa using within), List.getElem?_map,
      Array.getElem?_toList] at held
    obtain ⟨lane, found, rfl⟩ := Option.map_eq_some_iff.mp held
    exact .inl ⟨lane, found, rfl⟩
  · rw [List.getElem?_append_right (by simpa using beyond)] at held
    exact .inr ⟨k - problem.lanes.size, by omega, by simpa using held⟩

theorem siteLink_ends (member : link ∈ problem.siteLinks) :
    link.cost = 0 ∧ link.used = 0 ∧
      (link.tail = problem.sites.size ∧ link.head < problem.sites.size ∨
        link.tail < problem.sites.size ∧ link.head = problem.sites.size + 1) := by
  simpa using feeds_ends problem.sites.toList 0 (by simp) (by simp) link member

/-- The network starts out without flow. -/
theorem carried_eq_zero (translates : problem.Translates net order) :
    net.carried = fun _ => 0 := by
  funext k
  cases held : net.links[k]? with
  | none => simp [Network.carried, held]
  | some link =>
    rw [Network.carried_of_link held]
    obtain ⟨lane, -, rfl⟩ | ⟨i, -, found⟩ := translates.link_cases held
    · rfl
    · exact (siteLink_ends (List.mem_of_getElem? found)).2.1

private theorem outflow_eq (translates : problem.Translates net order) (flow : Assignment)
    (node : Nat) : net.outflow flow node = problem.outflow flow node +
      weighed (fun link : Link => turn link.tail link.head node) flow problem.siteLinks
        problem.lanes.size := by
  rw [Network.outflow_eq_weighed, translates.links, weighed_append, weighed_map,
    outflow_eq_weighed]
  simp only [zero_add, List.length_map, Array.length_toList]
  rfl

private theorem price_eq (translates : problem.Translates net order) (flow : Assignment) :
    net.price flow = problem.price flow := by
  rw [Network.price_eq_weighed, translates.links, weighed_append, weighed_map, price_eq_weighed]
  have free : ∀ start, weighed Link.cost flow problem.siteLinks start = 0 := by
    intro start
    refine weighed_eq_zero fun i link held => ?_
    rw [(siteLink_ends (List.mem_of_getElem? held)).1, zero_mul]
  rw [free, add_zero]
  rfl

/-- Where the feeds are full, every site has got its excess from them. -/
theorem outflow_of_fills (translates : problem.Translates net order) (fills : problem.Fills flow)
    (node : Nat) : net.outflow flow node = problem.outflow flow node +
      ((if problem.sites.size = node then offered problem.sites.toList else 0) -
        (if problem.sites.size + 1 = node then lacking problem.sites.toList else 0) -
          excessAt problem.sites.toList 0 node) := by
  rw [translates.outflow_eq, weighed_eq_sum Link.free fills, siteLinks, sum_feeds]

theorem carries_iff (translates : problem.Translates net order) :
    net.Admits flow ↔
      (∀ (k : Nat) lane, problem.lanes[k]? = some lane → 0 ≤ flow k ∧ flow k ≤ lane.span) ∧
        ∀ (i : Nat) link, problem.siteLinks[i]? = some link →
          0 ≤ flow (problem.lanes.size + i) ∧ flow (problem.lanes.size + i) ≤ link.free := by
  constructor
  · intro admits
    refine ⟨fun k lane held => ?_, fun i link held => ?_⟩
    · simpa [Lane.link] using admits k lane.link (translates.link_of_lane held)
    · have limits := admits _ link (translates.link_of_site held)
      rwa [(siteLink_ends (List.mem_of_getElem? held)).2.1, add_zero] at limits
  · rintro ⟨lanes, sites⟩ k link held
    obtain ⟨lane, found, rfl⟩ | ⟨i, rfl, found⟩ := translates.link_cases held
    · simpa [Lane.link] using lanes k lane found
    · rw [(siteLink_ends (List.mem_of_getElem? found)).2.1, add_zero]
      exact sites i link found

/-- Every site link counts once towards what the source sends and the sink takes. -/
theorem turn_siteLink (member : link ∈ problem.siteLinks) :
    turn link.tail link.head problem.sites.size -
      turn link.tail link.head (problem.sites.size + 1) = 1 := by
  obtain ⟨-, -, ⟨tail, head⟩ | ⟨tail, head⟩⟩ := siteLink_ends member
  · rw [tail]
    unfold turn
    split_ifs <;> omega
  · rw [head]
    unfold turn
    split_ifs <;> omega

/-- What leaves the source and enters the sink counts every site link once. -/
theorem weighed_siteLinks (translates : problem.Translates net order) (sound : problem.Sound)
    (flow : Assignment) :
    weighed (fun _ => 1) flow problem.siteLinks problem.lanes.size =
      net.outflow flow problem.sites.size - net.outflow flow (problem.sites.size + 1) := by
  rw [translates.outflow_eq, translates.outflow_eq, sound.outflow_eq_zero (Nat.le_refl _),
    sound.outflow_eq_zero (Nat.le_succ _), zero_add, zero_add, eq_sub_iff_add_eq,
    ← weighed_add_weight]
  refine weighed_congr fun i link held => ?_
  have once := turn_siteLink (List.mem_of_getElem? held)
  rw [show turn link.tail link.head problem.sites.size =
    1 + turn link.tail link.head (problem.sites.size + 1) by omega]

private theorem brings_iff (translates : problem.Translates net order) :
    net.Brings net.carried flow order.source order.sink order.demand ↔
      ∀ node, net.outflow flow node =
        (if problem.sites.size = node then offered problem.sites.toList else 0) -
          (if problem.sites.size + 1 = node then offered problem.sites.toList else 0) := by
  refine forall_congr' fun node => ?_
  have still : net.outflow net.carried node = 0 := by
    rw [translates.carried_eq_zero, Network.outflow_eq_weighed, weighed_zero]
  rw [still, translates.order, zero_add]
  simp only [@eq_comm _ node]

/-- A flow that brings the whole demand leaves no feed any room. -/
theorem fills_of_brings (translates : problem.Translates net order) (sound : problem.Sound)
    (balanced : (problem.sites.toList.map Site.supply).sum = 0) (admits : net.Admits flow)
    (brings : net.Brings net.carried flow order.source order.sink order.demand) :
    problem.Fills flow := by
  have limits := (translates.carries_iff.mp admits).2
  have brought := translates.brings_iff.mp brings
  let full : Assignment := fun k => (net.links[k]?.map Link.free).getD 0
  have fills : problem.Fills full := by
    intro i link held
    simp [full, translates.link_of_site held]
  have spare : weighed (fun _ => 1) (fun k => full k - flow k) problem.siteLinks
      problem.lanes.size = 0 := by
    have atSource := translates.outflow_of_fills fills problem.sites.size
    have atSink := translates.outflow_of_fills fills (problem.sites.size + 1)
    have sent := brought problem.sites.size
    have taken := brought (problem.sites.size + 1)
    have equal := sound.offered_eq_lacking balanced
    rw [sound.outflow_eq_zero (by omega), excessAt_of_beyond (by omega)] at atSource atSink
    rw [weighed_sub, translates.weighed_siteLinks sound, translates.weighed_siteLinks sound,
      atSource, atSink, sent, taken]
    simp only [if_true, if_neg (Nat.succ_ne_self _), if_neg (Nat.succ_ne_self _).symm]
    omega
  intro i link held
  have none := eq_zero_of_weighed_eq_zero (fun i link held => ?_) spare i link held
  · rw [one_mul, fills i link held] at none
    omega
  · have room := limits i link held
    rw [one_mul, fills i link held]
    omega

/-- A flow brings the whole demand exactly if the feeds are full and the lanes pass
on what every site got from them. -/
theorem brings_iff_fills (translates : problem.Translates net order) (sound : problem.Sound)
    (balanced : (problem.sites.toList.map Site.supply).sum = 0) (admits : net.Admits flow) :
    net.Brings net.carried flow order.source order.sink order.demand ↔
      problem.Fills flow ∧ ∀ (node : Nat) site, problem.sites[node]? = some site →
        problem.outflow flow node = site.excess := by
  constructor
  · intro brings
    have fills := translates.fills_of_brings sound balanced admits brings
    refine ⟨fills, fun node site held => ?_⟩
    obtain ⟨within, -⟩ := Array.getElem?_eq_some_iff.mp held
    have brought := translates.brings_iff.mp brings node
    rw [translates.outflow_of_fills fills, excessAt_of_site held, if_neg (by omega),
      if_neg (by omega)] at brought
    omega
  · rintro ⟨fills, meets⟩
    rw [translates.brings_iff]
    intro node
    rw [translates.outflow_of_fills fills, sound.offered_eq_lacking balanced]
    rcases Nat.lt_or_ge node problem.sites.size with within | beyond
    · have held := Array.getElem?_eq_getElem within
      rw [excessAt_of_site held, meets node _ held]
      omega
    · rw [sound.outflow_eq_zero beyond, excessAt_of_beyond beyond]
      omega

/-- What a network flow makes of the lanes solves the problem if it brings the
whole demand. -/
theorem solvedBy_of_brings (translates : problem.Translates net order) (sound : problem.Sound)
    (balanced : (problem.sites.toList.map Site.supply).sum = 0) (admits : net.Admits flow)
    (brings : net.Brings net.carried flow order.source order.sink order.demand) :
    problem.SolvedBy (fun k => problem.lowers k + flow k) :=
  sound.solvedBy_add_iff.mpr ⟨(translates.carries_iff.mp admits).1,
    ((translates.brings_iff_fills sound balanced admits).mp brings).2⟩

end Translates

/-- A solution as a network flow: what it adds to the lower bounds, and full
feeds. -/
def lift (problem : Problem) (flow : Assignment) : Assignment := fun k =>
  if k < problem.lanes.size then flow k - problem.lowers k
  else (problem.siteLinks[k - problem.lanes.size]?.map Link.free).getD 0

private theorem lift_of_lane (held : problem.lanes[k]? = some lane) :
    problem.lift flow k = flow k - problem.lowers k :=
  if_pos (Array.getElem?_eq_some_iff.mp held).1

private theorem fills_lift (problem : Problem) (flow : Assignment) :
    problem.Fills (problem.lift flow) := by
  intro i link held
  simp [lift, held]

private theorem outflow_lift : problem.outflow (problem.lift flow) node =
    problem.outflow flow node - problem.outflow problem.lowers node := by
  rw [← outflow_sub]
  exact outflow_congr fun k lane held => lift_of_lane held

private theorem price_lift : problem.price (problem.lift flow) =
    problem.price flow - problem.price problem.lowers := by
  rw [← price_sub]
  exact price_congr fun k lane held => lift_of_lane held

namespace Translates

private theorem admits_lift (translates : problem.Translates net order)
    (solved : problem.SolvedBy flow) :
    net.Admits (problem.lift flow) := by
  refine translates.carries_iff.mpr ⟨fun k lane held => ?_, fun i link held => ?_⟩
  · have bounds := solved.1 k lane held
    rw [lift_of_lane held, lowers_of_lane held]
    omega
  · rw [fills_lift problem flow i link held]
    have room := translates.sound.bounded _ link (translates.link_of_site held)
    exact ⟨room.1, Int.le_refl _⟩

/-- A solution brings the whole demand through the network. -/
theorem brings_lift (translates : problem.Translates net order) (sound : problem.Sound)
    (balanced : (problem.sites.toList.map Site.supply).sum = 0)
    (solved : problem.SolvedBy flow) :
    net.Brings net.carried (problem.lift flow) order.source order.sink order.demand := by
  refine (translates.brings_iff_fills sound balanced (translates.admits_lift solved)).mpr
    ⟨fills_lift problem flow, fun node site held => ?_⟩
  rw [outflow_lift, solved.2 node site held, sound.excess node site held]

/-- The problem has a solution exactly if the network can carry the whole demand. -/
theorem solvable_iff (translates : problem.Translates net order) (sound : problem.Sound)
    (balanced : (problem.sites.toList.map Site.supply).sum = 0) :
    (∃ flow, problem.SolvedBy flow) ↔ net.Sendable order.source order.sink order.demand := by
  constructor
  · rintro ⟨flow, solved⟩
    exact ⟨_, translates.admits_lift solved, translates.brings_lift sound balanced solved⟩
  · rintro ⟨flow, admits, brings⟩
    exact ⟨_, translates.solvedBy_of_brings sound balanced admits brings⟩

/-- The cheapest flow for the whole demand is read back as a cheapest solution. -/
theorem solvedBy_of_cheapest (translates : problem.Translates net order) (sound : problem.Sound)
    (balanced : (problem.sites.toList.map Site.supply).sum = 0)
    (cheapest : net.Cheapest flow order.source order.sink order.demand) :
    problem.SolvedBy (fun k => problem.lowers k + flow k) ∧
      ∀ other, problem.SolvedBy other →
        problem.price (fun k => problem.lowers k + flow k) ≤ problem.price other := by
  obtain ⟨admits, brings, least⟩ := cheapest
  refine ⟨translates.solvedBy_of_brings sound balanced admits brings, fun other solved => ?_⟩
  have below := least _ (translates.admits_lift solved) (translates.brings_lift sound balanced solved)
  rw [translates.price_eq, translates.price_eq, price_lift] at below
  rw [price_add]
  omega

end Translates

end Transshipment.Problem
