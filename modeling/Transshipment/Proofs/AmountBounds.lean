import Transshipment.Proofs.FlowConservation
import Transshipment.Proofs.RoutingCertificates

/-! How large the amounts of a run become. Where no cycle pays, a node in reach of the source
has a potential that differs from that of the source by the cost of a simple walk, and no
node comes into reach that was not; the potential of any other node drifts by at most the
farthest distance in each round, and each round delivers a unit. So nothing overflows where
twice the demand fits, taken as often as there are nodes at the largest cost of an arc. -/
namespace Transshipment

private theorem Width.keeps_of_natAbs_le {w : Width} {breaks : Fault → Prop} {amount : Int}
    (below : amount.natAbs ≤ w.greatest) : w.Keeps breaks amount := by
  refine keeps_of_fits ⟨?_, by omega⟩
  unfold Width.greatest at below
  unfold Width.least
  omega

private theorem natAbs_mul_le {amount cost : Int} {most : Nat} (nonneg : 0 ≤ amount)
    (below : cost.natAbs ≤ most) : (amount * cost).natAbs ≤ amount * most := by
  rw [Int.natAbs_mul, Nat.cast_mul, Int.natAbs_of_nonneg nonneg]
  exact mul_le_mul_of_nonneg_left (Nat.cast_le.mpr below) nonneg

/-- What has room for the demand has room for any part of it. -/
private theorem room_of_le {amount demand greatest : Int} {most bound : Nat}
    (below : amount ≤ demand) (room : 2 * (demand * most) + 2 * (demand * bound) ≤ greatest) :
    2 * (amount * most) + 2 * (amount * bound) ≤ greatest := by
  have walks : amount * most ≤ demand * most :=
    mul_le_mul_of_nonneg_right below (Nat.cast_nonneg _)
  have arcs : amount * bound ≤ demand * bound :=
    mul_le_mul_of_nonneg_right below (Nat.cast_nonneg _)
  omega

namespace Network

variable {w : Width} {breaks : Fault → Prop} {net other : Network} {bound : Nat}
  {source sink node : Nat} {path : List Nat} {cost : Int} {potentials : Potentials}

/-- The most that a walk with fewer arcs than there are nodes can cost or refund if no arc
exceeds the bound. -/
def stretch (net : Network) (bound : Nat) : Nat := (net.nodes - 1) * bound

/-- A further arc makes it as many arcs as nodes. -/
theorem stretch_add_bound (within : node < net.nodes) :
    net.stretch bound + bound = net.nodes * bound := by
  rw [stretch, ← Nat.succ_mul, Nat.succ_eq_add_one, Nat.sub_add_cancel (by omega)]

private theorem Walk.natAbs_cost_le_stretch (costs : net.CostsWithin bound)
    (walk : net.Walk source path sink cost) (short : path.length < net.nodes) :
    cost.natAbs ≤ net.stretch bound :=
  Nat.le_trans (walk.natAbs_cost_le costs)
    (Nat.mul_le_mul_right bound (Nat.le_sub_one_of_lt short))

/-- Where no cycle pays, no walk refunds more than a simple one. -/
theorem Walk.stretch_le (sound : net.Sound) (acyclic : ∀ node, ¬ net.OnNegativeCycle node)
    (costs : net.CostsWithin bound) (within : sink < net.nodes)
    (walk : net.Walk source path sink cost) : -(net.stretch bound : Int) ≤ cost := by
  obtain ⟨direct, least, simple, cheaper⟩ := walk.exists_simple acyclic
  have limit := simple.1.natAbs_cost_le_stretch costs (simple.length_lt sound within)
  omega

/-- Before any shipment the potentials lie between what a simple walk may refund and zero. -/
theorem Started.bounds (started : net.Started (.ok potentials)) (sound : net.Sound)
    (acyclic : ∀ node, ¬ net.OnNegativeCycle node) (costs : net.CostsWithin bound)
    (within : node < net.nodes) :
    -(net.stretch bound : Int) ≤ potentials.getD node 0 ∧ potentials.getD node 0 ≤ 0 := by
  obtain ⟨-, walked, capped⟩ := started
  obtain ⟨source, path, walk⟩ := walked node within
  exact ⟨walk.stretch_le sound acyclic costs within, capped node⟩

/-- The search for them adds one arc to that. -/
theorem natAbs_tried_le (sound : net.Sound) (acyclic : ∀ node, ¬ net.OnNegativeCycle node)
    (costs : net.CostsWithin bound) {amount : Int} (tried : Relaxation.Tried net amount) :
    amount.natAbs ≤ net.stretch bound + bound := by
  obtain ⟨source, path, id, arc, cost, walk, capped, held, isOpen, rfl⟩ := tried
  have least := walk.stretch_le sound acyclic costs (sound.arc_ends held).1
  have step := costs id arc held
  omega

private theorem CostsWithin.of_unloaded (costs : net.CostsWithin bound)
    (same : net.unloaded = other.unloaded) : other.CostsWithin bound := by
  intro id arc held
  obtain ⟨twin, found, -, -, price⟩ := arc_of_unloaded same.symm held
  exact price ▸ costs id twin found

theorem Fitting.holds (fitting : net.Fitting w) : net.Holds w breaks := by
  intro k link held amount nonneg below
  obtain ⟨-, high⟩ := fitting k link held
  exact Width.keeps_of_natAbs_le (by omega)

end Network

namespace Progress

variable {w : Width} {order : Order} {origin : Network} {p next : Progress} {most bound : Nat}
  {source sink node : Nat} {path : List Nat} {tree : Tree} {distance cost : Int}
  {survey : Survey} {shipment : Shipment}

/-- No walk as short as a simple one costs or refunds more than this. -/
def Stretches (most : Nat) (p : Progress) : Prop :=
  ∀ source path sink cost, p.net.Walk source path sink cost → path.length < p.net.nodes →
    cost.natAbs ≤ most

private theorem Valid.stretches (valid : p.Valid order origin) (costs : origin.CostsWithin bound) :
    p.Stretches (origin.stretch bound) := by
  intro source path sink cost walk short
  have limit := walk.natAbs_cost_le_stretch (costs.of_unloaded valid.same.symm) short
  unfold Network.stretch at limit ⊢
  rwa [valid.nodes_eq] at limit

private theorem Stretches.simple (stretches : p.Stretches most) (sound : p.net.Sound)
    (within : sink < p.net.nodes) (simple : p.net.SimpleWalk source path sink cost) :
    cost.natAbs ≤ most :=
  stretches _ _ _ _ simple.1 (simple.length_lt sound within)

/-- How far the amounts of the state lie from zero. The nodes in reach stay close to the
source, and the others may drift away. -/
structure Steady (order : Order) (most : Nat) (p : Progress) : Prop where
  source : -(most : Int) ≤ p.potentials.getD order.source 0 ∧
    p.potentials.getD order.source 0 ≤ 0
  near : ∀ node < p.net.nodes, p.net.Connects order.source node →
    (p.potentials.getD node 0 - p.potentials.getD order.source 0).natAbs ≤ most
  spread : ∀ node < p.net.nodes, -(2 * most : Int) ≤ p.potentials.getD node 0 ∧
    p.potentials.getD node 0 ≤ p.shipments * (2 * most)
  paid : p.cost.natAbs ≤ p.delivered * most

private theorem Steady.start {net : Network} {potentials : Potentials}
    (started : net.Started (.ok potentials)) (sound : net.Sound)
    (acyclic : ∀ node, ¬ net.OnNegativeCycle node) (costs : net.CostsWithin bound)
    (within : order.source < net.nodes) :
    (Progress.start net potentials order.demand).Steady order (net.stretch bound) := by
  have fromSource := started.bounds sound acyclic costs within
  constructor
  case source => exact fromSource
  case near =>
    intro node inside _
    have limits := started.bounds sound acyclic costs inside
    dsimp only [Progress.start]
    omega
  case spread =>
    intro node inside
    have limits := started.bounds sound acyclic costs inside
    dsimp only [Progress.start]
    omega
  case paid => simp [Progress.start]

/-- A node in reach is raised to what a simple walk to it costs beyond the source. -/
theorem Stretches.settled_near (stretches : p.Stretches most) (sound : p.net.Sound)
    (spans : tree.Spans p.net p.potentials order.source)
    (settled : tree.distance? node = some distance) :
    (p.potentials.getD node 0 + distance - p.potentials.getD order.source 0).natAbs ≤ most := by
  obtain ⟨path, -, simple, -⟩ := spans.trail node distance settled
  have within : node < p.net.nodes := spans.size ▸ Tree.lt_size_of_distance? settled
  have limit := stretches.simple sound within simple
  omega

private theorem Steady.farthest_le (steady : p.Steady order most) (stretches : p.Stretches most)
    (sound : p.net.Sound) (spans : tree.Spans p.net p.potentials order.source) :
    tree.farthest ≤ 2 * most := by
  refine Tree.farthest_le (by omega) fun node distance settled => ?_
  have within : node < p.net.nodes := spans.size ▸ Tree.lt_size_of_distance? settled
  have connected := spans.isSome_distance?_iff.mp (Option.isSome_of_eq_some settled)
  have before := steady.near node within connected
  have after := stretches.settled_near sound spans settled
  omega

/-- A search lifts no potential by more than twice the stretch, and lets none sink below
where a node in reach may be. -/
theorem Steady.spread_raised (steady : p.Steady order most) (stretches : p.Stretches most)
    (sound : p.net.Sound) (spans : tree.Spans p.net p.potentials order.source)
    (within : node < p.net.nodes) :
    -(2 * most : Int) ≤ p.potentials.getD node 0 + tree.rise node ∧
      p.potentials.getD node 0 + tree.rise node ≤ (p.shipments + 1) * (2 * most) := by
  have drift : (0 : Int) ≤ p.shipments * (2 * most) := by positivity
  have fromSource := steady.source
  rw [add_mul, one_mul]
  unfold Tree.rise
  cases settled : tree.distance? node with
  | none =>
    have before := steady.spread node within
    have least := tree.farthest_nonneg
    have greatest := steady.farthest_le stretches sound spans
    rw [Option.getD_none]
    omega
  | some distance =>
    have after := stretches.settled_near sound spans settled
    rw [Option.getD_some]
    omega

/-- One round keeps the amounts within their limits. What is in reach after it was in reach of
its search. -/
theorem Steady.advances (steady : p.Steady order most) (stretches : p.Stretches most)
    (valid : p.Valid order origin) (proper : order.Proper origin)
    (advances : p.Advances order survey shipment cost next) : next.Steady order most := by
  have spans := advances.surveyed.spans
  have nodes : next.net.nodes = p.net.nodes :=
    Network.nodes_eq_of_unloaded advances.conveyed.same
  have sourceWithin := (valid.proper proper).source
  have sinkWithin := (valid.proper proper).sink
  have rises : ∀ node < p.net.nodes, next.potentials.getD node 0 =
      p.potentials.getD node 0 + survey.tree.rise node := by
    intro node within
    rw [advances.potentials]
    exact advances.surveyed.rises node (valid.priced.1.symm ▸ within)
  have still : next.potentials.getD order.source 0 = p.potentials.getD order.source 0 := by
    rw [advances.potentials]
    exact advances.surveyed.source_eq (valid.priced.1.symm ▸ sourceWithin)
  constructor
  case source =>
    rw [still]
    exact steady.source
  case near =>
    intro node within connected
    rw [nodes] at within
    have before := advances.conveyed.connects advances.simple.1 connected
    obtain ⟨distance, settled⟩ :=
      Option.isSome_iff_exists.mp (spans.isSome_distance?_iff.mpr before)
    rw [still, rises node within, Tree.rise, settled]
    exact stretches.settled_near valid.sound spans settled
  case spread =>
    intro node within
    rw [nodes] at within
    rw [rises node within, advances.shipments, Nat.cast_succ]
    exact steady.spread_raised stretches valid.sound spans within
  case paid =>
    have limit := stretches.simple valid.sound sinkWithin advances.simple
    have share := natAbs_mul_le (Int.le_of_lt advances.positive) limit
    have before := steady.paid
    rw [advances.cost, advances.delivered, add_mul]
    omega

/-- The amounts lie within their limits before each search. -/
theorem Steady.searches {limit? : Option Nat} {last : Progress}
    (steady : p.Steady order (origin.stretch bound)) (valid : p.Valid order origin)
    (proper : order.Proper origin) (costs : origin.CostsWithin bound)
    (searches : p.Searches w order limit? last) :
    last.Steady order (origin.stretch bound) := by
  induction searches with
  | here continues => exact steady
  | later continues shipped _ ih =>
    obtain ⟨survey, shipment, cost, advances⟩ :=
      (advance_follows proper valid continues.1 (valid.secure w)).of_ok shipped
    exact ih (steady.advances (valid.stretches costs) valid proper advances)
      (valid.advances advances)

section Room

variable {breaks : Fault → Prop}

/-- Both ends of an arc that the search comes to are in reach, and close to the source. -/
theorem Steady.met {id : Nat} {arc : Arc} (steady : p.Steady order most)
    (stretches : p.Stretches most) (sound : p.net.Sound) (costs : p.net.CostsWithin bound)
    (met : Tree.Met p.net p.potentials order.source id arc distance) :
    (p.potentials.getD arc.tail 0 - p.potentials.getD order.source 0).natAbs ≤ most ∧
    (p.potentials.getD arc.head 0 - p.potentials.getD order.source 0).natAbs ≤ most ∧
    (p.potentials.getD arc.tail 0 + distance - p.potentials.getD order.source 0).natAbs ≤ most ∧
    arc.cost.natAbs ≤ bound := by
  obtain ⟨held, isOpen, path, simple⟩ := met
  have ends := sound.arc_ends held
  have connected : p.net.Connects order.source arc.tail := ⟨path, _, simple.1⟩
  have walked := stretches.simple sound ends.1 simple
  exact ⟨steady.near _ ends.1 connected, steady.near _ ends.2 (connected.step held isOpen),
    by omega, costs id arc held⟩

/-- The sums of a search stay within two stretches and an arc. -/
theorem Steady.foreseen (steady : p.Steady order most) (stretches : p.Stretches most)
    (valid : p.Valid order origin) (costs : p.net.CostsWithin bound)
    (room : (2 * most + bound : Int) ≤ w.greatest) :
    Tree.Foreseen w breaks p.net p.potentials order.source := by
  have source := steady.source
  constructor
  case raised =>
    intro id arc distance met
    obtain ⟨tail, -, -, cost⟩ := steady.met stretches valid.sound costs met
    exact Width.keeps_of_natAbs_le (by omega)
  case reduced =>
    intro id arc distance met
    obtain ⟨tail, head, -, cost⟩ := steady.met stretches valid.sound costs met
    unfold Network.exactReducedCost
    exact Width.keeps_of_natAbs_le (by omega)
  case reach =>
    intro id arc distance met
    obtain ⟨-, head, walk, cost⟩ := steady.met stretches valid.sound costs met
    unfold Network.exactReducedCost
    exact Width.keeps_of_natAbs_le (by omega)
  case negative =>
    intro id arc distance met negative
    have nonneg := valid.priced.2 id arc met.1 met.2.1
    omega

/-- The shares and totals of a shipment grow with its units. -/
theorem Stretches.fares {amount : Int} (stretches : p.Stretches most) (sound : p.net.Sound)
    (costs : p.net.CostsWithin bound) (within : sink < p.net.nodes)
    (simple : p.net.SimpleWalk source path sink cost) (nonneg : 0 ≤ amount)
    (walks : amount * most ≤ w.greatest) (arcs : amount * bound ≤ w.greatest) :
    p.net.Fares w breaks source path amount 0 where
  shares id _ arc held := by
    have share := natAbs_mul_le nonneg (costs id arc held)
    exact Width.keeps_of_natAbs_le (Int.le_trans share arcs)
  totals first rest node part split walk := by
    have short := simple.length_lt sound within
    rw [split, List.length_append] at short
    have total := natAbs_mul_le nonneg (stretches _ _ _ _ walk (by omega))
    rw [zero_add]
    exact Width.keeps_of_natAbs_le (Int.le_trans total walks)

/-- With the coming round there are no more shipments than units, so the potentials have
room. -/
theorem Steady.keeps_raised (steady : p.Steady order most) (stretches : p.Stretches most)
    (valid : p.Valid order origin) (owing : 0 < p.remaining)
    (spans : tree.Spans p.net p.potentials order.source) (within : node < p.net.nodes)
    (room : 2 * (order.demand * most) + 2 * (order.demand * bound) ≤ w.greatest) :
    w.Keeps breaks (p.potentials.getD node 0 + tree.rise node) := by
  have counted := valid.counted
  have paced := valid.paced
  have rounds := room_of_le (show (p.shipments + 1 : Int) ≤ order.demand by omega) room
  have once := room_of_le (show 1 ≤ order.demand by omega) room
  have arcs : (0 : Int) ≤ (p.shipments + 1) * bound := by positivity
  have limits := steady.spread_raised stretches valid.sound spans within
  rw [mul_left_comm] at limits
  exact Width.keeps_of_natAbs_le (by omega)

/-- All that was delivered costs no more than as many units on the dearest of simple walks. -/
theorem Steady.keeps_booked {amount : Int} (steady : p.Steady order most)
    (stretches : p.Stretches most) (valid : p.Valid order origin)
    (within : order.sink < p.net.nodes)
    (simple : p.net.SimpleWalk order.source path order.sink cost) (wanted : 0 < amount)
    (below : amount ≤ p.remaining)
    (room : 2 * (order.demand * most) + 2 * (order.demand * bound) ≤ w.greatest) :
    w.Keeps breaks (p.cost + amount * cost) := by
  have counted := valid.counted
  have paced := valid.paced
  have share := natAbs_mul_le (Int.le_of_lt wanted) (stretches.simple valid.sound within simple)
  have before := steady.paid
  have units : 0 ≤ p.delivered + amount := by omega
  have arcs : 0 ≤ (p.delivered + amount) * bound := by positivity
  have part := room_of_le (show p.delivered + amount ≤ order.demand by omega) room
  rw [add_mul p.delivered amount (most : Int)] at part
  exact Width.keeps_of_natAbs_le (by omega)

/-- What a round computes has room where the demand has, at two stretches and two arcs. -/
theorem Steady.secure (steady : p.Steady order most) (stretches : p.Stretches most)
    (valid : p.Valid order origin) (proper : order.Proper origin) (owing : 0 < p.remaining)
    (fitting : p.net.Fitting w) (costs : p.net.CostsWithin bound)
    (fits : w.Fits order.demand)
    (room : 2 * (order.demand * most) + 2 * (order.demand * bound) ≤ w.greatest) :
    p.Secure w breaks order := by
  have counted := valid.counted
  have paced := valid.paced
  have demanded := fits.2
  have once := room_of_le proper.wanted room
  have sinkWithin := (valid.proper proper).sink
  refine ⟨⟨?search, ?raise, fitting.holds, ?ship⟩, ?books⟩
  case search => exact steady.foreseen stretches valid costs (by omega)
  case raise =>
    intro tree spans node within
    rw [valid.priced.1] at within
    exact steady.keeps_raised stretches valid owing spans within room
  case ship =>
    intro path sink cost amount within simple wanted below
    have nonneg := Int.le_of_lt wanted
    have part := room_of_le (show amount ≤ order.demand by omega) room
    have walks : 0 ≤ amount * most := by positivity
    have arcs : 0 ≤ amount * bound := by positivity
    exact ⟨stretches.fares valid.sound costs within simple nonneg (by omega) (by omega),
      Width.keeps_of_natAbs_le (by omega)⟩
  case books =>
    intro path cost amount simple wanted below
    exact ⟨steady.keeps_booked stretches valid sinkWithin simple wanted below room,
      Width.keeps_of_natAbs_le (by omega)⟩

end Room

end Progress

namespace Router

variable {w : Width} {net : Network} {offers : List Offer} {router : Router} {order : Order}
  {bound : Nat} {p : Progress}

private theorem SearchesFrom.steady (searches : router.SearchesFrom w net order p)
    (sound : net.Sound) (proper : order.Proper net) (acyclic : ∀ node, ¬ net.OnNegativeCycle node)
    (costs : net.CostsWithin bound) : p.Steady order (net.stretch bound) := by
  obtain ⟨potentials, computed, searches⟩ := searches
  have started := (Network.startPotentials_ends w sound).of_ok computed
  have valid := Progress.Valid.of_startPotentials sound proper computed
  exact (Progress.Steady.start started sound acyclic costs proper.source).searches valid proper
    costs searches

/-- Where no cycle pays, a proper order cannot break off if twice the demand fits the width,
taken as often as there are nodes at the largest cost of an arc. -/
theorem route_never_overflows (made : Network.Made w net offers) (router : Router)
    (proper : order.Proper net) (fits : w.Fits order.demand)
    (acyclic : ∀ node, ¬ net.OnNegativeCycle node) (costs : net.CostsWithin bound)
    (room : 2 * order.demand * net.nodes * bound ≤ w.greatest) :
    ∃ run, (router.route w net order).result = .ok run := by
  have sound := made.sound
  have spacious := calc
    2 * (order.demand * net.stretch bound) + 2 * (order.demand * bound)
      = 2 * order.demand * ((net.stretch bound + bound : Nat) : Int) := by push_cast; ring
    _ = 2 * order.demand * net.nodes * bound := by
      rw [Network.stretch_add_bound proper.source, Nat.cast_mul, ← mul_assoc]
    _ ≤ w.greatest := room
  have single := room_of_le proper.wanted spacious
  have kept : ∀ amount, Relaxation.Tried net amount → w.Keeps (fun _ => False) amount := by
    intro amount tried
    have limit := Network.natAbs_tried_le sound acyclic costs tried
    exact Width.keeps_of_natAbs_le (by omega)
  have completes := route_completes_of_secure sound router proper kept fun p searches => by
    have valid := searches.valid sound proper
    exact (searches.steady sound proper acyclic costs).secure (valid.stretches costs) valid
      proper searches.owing (made.fitting.of_unloaded valid.same.symm)
      (costs.of_unloaded valid.same.symm) fits spacious
  cases ran : (router.route w net order).result with
  | error fault => exact (completes.of_error ran).elim
  | ok run => exact ⟨run, rfl⟩

theorem route_never_overflows_sideBySide :
    (∀ node, ¬ (Network.sideBySide 0 0).OnNegativeCycle node) ∧
      (Network.sideBySide 0 0).CostsWithin 3 ∧
      ∃ run, (({} : Router).route ⟨7⟩ (Network.sideBySide 0 0) ⟨0, 1, 2⟩).result = .ok run := by
  have computed : ((Network.sideBySide 0 0).startPotentials ⟨7⟩).result =
      .ok (.ok #[0, -1, 0]) := by with_unfolding_all rfl
  have started := (Network.startPotentials_ends ⟨7⟩ Network.sideBySide_made.sound).of_ok computed
  have acyclic := started.1.prices.no_negative_cycle
  have costs : (Network.sideBySide 0 0).CostsWithin 3 := Network.costsWithin_of_links (by decide)
  exact ⟨acyclic, costs, route_never_overflows Network.sideBySide_made {} (by decide) (by decide)
    acyclic costs (by decide)⟩

end Router

end Transshipment
