import Transshipment.Proofs.FlowConservation
import Transshipment.Proofs.SettlementRefusals
import Transshipment.Session

/-! What a refused request leaves behind. Requests that only add something look before they
write, so a refusal finds nothing written. A run clears the books and a settlement builds a
network before either can be refused, but no link of that network ever is, and nothing is
written back to the problem before the run was accepted. -/
namespace Transshipment

namespace InPlace

variable {σ τ α β : Type} {state : σ}

/-- An answer with a new state, or a refusal with the old one. -/
def spared (state : σ) : Except Refusal (α × σ) → σ × Except Refusal α
  | .error refusal => (state, .error refusal)
  | .ok (value, next) => (next, .ok value)

/-- What a computation comes to that does not refuse. -/
def granted (computation : Checked (σ × α)) : Traced (σ × Except Refusal α) :=
  ⟨[], (fun (left, value) => (left, .ok value)) <$> computation⟩

theorem read_bind (next : σ → InPlace σ β) : (read >>= next) state = next state state := rfl

theorem write_bind (change : σ → σ) (next : Unit → InPlace σ β) :
    (write change >>= next) state = next () (change state) := rfl

theorem refuseIf_bind (condition : Prop) [Decidable condition] (refusal : Refusal)
    (next : Unit → InPlace σ β) : (refuseIf condition refusal >>= next) state =
      if condition then ⟨[], .ok (state, .error refusal)⟩ else next () state := by
  unfold refuseIf
  split <;> rfl

theorem checked_bind (checked : Checked α) (next : α → InPlace σ β) :
    ((liftM checked : InPlace σ α) >>= next) state =
      match checked with
      | .ok value => next value state
      | .error fault => ⟨[], .error fault⟩ := by
  cases checked <;> rfl

theorem traced_bind (traced : Traced α) (next : α → InPlace σ β) :
    ((liftM traced : InPlace σ α) >>= next) state = traced >>= fun value => next value state := by
  change ((traced >>= fun value => pure (state, Except.ok value)) >>= fun made : _ × _ => _) = _
  rw [bind_assoc]
  rfl

theorem apart_bind {start : τ} {request : InPlace τ α} {computation : Checked (τ × α)}
    (grants : request start = granted computation) (next : τ × α → InPlace σ β) :
    (apart start request >>= next) state =
      (liftM computation : Traced (τ × α)) >>= fun made => next made state := by
  change InPlace.bind (apart start request) next state = _
  unfold InPlace.bind apart
  rw [grants]
  cases computation <;> rfl

/-- Where a request is granted, the rest goes on from what it left. -/
theorem bind_granted {first : InPlace σ α} {next : α → InPlace σ β}
    {computation : Checked (σ × α)} {rest : σ × α → Checked (σ × β)}
    (grants : first state = granted computation)
    (further : ∀ left value, computation = .ok (left, value) →
      next value left = granted (rest (left, value))) :
    (first >>= next) state = granted (computation >>= rest) := by
  change InPlace.bind first next state = _
  unfold InPlace.bind
  rw [grants]
  cases computation with
  | error fault => rfl
  | ok made => exact further made.1 made.2 rfl

/-- The same where the answer does not depend on what the request did. -/
theorem bind_granted_const {first : InPlace σ α} {next : α → InPlace σ β} {value : α}
    {computation : Checked σ} {rest : σ → Checked (σ × β)}
    (grants : first state = granted ((·, value) <$> computation))
    (further : ∀ left, computation = .ok left → next value left = granted (rest left)) :
    (first >>= next) state = granted (computation >>= rest) := by
  rw [← bind_map_left (·, value) computation fun made => rest made.1]
  refine bind_granted grants fun left answer made => ?_
  obtain ⟨other, ran, same⟩ := Checked.map_eq_ok_iff.mp made
  cases same
  exact further left ran

private theorem checked_granted {checked : Checked α} {next : α → InPlace σ β}
    {rest : α → Checked (σ × β)}
    (further : ∀ value, checked = .ok value → next value state = granted (rest value)) :
    ((liftM checked : InPlace σ α) >>= next) state = granted (checked >>= rest) := by
  cases checked with
  | error fault => rfl
  | ok value => exact further value rfl

/-- What spares a part spares the whole. -/
theorem onPart_spared {part : τ → σ} {put : σ → τ → τ} {request : InPlace σ α} {whole : τ}
    {computation : Checked (Except Refusal (α × σ))}
    (same : request (part whole) = ⟨[], spared (part whole) <$> computation⟩)
    (still : put (part whole) whole = whole) :
    onPart part put request whole = ⟨[], spared whole <$>
      (·.map fun (value, next) => (value, put next whole)) <$> computation⟩ := by
  unfold onPart
  rw [same]
  rcases computation with fault | (refusal | made)
  · rfl
  · change (⟨[], .ok (put (part whole) whole, .error refusal)⟩ : Traced (τ × Except Refusal α)) = _
    rw [still]
    rfl
  · rfl

private theorem answered_map_iff {computation : Checked (Except Refusal α)} {f : α → β}
    {result : β} : (·.map f) <$> computation = .ok (.ok result) ↔
      ∃ value, computation = .ok (.ok value) ∧ f value = result := by
  rcases computation with fault | (refusal | value) <;> simp [Functor.map, Except.map]

/-- What spares the state leaves it as it was, unless it accepts and hands on another. -/
theorem spared_cases {computation : Checked (Except Refusal (α × σ))} {next : σ}
    {answer : Except Refusal α} (done : spared state <$> computation = .ok (next, answer)) :
    (next = state ∧ ∃ refusal, answer = .error refusal) ∨
      ∃ value, answer = .ok value ∧ computation = .ok (.ok (value, next)) := by
  obtain ⟨reply, ran, same⟩ := Checked.map_eq_ok_iff.mp done
  cases reply <;> cases same
  · exact .inl ⟨rfl, _, rfl⟩
  · exact .inr ⟨_, rfl, ran⟩

/-- The same for a request that has nothing to answer but its success. -/
theorem spared_unit_cases {computation : Checked (Except Refusal σ)} {next : σ}
    {answer : Except Refusal Unit}
    (done : spared state <$> (·.map ((), ·)) <$> computation = .ok (next, answer)) :
    (next = state ∧ ∃ refusal, answer = .error refusal) ∨
      answer = .ok () ∧ computation = .ok (.ok next) := by
  obtain refused | ⟨reply, rfl, granted⟩ := spared_cases done
  · exact .inl refused
  · obtain ⟨last, computed, same⟩ := answered_map_iff.mp granted
    cases same
    exact .inr ⟨rfl, computed⟩

private theorem eq_of_spared {computation : Checked (Except Refusal (α × σ))} {next : σ}
    {refusal : Refusal} (refused : spared state <$> computation = .ok (next, .error refusal)) :
    next = state := by
  obtain ⟨same, -⟩ | ⟨value, accepted, -⟩ := spared_cases refused
  · exact same
  · cases accepted

end InPlace

open InPlace

namespace Network

variable {w : Width} {net : Network} {offer : Offer} {α : Type}

/-- A link added in place is a link inserted. -/
theorem addLink_eq (w : Width) (offer : Offer) (net : Network) :
    addLink w offer net = ⟨[], spared net <$>
      net.insertLink w offer.tail offer.head offer.capacity offer.cost⟩ := by
  unfold addLink insertLink linkRefusal? attach
  simp only [read_bind, refuseIf_bind, checked_bind, write_bind]
  split_ifs
  · rfl
  · rfl
  · rfl
  · cases w.neg offer.cost <;> rfl

/-- A legal link is granted, and the rest goes on with as many nodes. -/
theorem addLink_granted {next : Nat → InPlace Network α} {rest : Network → Checked (Network × α)}
    (legal : offer.tail < net.nodes ∧ offer.head < net.nodes ∧ 0 ≤ offer.capacity)
    (further : ∀ joined, joined.nodes = net.nodes → next net.arcs joined = granted (rest joined)) :
    (addLink w offer >>= next) net = granted
      (net.attach w offer.tail offer.head offer.capacity offer.cost >>= rest) := by
  have grants : addLink w offer net = granted ((·, net.arcs) <$>
      net.attach w offer.tail offer.head offer.capacity offer.cost) := by
    rw [addLink_eq, insertLink, linkRefusal?_eq_none_iff.mpr legal]
    cases net.attach w offer.tail offer.head offer.capacity offer.cost <;> rfl
  refine bind_granted_const grants fun joined attached => further joined ?_
  rw [(attach_ends w net offer.tail offer.head offer.capacity offer.cost).of_ok attached,
    nodes_attached]

end Network

namespace Problem

variable {w : Width} {problem : Problem} {source sink node : Nat} {demand : Int} {net : Network}

/-- A lane added in place is a lane inserted. -/
theorem addLane_eq (w : Width) (terms : LaneTerms) (problem : Problem) :
    addLane w terms problem = ⟨[], spared problem <$>
      problem.insertLane w terms.tail terms.head terms.lower terms.upper terms.cost⟩ := by
  unfold addLane insertLane laneRefusal?
  simp only [read_bind, refuseIf_bind, checked_bind, write_bind]
  split_ifs
  · rfl
  · rfl
  · rfl
  · rfl
  · cases w.sub terms.upper terms.lower with
    | error fault => rfl
    | ok span =>
      dsimp only
      cases adjust problem.sites terms.tail (w.sub · terms.lower) with
      | error fault => rfl
      | ok left =>
        simp only [bind, Except.bind]
        cases adjust left terms.head (w.add · terms.lower) <;> rfl

/-- A supply added in place is a supply provided. -/
theorem addSupply_eq (w : Width) (node : Nat) (amount : Int) (problem : Problem) :
    addSupply w node amount problem = ⟨[], spared problem <$> (·.map ((), ·)) <$>
      problem.provide w node amount⟩ := by
  unfold addSupply provide fetch
  simp only [read_bind, refuseIf_bind, checked_bind, write_bind]
  cases held : problem.sites[node]? with
  | none =>
    rw [if_pos (Array.getElem?_eq_none_iff.mp held)]
    rfl
  | some site =>
    rw [if_neg (Nat.not_le.mpr (Array.getElem?_eq_some_iff.mp held).1)]
    dsimp only
    cases w.add site.supply amount with
    | error fault => rfl
    | ok supply =>
      cases w.add site.excess amount with
      | error fault => rfl
      | ok excess =>
        dsimp only [write]
        rw [Array.setIfInBounds_setIfInBounds]
        rfl

theorem addDemand_eq (w : Width) (node : Nat) (amount : Int) (problem : Problem) :
    addDemand w node amount problem = ⟨[], spared problem <$> (·.map ((), ·)) <$>
      problem.consume w node amount⟩ := by
  unfold addDemand consume
  rw [checked_bind]
  cases w.neg amount with
  | error fault => rfl
  | ok lack => exact addSupply_eq w node lack problem

private theorem addLanes_granted (lanes : List Lane)
    (fit : ∀ lane ∈ lanes, lane.tail < net.nodes ∧ lane.head < net.nodes ∧ 0 ≤ lane.span) :
    addLanes w lanes net = granted ((·, ()) <$> attachLanes w net lanes) := by
  induction lanes generalizing net with
  | nil => rfl
  | cons lane rest ih =>
    unfold attachLanes addLanes
    rw [List.foldlM_cons, map_bind]
    refine Network.addLink_granted (fit lane (by simp)) fun joined nodes =>
      ih fun other member => ?_
    rw [nodes]
    exact fit other (by simp [member])

private theorem addFeeds_granted (sites : List Site) (sourceWithin : source < net.nodes)
    (sinkWithin : sink < net.nodes) (within : node + sites.length ≤ net.nodes) :
    addFeeds w source sink sites node demand net =
      granted (attachSites w source sink sites node demand net) := by
  induction sites generalizing net node demand with
  | nil => rfl
  | cons site rest ih =>
    rw [List.length_cons] at within
    unfold addFeeds attachSites
    split_ifs with positive negative
    · refine Network.addLink_granted ⟨sourceWithin, by dsimp only; omega, Int.le_of_lt positive⟩
        fun joined nodes => ?_
      refine checked_granted fun total _ => ih ?_ ?_ ?_ <;> rw [nodes]
      · exact sourceWithin
      · exact sinkWithin
      · omega
    · refine checked_granted fun lack negated => ?_
      have positive : 0 ≤ lack := by
        rw [(w.neg_ends Fault.isOverflow_overflow site.excess).of_ok negated]
        omega
      refine Network.addLink_granted ⟨by dsimp only; omega, sinkWithin, positive⟩
        fun joined nodes => ih ?_ ?_ ?_ <;> rw [nodes]
      · exact sourceWithin
      · exact sinkWithin
      · omega
    · exact ih sourceWithin sinkWithin (by omega)

/-- No link that a sound problem asks for is refused. -/
theorem addOrder_granted (w : Width) (sound : problem.Sound) :
    problem.addOrder w (Network.ofNodes problem.sites.size) = granted (problem.toOrder w) := by
  have nodes : (Network.ofNodes problem.sites.size).nodes = problem.sites.size := by
    simp [Network.ofNodes, Network.nodes]
  have fit : ∀ lane ∈ problem.lanes.toList, lane.tail < (Network.ofNodes problem.sites.size).nodes ∧
      lane.head < (Network.ofNodes problem.sites.size).nodes ∧ 0 ≤ lane.span := by
    intro lane member
    obtain ⟨k, held⟩ := List.mem_iff_getElem?.mp member
    rw [Array.getElem?_toList] at held
    obtain ⟨tailWithin, headWithin⟩ := sound.ends k lane held
    obtain ⟨-, carried, room⟩ := sound.bounded k lane held
    rw [nodes]
    exact ⟨tailWithin, headWithin, carried.trans room⟩
  unfold toOrder addOrder
  refine bind_granted_const (addLanes_granted _ fit) fun joined attached => ?_
  have grown : joined.insertNode.2.insertNode.2.nodes = problem.sites.size + 2 := by
    have extends' := (attachLanes_ends w _ _ (Network.Sound.ofNodes _) fit).of_ok attached
    rw [Network.nodes_insertNode, Network.nodes_insertNode, extends'.nodes, nodes]
  have source : joined.nodes = problem.sites.size := by
    rw [Network.nodes_insertNode, Network.nodes_insertNode] at grown
    omega
  refine bind_granted (addFeeds_granted problem.sites.toList ?_ ?_ ?_) fun left demand _ => rfl
  · change joined.nodes < joined.insertNode.2.insertNode.2.nodes
    omega
  · change joined.insertNode.2.nodes < joined.insertNode.2.insertNode.2.nodes
    rw [Network.nodes_insertNode joined]
    omega
  · change 0 + problem.sites.toList.length ≤ joined.insertNode.2.insertNode.2.nodes
    rw [Array.length_toList]
    omega

end Problem

namespace Router

variable {net : Network} {order : Order} {refusal : Refusal}

private theorem route_malformed (w : Width) (router : Router)
    (malformed : orderRefusal? net order = some refusal) :
    router.route w net order = ⟨[], .ok ⟨router, net, .error refusal⟩⟩ := by
  unfold route
  rw [malformed]
  rfl

end Router

namespace Session

variable {w : Width} {session next : Session} {α : Type} {refusal : Refusal}

private theorem onNet_spared {request : InPlace Network α}
    {computation : Checked (Except Refusal (α × Network))}
    (same : request session.net = ⟨[], spared session.net <$> computation⟩) :
    onNet request session = ⟨[], spared session <$>
      (·.map fun (value, net) => (value, { session with net })) <$> computation⟩ :=
  onPart_spared same rfl

private theorem onProblem_spared {request : InPlace Problem α}
    {computation : Checked (Except Refusal (α × Problem))}
    (same : request session.problem = ⟨[], spared session.problem <$> computation⟩) :
    onProblem request session = ⟨[], spared session <$>
      (·.map fun (value, problem) => (value, { session with problem })) <$> computation⟩ :=
  onPart_spared same rfl

private theorem route_eq (w : Width) (order : Order) (session : Session) :
    route w order session = (do
      let run ← session.router.route w session.net order
      return ({ session with net := run.net, router := run.router }, run.answer)) := by
  unfold route
  rw [read_bind, traced_bind]
  rfl

/-- To settle in place is to settle: no link is refused, and the flows are written last. -/
theorem settle_eq (w : Width) (sound : session.problem.Sound) :
    settle w session = (do
      let settlement ← session.router.settle w session.problem
      return ({ session with router := settlement.router, problem := settlement.problem },
        settlement.answer)) := by
  unfold settle Router.settle
  rw [read_bind, checked_bind]
  cases session.problem.unbalanced w with
  | error fault => rfl
  | ok unbalanced =>
    dsimp only
    rw [refuseIf_bind]
    cases unbalanced with
    | true => rfl
    | false =>
      rw [if_neg (by decide), apart_bind (Problem.addOrder_granted w sound)]
      cases session.problem.toOrder w with
      | error fault => rfl
      | ok made =>
        change ((liftM (session.router.route w made.1 made.2) : InPlace Session Run) >>=
          fun run => _) session = (session.router.route w made.1 made.2 >>= fun run => _) >>=
            fun settlement : Settlement => _
        rw [traced_bind, bind_assoc]
        refine congrArg (session.router.route w made.1 made.2 >>= ·) (funext fun run => ?_)
        cases run.answer with
        | error refusal => rfl
        | ok outcome => cases session.problem.withFlows run.net <;> rfl

/-- The network and the problem came about by their operations. -/
def Made (w : Width) (session : Session) : Prop :=
  (∃ offers, Network.Made w session.net offers) ∧
    ∃ supplies lanes, Problem.Made w session.problem supplies lanes

section Parts

variable {answer : Except Refusal α}

private theorem Made.of_onNet {request : InPlace Network α}
    {computation : Checked (Except Refusal (α × Network))} (made : session.Made w)
    (same : request session.net = ⟨[], spared session.net <$> computation⟩)
    (grown : ∀ value net, computation = .ok (.ok (value, net)) → ∃ offers, Network.Made w net offers)
    (done : (onNet request session).result = .ok (next, answer)) : next.Made w := by
  rw [onNet_spared same] at done
  obtain ⟨rfl, -⟩ | ⟨value, -, accepted⟩ := spared_cases done
  · exact made
  · obtain ⟨⟨value, net⟩, computed, same⟩ := answered_map_iff.mp accepted
    cases same
    exact ⟨grown value net computed, made.2⟩

private theorem Made.of_onProblem {request : InPlace Problem α}
    {computation : Checked (Except Refusal (α × Problem))} (made : session.Made w)
    (same : request session.problem = ⟨[], spared session.problem <$> computation⟩)
    (grown : ∀ value problem, computation = .ok (.ok (value, problem)) →
      ∃ supplies lanes, Problem.Made w problem supplies lanes)
    (done : (onProblem request session).result = .ok (next, answer)) : next.Made w := by
  rw [onProblem_spared same] at done
  obtain ⟨rfl, -⟩ | ⟨value, -, accepted⟩ := spared_cases done
  · exact made
  · obtain ⟨⟨value, problem⟩, computed, same⟩ := answered_map_iff.mp accepted
    cases same
    exact ⟨made.1, grown value problem computed⟩

end Parts

/-- Every command, be it refused or not, leaves what came about by accepted requests. -/
theorem Made.perform {command : Command α} {answer : Except Refusal α} (made : session.Made w)
    (fits : command.Fits w) (done : (perform w command session).result = .ok (next, answer)) :
    next.Made w := by
  have ⟨⟨offers, netMade⟩, supplies, lanes, problemMade⟩ := made
  cases command with
  | insertLink offer =>
    exact made.of_onNet (Network.addLink_eq w offer session.net)
      (fun _ _ added => ⟨_, netMade.insertLink fits.1 fits.2 added⟩) done
  | insertLane terms =>
    exact made.of_onProblem (Problem.addLane_eq w terms session.problem)
      (fun _ _ added => ⟨_, _, problemMade.insertLane fits.1 fits.2.1 fits.2.2 added⟩) done
  | provide node amount =>
    refine made.of_onProblem (Problem.addSupply_eq w node amount session.problem)
      (fun _ _ answered => ?_) done
    obtain ⟨problem, added, same⟩ := answered_map_iff.mp answered
    cases same
    exact ⟨_, _, problemMade.provide fits added⟩
  | consume node amount =>
    refine made.of_onProblem (Problem.addDemand_eq w node amount session.problem)
      (fun _ _ answered => ?_) done
    obtain ⟨problem, added, same⟩ := answered_map_iff.mp answered
    cases same
    exact ⟨_, _, problemMade.consume fits added⟩
  | route order =>
    change (route w order session).result = _ at done
    rw [route_eq, Traced.result_bind] at done
    obtain ⟨run, ran, same⟩ := Checked.bind_eq_ok_iff.mp done
    cases same
    exact ⟨⟨offers, netMade.route ran⟩, supplies, lanes, problemMade⟩
  | settle =>
    change (settle w session).result = _ at done
    rw [settle_eq w problemMade.sound, Traced.result_bind] at done
    obtain ⟨settlement, ran, same⟩ := Checked.bind_eq_ok_iff.mp done
    cases same
    exact ⟨⟨offers, netMade⟩, supplies, lanes, problemMade.settle ran⟩

/-- Refused requests leave no trace in the history of a session. -/
theorem Reached.made {start : Session} (reached : Reached w start session)
    (made : start.Made w) : session.Made w := by
  induction reached with
  | start => exact made
  | perform _ fits done ih => exact ih.perform fits done

/-- A malformed order touches nothing, and a cycle clears the books only. -/
theorem route_refused {order : Order} (sound : session.net.Sound)
    (refused : (route w order session).result = .ok (next, .error refusal)) :
    (refusal.blamesInput = true → next = session ∧ (route w order session).log = []) ∧
      ∀ node, refusal = .negativeCycle node →
        next = { session with router := { limit? := session.router.limit? } } := by
  rw [route_eq] at refused ⊢
  rw [Traced.result_bind] at refused
  obtain ⟨run, ran, same⟩ := Checked.bind_eq_ok_iff.mp refused
  injection same with same
  obtain ⟨rfl, answer⟩ := Prod.mk.inj same
  obtain ⟨malformed, rfl⟩ | ⟨node, rfl, rfl⟩ | ⟨limit, -, rfl⟩ :=
    ((Router.route_concludes w sound session.router order).of_ok ran).refused answer
  · rw [Router.route_malformed w session.router malformed]
    refine ⟨fun _ => ⟨rfl, rfl⟩, ?_⟩
    rintro node rfl
    cases Router.blamesInput_of_orderRefusal? malformed
  · exact ⟨nofun, fun _ _ => rfl⟩
  · exact ⟨nofun, nofun⟩

private theorem settle_refused (sound : session.problem.Sound)
    (refused : (settle w session).result = .ok (next, .error refusal)) :
    next.net = session.net ∧ next.problem = session.problem ∧
      (refusal = .unbalanced ∨ (∃ node, refusal = .negativeCycle node) ∨
        ∃ limit, session.router.limit? = some limit ∧ refusal = .limitReached limit) := by
  rw [settle_eq w sound, Traced.result_bind] at refused
  obtain ⟨settlement, ran, same⟩ := Checked.bind_eq_ok_iff.mp refused
  injection same with same
  obtain ⟨rfl, answer⟩ := Prod.mk.inj same
  have settled := (Router.settle_ends w sound session.router).of_ok ran
  exact ⟨rfl, settled.refused answer⟩

/-- A refused request leaves the network, the problem and the books as they were, and logs
nothing, if it wanted to add something or its order was malformed. A run refused for a cycle
clears the books and leaves the rest. A settlement can be refused for three reasons only, and
leaves the problem as it was, with the flows of any earlier one. -/
theorem perform_refused {command : Command α} (made : session.Made w)
    (refused : (perform w command session).result = .ok (next, .error refusal)) :
    match command with
    | .insertLink _ | .insertLane _ | .provide _ _ | .consume _ _ =>
      next = session ∧ (perform w command session).log = []
    | .route _ =>
      (refusal.blamesInput = true → next = session ∧ (perform w command session).log = []) ∧
        ∀ node, refusal = .negativeCycle node →
          next = { session with router := { limit? := session.router.limit? } }
    | .settle =>
      next.net = session.net ∧ next.problem = session.problem ∧
        (refusal = .unbalanced ∨ (∃ node, refusal = .negativeCycle node) ∨
          ∃ limit, session.router.limit? = some limit ∧ refusal = .limitReached limit) := by
  obtain ⟨⟨offers, netMade⟩, supplies, lanes, problemMade⟩ := made
  cases command with
  | insertLink offer =>
    rw [Session.perform, onNet_spared (Network.addLink_eq w offer session.net)] at refused ⊢
    exact ⟨eq_of_spared refused, rfl⟩
  | insertLane terms =>
    rw [Session.perform, onProblem_spared (Problem.addLane_eq w terms session.problem)] at refused ⊢
    exact ⟨eq_of_spared refused, rfl⟩
  | provide node amount =>
    rw [Session.perform, onProblem_spared (Problem.addSupply_eq w node amount session.problem)]
      at refused ⊢
    exact ⟨eq_of_spared refused, rfl⟩
  | consume node amount =>
    rw [Session.perform, onProblem_spared (Problem.addDemand_eq w node amount session.problem)]
      at refused ⊢
    exact ⟨eq_of_spared refused, rfl⟩
  | route order => exact route_refused netMade.sound refused
  | settle => exact settle_refused problemMade.sound refused

/-- The one lane is settled already, and its next settlement may not ship anything. -/
def exhausted : Session :=
  ⟨.ofNodes 2, Problem.oneLane.loaded fun _ => 1, ⟨some 0, 1, 1, #[0, 2, 0, 2]⟩⟩

private theorem exhausted_made : exhausted.Made ⟨3⟩ := by
  have ran : (({} : Router).settle ⟨3⟩ Problem.oneLane).result =
      .ok ⟨⟨none, 1, 1, #[0, 2, 0, 2]⟩, Problem.oneLane.loaded fun _ => 1, .ok .optimal⟩ := by
    with_unfolding_all rfl
  exact ⟨⟨[], .ofNodes 2⟩, _, _, Problem.oneLane_made.settle ran⟩

theorem perform_refused_exhausted :
    (∃ next, (perform ⟨3⟩ .settle exhausted).result = .ok (next, .error (.limitReached 0)) ∧
      next.net = exhausted.net ∧ next.problem = exhausted.problem) ∧
    (perform ⟨3⟩ (.route ⟨0, 5, 1⟩) exhausted).log = [] := by
  have stopped : (perform ⟨3⟩ .settle exhausted).result =
      .ok ({ exhausted with router := { limit? := some 0, potentials := #[0, 0, 0, 0] } },
        .error (.limitReached 0)) := by with_unfolding_all rfl
  have malformed : (perform ⟨3⟩ (.route ⟨0, 5, 1⟩) exhausted).result =
      .ok (exhausted, .error (.nodeOutOfRange 5 2)) := by with_unfolding_all rfl
  obtain ⟨net, problem, -⟩ := perform_refused exhausted_made stopped
  exact ⟨⟨_, stopped, net, problem⟩, ((perform_refused exhausted_made malformed).1 rfl).2⟩

end Session

end Transshipment
