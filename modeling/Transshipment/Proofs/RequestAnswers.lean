import Transshipment.Proofs.SettlementOptimality
import Transshipment.Request

/-! What a request is answered with, told without its computation. The first bad offer or
supply refuses it; otherwise a run over the offered links decides, or a settlement of the
offered lanes and supplies. Only an overflow keeps a request from its answer: all other faults
guard facts that hold wherever they are looked at. The potentials price the network before
every search, the parents of a search lead back to the source, a shipment finds room on its
whole path, and every number that is looked up belongs to a node, an arc or a lane. -/
namespace Transshipment

/-! ## Answers -/

namespace Offer

/-- The link that an offer becomes. -/
def link (offer : Offer) : Link := ⟨offer.tail, offer.head, offer.cost, offer.capacity, 0⟩

/-- The lane that an offer becomes. -/
def lane (offer : Offer) : Lane := ⟨offer.tail, offer.head, 0, offer.capacity, 0, offer.cost⟩

/-- Why one of these offers is refused among that many nodes, if one is. The first bad one
decides. -/
def refusal? (nodes : Nat) (offers : List Offer) : Option Refusal :=
  offers.findSome? fun offer =>
    (Network.ofNodes nodes).linkRefusal? offer.tail offer.head offer.capacity

variable {nodes : Nat} {offer : Offer} {refusal : Refusal}

private theorem refusal?_of_refused (rest : List Offer)
    (refused : (Network.ofNodes nodes).linkRefusal? offer.tail offer.head offer.capacity =
      some refusal) : Offer.refusal? nodes (offer :: rest) = some refusal := by
  rw [Offer.refusal?, List.findSome?_cons, refused]

private theorem refusal?_of_accepted (rest : List Offer)
    (accepted : (Network.ofNodes nodes).linkRefusal? offer.tail offer.head offer.capacity = none) :
    Offer.refusal? nodes (offer :: rest) = Offer.refusal? nodes rest := by
  rw [Offer.refusal?, List.findSome?_cons, accepted]
  rfl

end Offer

namespace Network

variable {w : Width} {net : Network} {tail head : Nat} {capacity cost : Int}

@[simp] theorem nodes_ofNodes (nodes : Nat) : (ofNodes nodes).nodes = nodes := by
  simp [ofNodes, Network.nodes]

/-- Whether a link is refused depends on nothing but the number of nodes. -/
theorem linkRefusal?_ofNodes (net : Network) :
    (ofNodes net.nodes).linkRefusal? tail head capacity = net.linkRefusal? tail head capacity := by
  unfold linkRefusal?
  rw [nodes_ofNodes]

/-- All offers become links in their order, or the first bad one is refused. -/
theorem insertOffers_answers (w : Width) (offers : List Offer) (net : Network)
    (sound : net.Sound) :
    Checked.Ends (net.insertOffers w offers) Fault.IsOverflow
      (Answered (Offer.refusal? net.nodes offers) (net.Extended (offers.map Offer.link))) := by
  induction offers generalizing net with
  | nil => exact ⟨rfl, .refl sound⟩
  | cons offer rest ih =>
    refine (insertLink_ends w net offer.tail offer.head offer.capacity offer.cost).bind
      fun answer inserted => ?_
    rw [← linkRefusal?_ofNodes] at inserted
    cases answer with
    | error refusal => exact Offer.refusal?_of_refused rest inserted
    | ok added =>
      obtain ⟨accepted, rfl⟩ := inserted
      have skipped := Offer.refusal?_of_accepted rest accepted
      rw [linkRefusal?_ofNodes] at accepted
      have first : net.Extended [offer.link]
          (net.attached offer.tail offer.head offer.capacity offer.cost) :=
        attached_extends sound (linkRefusal?_eq_none_iff.mp accepted)
      refine (ih _ first.sound).weaken fun answer later => ?_
      rw [first.nodes, ← skipped] at later
      cases answer with
      | error refusal => exact later
      | ok last => exact ⟨later.1, first.trans later.2⟩

end Network

namespace Problem

variable {w : Width} {problem middle next : Problem} {node : Nat} {first second : List Lane}
  {supplies : List (Nat × Int)} {offer : Offer}

/-- The problem got further lanes behind its own, and nothing else. -/
structure Extended (problem : Problem) (lanes : List Lane) (next : Problem) : Prop where
  sound : next.Sound
  sites : next.sites = problem.sites
  lanes : next.lanes.toList = problem.lanes.toList ++ lanes

theorem Extended.refl (sound : problem.Sound) : problem.Extended [] problem :=
  ⟨sound, rfl, by simp⟩

theorem Extended.trans (early : problem.Extended first middle)
    (late : middle.Extended second next) : problem.Extended (first ++ second) next :=
  ⟨late.sound, late.sites.trans early.sites,
    by rw [late.lanes, early.lanes, List.append_assoc]⟩

/-- An offer is refused as a lane exactly where it is refused as a link. -/
theorem laneRefusal?_eq_linkRefusal? (problem : Problem) (tail head : Nat) (capacity : Int) :
    problem.laneRefusal? tail head 0 capacity =
      (Network.ofNodes problem.sites.size).linkRefusal? tail head capacity := by
  unfold laneRefusal? Network.linkRefusal?
  rw [Network.nodes_ofNodes]
  split_ifs <;> first | rfl | omega

/-- A lane without a lower bound moves no excess. -/
theorem joined_extends (sound : problem.Sound)
    (accepted : problem.laneRefusal? offer.tail offer.head 0 offer.capacity = none) :
    problem.Extended [offer.lane]
      (problem.joined offer.tail offer.head 0 offer.capacity offer.cost) := by
  obtain ⟨tail, head, nonneg, order⟩ := laneRefusal?_eq_none_iff.mp accepted
  refine ⟨sound.joined tail head nonneg order, ?_, by simp [joined, Offer.lane]⟩
  apply Array.ext_getElem?
  intro k
  cases held : problem.sites[k]? <;> simp [joined, held]

/-- All offers become lanes in their order, or the first bad one is refused. -/
theorem insertOffers_answers (w : Width) (offers : List Offer) (problem : Problem)
    (sound : problem.Sound) :
    Checked.Ends (problem.insertOffers w offers) Fault.IsOverflow
      (Answered (Offer.refusal? problem.sites.size offers)
        (problem.Extended (offers.map Offer.lane))) := by
  induction offers generalizing problem with
  | nil => exact ⟨rfl, .refl sound⟩
  | cons offer rest ih =>
    refine (insertLane_ends w problem offer.tail offer.head 0 offer.capacity offer.cost).bind
      fun answer inserted => ?_
    cases answer with
    | error refusal =>
      exact Offer.refusal?_of_refused rest ((laneRefusal?_eq_linkRefusal? ..).symm.trans inserted)
    | ok added =>
      obtain ⟨accepted, rfl⟩ := inserted
      have first := joined_extends sound accepted
      rw [laneRefusal?_eq_linkRefusal?] at accepted
      refine (ih _ first.sound).weaken fun answer later => ?_
      rw [first.sites, ← Offer.refusal?_of_accepted rest accepted] at later
      cases answer with
      | error refusal => exact later
      | ok last => exact ⟨later.1, first.trans later.2⟩

/-- Why one of these supplies is refused among that many sites, if one is. -/
def supplyRefusal? (sites : Nat) (supplies : List (Nat × Int)) : Option Refusal :=
  supplies.findSome? fun supply => siteRefusal? sites supply.1

/-- Why supplies over offers are refused, if they are: for the first bad offer, or for the
first supply that names no site. -/
def refusal? (sites : Nat) (offers : List Offer) (supplies : List (Nat × Int)) : Option Refusal :=
  (Offer.refusal? sites offers).or (supplyRefusal? sites supplies)

/-- What supplies add up to at a node. -/
def supplyAt (supplies : List (Nat × Int)) (node : Nat) : Int :=
  (supplies.map fun supply => if supply.1 = node then supply.2 else 0).sum

theorem supplyAt_cons (supply : Nat × Int) (rest : List (Nat × Int)) (node : Nat) :
    supplyAt (supply :: rest) node =
      (if supply.1 = node then supply.2 else 0) + supplyAt rest node := by
  rw [supplyAt, List.map_cons, List.sum_cons, ← supplyAt]

/-- The problem got further supplies, and nothing else. -/
structure Enriched (problem : Problem) (supplies : List (Nat × Int)) (next : Problem) : Prop where
  sound : next.Sound
  lanes : next.lanes = problem.lanes
  supply : ∀ node : Nat, next.sites[node]?.map Site.supply =
    problem.sites[node]?.map fun site => site.supply + supplyAt supplies node

theorem size_supplied (problem : Problem) (node : Nat) (amount : Int) :
    (problem.supplied node amount).sites.size = problem.sites.size := by
  simp [supplied]

private theorem Enriched.cons {supply : Nat × Int}
    (later : (problem.supplied supply.1 supply.2).Enriched supplies next) :
    problem.Enriched (supply :: supplies) next := by
  refine ⟨later.sound, later.lanes, fun node => ?_⟩
  rw [later.supply, supplied, Array.getElem?_modify, supplyAt_cons]
  split_ifs <;> cases problem.sites[node]? <;> simp [Int.add_assoc]

/-- All supplies are added, or the first that names no site is refused. -/
theorem provideAll_answers (w : Width) (supplies : List (Nat × Int)) (problem : Problem)
    (sound : problem.Sound) :
    Checked.Ends (problem.provideAll w supplies) Fault.IsOverflow
      (Answered (supplyRefusal? problem.sites.size supplies) (problem.Enriched supplies)) := by
  induction supplies generalizing problem with
  | nil => exact ⟨rfl, sound, rfl, fun node => by simp [supplyAt]⟩
  | cons supply rest ih =>
    refine (provide_ends w problem supply.1 supply.2).bind fun answer provided => ?_
    cases answer with
    | error refusal =>
      change supplyRefusal? _ _ = some refusal
      rw [supplyRefusal?, List.findSome?_cons, show siteRefusal? _ _ = _ from provided]
    | ok next =>
      obtain ⟨accepted, rfl⟩ := provided
      refine (ih _ sound.supplied).weaken fun answer later => ?_
      have skipped : supplyRefusal? problem.sites.size (supply :: rest) =
          supplyRefusal? problem.sites.size rest := by
        rw [supplyRefusal?, List.findSome?_cons, accepted]
        rfl
      rw [size_supplied, ← skipped] at later
      cases answer with
      | error refusal => exact later
      | ok last => exact ⟨later.1, later.2.cons⟩

theorem ofOffers_answers (w : Width) (sites : Nat) (offers : List Offer) :
    Checked.Ends (ofOffers w sites offers).result Fault.IsOverflow
      (Answered (Offer.refusal? sites offers)
        ((ofSites sites).Extended (offers.map Offer.lane))) := by
  have inserted := insertOffers_answers w offers (ofSites sites) (.ofSites sites)
  rw [show (ofSites sites).sites.size = sites by simp [ofSites]] at inserted
  unfold ofOffers
  rw [Traced.result_bind, Traced.result_lift]
  refine inserted.bind fun answer inserted => ?_
  cases answer with
  | error refusal => exact inserted
  | ok problem => exact inserted

/-- The problem that offers and supplies state. -/
structure States (problem : Problem) (sites : Nat) (offers : List Offer)
    (supplies : List (Nat × Int)) : Prop where
  sound : problem.Sound
  lanes : problem.lanes.toList = offers.map Offer.lane
  supply : ∀ node : Nat, problem.sites[node]?.map Site.supply =
    if node < sites then some (supplyAt supplies node) else none

private theorem Extended.states {sites : Nat} {offers : List Offer}
    (laid : (ofSites sites).Extended (offers.map Offer.lane) problem)
    (enriched : problem.Enriched supplies next) : next.States sites offers supplies := by
  refine ⟨enriched.sound, by rw [enriched.lanes, laid.lanes]; rfl, fun node => ?_⟩
  rw [enriched.supply, laid.sites, ofSites, Array.getElem?_replicate]
  split_ifs <;> simp

end Problem

/-- Whether an order is refused depends on nothing but the number of nodes. -/
theorem Router.orderRefusal?_ofNodes (net : Network) (order : Order) :
    orderRefusal? (.ofNodes net.nodes) order = orderRefusal? net order := by
  unfold orderRefusal?
  rw [Network.nodes_ofNodes]

/-- Why an order over offers is refused, if it is: for its first bad offer, or for itself. -/
def Order.refusal? (nodes : Nat) (offers : List Offer) (order : Order) : Option Refusal :=
  (Offer.refusal? nodes offers).or (Router.orderRefusal? (.ofNodes nodes) order)

/-- An order over offers is refused, or answered by a run over the offered links. -/
def OrderAnswered (w : Width) (nodes : Nat) (offers : List Offer) (order : Order)
    (answer : Except Refusal Outcome) : Prop :=
  (∃ refusal, order.refusal? nodes offers = some refusal ∧ answer = .error refusal) ∨
  order.refusal? nodes offers = none ∧ ∃ net run,
    (Network.ofNodes nodes).Extended (offers.map Offer.link) net ∧
      (({} : Router).route w net order).result = .ok run ∧ answer = run.answer

theorem costOfOrder_answers (w : Width) (nodes : Nat) (offers : List Offer) (order : Order) :
    Checked.Ends (costOfOrder w nodes offers order).result Fault.IsOverflow
      (OrderAnswered w nodes offers order) := by
  unfold costOfOrder
  rw [Traced.result_bind, Traced.result_lift]
  refine (Network.insertOffers_answers w offers _ (.ofNodes nodes)).bind fun answer inserted => ?_
  rw [Network.nodes_ofNodes] at inserted
  cases answer with
  | error refusal =>
    refine .inl ⟨refusal, ?_, rfl⟩
    rw [Order.refusal?, show Offer.refusal? nodes offers = _ from inserted]
    rfl
  | ok net =>
    obtain ⟨accepted, extended⟩ := inserted
    have same : order.refusal? nodes offers = Router.orderRefusal? net order := by
      rw [Order.refusal?, accepted, Option.none_or, ← Router.orderRefusal?_ofNodes net,
        extended.nodes, Network.nodes_ofNodes]
    dsimp only
    rw [Traced.result_bind]
    have routed := Router.route_concludes w extended.sound {} order
    cases ran : (({} : Router).route w net order).result with
    | error fault => exact routed.of_error ran
    | ok run =>
      refine Checked.ends_bind_of_ok rfl ?_
      obtain ⟨refusal, refused, rfl⟩ | ⟨unrefused, -⟩ := routed.of_ok ran
      · exact .inl ⟨refusal, same.trans refused, rfl⟩
      · exact .inr ⟨same.trans unrefused, net, run, extended, ran, rfl⟩

/-- The answer of a settlement with the price of the flow that it leaves. -/
def Settlement.priced (settlement : Settlement) : Except Refusal Outcome :=
  settlement.answer.map fun
    | .optimal => .optimal (settlement.problem.price settlement.problem.carried)
    | _ => .infeasible

/-- Supplies over offers are refused, or answered by a settlement of the problem that they
state. -/
def SuppliesAnswered (w : Width) (sites : Nat) (offers : List Offer)
    (supplies : List (Nat × Int)) (answer : Except Refusal Outcome) : Prop :=
  (∃ refusal, Problem.refusal? sites offers supplies = some refusal ∧ answer = .error refusal) ∨
  Problem.refusal? sites offers supplies = none ∧
    ∃ problem settlement, problem.States sites offers supplies ∧
      (({} : Router).settle w problem).result = .ok settlement ∧ answer = settlement.priced

theorem costOfSupplies_answers (w : Width) (sites : Nat) (offers : List Offer)
    (supplies : List (Nat × Int)) :
    Checked.Ends (costOfSupplies w sites offers supplies).result Fault.IsOverflow
      (SuppliesAnswered w sites offers supplies) := by
  unfold costOfSupplies
  rw [Traced.result_bind]
  refine (Problem.ofOffers_answers w sites offers).bind fun answer built => ?_
  cases answer with
  | error refusal =>
    refine .inl ⟨refusal, ?_, rfl⟩
    rw [Problem.refusal?, show Offer.refusal? sites offers = _ from built]
    rfl
  | ok problem =>
    obtain ⟨accepted, laid⟩ := built
    have supplied := Problem.provideAll_answers w supplies problem laid.sound
    rw [laid.sites, show (Problem.ofSites sites).sites.size = sites by simp [Problem.ofSites]]
      at supplied
    dsimp only
    rw [Traced.result_bind, Traced.result_lift]
    refine supplied.bind fun answer supplied => ?_
    unfold SuppliesAnswered Problem.refusal?
    rw [accepted, Option.none_or]
    cases answer with
    | error refusal => exact .inl ⟨refusal, supplied, rfl⟩
    | ok problem =>
      obtain ⟨welcome, enriched⟩ := supplied
      dsimp only
      rw [Traced.result_bind]
      have settled := Router.settle_ends w enriched.sound {}
      cases ran : (({} : Router).settle w problem).result with
      | error fault => exact settled.of_error ran
      | ok settlement =>
        refine Checked.Ends.weaken (?_ : Checked.Ends _ _ (· = settlement.priced))
          fun answer priced =>
            .inr ⟨welcome, problem, settlement, laid.states enriched, ran, priced⟩
        refine Checked.ends_bind_of_ok rfl ?_
        unfold Settlement.priced
        cases settlement.answer with
        | error refusal => exact rfl
        | ok status =>
          cases status with
          | notSolved => exact rfl
          | infeasible => exact rfl
          | optimal =>
            dsimp only
            rw [Traced.result_bind, Traced.result_lift]
            apply (settlement.problem.cost_ends w).bind
            rintro _ rfl
            exact rfl

/-! ## Overflows -/

/-- No fault but an overflow breaks the computation off. -/
def Checked.OnlyOverflows (computation : Checked α) : Prop :=
  ∀ fault, computation = .error fault → fault.IsOverflow

private theorem Checked.Ends.onlyOverflows {computation : Checked α} {yields : α → Prop}
    (ends : Checked.Ends computation Fault.IsOverflow yields) : computation.OnlyOverflows :=
  fun _ broke => ends.of_error broke

/-- A link on which two units cost more than a narrow width can hold. -/
def Network.dearLink : Network := ⟨#[⟨0, 1, 5, 3, 0⟩], #[#[0], #[1]]⟩

private theorem Network.dearLink_made : Made ⟨3⟩ dearLink ([] ++ [⟨0, 1, 3, 5⟩]) := by
  have inserted : (Network.ofNodes 2).insertLink ⟨3⟩ 0 1 3 5 = .ok (.ok (0, dearLink)) := by decide
  exact .insertLink (.ofNodes 2) (by decide) (by decide) inserted

/-- A lane on which they do as well. -/
def Problem.dearLane : Problem := ⟨#[⟨2, 2⟩, ⟨-2, -2⟩], #[⟨0, 1, 0, 3, 0, 5⟩]⟩

private theorem Problem.dearLane_made :
    Made ⟨3⟩ dearLane [(0, 2), (1, -2)] ([] ++ [⟨0, 1, 0, 3, 5⟩]) := by
  have inserted : Problem.insertLane ⟨3⟩ ⟨#[⟨2, 2⟩, ⟨-2, -2⟩], #[]⟩ 0 1 0 3 5 =
      .ok (.ok (0, dearLane)) := by decide
  exact .insertLane exchange_made (by decide) (by decide) (by decide) inserted

/-- Whatever networks and problems came about by their operations, and whatever is
asked of them, only an overflow breaks a run, a settlement or a request off. -/
theorem requests_onlyOverflows (w : Width) :
    (∀ net offers, Network.Made w net offers → ∀ (router : Router) (order : Order),
      (router.route w net order).result.OnlyOverflows) ∧
    (∀ problem supplies lanes, Problem.Made w problem supplies lanes → ∀ router : Router,
      (router.settle w problem).result.OnlyOverflows) ∧
    (∀ nodes offers order, (costOfOrder w nodes offers order).result.OnlyOverflows) ∧
    ∀ sites offers supplies, (costOfSupplies w sites offers supplies).result.OnlyOverflows := by
  refine ⟨fun net offers made router order => ?_, fun problem supplies lanes made router => ?_,
    fun nodes offers order => ?_, fun sites offers supplies => ?_⟩
  · exact (Router.route_ends w made.sound router order).onlyOverflows
  · exact (Router.settle_ends w made.sound router).onlyOverflows
  · exact (costOfOrder_answers w nodes offers order).onlyOverflows
  · exact (costOfSupplies_answers w sites offers supplies).onlyOverflows

theorem requests_onlyOverflows_dear :
    (∃ fault, (({} : Router).route ⟨3⟩ Network.dearLink ⟨0, 1, 2⟩).result = .error fault ∧
      fault.IsOverflow) ∧
    (∃ fault, (({} : Router).settle ⟨3⟩ Problem.dearLane).result = .error fault ∧
      fault.IsOverflow) ∧
    (∃ fault, (costOfOrder ⟨3⟩ 2 [⟨0, 1, 3, 5⟩] ⟨0, 1, 2⟩).result = .error fault ∧
      fault.IsOverflow) ∧
    ∃ fault, (costOfSupplies ⟨3⟩ 2 [⟨0, 1, 3, 5⟩] [(0, 2), (1, -2)]).result = .error fault ∧
      fault.IsOverflow := by
  obtain ⟨runs, settlements, orders, supplies⟩ := requests_onlyOverflows ⟨3⟩
  have ranOver : (({} : Router).route ⟨3⟩ Network.dearLink ⟨0, 1, 2⟩).result =
      .error (.overflow .multiplication) := by with_unfolding_all rfl
  have settledOver : (({} : Router).settle ⟨3⟩ Problem.dearLane).result =
      .error (.overflow .multiplication) := by with_unfolding_all rfl
  have orderedOver : (costOfOrder ⟨3⟩ 2 [⟨0, 1, 3, 5⟩] ⟨0, 1, 2⟩).result =
      .error (.overflow .multiplication) := by with_unfolding_all rfl
  have suppliedOver : (costOfSupplies ⟨3⟩ 2 [⟨0, 1, 3, 5⟩] [(0, 2), (1, -2)]).result =
      .error (.overflow .multiplication) := by with_unfolding_all rfl
  exact ⟨⟨_, ranOver, runs _ _ Network.dearLink_made _ _ _ ranOver⟩,
    ⟨_, settledOver, settlements _ _ _ Problem.dearLane_made _ _ settledOver⟩,
    ⟨_, orderedOver, orders _ _ _ _ orderedOver⟩,
    ⟨_, suppliedOver, supplies _ _ _ _ suppliedOver⟩⟩

end Transshipment
