import Transshipment.Proofs.ClerkRuns
import Transshipment.Proofs.ProblemRepresentation

/-! Nothing of earlier work shows in later work. A run clears the books and wipes the chart, so
it does not matter what a clerk did before. A settlement looks at the sites and at the terms of
the lanes but not at the flows of an earlier one, so it does not matter either how a problem
came to ask for what it asks for. -/
namespace Transshipment

namespace Router

variable {w : Width} {router : Router} {net : Network} {order : Order} {run : Run}
  {problem : Problem} {settlement : Settlement}

/-- A run that is not refused at once starts from cleared books. -/
theorem route_accepted (w : Width) (router : Router)
    (accepted : orderRefusal? net order = none) :
    router.route w net order = ({ limit? := router.limit? } : Router).route w net order := by
  unfold route
  rw [accepted]

/-- A run leaves the limit as it was set. -/
theorem Concluded.limit?_eq (concluded : router.Concluded net order run) :
    run.router.limit? = router.limit? := by
  obtain ⟨_, -, rfl⟩ | ⟨-, ⟨rfl, -⟩ | ⟨-, ⟨_, rfl, -⟩ | ⟨_, rfl, -⟩⟩⟩ := concluded
  all_goals rfl

/-- So does a settlement. -/
theorem Settled.limit?_eq (settled : router.Settled w problem settlement) :
    settlement.router.limit? = router.limit? := by
  obtain ⟨-, rfl⟩ | ⟨-, net, order, run, translates, routed, settled⟩ := settled
  · rfl
  · rw [← ((route_concludes w translates.sound router order).of_ok routed).limit?_eq]
    unfold SettledBy at settled
    split at settled
    · rw [settled]
    · rw [settled]

end Router

namespace Problem

variable {w : Width} {problem next : Problem} {ledger other : Ledger} {flow : Assignment}

private theorem unbalanced_loaded : (problem.loaded flow).unbalanced w = problem.unbalanced w := rfl

/-- The network of a problem does not depend on the flows of its lanes. -/
theorem toOrder_loaded : (problem.loaded flow).toOrder w = problem.toOrder w := by
  have attach (net : Network) (lanes : List Lane) : attachLanes w net lanes =
      (lanes.map Lane.link).foldlM
        (fun net link => net.attach w link.tail link.head link.free link.cost) net := by
    rw [List.foldlM_map]
    rfl
  unfold toOrder
  rw [attach, attach, links_loaded]
  rfl

/-- New flows take the place of the old ones. -/
theorem withFlows_loaded (net : Network) :
    (problem.loaded flow).withFlows net = problem.withFlows net := by
  have lanes : (problem.loaded flow).lanes.toList.zipIdx =
      problem.lanes.toList.zipIdx.map fun entry =>
        ({ entry.1 with routed := flow entry.2 }, entry.2) := by
    apply List.ext_getElem?
    intro k
    simp [loaded, Function.comp_def]
  unfold withFlows
  rw [lanes, List.mapM_map]
  rfl

/-- Both ledgers ask for as many sites, for the same supply at each and for the same lanes. -/
structure Ledger.Agrees (ledger other : Ledger) : Prop where
  sites : ledger.sites = other.sites
  supply : ∀ node, supplyAt ledger.supplies node = supplyAt other.supplies node
  lanes : ledger.lanes = other.lanes

/-- Agreed ledgers leave the same supply and the same excess at every site. -/
theorem Tallies.sites_eq (tallies : problem.Tallies w ledger) (also : next.Tallies w other)
    (agrees : ledger.Agrees other) : next.sites = problem.sites := by
  apply Array.ext
  · rw [also.sites, tallies.sites, agrees.sites]
  · intro node within there
    have held : next.sites[node]? = some next.sites[node] := Array.getElem?_eq_getElem within
    have before : problem.sites[node]? = some problem.sites[node] :=
      Array.getElem?_eq_getElem there
    have supply : next.sites[node].supply = problem.sites[node].supply := by
      rw [also.supply node _ held, tallies.supply node _ before, agrees.supply node]
    have excess : next.sites[node].excess = problem.sites[node].excess := by
      rw [also.sound.excess node _ held, tallies.sound.excess node _ before, supply,
        also.outflow_lowers_eq, tallies.outflow_lowers_eq, agrees.lanes]
    generalize next.sites[node] = site at supply excess
    generalize problem.sites[node] = other at supply excess
    cases site
    cases other
    simp_all

/-- A problem is another with its own flows, if it has the same sites and lanes on the same
terms. -/
theorem eq_loaded_of_terms (sites : next.sites = problem.sites)
    (terms : next.lanes.toList.map Lane.terms = problem.lanes.toList.map Lane.terms) :
    next = problem.loaded fun k => (next.lanes[k]?.map Lane.routed).getD 0 := by
  have lanes : next.lanes = (problem.loaded fun k =>
      (next.lanes[k]?.map Lane.routed).getD 0).lanes := by
    apply Array.ext_getElem?
    intro k
    have same : next.lanes[k]?.map Lane.terms = problem.lanes[k]?.map Lane.terms := by
      rw [← Array.getElem?_toList, ← Array.getElem?_toList, ← List.getElem?_map,
        ← List.getElem?_map, terms]
    rw [lanes_loaded]
    cases held : next.lanes[k]? with
    | none => simp_all
    | some lane =>
      rw [held] at same
      obtain ⟨before, found, terms⟩ := Option.map_eq_some_iff.mp same.symm
      rw [found]
      cases lane
      cases before
      simp_all [Lane.terms]
  exact congrArg₂ Problem.mk sites lanes

/-- What agreed ledgers ask for are problems that differ in the flows at most. -/
theorem Tallies.eq_loaded (tallies : problem.Tallies w ledger) (also : next.Tallies w other)
    (agrees : ledger.Agrees other) : ∃ flow, next = problem.loaded flow := by
  refine ⟨_, eq_loaded_of_terms (tallies.sites_eq also agrees) ?_⟩
  rw [also.terms, tallies.terms, agrees.lanes]

end Problem

/-- What a settlement shows that was answered with a status: the status, the problem with its
flows, and the books. Any other shows its refusal. -/
def Settlement.shown (settlement : Settlement) : Except Refusal (Status × Problem × Router) :=
  settlement.answer.map fun status => (status, settlement.problem, settlement.router)

/-- A settlement that was answered with a status shows all of itself. -/
theorem Settlement.eq_of_shown {settlement other : Settlement} {status : Status}
    (answered : settlement.answer = .ok status) (same : other.shown = settlement.shown) :
    other = settlement := by
  obtain ⟨router, problem, answer⟩ := settlement
  obtain ⟨routerAgain, problemAgain, answerAgain⟩ := other
  cases answered
  cases answerAgain <;> cases same
  rfl

namespace Router

variable {w : Width} {router : Router} {problem : Problem} {settlement : Settlement}
  {status : Status}

/-- The flows of an earlier settlement do not show in a later one. -/
theorem settle_loaded (w : Width) (router : Router) (problem : Problem) (flow : Assignment) :
    Settlement.shown <$> router.settle w (problem.loaded flow) =
      Settlement.shown <$> router.settle w problem := by
  unfold settle
  rw [Problem.unbalanced_loaded, Problem.toOrder_loaded, map_bind, map_bind]
  refine congrArg (liftM (problem.unbalanced w) >>= ·) (funext fun unbalanced => ?_)
  split
  case isTrue => rfl
  case isFalse =>
    rw [map_bind, map_bind]
    refine congrArg (liftM (problem.toOrder w) >>= ·) (funext fun made => ?_)
    simp only [map_bind]
    refine congrArg (router.route w made.1 made.2 >>= ·) (funext fun run => ?_)
    cases run.answer with
    | error refusal => rfl
    | ok outcome => rw [Problem.withFlows_loaded]

/-- Nor do the books: an unbalanced problem is refused without them, and the order of any other
is accepted. -/
theorem settle_cleared (w : Width) (router : Router) (sound : problem.Sound) :
    Settlement.shown <$> router.settle w problem =
      Settlement.shown <$> ({ limit? := router.limit? } : Router).settle w problem := by
  unfold settle
  rw [map_bind, map_bind]
  refine congrArg (liftM (problem.unbalanced w) >>= ·) (funext fun unbalanced => ?_)
  split
  case isTrue => rfl
  case isFalse =>
    cases made : problem.toOrder w with
    | error fault => rfl
    | ok ordered =>
      have translates := (problem.toOrder_ends w sound).of_ok made
      change Settlement.shown <$> (router.route w ordered.1 ordered.2 >>= fun run => _) =
        Settlement.shown <$> (route w _ ordered.1 ordered.2 >>= fun run => _)
      rw [route_accepted w router translates.accepted]

/-- Settling what was settled before comes to the same. -/
theorem settle_again (sound : problem.Sound)
    (settled : (router.settle w problem).result = .ok settlement)
    (answered : settlement.answer = .ok status) :
    settlement.router.settle w settlement.problem = router.settle w problem := by
  have ended := (settle_ends w sound router).of_ok settled
  refine Traced.eq_of_map_eq ?_ settled fun other => Settlement.eq_of_shown answered
  have after : ∃ flow, settlement.problem = problem.loaded flow := by
    obtain ⟨-, rfl⟩ | ⟨-, net, order, run, -, -, settled⟩ := ended
    · cases answered
    · unfold SettledBy at settled
      split at settled
      · subst settled
        cases answered
      · exact ⟨run.net.carried, congrArg Settlement.problem settled⟩
  obtain ⟨flow, same⟩ := after
  rw [same, settle_loaded, settle_cleared w settlement.router sound, settle_cleared w router sound,
    ended.limit?_eq]

end Router

namespace Clerk

/-- A clerk that has not worked yet, with the limit of this one. -/
def fresh (clerk : Clerk) : Clerk := { limit? := clerk.limit? }

/-- Whatever a clerk did before, a run that is not refused at once shows what it shows under a
clerk with the same limit that has not worked yet. However a problem came about, its settlement
shows what it shows under such a clerk and of any other problem that was asked for the same.
To settle a problem once more after it was answered comes to the same. -/
theorem history_forgotten (w : Width) (clerk : Clerk) :
    (∀ {net : Network} {offers : List Offer} {order : Order}, Network.Made w net offers →
      Router.orderRefusal? net order = none →
      run <$> route w order (clerk, net) = run <$> route w order (clerk.fresh, net)) ∧
    (∀ {problem again : Problem} {ledger other : Problem.Ledger},
      Problem.Served w problem ledger → Problem.Served w again other → ledger.Agrees other →
      Settlement.shown <$> settlement <$> settle w (clerk, problem) =
        Settlement.shown <$> settlement <$> settle w (clerk.fresh, again)) ∧
    ∀ {problem : Problem} {ledger : Problem.Ledger} {left : Clerk × Problem} {status : Status},
      Problem.Served w problem ledger →
      (settle w (clerk, problem)).result = .ok (left, .ok status) →
      settlement <$> settle w left = settlement <$> settle w (clerk, problem) := by
  refine ⟨?_, ?_, ?_⟩
  · intro net offers order made accepted
    rw [route_eq w made.sound, route_eq w made.sound]
    exact Router.route_accepted w clerk.toRouter accepted
  · intro problem again ledger other served anew agrees
    have tallies := served.tallies
    obtain ⟨flow, rfl⟩ := tallies.eq_loaded anew.tallies agrees
    rw [settle_eq w tallies.sound, settle_eq w anew.tallies.sound, Router.settle_loaded]
    exact Router.settle_cleared w clerk.toRouter tallies.sound
  · intro problem ledger left status served settled
    have sound := served.tallies.sound
    have shown : (clerk.toRouter.settle w problem).result =
        .ok ⟨left.1.toRouter, left.2, .ok status⟩ := by
      rw [← settle_eq w sound, Traced.result_map, settled]
      rfl
    have after := ((Router.settle_ends w sound clerk.toRouter).of_ok shown).sound sound
    rw [settle_eq w after, settle_eq w sound]
    exact Router.settle_again sound shown rfl

/-- A clerk that has worked on other networks. -/
def worn : Clerk :=
  { delivered := 9, shipments := 4, potentials := #[8],
    chart := ⟨#[some 3, none, some 0], #[some 1, none], #[true, false, true, true, true]⟩ }

theorem history_forgotten_worn :
    run <$> route ⟨7⟩ ⟨0, 1, 2⟩ (worn, Network.loadedLink) =
      run <$> route ⟨7⟩ ⟨0, 1, 2⟩ (worn.fresh, Network.loadedLink) ∧
    Settlement.shown <$> settlement <$> settle ⟨7⟩ (worn, Problem.looped 2) =
      Settlement.shown <$> settlement <$> settle ⟨7⟩ (worn.fresh, Problem.looped 0) ∧
    ∃ left, (settle ⟨7⟩ (worn, Problem.looped 0)).result = .ok (left, .ok .optimal) ∧
      settlement <$> settle ⟨7⟩ left = settlement <$> settle ⟨7⟩ (worn, Problem.looped 0) := by
  obtain ⟨runs, settles, again⟩ := history_forgotten ⟨7⟩ worn
  refine ⟨runs Network.loadedLink_made (by decide),
    settles Problem.looped_served Problem.looped_built ⟨rfl, fun _ => rfl, rfl⟩, ?_⟩
  have shown : (worn.toRouter.settle ⟨7⟩ (Problem.looped 0)).result =
      .ok ⟨⟨none, 2, 1, #[0, 2, 0, 2]⟩, Problem.looped 2, .ok .optimal⟩ := by
    with_unfolding_all rfl
  rw [← settle_eq ⟨7⟩ Problem.looped_built.tallies.sound, Traced.result_map] at shown
  obtain ⟨⟨left, answer⟩, settled, same⟩ := Checked.map_eq_ok_iff.mp shown
  obtain rfl : answer = .ok .optimal := congrArg Settlement.answer same
  exact ⟨left, settled, again Problem.looped_built settled⟩

end Clerk

end Transshipment
