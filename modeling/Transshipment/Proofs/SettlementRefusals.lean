import Transshipment.Proofs.SettlementOptimality

/-! When a settlement is refused for a cycle. Where the lower bounds alone meet the
supplies, nothing has to be sent and the lanes are not searched; everywhere else a run
decides, and its network has the negative cycles of the lanes and no others. -/
namespace Transshipment

namespace Problem

variable {problem : Problem}

/-- The lower bounds alone meet all supplies, so nothing is left to be sent. -/
def MetByLowers (problem : Problem) : Prop :=
  ∀ (node : Nat) site, problem.sites[node]? = some site →
    problem.outflow problem.lowers node = site.supply

private theorem offered_eq_zero {sites : List Site} (none : ∀ site ∈ sites, site.excess = 0) :
    offered sites = 0 := by
  refine List.sum_eq_zero fun amount member => ?_
  obtain ⟨site, listed, rfl⟩ := List.mem_map.mp member
  rw [none site listed, max_self]

/-- The lower bounds meet the supplies exactly where the source has nothing to send. -/
theorem Sound.metByLowers_iff (sound : problem.Sound)
    (balanced : (problem.sites.toList.map Site.supply).sum = 0) :
    problem.MetByLowers ↔ offered problem.sites.toList = 0 := by
  constructor
  · intro met
    refine offered_eq_zero fun site member => ?_
    obtain ⟨node, held⟩ := List.mem_iff_getElem?.mp member
    rw [Array.getElem?_toList] at held
    rw [sound.excess node site held, met node site held, sub_self]
  · intro nothing node site held
    have none := excess_eq_zero nothing (sound.offered_eq_lacking balanced ▸ nothing) site
      (Array.mem_toList_iff.mpr (Array.mem_of_getElem? held))
    rw [sound.excess node site held] at none
    omega

end Problem

namespace Router

variable {w : Width} {router : Router} {problem : Problem} {settlement : Settlement}
  {net : Network} {order : Order} {run : Run} {supplies : List (Nat × Int)}
  {lanes : List LaneTerms}

private theorem SettledBy.answer_eq (settled : SettledBy problem run settlement) :
    settlement.answer = run.answer.map Outcome.status := by
  unfold SettledBy at settled
  cases answer : run.answer with
  | error refusal =>
    rw [answer] at settled
    rw [settled]
    rfl
  | ok outcome =>
    rw [answer] at settled
    rw [settled]
    rfl

/-- The order of a problem is never malformed, so a settlement is refused for its supplies,
for a cycle or for the limit, and then leaves the problem as it was. -/
theorem Settled.refused {refusal : Refusal} (settled : router.Settled w problem settlement)
    (refused : settlement.answer = .error refusal) :
    settlement.problem = problem ∧
      (refusal = .unbalanced ∨ (∃ node, refusal = .negativeCycle node) ∨
        ∃ limit, router.limit? = some limit ∧ refusal = .limitReached limit) := by
  obtain ⟨-, rfl⟩ | ⟨-, net, order, run, translates, routed, settled⟩ := settled
  · cases refused
    exact ⟨rfl, .inl rfl⟩
  · unfold SettledBy at settled
    cases ended : run.answer with
    | ok outcome =>
      rw [ended] at settled
      subst settled
      cases refused
    | error other =>
      rw [ended] at settled
      subst settled
      cases refused
      refine ⟨rfl, .inr ?_⟩
      have concluded := (route_concludes w translates.sound router order).of_ok routed
      obtain ⟨malformed, -⟩ | ⟨node, cycle, -⟩ | limited := concluded.refused ended
      · cases malformed.symm.trans translates.accepted
      · exact .inl ⟨node, cycle⟩
      · exact .inr limited

/-- A balanced problem is done at once if nothing has to be sent, and otherwise settled by
a run that works off a proper order. -/
theorem settle_balanced (sound : problem.Sound)
    (balanced : (problem.sites.toList.map Site.supply).sum = 0)
    (ran : (router.settle w problem).result = .ok settlement) :
    (problem.MetByLowers ∧ settlement =
      ⟨{ limit? := router.limit? }, problem.loaded fun _ => 0, .ok .optimal⟩) ∨
    ¬ problem.MetByLowers ∧ ∃ net order run, problem.Translates net order ∧ order.Proper net ∧
      (router.route w net order).result = .ok run ∧ SettledBy problem run settlement := by
  obtain ⟨unbalanced, -⟩ | ⟨-, net, order, run, translates, routed, settled⟩ :=
    (settle_ends w sound router).of_ok ran
  · exact absurd balanced unbalanced
  · have demand : order.demand = Problem.offered problem.sites.toList := by rw [translates.order]
    rw [sound.metByLowers_iff balanced, ← demand]
    rcases Int.lt_or_eq_of_le (Problem.offered_nonneg problem.sites.toList) with wanted | nothing
    · rw [← demand] at wanted
      exact .inr ⟨by omega, net, order, run, translates, translates.proper wanted, routed, settled⟩
    · have idle : order.demand = 0 := demand.trans nothing.symm
      obtain ⟨source, sink, -⟩ := translates.ends_within
      rw [route_nothing w router source sink (Int.le_of_eq idle.symm) (.inl idle)] at routed
      cases routed
      refine .inl ⟨idle, ?_⟩
      rw [← translates.carried_eq_zero]
      exact settled

end Router

/-- A loop that gains a unit each time round, at a site without supply. -/
def Problem.idleLoop : Problem := ⟨#[⟨0, 0⟩], #[⟨0, 0, 0, 1, 0, -1⟩]⟩

private theorem Problem.idleLoop_made : Made ⟨3⟩ idleLoop [] ([] ++ [⟨0, 0, 0, 1, -1⟩]) := by
  have inserted : insertLane ⟨3⟩ (.ofSites 1) 0 0 0 1 (-1) = .ok (.ok (0, idleLoop)) := by decide
  exact .insertLane (.ofSites 1) (by decide) (by decide) (by decide) inserted

private theorem Problem.idleLoop_onNegativeCycle : idleLoop.OnNegativeCycle 0 := by
  have held : idleLoop.lanes[0]? = some ⟨0, 0, 0, 1, 0, -1⟩ := rfl
  exact ⟨[0], -1 + 0, .cons held Int.zero_lt_one (.nil 0), by decide, by decide⟩

/-- Two lanes that lead there and back and gain two units each time round. The second has a
lower bound that adds to what the first site has to send. -/
def Problem.roundTrip : Problem :=
  ⟨#[⟨1, 2⟩, ⟨-1, -2⟩], #[⟨0, 1, 0, 1, 0, -3⟩, ⟨1, 0, 1, 2, 0, 1⟩]⟩

private theorem Problem.roundTrip_made : Made ⟨4⟩ roundTrip ([] ++ [(0, 1)] ++ [(1, -1)])
    ([] ++ [⟨0, 1, 0, 1, -3⟩] ++ [⟨1, 0, 1, 3, 1⟩]) := by
  have provided : provide ⟨4⟩ (.ofSites 2) 0 1 = .ok (.ok ⟨#[⟨1, 1⟩, ⟨0, 0⟩], #[]⟩) := by decide
  have consumed : consume ⟨4⟩ ⟨#[⟨1, 1⟩, ⟨0, 0⟩], #[]⟩ 1 1 =
      .ok (.ok ⟨#[⟨1, 1⟩, ⟨-1, -1⟩], #[]⟩) := by decide
  have there : insertLane ⟨4⟩ ⟨#[⟨1, 1⟩, ⟨-1, -1⟩], #[]⟩ 0 1 0 1 (-3) =
      .ok (.ok (0, ⟨#[⟨1, 1⟩, ⟨-1, -1⟩], #[⟨0, 1, 0, 1, 0, -3⟩]⟩)) := by decide
  have back : insertLane ⟨4⟩ ⟨#[⟨1, 1⟩, ⟨-1, -1⟩], #[⟨0, 1, 0, 1, 0, -3⟩]⟩ 1 0 1 3 1 =
      .ok (.ok (1, roundTrip)) := by decide
  have supplied := Made.consume (.provide (.ofSites 2) (by decide) provided) (by decide) consumed
  exact .insertLane (.insertLane supplied (by decide) (by decide) (by decide) there)
    (by decide) (by decide) (by decide) back

namespace Router

variable {w : Width} {router : Router} {problem : Problem} {settlement : Settlement}
  {supplies : List (Nat × Int)} {lanes : List LaneTerms}

/-- Where nothing has to be sent, a cycle that pays goes unnoticed. -/
theorem settle_overlooks_idle_cycles :
    ¬ ∀ (w : Width) (problem : Problem) (supplies : List (Nat × Int)) (lanes : List LaneTerms)
      (router : Router) (settlement : Settlement), Problem.Made w problem supplies lanes →
      (problem.sites.toList.map Site.supply).sum = 0 →
      (router.settle w problem).result = .ok settlement →
      ((∃ node, settlement.answer = .error (.negativeCycle node)) ↔
        ∃ node, problem.OnNegativeCycle node) := by
  intro always
  have ran : (({} : Router).settle ⟨3⟩ Problem.idleLoop).result =
      .ok ⟨{}, Problem.idleLoop, .ok .optimal⟩ := by with_unfolding_all rfl
  obtain ⟨node, blamed⟩ := (always _ _ _ _ _ _ Problem.idleLoop_made rfl ran).mpr
    ⟨0, Problem.idleLoop_onNegativeCycle⟩
  cases blamed

/-- Where the supplies cancel, a settlement is refused for a cycle exactly if something has
to be sent and some cycle of lanes pays, and the node named is a site on such a cycle. -/
theorem settle_blames_cycles (made : Problem.Made w problem supplies lanes)
    (balanced : (problem.sites.toList.map Site.supply).sum = 0)
    (ran : (router.settle w problem).result = .ok settlement) :
    ((∃ node, settlement.answer = .error (.negativeCycle node)) ↔
      ¬ problem.MetByLowers ∧ ∃ node, problem.OnNegativeCycle node) ∧
    ∀ node, settlement.answer = .error (.negativeCycle node) →
      node < problem.sites.size ∧ problem.OnNegativeCycle node := by
  obtain ⟨met, rfl⟩ | ⟨unmet, net, order, run, translates, proper, routed, settled⟩ :=
    settle_balanced made.sound balanced ran
  · exact ⟨iff_of_false (fun ⟨node, blamed⟩ => by cases blamed) fun ⟨unmet, _⟩ => unmet met,
      fun node blamed => by cases blamed⟩
  · have handed : ∀ node, settlement.answer = .error (.negativeCycle node) ↔
        run.answer = .error (.negativeCycle node) := by
      intro node
      rw [settled.answer_eq]
      cases run.answer <;> simp [Except.map]
    obtain ⟨blames, names⟩ := route_blamesCycles translates.sound proper routed
    simp only [handed, translates.onNegativeCycle_iff made.sound] at blames ⊢
    exact ⟨blames.trans (and_iff_right unmet).symm, fun node blamed =>
      translates.onNegativeCycle made.sound (names node blamed)⟩

theorem settle_blames_cycles_roundTrip :
    ¬ Problem.roundTrip.MetByLowers ∧ Problem.roundTrip.OnNegativeCycle 0 := by
  have ran : (({ limit? := some 0 } : Router).settle ⟨4⟩ Problem.roundTrip).result =
      .ok ⟨{ limit? := some 0 }, Problem.roundTrip, .error (.negativeCycle 0)⟩ := by
    with_unfolding_all rfl
  obtain ⟨blames, names⟩ := settle_blames_cycles Problem.roundTrip_made (by decide) ran
  exact ⟨(blames.mp ⟨0, rfl⟩).1, (names 0 rfl).2⟩

end Router

end Transshipment
