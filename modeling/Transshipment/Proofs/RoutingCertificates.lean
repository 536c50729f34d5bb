import Transshipment.Proofs.RoutingRounds

/-! What certifies the end of a run. The start potentials exist exactly where no cycle
of open arcs costs less than nothing, and where one does, the refusal names a node on it. A
run hands that refusal on, under whatever limit, and blames no cycle for anything else.
Before each search and at each end of a run that was not refused for a cycle, the
potentials price the network as it is then, so no open arc is a bargain under them,
whether or not the search came to its ends. -/
namespace Transshipment

/-! ## Negative cycles -/

namespace Network

variable {net : Network} {node : Nat} {price : Nat → Int}

/-- The answer blames a negative cycle exactly where there is one, and the node that
it names lies on one. -/
def BlamesCycles (net : Network) (answer : Except Refusal α) : Prop :=
  ((∃ node, answer = .error (.negativeCycle node)) ↔ ∃ node, net.OnNegativeCycle node) ∧
    ∀ node, answer = .error (.negativeCycle node) → net.OnNegativeCycle node

theorem BlamesCycles.of_cycle (cycle : net.OnNegativeCycle node) :
    net.BlamesCycles (.error (.negativeCycle node) : Except Refusal α) := by
  refine ⟨iff_of_true ⟨node, rfl⟩ ⟨node, cycle⟩, fun other same => ?_⟩
  cases same
  exact cycle

theorem BlamesCycles.of_prices {answer : Except Refusal α} (prices : net.Prices price)
    (blameless : ∀ node, answer ≠ .error (.negativeCycle node)) : net.BlamesCycles answer :=
  ⟨iff_of_false (fun ⟨node, blamed⟩ => blameless node blamed)
    fun ⟨node, cycle⟩ => prices.no_negative_cycle node cycle,
    fun node blamed => absurd blamed (blameless node)⟩

/-- The start potentials are refused for negative cycles only, and found wherever
there is none. -/
theorem Started.blamesCycles {answer : Except Refusal Potentials} (started : net.Started answer) :
    net.BlamesCycles answer := by
  cases answer with
  | error refusal =>
    obtain ⟨node, rfl, cycle⟩ := started
    exact .of_cycle cycle
  | ok potentials => exact .of_prices started.1.prices fun node => by simp

end Network

namespace Progress

variable {order : Order} {origin : Network} {limit? : Option Nat} {ending : Ending}

/-- Rounds never end at a negative cycle. -/
theorem Ending.Valid.blameless (valid : ending.Valid order origin limit?) (node : Nat) :
    ending.answer ≠ .error (.negativeCycle node) := by
  intro blamed
  have answered := valid.2
  rw [blamed] at answered
  obtain ⟨-, limit, -, same⟩ := answered
  cases same

end Progress

namespace Router

variable {w : Width} {net : Network} {router : Router} {order : Order} {run : Run}

/-- Where no cycle pays, a completed run went through to an ending. -/
theorem ending_of_route (sound : net.Sound) (proper : order.Proper net)
    (acyclic : ∀ node, ¬ net.OnNegativeCycle node)
    (ran : (router.route w net order).result = .ok run) :
    ∃ ending, run = close { limit? := router.limit? } ending ∧
      Progress.Ending.Valid order net router.limit? ending := by
  obtain ⟨node, -, cycle, -⟩ | ⟨potentials, ending, -, -, closed, valid⟩ :=
    (route_completes w sound router proper).of_ok ran
  · exact absurd cycle (acyclic node)
  · exact ⟨ending, closed, valid⟩

theorem route_blamesCycles (sound : net.Sound) (proper : order.Proper net)
    (ran : (router.route w net order).result = .ok run) : net.BlamesCycles run.answer := by
  obtain ⟨node, -, cycle, rfl⟩ | ⟨potentials, ending, -, priced, rfl, valid⟩ :=
    (route_completes w sound router proper).of_ok ran
  · exact .of_cycle cycle
  · exact .of_prices priced.prices valid.blameless

/-- A run names the node that the start potentials name, whatever its limit. -/
theorem route_blames_iff (w : Width) (sound : net.Sound) (router : Router)
    (proper : order.Proper net) (node : Nat) :
    (∃ run, (router.route w net order).result = .ok run ∧
        run.answer = .error (.negativeCycle node)) ↔
      (net.startPotentials w).result = .ok (.error (.negativeCycle node)) := by
  constructor
  · rintro ⟨run, ran, blamed⟩
    obtain ⟨other, computed, -, rfl⟩ | ⟨potentials, ending, -, -, rfl, valid⟩ :=
      (route_completes w sound router proper).of_ok ran
    · cases blamed
      exact computed
    · exact absurd blamed (valid.blameless node)
  · intro computed
    rw [route_proper w router proper, computed]
    exact ⟨_, rfl, rfl⟩

end Router

namespace Network

variable {w : Width} {net : Network} {offers : List Offer}

/-- A cycle between two nodes gains two units each time round, and a third node hangs
off it. -/
def spokedCycle : Network :=
  ⟨#[⟨0, 1, 1, 1, 0⟩, ⟨1, 2, -3, 1, 0⟩, ⟨2, 1, 1, 1, 0⟩, ⟨2, 3, 0, 1, 0⟩],
    #[#[0], #[1, 2, 5], #[3, 4, 6], #[7]]⟩

private theorem spokedCycle_made :
    Made ⟨7⟩ spokedCycle [⟨0, 1, 1, 1⟩, ⟨1, 2, 1, -3⟩, ⟨2, 1, 1, 1⟩, ⟨2, 3, 1, 0⟩] := by
  have inserted : insertOffers ⟨7⟩ (.ofNodes 4)
      [⟨0, 1, 1, 1⟩, ⟨1, 2, 1, -3⟩, ⟨2, 1, 1, 1⟩, ⟨2, 3, 1, 0⟩] = .ok (.ok spokedCycle) := by decide
  exact .insertOffers (.ofNodes 4) (by decide) inserted

/-- The start potentials are refused exactly where a cycle of open arcs costs less
than nothing, the node named lies on such a cycle, and every run is refused in the
same cases for the same node. -/
theorem negative_cycles_detected (made : Made w net offers) :
    (∀ answer, (net.startPotentials w).result = .ok answer → net.BlamesCycles answer) ∧
    ∀ (router : Router) (order : Order), order.Proper net →
      (∀ run, (router.route w net order).result = .ok run → net.BlamesCycles run.answer) ∧
      ∀ node, (∃ run, (router.route w net order).result = .ok run ∧
          run.answer = .error (.negativeCycle node)) ↔
        (net.startPotentials w).result = .ok (.error (.negativeCycle node)) := by
  refine ⟨fun answer computed => ?_, fun router order proper => ⟨fun run ran => ?_, ?_⟩⟩
  · exact ((startPotentials_ends w made.sound).of_ok computed).blamesCycles
  · exact Router.route_blamesCycles made.sound proper ran
  · exact Router.route_blames_iff w made.sound router proper

theorem negative_cycles_detected_spokedCycle :
    spokedCycle.OnNegativeCycle 1 ∧
      ∃ run, (({ limit? := some 0 } : Router).route ⟨7⟩ spokedCycle ⟨0, 3, 1⟩).result = .ok run ∧
        run.answer = .error (.negativeCycle 1) := by
  have computed : (spokedCycle.startPotentials ⟨7⟩).result = .ok (.error (.negativeCycle 1)) := by
    with_unfolding_all rfl
  obtain ⟨blames, runs⟩ := negative_cycles_detected spokedCycle_made
  obtain ⟨-, agree⟩ := runs { limit? := some 0 } ⟨0, 3, 1⟩ (by decide)
  exact ⟨(blames _ computed).2 1 rfl, (agree 1).mpr computed⟩

end Network

/-! ## Potentials as certificates -/

namespace Network

/-- Two links side by side that carry these amounts, and a node out of reach with a
link into the same head. -/
def sideBySide (near far : Int) : Network :=
  ⟨#[⟨0, 1, -1, 1 - near, near⟩, ⟨0, 1, 3, 1 - far, far⟩, ⟨2, 1, 0, 1, 0⟩],
    #[#[0, 2], #[1, 3, 5], #[4]]⟩

theorem sideBySide_made :
    Made ⟨7⟩ (sideBySide 0 0) [⟨0, 1, 1, -1⟩, ⟨0, 1, 1, 3⟩, ⟨2, 1, 1, 0⟩] := by
  have inserted : insertOffers ⟨7⟩ (.ofNodes 3)
      [⟨0, 1, 1, -1⟩, ⟨0, 1, 1, 3⟩, ⟨2, 1, 1, 0⟩] = .ok (.ok (sideBySide 0 0)) := by decide
  exact .insertOffers (.ofNodes 3) (by decide) inserted

end Network

namespace Router

variable {w : Width} {net : Network} {offers : List Offer} {order : Order}

/-- However a run ends that was neither refused nor broken off, its potentials price
the network that it leaves, and so do the potentials of every round before the search,
also in runs that break off later. -/
theorem route_certified (made : Network.Made w net offers) (router : Router)
    (proper : order.Proper net) :
    (∀ run, (router.route w net order).result = .ok run →
      ((∃ outcome, run.answer = .ok outcome) ∨
        ∃ limit, run.answer = .error (.limitReached limit)) →
      run.router.potentials.size = net.nodes ∧ run.net.PricedBy run.router.potentials) ∧
    ∀ p, router.SearchesFrom w net order p →
      p.potentials.size = net.nodes ∧ p.net.PricedBy p.potentials := by
  refine ⟨fun run ran ended => ?_, fun p searches => ?_⟩
  · obtain ⟨node, -, -, rfl⟩ | ⟨potentials, ending, -, -, rfl, valid, -⟩ :=
      (route_completes w made.sound router proper).of_ok ran
    · rcases ended with ⟨outcome, ended⟩ | ⟨limit, ended⟩ <;> cases ended
    · exact ⟨valid.priced.1.trans valid.nodes_eq, valid.priced⟩
  · have valid := searches.valid made.sound proper
    exact ⟨valid.priced.1.trans valid.nodes_eq, valid.priced⟩

theorem route_certified_sideBySide :
    (Network.sideBySide 1 1).PricedBy #[0, 3, 4] ∧
      (Network.sideBySide 1 0).PricedBy #[0, -1, 0] := by
  have proper : Order.Proper ⟨0, 1, 2⟩ (Network.sideBySide 0 0) := by decide
  have ran : (({} : Router).route ⟨7⟩ (Network.sideBySide 0 0) ⟨0, 1, 2⟩).result =
      .ok ⟨⟨none, 2, 2, #[0, 3, 4]⟩, Network.sideBySide 1 1, .ok (.optimal 2)⟩ := by
    with_unfolding_all rfl
  have computed : ((Network.sideBySide 0 0).startPotentials ⟨7⟩).result =
      .ok (.ok #[0, -1, 0]) := by with_unfolding_all rfl
  have shipped : ((Progress.start (Network.sideBySide 0 0) #[0, -1, 0] 2).advance ⟨7⟩
      ⟨0, 1, 2⟩).result = .ok (.shipped ⟨Network.sideBySide 1 0, #[0, -1, 0], 1, -1, 1, 1⟩) := by
    with_unfolding_all rfl
  have second : ({} : Router).SearchesFrom ⟨7⟩ (Network.sideBySide 0 0) ⟨0, 1, 2⟩
      ⟨Network.sideBySide 1 0, #[0, -1, 0], 1, -1, 1, 1⟩ :=
    ⟨_, computed, .later (by decide) shipped (.here (by decide))⟩
  obtain ⟨ends, rounds⟩ := route_certified Network.sideBySide_made {} proper
  exact ⟨(ends _ ran (.inl ⟨_, rfl⟩)).2, (rounds _ second).2⟩

end Router

end Transshipment
