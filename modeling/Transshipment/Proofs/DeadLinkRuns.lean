import Transshipment.Proofs.ClerkRuns
import Transshipment.Proofs.DeadLinks

/-! Runs over networks that differ only in their dead links. A shipment has to leave such a link
alone, so twins stay twins from round to round, and whatever is found in the one is found in
the other: the same messages, the same books, the same flow, and the same fault if there is
one. -/
namespace Transshipment

namespace Network

variable {w : Width} {net other : Network} {potentials : Potentials} {id : Nat} {amount : Int}

namespace Twins

theorem flow_eq (twins : net.Twins other) (id : Nat) : net.flow id = other.flow id := by
  unfold flow
  rcases twins.link_cases id with same | ⟨link, twin, held, twinHeld, dead, twinDead⟩
  · rw [same]
  · simp [held, twinHeld, dead.2, twinDead.2, bind, Except.bind]

private theorem bottleneck_eq (twins : net.Twins other) (path : List Nat) (bound : Int) :
    net.bottleneck path bound = other.bottleneck path bound := by
  unfold bottleneck
  refine congrArg (List.foldlM · bound path) ?_
  funext least id
  rcases twins.arc_cases id with same | ⟨arc, twin, held, twinHeld, none, twinNone⟩
  · rw [same]
  · simp [held, twinHeld, none, twinNone, bind, Except.bind]

/-- To write the same link in the same place makes no difference. -/
theorem write (twins : net.Twins other) (k : Nat) (link : Link) :
    Twins { net with links := net.links.setIfInBounds k link }
      { other with links := other.links.setIfInBounds k link } where
  nodes := twins.nodes
  size := by simpa using twins.size
  links place entry twin held twinHeld := by
    simp only [Array.getElem?_setIfInBounds, ← twins.size] at held twinHeld
    by_cases here : k = place
    · subst here
      simp only [if_true] at held twinHeld
      exact .inl (Option.some.inj (held.symm.trans twinHeld))
    · rw [if_neg here] at held twinHeld
      exact twins.links place entry twin held twinHeld

/-- Nothing can be pushed over a dead link. -/
theorem push_matches (twins : net.Twins other) (wanted : 0 < amount) (id : Nat) :
    Checked.Matches (fun next twin => next.Twins twin ∧ next.arc id = twin.arc id)
      (net.push w id amount) (other.push w id amount) := by
  unfold push
  rw [if_neg (by omega), if_neg (by omega)]
  rcases twins.link_cases id with same | ⟨link, twin, held, twinHeld, dead, twinDead⟩
  · rw [← same]
    refine Checked.matches_bind fun link held => ?_
    have found := link_eq_ok_iff.mp held
    have twinFound := link_eq_ok_iff.mp (same ▸ held)
    split
    · exact rfl
    · refine Checked.matches_bind fun shifted _ => ⟨twins.write (id / 2) shifted, ?_⟩
      have within := (Array.getElem?_eq_some_iff.mp found).1
      have twinWithin := (Array.getElem?_eq_some_iff.mp twinFound).1
      simp [Network.arc, Network.link, within, twinWithin]
  · rw [held, twinHeld]
    change Checked.Matches _ (if _ then _ else _) (if _ then _ else _)
    rw [dead.residual_eq_zero, twinDead.residual_eq_zero, if_pos wanted, if_pos wanted]
    exact rfl

private theorem traverse_matches (twins : net.Twins other) (wanted : 0 < amount) (cost : Int)
    (id : Nat) : Checked.Matches (fun sent twin => sent.1.Twins twin.1 ∧ sent.2 = twin.2)
      (traverse w amount (net, cost) id) (traverse w amount (other, cost) id) := by
  refine (twins.push_matches wanted id).bind fun next twin same => ?_
  rw [same.2]
  refine Checked.matches_bind fun arc _ => ?_
  refine Checked.matches_bind fun share _ => ?_
  exact Checked.matches_bind fun total _ => ⟨same.1, rfl⟩

private theorem ship_matches (twins : net.Twins other) (path : List Nat) (remaining : Int) :
    Checked.Matches (fun sent twin => sent.1 = twin.1 ∧ sent.2.Twins twin.2)
      (net.ship w path remaining) (other.ship w path remaining) := by
  unfold ship
  rw [twins.bottleneck_eq]
  refine Checked.matches_bind fun amount _ => ?_
  split
  · exact rfl
  · rename_i carries
    have wanted : 0 < amount := by omega
    have sent : Checked.Matches (fun sent twin => sent.1.Twins twin.1 ∧ sent.2 = twin.2)
        (path.foldlM (traverse w amount) (net, 0)) (path.foldlM (traverse w amount) (other, 0)) := by
      refine Checked.matches_foldlM ?_ path ⟨twins, rfl⟩
      rintro id ⟨net, cost⟩ ⟨other, _⟩ ⟨twins, rfl⟩
      exact twins.traverse_matches wanted cost id
    refine sent.bind ?_
    rintro ⟨net, cost⟩ ⟨other, _⟩ ⟨twins, rfl⟩
    exact Checked.matches_bind fun left _ => ⟨rfl, twins⟩

end Twins

namespace Alike

private theorem ship_matches (alike : net.Alike other) (path : List Nat) (remaining : Int) :
    Checked.Matches (fun sent twin => sent.1 = twin.1 ∧ sent.2.Alike twin.2)
      (net.ship w path remaining) (other.ship w path remaining) := by
  refine (alike.toTwins.ship_matches path remaining).imp_of_ok ?_
  rintro ⟨shipment, next⟩ ⟨again, twin⟩ shipped twinShipped ⟨same, twins⟩
  exact ⟨same, twins, alike.filed.imp fun _ files => files.ship shipped,
    alike.twinFiled.imp fun _ files => files.ship twinShipped⟩

/-- The same survey, and the same shipment if there is one. -/
theorem dispatch_matches (alike : net.Alike other) (potentials : Potentials) (source sink : Nat)
    (remaining : Int) :
    Checked.Matches (fun dispatch twin => dispatch.survey = twin.survey ∧
        Option.Rel (fun sent again => sent.1 = again.1 ∧ sent.2.Alike again.2)
          dispatch.shipped? twin.shipped?)
      (net.dispatch w potentials source sink remaining)
      (other.dispatch w potentials source sink remaining) := by
  unfold dispatch
  rw [survey_alike alike]
  refine Checked.matches_bind fun survey surveyed => ?_
  split
  · have way : survey.tree.trailTo net sink = survey.tree.trailTo other sink := by
      rw [← Chart.pathTo_chart, ← Chart.pathTo_chart]
      rw [← survey_alike alike] at surveyed
      exact Chart.pathTo_alike alike.toTwins (Chart.avoids_of_survey alike.sound surveyed) sink
    rw [way]
    refine Checked.matches_bind fun path _ => ?_
    exact (alike.ship_matches path remaining).bind fun sent again same => ⟨rfl, .some same⟩
  · exact ⟨rfl, .none⟩

end Alike

end Network

namespace Progress

/-- The same books over twins. -/
def Alike (p q : Progress) : Prop := ∃ other, p.net.Alike other ∧ q = { p with net := other }

end Progress

/-- A round that ends in the same way. -/
def Round.Alike : Round → Round → Prop
  | .stranded last, .stranded twin => last.Alike twin
  | .shipped next, .shipped twin => next.Alike twin
  | _, _ => False

/-- The same router and the same answer, over twins. -/
def Run.Alike (run twin : Run) : Prop :=
  ∃ other, run.net.Alike other ∧ twin = { run with net := other }

namespace Progress

variable {w : Width} {order : Order} {limit? : Option Nat} {p q : Progress}

private theorem account_matches {net other : Network} (alike : net.Alike other) (twin : Network)
    (potentials : Potentials) (shipment : Shipment) :
    Checked.Matches Alike (p.account w potentials shipment net)
      (Progress.account w { p with net := twin } potentials shipment other) := by
  refine Checked.matches_bind fun cost _ => ?_
  exact Checked.matches_bind fun delivered _ => ⟨other, alike, rfl⟩

private theorem advance_matches (alike : p.Alike q) :
    Traced.Matches Round.Alike (p.advance w order) (q.advance w order) := by
  obtain ⟨other, nets, rfl⟩ := alike
  have dispatches := nets.dispatch_matches (w := w) p.potentials order.source order.sink p.remaining
  unfold advance
  dsimp only
  cases found : p.net.dispatch w p.potentials order.source order.sink p.remaining with
  | error fault =>
    rw [found] at dispatches
    rw [dispatches.of_error]
    exact ⟨rfl, rfl⟩
  | ok dispatch =>
    obtain ⟨survey, shipped?⟩ := dispatch
    rw [found] at dispatches
    obtain ⟨⟨_, again?⟩, twinFound, rfl, sent⟩ := dispatches.of_ok
    rw [twinFound]
    dsimp only at sent
    cases sent with
    | none => exact ⟨rfl, other, nets, rfl⟩
    | @some sent again related =>
      obtain ⟨shipment, net⟩ := sent
      obtain ⟨_, twin⟩ := again
      obtain ⟨rfl, onward⟩ := related
      refine ⟨rfl, ?_⟩
      exact (account_matches onward other survey.potentials shipment).map fun next twin alike => alike

/-- From round to round, each of which leaves less to send, the networks stay twins, and the
rounds end in the same way. -/
theorem rounds_matches (p q : Progress) (alike : p.Alike q) :
    Traced.Matches (fun ending twin => ending.last.Alike twin.last ∧ ending.answer = twin.answer)
      (p.rounds w order limit?) (q.rounds w order limit?) := by
  obtain ⟨other, nets, rfl⟩ := alike
  by_cases met : p.remaining ≤ 0
  · unfold rounds
    simp only [if_pos met]
    exact ⟨rfl, ⟨other, nets, rfl⟩, rfl⟩
  cases open? : limit?.filter (· ≤ p.shipments) with
  | some limit =>
    unfold rounds
    simp only [if_neg met, open?]
    exact ⟨rfl, ⟨other, nets, rfl⟩, rfl⟩
  | none =>
    have continues : p.Continues limit? := ⟨Int.not_le.mp met, open?⟩
    have twinContinues : Continues limit? { p with net := other } := continues
    rw [continues.rounds_eq, twinContinues.rounds_eq]
    refine (advance_matches ⟨other, nets, rfl⟩).bind fun round twin ran same => ?_
    cases round with
    | stranded last =>
      cases twin with
      | stranded twin => exact ⟨rfl, same, rfl⟩
      | shipped twin => cases same
    | shipped next =>
      cases twin with
      | stranded twin => cases same
      | shipped twin =>
        have closer : next.remaining < p.remaining := advance_remaining_lt ran
        exact rounds_matches next twin same
termination_by p.remaining.toNat
decreasing_by omega

end Progress

/-- A run over twins gives the same answer, and leaves the same books and twins again. -/
theorem Router.route_alike {w : Width} {net other : Network} (alike : net.Alike other)
    (router : Router) (order : Order) :
    Traced.Matches Run.Alike (router.route w net order) (router.route w other order) := by
  have refused : orderRefusal? net order = orderRefusal? other order := by
    unfold orderRefusal?
    rw [alike.nodes]
  unfold route
  rw [refused, alike.nodes, alike.arcs_eq, Network.startPotentials_alike alike]
  cases orderRefusal? other order with
  | some refusal => exact ⟨rfl, other, alike, rfl⟩
  | none =>
    refine Traced.matches_bind _ fun _ => ?_
    split
    · exact ⟨rfl, other, alike, rfl⟩
    · refine Traced.matches_bind _ fun started => ?_
      cases started with
      | error refusal => exact ⟨rfl, other, alike, rfl⟩
      | ok potentials =>
        refine (Progress.rounds_matches _ _ ⟨other, alike, rfl⟩).bind ?_
        rintro ⟨last, answer⟩ ⟨_, _⟩ - ⟨⟨twin, nets, rfl⟩, rfl⟩
        exact ⟨rfl, twin, nets, rfl⟩

namespace Network

variable {w : Width} {net other : Network} {offers others : List Offer}

/-- Whatever is asked of the two networks, the answers do not tell which of them was asked:
the value, the fault, the messages, and the flow that a run leaves on every link. -/
structure Indistinct (w : Width) (net other : Network) : Prop where
  startPotentials : net.startPotentials w = other.startPotentials w
  search : ∀ (chart : Chart) potentials source sink,
    chart.search w net potentials source sink = chart.search w other potentials source sink
  /-- After a search every way back is the same, also if flow was moved since. -/
  pathTo : ∀ before befores, Made w before befores → before.unloaded = net.unloaded →
    ∀ (chart left : Chart) potentials raised source sink reached,
      chart.search w before potentials source sink = .ok (left, raised, reached) →
        ∀ node, left.pathTo net node = left.pathTo other node
  /-- And so it is on any other chart that leads over no dead link. -/
  wayBack : ∀ chart : Chart, chart.Avoids net →
    ∀ node, chart.pathTo net node = chart.pathTo other node
  run : ∀ (clerk : Clerk) order, Traced.Matches
    (fun run twin => run.router = twin.router ∧ run.answer = twin.answer ∧
      run.net.Twins twin.net ∧ ∀ id, run.net.flow id = twin.net.flow id)
    (Clerk.run <$> Clerk.route w order (clerk, net))
    (Clerk.run <$> Clerk.route w order (clerk, other))

/-- Dead links cannot be told apart: neither their cost nor the nodes that they join make a
difference to start potentials, to a search, to the path that it found, or to a run. Only a
chart that was left by a search elsewhere, where such a link was open, shows where it leads. -/
theorem dead_links_invisible (made : Made w net offers) (also : Made w other others)
    (twins : net.Twins other) : Indistinct w net other := by
  have alike : net.Alike other :=
    ⟨twins, made.files.elim fun _ files => ⟨_, files⟩, also.files.elim fun _ files => ⟨_, files⟩⟩
  constructor
  case startPotentials => exact startPotentials_alike alike w
  case search => exact fun chart potentials source sink =>
    Chart.search_alike alike w potentials source sink chart
  case pathTo =>
    intro before befores earlier same chart left potentials raised source sink reached searched
    exact Chart.pathTo_alike twins
      ((Chart.avoids_of_search earlier.sound searched).of_unloaded earlier.sound same)
  case wayBack => exact fun chart avoids => Chart.pathTo_alike twins avoids
  case run =>
    intro clerk order
    rw [Clerk.route_eq w made.sound, Clerk.route_eq w also.sound]
    obtain ⟨logs, results⟩ := clerk.toRouter.route_alike alike order
    refine ⟨logs, results.imp_of_ok ?_⟩
    rintro run _ - - ⟨twin, nets, rfl⟩
    exact ⟨rfl, rfl, nets.toTwins, nets.flow_eq⟩

/-- A link with room for two units, and one without capacity beside it that would be a
bargain. -/
def bargainBeside : Network := ⟨#[⟨0, 1, 3, 2, 0⟩, ⟨0, 1, -9, 0, 0⟩], #[#[0, 2], #[1, 3]]⟩

/-- The same, but the link without capacity leads back and has another cost. -/
def detourBeside : Network := ⟨#[⟨0, 1, 3, 2, 0⟩, ⟨1, 0, 5, 0, 0⟩], #[#[0, 3], #[1, 2]]⟩

/-- The bargain is overlooked in both. A search of the one and the way back on it, and a run that
ships a unit over its first link, are those of the other. -/
theorem dead_links_invisible_beside :
    (detourBeside.startPotentials ⟨7⟩).result = .ok (.ok #[0, 0]) ∧
      (∃ chart raised, Chart.search ⟨7⟩ detourBeside #[0, 0] 0 1 {} = .ok (chart, raised, true) ∧
        chart.pathTo detourBeside 1 = .ok [0]) ∧
      ∃ run, (Clerk.run <$> Clerk.route ⟨7⟩ ⟨0, 1, 1⟩ ({}, detourBeside)).result = .ok run ∧
        run.answer = .ok (.optimal 3) ∧ run.net.flow 0 = .ok 1 := by
  have inserted : insertOffers ⟨7⟩ (.ofNodes 2) [⟨0, 1, 2, 3⟩, ⟨0, 1, 0, -9⟩] =
      .ok (.ok bargainBeside) := by with_unfolding_all rfl
  have insertedToo : insertOffers ⟨7⟩ (.ofNodes 2) [⟨0, 1, 2, 3⟩, ⟨1, 0, 0, 5⟩] =
      .ok (.ok detourBeside) := by with_unfolding_all rfl
  have made := Made.insertOffers (.ofNodes 2) (by decide) inserted
  have also := Made.insertOffers (.ofNodes 2) (by decide) insertedToo
  have started : (bargainBeside.startPotentials ⟨7⟩).result = .ok (.ok #[0, 0]) := by
    with_unfolding_all rfl
  have surveyed : bargainBeside.survey ⟨7⟩ #[0, 0] 0 1 = .ok ⟨⟨#[.settled 0 none,
      .settled 3 (some 0)]⟩, #[0, 3], true⟩ := by with_unfolding_all rfl
  obtain ⟨chart, raised, searched, led⟩ : ∃ chart raised,
      Chart.search ⟨7⟩ bargainBeside #[0, 0] 0 1 {} = .ok (chart, raised, true) ∧
        chart.pathTo bargainBeside 1 = .ok [0] := by
    rw [Chart.search_eq ⟨7⟩ made.sound, surveyed]
    refine ⟨_, _, rfl, ?_⟩
    rw [Chart.pathTo_chart]
    with_unfolding_all rfl
  have ran : (Router.route ⟨7⟩ {} bargainBeside ⟨0, 1, 1⟩).result =
      .ok ⟨⟨none, 1, 1, #[0, 3]⟩, ⟨#[⟨0, 1, 3, 1, 1⟩, ⟨0, 1, -9, 0, 0⟩], bargainBeside.rows⟩,
        .ok (.optimal 3)⟩ := by with_unfolding_all rfl
  have indistinct := dead_links_invisible made also (by decide)
  refine ⟨indistinct.startPotentials ▸ started, ?_, ?_⟩
  · refine ⟨chart, raised, indistinct.search {} _ 0 1 ▸ searched, ?_⟩
    exact (indistinct.pathTo bargainBeside _ made rfl _ _ _ _ _ _ _ searched 1).symm.trans led
  · have runs := (indistinct.run {} ⟨0, 1, 1⟩).2
    rw [Clerk.route_eq ⟨7⟩ made.sound, ran] at runs
    obtain ⟨run, same, -, answer, -, flow⟩ := runs.of_ok
    exact ⟨run, same, answer.symm, (flow 0).symm⟩

/-- Two links out of one node, with room for a unit each. -/
def openFork : Network := ⟨#[⟨0, 1, 0, 1, 0⟩, ⟨0, 2, 0, 1, 0⟩], #[#[0, 2], #[1], #[3]]⟩

/-- The same, but the first link has no capacity. -/
def bluntFork : Network := ⟨#[⟨0, 1, 0, 0, 0⟩, ⟨0, 2, 0, 1, 0⟩], #[#[0, 2], #[1], #[3]]⟩

/-- The same once more, but the link without capacity starts where the other one ends. -/
def bluntChain : Network := ⟨#[⟨2, 1, 0, 0, 0⟩, ⟨0, 2, 0, 1, 0⟩], #[#[2], #[1], #[0, 3]]⟩

/-- A stray chart does tell dead links apart. After a search of the open fork, the way back on
either twin takes the first link, which is dead there, and goes on from wherever it starts. -/
theorem stray_chart_tells_dead_links :
    Made ⟨7⟩ bluntFork [⟨0, 1, 0, 0⟩, ⟨0, 2, 1, 0⟩] ∧
      Made ⟨7⟩ bluntChain [⟨2, 1, 0, 0⟩, ⟨0, 2, 1, 0⟩] ∧ bluntFork.Twins bluntChain ∧
      Made ⟨7⟩ openFork [⟨0, 1, 1, 0⟩, ⟨0, 2, 1, 0⟩] ∧
      ∃ chart raised, Chart.search ⟨7⟩ openFork #[0, 0, 0] 0 1 {} = .ok (chart, raised, true) ∧
        chart.pathTo bluntFork 1 = .ok [0] ∧ chart.pathTo bluntChain 1 = .ok [2, 0] := by
  have inserted : insertOffers ⟨7⟩ (.ofNodes 3) [⟨0, 1, 0, 0⟩, ⟨0, 2, 1, 0⟩] =
      .ok (.ok bluntFork) := by with_unfolding_all rfl
  have insertedToo : insertOffers ⟨7⟩ (.ofNodes 3) [⟨2, 1, 0, 0⟩, ⟨0, 2, 1, 0⟩] =
      .ok (.ok bluntChain) := by with_unfolding_all rfl
  have insertedOpen : insertOffers ⟨7⟩ (.ofNodes 3) [⟨0, 1, 1, 0⟩, ⟨0, 2, 1, 0⟩] =
      .ok (.ok openFork) := by with_unfolding_all rfl
  have made := Made.insertOffers (.ofNodes 3) (by decide) inserted
  have also := Made.insertOffers (.ofNodes 3) (by decide) insertedToo
  have earlier := Made.insertOffers (.ofNodes 3) (by decide) insertedOpen
  refine ⟨made, also, by decide, earlier, ?_⟩
  have surveyed : openFork.survey ⟨7⟩ #[0, 0, 0] 0 1 = .ok ⟨⟨#[.settled 0 none,
      .settled 0 (some 0), .settled 0 (some 2)]⟩, #[0, 0, 0], true⟩ := by with_unfolding_all rfl
  rw [Chart.search_eq ⟨7⟩ earlier.sound, surveyed]
  refine ⟨_, _, rfl, ?_, ?_⟩
  · rw [Chart.pathTo_chart]
    with_unfolding_all rfl
  · rw [Chart.pathTo_chart]
    with_unfolding_all rfl

end Network

end Transshipment
