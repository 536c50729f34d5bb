import Transshipment.Proofs.RoutingLimits
import Transshipment.Proofs.SearchEffort

/-! Why a run ends. Each search ends because it scans no row twice, and the way back from the
sink because it is a simple path. Each round delivers at least one unit, so no run makes more
rounds than units are wanted, and whatever it ends in, its books show no more shipments than
units delivered and no more units than were wanted. -/
namespace Transshipment

namespace Progress

variable {w : Width} {order : Order} {origin : Network} {p : Progress}

/-- What the books show at the beginning of a round. -/
structure OnAccount (order : Order) (p : Progress) : Prop where
  counted : p.delivered + p.remaining = order.demand
  nonneg : 0 ≤ p.delivered
  le_demand : p.delivered ≤ order.demand
  paced : p.shipments ≤ p.delivered

private theorem Valid.onAccount (valid : p.Valid order origin) : p.OnAccount order := by
  have counted := valid.counted
  have paced := valid.paced
  have owed := valid.owed
  exact ⟨counted, by omega, by omega, paced⟩

/-- If a search reaches the sink, the way back is a path of some arcs, fewer than nodes. -/
theorem Valid.search_leads (valid : p.Valid order origin) (proper : order.Proper origin)
    (w : Width) (chart : Chart) :
    Checked.Ends (chart.search w p.net p.potentials order.source order.sink) Fault.IsOverflow
      fun (left, _, reached) => reached = true → ∃ path,
        left.pathTo p.net order.sink = .ok path ∧ 0 < path.length ∧ path.length < p.net.nodes := by
  have within := valid.proper proper
  have priced : p.net.PricedFrom p.potentials order.source :=
    fun id arc held isOpen _ => valid.priced.2 id arc held isOpen
  refine (Chart.search_ends w valid.sound chart valid.priced.1 within.source within.sink).imp
    (fun fault broke => priced.isOverflow broke) ?_
  rintro ⟨left, raised, reached⟩ ⟨-, -, leads⟩ found
  obtain ⟨path, led, cost, simple, -⟩ := leads found
  have nonempty : path ≠ [] := fun empty => proper.apart (simple.eq_nil_iff.mp empty).symm
  exact ⟨path, led, List.length_pos_of_ne_nil nonempty, simple.length_lt valid.sound within.sink⟩

/-- A shipment is made of at least one unit, and of no more than remain. -/
theorem Valid.dispatch_amount (valid : p.Valid order origin) (proper : order.Proper origin)
    (owing : 0 < p.remaining) (w : Width) :
    Checked.Ends (p.net.dispatch w p.potentials order.source order.sink p.remaining)
      Fault.IsOverflow fun dispatch => ∀ shipment after,
        dispatch.shipped? = some (shipment, after) →
          1 ≤ shipment.amount ∧ shipment.amount ≤ p.remaining := by
  refine (valid.dispatch_ends proper owing w).weaken ?_
  rintro ⟨survey, shipped?⟩ ⟨-, dispatched⟩ shipment after rfl
  exact ⟨dispatched.1, dispatched.2.1⟩

end Progress

namespace Router

variable {w : Width} {net : Network} {offers : List Offer} {router : Router} {order : Order}
  {p : Progress} {run : Run}

/-- A round of the run begins with this state: it is the first one, or the round before it
made a shipment. -/
def Heads (w : Width) (router : Router) (net : Network) (order : Order) (p : Progress) : Prop :=
  (∃ potentials, (net.startPotentials w).result = .ok (.ok potentials) ∧
    p = .start net potentials order.demand) ∨
  ∃ before, router.SearchesFrom w net order before ∧
    (before.advance w order).result = .ok (.shipped p)

private theorem Heads.valid (heads : router.Heads w net order p) (sound : net.Sound)
    (proper : order.Proper net) : p.Valid order net := by
  obtain ⟨potentials, computed, rfl⟩ | ⟨before, searches, shipped⟩ := heads
  · exact .of_startPotentials sound proper computed
  · have valid := searches.valid sound proper
    exact (Progress.advance_ends proper valid searches.owing (valid.secure w)).of_ok shipped

/-- The books at the end of a run, unless the order was refused as malformed. -/
theorem Concluded.onAccount (concluded : router.Concluded net order run)
    (formed : ∀ refusal, run.answer = .error refusal → refusal.blamesInput = false) :
    run.router.shipments ≤ run.router.delivered ∧ run.router.delivered ≤ order.demand ∧
      (run.answer = .ok .infeasible ∨ (∃ limit, run.answer = .error (.limitReached limit)) →
        run.router.delivered < order.demand) := by
  obtain ⟨refusal, refused, rfl⟩ | ⟨accepted, concluded⟩ := concluded
  · cases (blamesInput_of_orderRefusal? refused).symm.trans (formed refusal rfl)
  obtain ⟨-, -, nonneg⟩ := orderRefusal?_eq_none_iff.mp accepted
  obtain ⟨rfl, -⟩ | ⟨proper, ⟨node, rfl, -⟩ | ⟨ending, rfl, valid⟩⟩ := concluded
  · exact ⟨Int.le_refl 0, nonneg, by simp⟩
  · exact ⟨Int.le_refl 0, nonneg, by simp⟩
  · have books := valid.1.onAccount
    refine ⟨books.paced, books.le_demand, fun short => ?_⟩
    have counted := books.counted
    have answered := valid.2
    change ending.last.delivered < order.demand
    rcases short with infeasible | ⟨limit, stopped⟩
    · change ending.answer = _ at infeasible
      rw [infeasible] at answered
      omega
    · change ending.answer = _ at stopped
      rw [stopped] at answered
      omega

/-- A run makes progress and ends. At the head of a round what was delivered and what remains
are the demand. A search scans no row twice, and its way back is a path with fewer arcs than
there are nodes. A shipment delivers at least one unit, so a run makes no more of them than
units are wanted, and searches once only after as many. The books at its end show no more, and
less than the demand was delivered if the sink was out of reach or the limit was met. -/
theorem route_progresses (made : Network.Made w net offers) (router : Router) (order : Order) :
    (order.Proper net →
      (∀ p, router.Heads w net order p → p.OnAccount order) ∧
      (∀ p q, router.SearchesFrom w net order p → router.SearchesFrom w net order q →
        q.shipments = p.shipments → q = p) ∧
      ∀ p, router.SearchesFrom w net order p → p.shipments < order.demand ∧
        (∀ chart : Chart, chart.search w p.net p.potentials order.source order.sink =
            (fun survey => (survey.tree.chart, survey.potentials, survey.reached)) <$>
              p.net.survey w p.potentials order.source order.sink ∧
          chart.Thrifty w p.net p.potentials order.source order.sink ∧
          Checked.Ends (chart.search w p.net p.potentials order.source order.sink)
            Fault.IsOverflow fun (left, _, reached) => reached = true → ∃ path,
              left.pathTo p.net order.sink = .ok path ∧
                0 < path.length ∧ path.length < p.net.nodes) ∧
        Checked.Ends (p.net.dispatch w p.potentials order.source order.sink p.remaining)
          Fault.IsOverflow fun dispatch => ∀ shipment after,
            dispatch.shipped? = some (shipment, after) →
              1 ≤ shipment.amount ∧ shipment.amount ≤ p.remaining) ∧
    Checked.Ends (router.route w net order).result Fault.IsOverflow fun run =>
      (∀ refusal, run.answer = .error refusal → refusal.blamesInput = false) →
        run.router.shipments ≤ run.router.delivered ∧ run.router.delivered ≤ order.demand ∧
        (run.answer = .ok .infeasible ∨ (∃ limit, run.answer = .error (.limitReached limit)) →
          run.router.delivered < order.demand) := by
  obtain ⟨nodes, files⟩ := made.files
  refine ⟨fun proper => ⟨fun p heads => (heads.valid made.sound proper).onAccount,
      fun p q searches again => searches.unique again, fun p searches => ?_⟩,
    (route_concludes w made.sound router order).weaken fun run concluded => concluded.onAccount⟩
  have valid := searches.valid made.sound proper
  have filed := files.of_unloaded valid.same.symm valid.sound
  refine ⟨?_, fun chart => ⟨Chart.search_eq w valid.sound _ _ _ chart,
    Chart.search_thrifty filed w _ _ _ chart, ?_⟩, ?_⟩
  · have owing := searches.owing
    have paced := valid.paced
    have counted := valid.counted
    omega
  · exact valid.search_leads proper w chart
  · exact valid.dispatch_amount proper searches.owing w

/-- The node `2` is out of reach, so the first search scans two rows of three. -/
theorem route_progresses_sideBySide :
    (∀ node, node ∈ (Chart.used.searchNoted ⟨7⟩ (Network.sideBySide 0 0) #[0, -1, 0] 0 1).scanned ↔
        Chart.besides.chart.visited[node]? = some true) ∧
      (Chart.used.searchNoted ⟨7⟩ (Network.sideBySide 0 0) #[0, -1, 0] 0 1).scanned.Nodup ∧
      (Chart.used.searchNoted ⟨7⟩ (Network.sideBySide 0 0) #[0, -1, 0] 0 1).turns ≤ 7 ∧
      Progress.OnAccount ⟨0, 1, 2⟩ ⟨Network.sideBySide 1 0, #[0, -1, 0], 1, -1, 1, 1⟩ ∧
      ∃ run, (({ limit? := some 1 } : Router).route ⟨7⟩ (Network.sideBySide 0 0)
          ⟨0, 1, 2⟩).result = .ok run ∧
        run.answer = .error (.limitReached 1) ∧ run.router.delivered < 2 := by
  have made := Network.sideBySide_made
  have proper : Order.Proper ⟨0, 1, 2⟩ (Network.sideBySide 0 0) := by decide
  have computed : ((Network.sideBySide 0 0).startPotentials ⟨7⟩).result =
      .ok (.ok #[0, -1, 0]) := by with_unfolding_all rfl
  have searched : Chart.used.search ⟨7⟩ (Network.sideBySide 0 0) #[0, -1, 0] 0 1 =
      .ok (Chart.besides.chart, #[0, -1, 0], true) := by
    have surveyed : (Network.sideBySide 0 0).survey ⟨7⟩ #[0, -1, 0] 0 1 =
        .ok ⟨Chart.besides, #[0, -1, 0], true⟩ := by with_unfolding_all rfl
    rw [Chart.search_eq ⟨7⟩ made.sound, surveyed]
    rfl
  have shipped : ((Progress.start (Network.sideBySide 0 0) #[0, -1, 0] 2).advance ⟨7⟩
      ⟨0, 1, 2⟩).result = .ok (.shipped ⟨Network.sideBySide 1 0, #[0, -1, 0], 1, -1, 1, 1⟩) := by
    with_unfolding_all rfl
  have ran : (({ limit? := some 1 } : Router).route ⟨7⟩ (Network.sideBySide 0 0)
      ⟨0, 1, 2⟩).result = .ok ⟨⟨some 1, 1, 1, #[0, -1, 0]⟩, Network.sideBySide 1 0,
        .error (.limitReached 1)⟩ := by with_unfolding_all rfl
  have first : ({ limit? := some 1 } : Router).SearchesFrom ⟨7⟩ (Network.sideBySide 0 0) ⟨0, 1, 2⟩
      (.start (Network.sideBySide 0 0) #[0, -1, 0] 2) := ⟨_, computed, .here (by decide)⟩
  have formed : ∀ refusal, (Except.error (.limitReached 1) : Except Refusal Outcome) =
      .error refusal → refusal.blamesInput = false := by
    rintro _ ⟨⟩
    rfl
  obtain ⟨rounds, ends⟩ := route_progresses made { limit? := some 1 } ⟨0, 1, 2⟩
  obtain ⟨heads, -, searches⟩ := rounds proper
  obtain ⟨-, thrifty, -⟩ := (searches _ first).2.1 Chart.used
  exact ⟨fun node => (thrifty.visited _ _ _ searched node).symm, thrifty.nodup, thrifty.turns,
    heads _ (.inr ⟨_, first, shipped⟩), _, ran, rfl,
    ((ends.of_ok ran) formed).2.2 (.inr ⟨1, rfl⟩)⟩

end Router

end Transshipment
