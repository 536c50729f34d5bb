import Transshipment.Clerk
import Transshipment.Proofs.ChartedSearches
import Transshipment.Proofs.RefusedRequests

/-! What a clerk does is what a router does, over any carrier that stands for the network. The
chart is wiped before each search, so the searches of a clerk find what those of a router find,
and so do the rounds, the runs and the settlements that are made of them. -/
namespace Transshipment

namespace InPlace

variable {σ α β : Type} {state : σ}

private theorem accept_bind (answer : Except Refusal α) (next : α → InPlace σ β) :
    (accept answer >>= next) state =
      match answer with
      | .ok value => next value state
      | .error refusal => ⟨[], .ok (state, .error refusal)⟩ := by
  cases answer <;> rfl

end InPlace

namespace Carrier

variable {σ : Type} [Carrier σ]

/-- Carriers that stand for networks are read as these and ship like them. -/
structure Faithful (stands : σ → Network → Prop) : Prop where
  network {carrier : σ} {net : Network} : stands carrier net → Carrier.network carrier = net
  ship {carrier : σ} {net : Network} : stands carrier net →
    ∀ (w : Width) (path : List Nat) (remaining : Int),
      Checked.Matches (fun sent shipped => sent.1 = shipped.1 ∧ stands sent.2 shipped.2)
        (Carrier.ship w carrier path remaining) (net.ship w path remaining)

/-- A network stands for itself. -/
theorem faithful_eq : Faithful (Eq : Network → Network → Prop) where
  network same := same
  ship := by
    rintro net _ rfl w path remaining
    change Checked.Matches _ (net.ship w path remaining) _
    cases net.ship w path remaining with
    | error fault => exact rfl
    | ok sent => exact ⟨rfl, rfl⟩

end Carrier

open InPlace

namespace Clerk

variable {σ : Type} [Carrier σ] {stands : σ → Network → Prop} {w : Width} {order : Order}
  {carrier : σ} {net : Network} {clerk : Clerk} {remaining cost : Int}

/-- A dispatch leaves its potentials and its chart with the clerk. -/
theorem dispatch_matches (faithful : Carrier.Faithful stands) (stood : stands carrier net)
    (sound : net.Sound) :
    Checked.Matches (fun left dispatch =>
        left.1 = { clerk with
          potentials := dispatch.survey.potentials, chart := dispatch.survey.tree.chart } ∧
        Option.Rel (fun sent shipped => sent.1 = shipped.1 ∧ stands sent.2 shipped.2)
          left.2 dispatch.shipped?)
      (clerk.dispatch w order remaining carrier)
      (net.dispatch w clerk.potentials order.source order.sink remaining) := by
  unfold dispatch Network.dispatch
  rw [faithful.network stood]
  dsimp only
  rw [Chart.search_eq w sound, bind_map_left]
  refine Checked.matches_bind fun survey _ => ?_
  dsimp only
  rw [Chart.pathTo_chart]
  split
  · refine Checked.matches_bind fun path _ => ?_
    exact (faithful.ship stood w path remaining).bind fun sent shipped same => ⟨rfl, .some same⟩
  · exact ⟨rfl, .none⟩

/-- The state of the rounds, so far as it stands in the books of a clerk. -/
def progress (clerk : Clerk) (net : Network) (remaining cost : Int) : Progress :=
  ⟨net, clerk.potentials, remaining, cost, clerk.delivered, clerk.shipments⟩

/-- Booking a shipment is accounting for it in the rounds. -/
theorem account_eq (w : Width) (clerk : Clerk) (net last : Network) (potentials : Potentials)
    (remaining cost : Int) (shipment : Shipment) :
    Progress.account w ⟨net, potentials, remaining, cost, clerk.delivered, clerk.shipments⟩
        clerk.potentials shipment last =
      (fun booked : Clerk × Int => booked.1.progress last shipment.remaining booked.2) <$>
        clerk.book w cost shipment := by
  unfold Progress.account book
  simp only [map_bind, map_pure]
  rfl

private theorem limit?_of_book {shipment : Shipment} {booked : Clerk × Int}
    (done : clerk.book w cost shipment = .ok booked) : booked.1.limit? = clerk.limit? := by
  obtain ⟨total, _, done⟩ := Checked.bind_eq_ok_iff.mp done
  obtain ⟨delivered, _, done⟩ := Checked.bind_eq_ok_iff.mp done
  cases done
  rfl

private theorem progress_continues (owing : ¬ remaining ≤ 0)
    (open? : clerk.limit?.filter (· ≤ clerk.shipments) = none) :
    (clerk.progress net remaining cost).Continues clerk.limit? :=
  ⟨Int.not_le.mp owing, open?⟩

/-- The clerk has the books of the run, and its carrier stands for the network of the run. -/
def Shows (stands : σ → Network → Prop) (left : (Clerk × σ) × Except Refusal Outcome)
    (run : Run) : Prop :=
  left.1.1.toRouter = run.router ∧ stands left.1.2 run.net ∧ left.2 = run.answer

/-- A clerk makes the rounds of a router: they end where the demand is met, the limit is reached,
the dispatch breaks off or the sink is out of reach, and a shipment leads on to the next. -/
theorem rounds_matches (faithful : Carrier.Faithful stands) (stood : stands carrier net)
    (sound : net.Sound) :
    Traced.Matches (Shows stands) (clerk.rounds w order remaining cost carrier)
      (Router.close { limit? := clerk.limit? } <$>
        (clerk.progress net remaining cost).rounds w order clerk.limit?) := by
  fun_induction clerk.rounds w order remaining cost carrier generalizing net with
  | case1 remaining cost clerk carrier met =>
    unfold Progress.rounds
    rw [if_pos (show (clerk.progress net remaining cost).remaining ≤ 0 from met)]
    exact ⟨rfl, rfl, stood, rfl⟩
  | case2 remaining cost clerk carrier owing limit reached =>
    unfold Progress.rounds progress
    simp only [if_neg owing, reached]
    exact ⟨rfl, rfl, stood, rfl⟩
  | case3 remaining cost clerk carrier owing open? fault broke =>
    have found := (broke ▸ dispatch_matches faithful stood sound).of_error
    rw [(progress_continues owing open?).rounds_eq]
    simp only [Progress.advance, progress, found]
    exact ⟨rfl, rfl⟩
  | case4 remaining cost clerk carrier owing open? left stranded =>
    obtain ⟨⟨survey, _⟩, found, rfl, stayed⟩ :=
      (stranded ▸ dispatch_matches faithful stood sound).of_ok
    cases stayed
    rw [(progress_continues owing open?).rounds_eq]
    simp only [Progress.advance, progress, found]
    exact ⟨rfl, rfl, stood, rfl⟩
  | case5 remaining cost clerk carrier owing open? left shipment last shipped ih =>
    obtain ⟨⟨survey, _⟩, found, rfl, sent⟩ :=
      (shipped ▸ dispatch_matches faithful stood sound).of_ok
    obtain @⟨_, ⟨shipment, net⟩, rfl, onward⟩ := sent
    obtain ⟨path, -, sent⟩ := Network.ship_of_dispatch found
    rw [(progress_continues owing open?).rounds_eq]
    simp only [Progress.advance, progress, found]
    rw [account_eq w { clerk with potentials := survey.potentials, chart := survey.tree.chart }]
    cases booked : book w cost
      { clerk with potentials := survey.potentials, chart := survey.tree.chart } shipment with
    | error fault => exact ⟨rfl, rfl⟩
    | ok made =>
      have same := ih made.1 made.2 onward (sound.ship sent)
      rw [limit?_of_book booked] at same
      change Traced.Matches _ (Traced.after _ (rounds w order shipment.remaining made.2 made.1 last))
        (_ <$> Traced.after _ (Progress.rounds w order clerk.limit? _))
      rw [Traced.map_after]
      exact same.after _

/-- A run of a clerk shows what a run of the router does, message by message. -/
theorem route_matches (faithful : Carrier.Faithful stands) (stood : stands carrier net)
    (sound : net.Sound) (order : Order) (clerk : Clerk) :
    Traced.Matches (Shows stands) (route w order (clerk, carrier))
      (clerk.toRouter.route w net order) := by
  unfold route Router.route Router.orderRefusal?
  simp only [read_bind, refuseIf_bind, write_bind, traced_bind]
  rw [faithful.network stood]
  by_cases tail : net.nodes ≤ order.source
  · rw [if_pos tail, if_pos tail]
    exact ⟨rfl, rfl, stood, rfl⟩
  by_cases head : net.nodes ≤ order.sink
  · rw [if_neg tail, if_neg tail, if_pos head, if_pos head]
    exact ⟨rfl, rfl, stood, rfl⟩
  by_cases negative : order.demand < 0
  · rw [if_neg tail, if_neg tail, if_neg head, if_neg head, if_pos negative, if_pos negative]
    exact ⟨rfl, rfl, stood, rfl⟩
  simp only [if_neg tail, if_neg head, if_neg negative]
  refine Traced.matches_bind _ fun _ => ?_
  split
  case isTrue => exact ⟨rfl, rfl, stood, rfl⟩
  case isFalse =>
    rw [traced_bind]
    refine Traced.matches_bind _ fun started => ?_
    rw [accept_bind]
    cases started with
    | error refusal => exact ⟨rfl, rfl, stood, rfl⟩
    | ok potentials =>
      dsimp only
      rw [← map_eq_pure_bind]
      exact rounds_matches faithful stood sound

/-- The same on a network that stands for itself. -/
theorem route_eq (w : Width) (sound : net.Sound) (order : Order) (clerk : Clerk) :
    run <$> route w order (clerk, net) = clerk.toRouter.route w net order := by
  refine (route_matches Carrier.faithful_eq rfl sound order clerk).map_eq ?_
  rintro ⟨⟨clerk, _⟩, _⟩ ⟨_, net, _⟩ ⟨rfl, rfl, rfl⟩
  rfl

/-- A settlement by a clerk shows what a settlement by the router does. -/
theorem settle_eq {problem : Problem} (w : Width) (sound : problem.Sound) (clerk : Clerk) :
    settlement <$> settle w (clerk, problem) = clerk.toRouter.settle w problem := by
  unfold settle Router.settle
  rw [read_bind]
  dsimp only
  rw [checked_bind]
  cases problem.unbalanced w with
  | error fault => rfl
  | ok unbalanced =>
    dsimp only
    rw [refuseIf_bind]
    cases unbalanced with
    | true => rfl
    | false =>
      rw [if_neg (by decide), apart_bind (Problem.addOrder_granted w sound)]
      cases made : problem.toOrder w with
      | error fault => rfl
      | ok ordered =>
        have translates := (problem.toOrder_ends w sound).of_ok made
        change settlement <$> (((liftM (route w ordered.2 (clerk, ordered.1)) :
          InPlace (Clerk × Problem) _) >>= fun routed => _) (clerk, problem)) =
            clerk.toRouter.route w ordered.1 ordered.2 >>= fun run => _
        rw [traced_bind, map_bind, ← route_eq w translates.sound, bind_map_left]
        refine congrArg (route w ordered.2 (clerk, ordered.1) >>= ·) (funext fun routed => ?_)
        obtain ⟨⟨left, net⟩, refusal | outcome⟩ := routed
        · rfl
        · dsimp only [run]
          rw [write_bind, accept_bind]
          cases problem.withFlows net <;> rfl

end Clerk

end Transshipment
