import Transshipment.History
import Transshipment.Proofs.Repricing
import Transshipment.Proofs.StartPotentials

/-! What a run of rounds keeps. Between two rounds the potentials price the
network, the books agree with the flow, and nothing but the flow has changed. The
rounds end because each delivers something; the last one either leaves nothing to
send, or finds the sink out of reach, or meets the limit. -/
namespace Transshipment

namespace Progress

/-- The state belongs to an order over a network, and its books are right. -/
structure Valid (order : Order) (origin : Network) (p : Progress) : Prop where
  sound : p.net.Sound
  same : p.net.unloaded = origin.unloaded
  priced : p.net.PricedBy p.potentials
  brought : origin.Brings origin.carried p.net.carried order.source order.sink p.delivered
  paid : p.cost = origin.price p.net.carried - origin.price origin.carried
  counted : p.delivered + p.remaining = order.demand
  /-- Each shipment delivered something. -/
  paced : p.shipments ≤ p.delivered
  owed : 0 ≤ p.remaining

variable {order : Order} {origin : Network} {p : Progress} {potentials : Potentials}

theorem Valid.start (sound : origin.Sound) (priced : origin.PricedBy potentials)
    (wanted : 0 ≤ order.demand) :
    (Progress.start origin potentials order.demand).Valid order origin where
  sound := sound
  same := rfl
  priced := priced
  brought node := by simp [Progress.start]
  paid := by simp [Progress.start]
  counted := by simp [Progress.start]
  paced := by simp [Progress.start]
  owed := wanted

theorem Valid.nodes_eq (valid : p.Valid order origin) : p.net.nodes = origin.nodes :=
  Network.nodes_eq_of_unloaded valid.same

/-- The search alone changes nothing but the potentials. -/
theorem Valid.reprice (valid : p.Valid order origin) (priced : p.net.PricedBy potentials) :
    Valid order origin { p with potentials } :=
  { valid with priced }

/-- A round that shipped something: it searched, shipped along a simple walk, and entered
the shipment into the books. -/
structure Advances (order : Order) (p : Progress) (survey : Survey) (shipment : Shipment)
    (cost : Int) (next : Progress) : Prop where
  surveyed : p.net.Surveyed p.potentials order.source order.sink survey
  simple : p.net.SimpleWalk order.source shipment.path order.sink cost
  conveyed : p.net.Conveyed next.net shipment.path order.source order.sink shipment.amount cost
  priced : next.net.PricedBy next.potentials
  positive : 0 < shipment.amount
  below : shipment.amount ≤ p.remaining
  potentials : next.potentials = survey.potentials
  remaining : next.remaining = p.remaining - shipment.amount
  cost : next.cost = p.cost + shipment.amount * cost
  delivered : next.delivered = p.delivered + shipment.amount
  shipments : next.shipments = p.shipments + 1

/-- The books stay right. -/
theorem Valid.advances {survey : Survey} {shipment : Shipment} {cost : Int} {next : Progress}
    (valid : p.Valid order origin) (advances : p.Advances order survey shipment cost next) :
    next.Valid order origin where
  sound := advances.conveyed.sound
  same := advances.conveyed.same.trans valid.same
  priced := advances.priced
  brought := by
    rw [advances.delivered]
    exact valid.brought.trans (Network.brings_of_unloaded valid.same advances.conveyed.brings)
  paid := by
    have after := advances.conveyed.price
    rw [Network.price_of_unloaded (advances.conveyed.same.trans valid.same),
      Network.price_of_unloaded valid.same] at after
    rw [advances.cost, valid.paid]
    omega
  counted := by
    rw [advances.delivered, advances.remaining, ← valid.counted]
    omega
  paced := by
    have before := valid.paced
    have positive := advances.positive
    rw [advances.shipments, advances.delivered]
    omega
  owed := by
    have below := advances.below
    rw [advances.remaining]
    omega

end Progress

/-- The order wants something sent between two different nodes of the network. -/
structure Order.Proper (order : Order) (net : Network) : Prop where
  source : order.source < net.nodes
  sink : order.sink < net.nodes
  apart : order.source ≠ order.sink
  wanted : 0 < order.demand

instance (order : Order) (net : Network) : Decidable (order.Proper net) :=
  decidable_of_iff (order.source < net.nodes ∧ order.sink < net.nodes ∧
      order.source ≠ order.sink ∧ 0 < order.demand)
    ⟨fun ⟨source, sink, apart, wanted⟩ => ⟨source, sink, apart, wanted⟩,
      fun proper => ⟨proper.source, proper.sink, proper.apart, proper.wanted⟩⟩

namespace Order.Proper

variable {order : Order} {net other : Network} {amount : Int}

/-- Any amount may be asked for instead. -/
theorem withDemand (proper : order.Proper net) (wanted : 0 < amount) :
    Order.Proper { order with demand := amount } net :=
  { proper with wanted }

theorem of_nodes (proper : order.Proper net) (same : other.nodes = net.nodes) :
    order.Proper other :=
  { proper with
    source := same ▸ proper.source
    sink := same ▸ proper.sink }

end Order.Proper

/-- The books are right when the start potentials were found. -/
theorem Progress.Valid.of_startPotentials {w : Width} {order : Order} {net : Network}
    {potentials : Potentials} (sound : net.Sound) (proper : order.Proper net)
    (computed : (net.startPotentials w).result = .ok (.ok potentials)) :
    (Progress.start net potentials order.demand).Valid order net := by
  have started := (Network.startPotentials_ends w sound).of_ok computed
  exact .start sound started.1 (Int.le_of_lt proper.wanted)

/-- The order is as proper between two rounds as at the beginning. -/
theorem Progress.Valid.proper {order : Order} {origin : Network} {p : Progress}
    (valid : p.Valid order origin) (proper : order.Proper origin) : order.Proper p.net :=
  proper.of_nodes valid.nodes_eq

/-- A round found the sink out of reach, or it made a shipment; in either case the
books are right. -/
def Round.Valid (order : Order) (origin : Network) (round : Round) : Prop :=
  match round with
  | .stranded last => last.Valid order origin ∧ 0 < last.remaining ∧
      ¬ last.net.Connects order.source order.sink
  | .shipped next => next.Valid order origin

/-- What a round makes of a state: it finds the sink out of reach, or ships something. -/
def Round.Follows (order : Order) (p : Progress) (round : Round) : Prop :=
  match round with
  | .stranded last => ∃ survey : Survey,
      p.net.Surveyed p.potentials order.source order.sink survey ∧
        last = { p with potentials := survey.potentials } ∧
          ¬ p.net.Connects order.source order.sink
  | .shipped next => ∃ survey shipment cost, p.Advances order survey shipment cost next

theorem Round.Follows.valid {order : Order} {origin : Network} {p : Progress} {round : Round}
    (follows : round.Follows order p) (valid : p.Valid order origin) (owing : 0 < p.remaining) :
    round.Valid order origin := by
  cases round with
  | stranded last =>
    obtain ⟨survey, surveyed, rfl, unreachable⟩ := follows
    exact ⟨valid.reprice surveyed.priced, owing, unreachable⟩
  | shipped next =>
    obtain ⟨survey, shipment, cost, advances⟩ := follows
    exact valid.advances advances

namespace Progress

variable {order : Order} {origin : Network} {p : Progress}

/-- The answer at the end says what is left to send and why. -/
def Ending.Valid (order : Order) (origin : Network) (limit? : Option Nat) (ending : Ending) :
    Prop :=
  ending.last.Valid order origin ∧
    match ending.answer with
    | .ok (.optimal cost) => ending.last.remaining = 0 ∧ cost = ending.last.cost
    | .ok .infeasible => 0 < ending.last.remaining ∧
        ¬ ending.last.net.Connects order.source order.sink
    | .error refusal => 0 < ending.last.remaining ∧
        ∃ limit, limit? = some limit ∧ refusal = .limitReached limit

/-- What a round from this state computes is kept, the books included. -/
structure Secure (w : Width) (breaks : Fault → Prop) (order : Order) (p : Progress) : Prop where
  round : p.net.Secure w breaks p.potentials order.source p.remaining
  books : ∀ path cost amount, p.net.SimpleWalk order.source path order.sink cost → 0 < amount →
    amount ≤ p.remaining →
      w.Keeps breaks (p.cost + amount * cost) ∧ w.Keeps breaks (p.delivered + amount)

theorem Valid.secure (w : Width) (valid : p.Valid order origin) :
    p.Secure w Fault.IsOverflow order where
  round := Network.secure_of_priced w valid.priced order.source p.remaining
  books _ _ _ _ _ _ := ⟨w.keeps_of_overflows Fault.isOverflow_overflow _,
    w.keeps_of_overflows Fault.isOverflow_overflow _⟩

/-- The search of a round finds out what is in reach. -/
theorem Valid.survey_ends (valid : p.Valid order origin) (proper : order.Proper origin)
    (w : Width) :
    Checked.Ends (p.net.survey w p.potentials order.source order.sink) Fault.IsOverflow
      (p.net.Surveyed p.potentials order.source order.sink) := by
  have within := valid.proper proper
  exact Network.survey_ends valid.sound valid.priced (valid.secure w).round within.source
    within.sink

theorem Valid.dispatch_ends (valid : p.Valid order origin) (proper : order.Proper origin)
    (owing : 0 < p.remaining) (w : Width) :
    Checked.Ends (p.net.dispatch w p.potentials order.source order.sink p.remaining)
      Fault.IsOverflow (p.net.Dispatched p.potentials order.source order.sink p.remaining) := by
  have within := valid.proper proper
  exact Network.dispatch_ends valid.sound valid.priced (valid.secure w).round within.source
    within.sink within.apart owing

variable {w : Width} {breaks : Fault → Prop}

/-- What a round comes to, its message left out. -/
theorem result_advance (w : Width) (order : Order) (p : Progress) :
    (p.advance w order).result =
      p.net.dispatch w p.potentials order.source order.sink p.remaining >>= fun dispatch =>
        match dispatch.shipped? with
        | none => .ok (.stranded { p with potentials := dispatch.survey.potentials })
        | some (shipment, net) =>
          Round.shipped <$> p.account w dispatch.survey.potentials shipment net := by
  unfold advance
  split <;> rename_i dispatched <;> rw [dispatched] <;> rfl

/-- A round that found the sink out of reach made a search, and said so. -/
theorem dispatch_of_stranded {w : Width} {last : Progress}
    (stranded : (p.advance w order).result = .ok (.stranded last)) :
    ∃ survey, p.net.dispatch w p.potentials order.source order.sink p.remaining =
        .ok ⟨survey, none⟩ ∧
      (p.advance w order).log = [.unreachable order.sink p.remaining order.demand] ∧
      last = { p with potentials := survey.potentials } := by
  unfold advance at stranded ⊢
  split at stranded
  · cases stranded
  · rename_i survey dispatched
    cases stranded
    rw [dispatched]
    exact ⟨survey, rfl, rfl, rfl⟩
  · obtain ⟨booked, -, stranded⟩ := Checked.map_eq_ok_iff.mp stranded
    cases stranded

/-- A round that shipped told of its shipment and entered it into the books. -/
theorem dispatch_of_shipped {w : Width} {next : Progress}
    (shipped : (p.advance w order).result = .ok (.shipped next)) :
    ∃ survey shipment, p.net.dispatch w p.potentials order.source order.sink p.remaining =
        .ok ⟨survey, some (shipment, next.net)⟩ ∧
      (p.advance w order).log = [.pushed shipment.amount shipment.path.length shipment.cost] ∧
      next = ⟨next.net, survey.potentials, shipment.remaining, p.cost + shipment.cost,
        p.delivered + shipment.amount, p.shipments + 1⟩ := by
  unfold advance at shipped ⊢
  split at shipped
  · cases shipped
  · cases shipped
  · rename_i survey shipment net dispatched
    obtain ⟨booked, accounted, shipped⟩ := Checked.map_eq_ok_iff.mp shipped
    cases shipped
    obtain ⟨cost, costs, accounted⟩ := Checked.bind_eq_ok_iff.mp accounted
    obtain ⟨delivered, amounts, accounted⟩ := Checked.bind_eq_ok_iff.mp accounted
    cases accounted
    obtain ⟨rfl, -⟩ := Width.keep_eq_ok_iff.mp costs
    obtain ⟨rfl, -⟩ := Width.keep_eq_ok_iff.mp amounts
    rw [dispatched]
    exact ⟨survey, shipment, rfl, rfl, rfl⟩

/-- One round, step by step. -/
theorem advance_follows (proper : order.Proper origin) (valid : p.Valid order origin)
    (owing : 0 < p.remaining) (secure : p.Secure w breaks order) :
    Checked.Ends (p.advance w order).result breaks (Round.Follows order p) := by
  have within := valid.proper proper
  have dispatched := Network.dispatch_ends valid.sound valid.priced secure.round within.source
    within.sink within.apart owing
  unfold advance
  split
  · rename_i fault broke
    exact dispatched.of_error broke
  · rename_i survey made
    obtain ⟨surveyed, unreachable⟩ := dispatched.of_ok made
    exact ⟨survey, surveyed, rfl, unreachable⟩
  · rename_i survey shipment net made
    obtain ⟨surveyed, positive, below, left, priced, cost, paid, simple, conveyed⟩ :=
      dispatched.of_ok made
    obtain ⟨costs, amounts⟩ := secure.books shipment.path cost shipment.amount simple positive below
    rw [← paid] at costs
    refine Checked.Ends.map (f := Round.shipped) ?_
    apply costs.add.bind
    rintro _ rfl
    apply amounts.add.bind
    rintro _ rfl
    exact ⟨survey, shipment, cost, surveyed, simple, conveyed, priced, positive, below, rfl, left,
      by rw [paid], rfl, rfl⟩

/-- One round keeps the books right. -/
theorem advance_ends (proper : order.Proper origin) (valid : p.Valid order origin)
    (owing : 0 < p.remaining) (secure : p.Secure w breaks order) :
    Checked.Ends (p.advance w order).result breaks (Round.Valid order origin) :=
  (advance_follows proper valid owing secure).weaken fun _ follows => follows.valid valid owing

/-- Units are left to send, and the limit allows another search. -/
def Continues (limit? : Option Nat) (p : Progress) : Prop :=
  0 < p.remaining ∧ limit?.filter (· ≤ p.shipments) = none

instance (limit? : Option Nat) (p : Progress) : Decidable (p.Continues limit?) :=
  inferInstanceAs (Decidable (_ ∧ _))

/-- The rounds from the first state on come to search from the second one. -/
inductive Searches (w : Width) (order : Order) (limit? : Option Nat) :
    (first last : Progress) → Prop
  | here {p : Progress} : p.Continues limit? → Searches w order limit? p p
  | later {p next last : Progress} : p.Continues limit? →
    (p.advance w order).result = .ok (.shipped next) → Searches w order limit? next last →
      Searches w order limit? p last

/-- The rounds keep the books right to the end. -/
theorem rounds_ends (proper : order.Proper origin) (limit? : Option Nat)
    (valid : p.Valid order origin)
    (secure : ∀ last, p.Searches w order limit? last → last.Secure w breaks order) :
    Checked.Ends (p.rounds w order limit?).result breaks (Ending.Valid order origin limit?) := by
  fun_induction p.rounds w order limit? with
  | case1 p met =>
    have owed := valid.owed
    exact ⟨valid, Int.le_antisymm met owed, rfl⟩
  | case2 p owing limit reached =>
    exact ⟨valid, Int.not_le.mp owing, limit, (Option.filter_eq_some_iff.mp reached).1, rfl⟩
  | case3 p owing open? turn fault broke =>
    have continues : p.Continues limit? := ⟨Int.not_le.mp owing, open?⟩
    exact (advance_ends proper valid continues.1 (secure p (.here continues))).of_error broke
  | case4 p owing open? turn last stranded =>
    have continues : p.Continues limit? := ⟨Int.not_le.mp owing, open?⟩
    exact (advance_ends proper valid continues.1 (secure p (.here continues))).of_ok stranded
  | case5 p owing open? turn next shipped ih =>
    have continues : p.Continues limit? := ⟨Int.not_le.mp owing, open?⟩
    rw [Traced.result_after]
    exact ih ((advance_ends proper valid continues.1 (secure p (.here continues))).of_ok shipped)
      fun last searches => secure last (.later continues shipped searches)

theorem rounds_met {w : Width} {limit? : Option Nat} (met : p.remaining ≤ 0) :
    (p.rounds w order limit?).result = .ok ⟨p, .ok (.optimal p.cost)⟩ := by
  unfold rounds
  rw [if_pos met]

theorem rounds_stopped {w : Width} {limit : Nat} (owing : 0 < p.remaining)
    (reached : limit ≤ p.shipments) :
    (p.rounds w order (some limit)).result = .ok ⟨p, .error (.limitReached limit)⟩ := by
  unfold rounds
  rw [if_neg (Int.not_le.mpr owing), Option.filter_some_pos (by simpa using reached)]

/-- Where the rounds go on, one round is made, and what follows depends on how it ended. -/
theorem Continues.rounds_eq {w : Width} {limit? : Option Nat} (continues : p.Continues limit?) :
    p.rounds w order limit? = p.advance w order >>= fun
      | .stranded last => pure ⟨last, .ok .infeasible⟩
      | .shipped next => next.rounds w order limit? := by
  conv_lhs => unfold rounds
  rw [if_neg (Int.not_le.mpr continues.1), continues.2]
  change _ = Traced.bind _ _
  unfold Traced.bind
  dsimp only
  split <;> rename_i found <;> rw [found]
  · simp [pure]
  · rfl

theorem Continues.rounds_stranded {w : Width} {limit? : Option Nat} {last : Progress}
    (continues : p.Continues limit?) (stranded : (p.advance w order).result = .ok (.stranded last)) :
    (p.rounds w order limit?).result = .ok ⟨last, .ok .infeasible⟩ := by
  rw [continues.rounds_eq, Traced.result_bind, stranded]
  rfl

theorem Continues.rounds_shipped {w : Width} {limit? : Option Nat} {next : Progress}
    (continues : p.Continues limit?) (shipped : (p.advance w order).result = .ok (.shipped next)) :
    (p.rounds w order limit?).result = (next.rounds w order limit?).result := by
  rw [continues.rounds_eq, Traced.result_bind, shipped]
  rfl

theorem Continues.rounds_broke {w : Width} {limit? : Option Nat} {fault : Fault}
    (continues : p.Continues limit?) (broke : (p.advance w order).result = .error fault) :
    (p.rounds w order limit?).result = .error fault := by
  rw [continues.rounds_eq, Traced.result_bind, broke]
  rfl

/-- What the rounds come to, they come to from each search on the way. -/
theorem Searches.rounds_eq {w : Width} {limit? : Option Nat} {last : Progress}
    (searches : p.Searches w order limit? last) :
    (p.rounds w order limit?).result = (last.rounds w order limit?).result := by
  induction searches with
  | here continues => rfl
  | later continues shipped _ ih => exact (continues.rounds_shipped shipped).trans ih

/-- A search is only come to where the rounds go on. -/
theorem Searches.continues {w : Width} {limit? : Option Nat} {last : Progress}
    (searches : p.Searches w order limit? last) : p.Continues limit? := by
  cases searches with
  | here continues => exact continues
  | later continues _ _ => exact continues

private theorem Searches.owing {w : Width} {limit? : Option Nat} {last : Progress}
    (searches : p.Searches w order limit? last) : 0 < last.remaining := by
  induction searches with
  | here continues => exact continues.1
  | later _ _ _ ih => exact ih

/-- The books are right before each search. -/
theorem Valid.searches {w : Width} {limit? : Option Nat} {last : Progress}
    (valid : p.Valid order origin) (proper : order.Proper origin)
    (searches : p.Searches w order limit? last) : last.Valid order origin := by
  induction searches with
  | here continues => exact valid
  | later continues shipped _ ih =>
    exact ih ((advance_ends proper valid continues.1 (valid.secure w)).of_ok shipped)

end Progress

namespace Router

variable {order : Order} {net : Network} {router : Router} {run : Run}

theorem orderRefusal?_eq_none_iff : orderRefusal? net order = none ↔
    order.source < net.nodes ∧ order.sink < net.nodes ∧ 0 ≤ order.demand := by
  unfold orderRefusal?
  split_ifs <;> simp <;> omega

/-- A run over a network either names a node on a negative cycle and leaves the
network alone, or the books at its end are right. -/
def Routed (router : Router) (net : Network) (order : Order) (run : Run) : Prop :=
  (∃ node, run = ⟨{ limit? := router.limit? }, net, .error (.negativeCycle node)⟩ ∧
    net.OnNegativeCycle node) ∨
  ∃ ending : Progress.Ending, run = close { limit? := router.limit? } ending ∧
    ending.Valid order net router.limit?

/-- A proper order is worked off from the start potentials, or refused where there
are none. -/
theorem route_proper (w : Width) (router : Router) (proper : order.Proper net) :
    (router.route w net order).result = (net.startPotentials w).result >>= fun
      | .error refusal => .ok ⟨{ limit? := router.limit? }, net, .error refusal⟩
      | .ok potentials =>
        close { limit? := router.limit? } <$>
          ((Progress.start net potentials order.demand).rounds w order router.limit?).result := by
  have wanted := proper.wanted
  have accepted : orderRefusal? net order = none :=
    orderRefusal?_eq_none_iff.mpr ⟨proper.source, proper.sink, Int.le_of_lt wanted⟩
  have something : ¬ (order.demand = 0 ∨ order.source = order.sink) := by
    rintro (nothing | same)
    · omega
    · exact proper.apart same
  unfold route
  rw [accepted]
  dsimp only
  rw [Traced.result_bind, Traced.result_emit]
  change (ite _ _ _ : Traced Run).result = _
  rw [if_neg something, Traced.result_bind]
  refine congrArg _ (funext fun started => ?_)
  cases started with
  | error refusal => rfl
  | ok potentials => exact Traced.result_bind _ _

/-- A completed run handed on the refusal of its start potentials, or it went through
from them to its ending. -/
def Completed (w : Width) (router : Router) (net : Network) (order : Order) (run : Run) : Prop :=
  (∃ node, (net.startPotentials w).result = .ok (.error (.negativeCycle node)) ∧
    net.OnNegativeCycle node ∧
      run = ⟨{ limit? := router.limit? }, net, .error (.negativeCycle node)⟩) ∨
  ∃ potentials ending, (net.startPotentials w).result = .ok (.ok potentials) ∧
    net.PricedBy potentials ∧ run = close { limit? := router.limit? } ending ∧
      Progress.Ending.Valid order net router.limit? ending

/-- A run over the network comes to search from this state. -/
def SearchesFrom (w : Width) (router : Router) (net : Network) (order : Order) (p : Progress) :
    Prop :=
  ∃ potentials, (net.startPotentials w).result = .ok (.ok potentials) ∧
    (Progress.start net potentials order.demand).Searches w order router.limit? p

/-- From each search on, the run is what the rounds make of that state. -/
theorem SearchesFrom.route_eq {w : Width} {p : Progress} (searches : router.SearchesFrom w net order p)
    (proper : order.Proper net) :
    (router.route w net order).result =
      close { limit? := router.limit? } <$> (p.rounds w order router.limit?).result := by
  obtain ⟨potentials, computed, searches⟩ := searches
  rw [route_proper w router proper, computed, ← searches.rounds_eq]
  rfl

theorem SearchesFrom.valid {w : Width} {p : Progress} (searches : router.SearchesFrom w net order p)
    (sound : net.Sound) (proper : order.Proper net) : p.Valid order net := by
  obtain ⟨potentials, computed, searches⟩ := searches
  exact (Progress.Valid.of_startPotentials sound proper computed).searches proper searches

theorem SearchesFrom.owing {w : Width} {p : Progress}
    (searches : router.SearchesFrom w net order p) : 0 < p.remaining := by
  obtain ⟨potentials, -, searches⟩ := searches
  exact searches.owing

/-- A proper order is completed if what the start potentials and the rounds compute can be
kept. -/
theorem route_completes_of_secure {w : Width} {breaks : Fault → Prop} (sound : net.Sound)
    (router : Router) (proper : order.Proper net)
    (kept : ∀ amount, Relaxation.Tried net amount → w.Keeps breaks amount)
    (secure : ∀ p, router.SearchesFrom w net order p → p.Secure w breaks order) :
    Checked.Ends (router.route w net order).result breaks (router.Completed w net order) := by
  rw [route_proper w router proper]
  have starts := Network.startPotentials_ends_of_kept kept sound
  cases computed : (net.startPotentials w).result with
  | error fault => exact starts.of_error computed
  | ok answer =>
    have started := starts.of_ok computed
    cases answer with
    | error refusal =>
      obtain ⟨node, rfl, cycle⟩ := started
      exact .inl ⟨node, computed, cycle, rfl⟩
    | ok potentials =>
      have valid := Progress.Valid.start sound started.1 (Int.le_of_lt proper.wanted)
      refine Checked.Ends.map (f := close _) ?_
      refine (Progress.rounds_ends proper router.limit? valid fun last searches =>
        secure last ⟨potentials, computed, searches⟩).weaken fun ending concluded => ?_
      exact .inr ⟨potentials, ending, computed, started.1, rfl, concluded⟩

theorem route_completes (w : Width) (sound : net.Sound) (router : Router)
    (proper : order.Proper net) :
    Checked.Ends (router.route w net order).result Fault.IsOverflow
      (router.Completed w net order) := by
  exact route_completes_of_secure sound router proper
    (fun amount _ => w.keeps_of_overflows Fault.isOverflow_overflow amount)
    fun _ searches => (searches.valid sound proper).secure w

theorem route_proper_ends (w : Width) (sound : net.Sound) (router : Router)
    (proper : order.Proper net) :
    Checked.Ends (router.route w net order).result Fault.IsOverflow (router.Routed net order) := by
  refine (route_completes w sound router proper).weaken ?_
  rintro run (⟨node, -, cycle, closed⟩ | ⟨potentials, ending, -, -, closed, valid⟩)
  · exact .inl ⟨node, closed, cycle⟩
  · exact .inr ⟨ending, closed, valid⟩

theorem route_nothing (w : Width) (router : Router) (source : order.source < net.nodes)
    (sink : order.sink < net.nodes) (nonneg : 0 ≤ order.demand)
    (nothing : order.demand = 0 ∨ order.source = order.sink) :
    (router.route w net order).result =
      .ok ⟨{ limit? := router.limit? }, net, .ok (.optimal 0)⟩ := by
  unfold route
  rw [orderRefusal?_eq_none_iff.mpr ⟨source, sink, nonneg⟩]
  dsimp only
  rw [Traced.result_bind, Traced.result_emit, if_pos nothing]
  rfl

/-- An accepted order that is not proper has nothing to send. -/
theorem nothing_of_improper (accepted : orderRefusal? net order = none)
    (improper : ¬ order.Proper net) : order.demand = 0 ∨ order.source = order.sink := by
  obtain ⟨source, sink, nonneg⟩ := orderRefusal?_eq_none_iff.mp accepted
  by_contra something
  rw [not_or] at something
  exact improper ⟨source, sink, something.2, by omega⟩

/-- An order that is malformed or has nothing to send is answered at once. -/
theorem route_improper (w : Width) (router : Router) (improper : ¬ order.Proper net) :
    (router.route w net order).result = .ok (match orderRefusal? net order with
      | some refusal => ⟨router, net, .error refusal⟩
      | none => ⟨{ limit? := router.limit? }, net, .ok (.optimal 0)⟩) := by
  cases refused : orderRefusal? net order with
  | some refusal =>
    unfold route
    rw [refused]
    rfl
  | none =>
    obtain ⟨source, sink, nonneg⟩ := orderRefusal?_eq_none_iff.mp refused
    rw [route_nothing w router source sink nonneg (nothing_of_improper refused improper)]

/-- How a run comes out: a malformed order is refused, an order with nothing to send is
done at once, and any other is worked off. -/
def Concluded (router : Router) (net : Network) (order : Order) (run : Run) : Prop :=
  (∃ refusal, orderRefusal? net order = some refusal ∧ run = ⟨router, net, .error refusal⟩) ∨
  orderRefusal? net order = none ∧
    ((run = ⟨{ limit? := router.limit? }, net, .ok (.optimal 0)⟩ ∧
        (order.demand = 0 ∨ order.source = order.sink)) ∨
      order.Proper net ∧ router.Routed net order run)

theorem route_concludes (w : Width) (sound : net.Sound) (router : Router) (order : Order) :
    Checked.Ends (router.route w net order).result Fault.IsOverflow
      (router.Concluded net order) := by
  by_cases proper : order.Proper net
  · have accepted : orderRefusal? net order = none :=
      orderRefusal?_eq_none_iff.mpr ⟨proper.source, proper.sink, Int.le_of_lt proper.wanted⟩
    exact (route_proper_ends w sound router proper).weaken fun run routed =>
      .inr ⟨accepted, .inr ⟨proper, routed⟩⟩
  · rw [route_improper w router proper]
    cases refused : orderRefusal? net order with
    | some refusal => exact .inl ⟨refusal, refused, rfl⟩
    | none => exact .inr ⟨refused, .inl ⟨rfl, nothing_of_improper refused proper⟩⟩

/-- What a run leaves that was refused: nothing changed if the order is malformed, cleared
books at a cycle, and otherwise the limit was reached. -/
theorem Concluded.refused {refusal : Refusal} (concluded : router.Concluded net order run)
    (refused : run.answer = .error refusal) :
    (orderRefusal? net order = some refusal ∧ run = ⟨router, net, .error refusal⟩) ∨
    (∃ node, refusal = .negativeCycle node ∧
      run = ⟨{ limit? := router.limit? }, net, .error refusal⟩) ∨
    ∃ limit, router.limit? = some limit ∧ refusal = .limitReached limit := by
  obtain ⟨other, malformed, rfl⟩ |
    ⟨-, ⟨rfl, -⟩ | ⟨-, ⟨node, rfl, -⟩ | ⟨ending, rfl, -, ended⟩⟩⟩ := concluded
  · cases refused
    exact .inl ⟨malformed, rfl⟩
  · cases refused
  · cases refused
    exact .inr (.inl ⟨node, rfl, rfl⟩)
  · change ending.answer = .error refusal at refused
    rw [refused] at ended
    obtain ⟨-, limit, given, rfl⟩ := ended
    exact .inr (.inr ⟨limit, given, rfl⟩)

/-- Whatever the order, only an overflow breaks a run off, and the network it
leaves differs from the first in its flow alone. -/
theorem route_ends (w : Width) (sound : net.Sound) (router : Router) (order : Order) :
    Checked.Ends (router.route w net order).result Fault.IsOverflow fun run =>
      run.net.Sound ∧ run.net.unloaded = net.unloaded := by
  refine (route_concludes w sound router order).weaken ?_
  rintro run (⟨refusal, -, rfl⟩ | ⟨-, ⟨rfl, -⟩ | ⟨-, ⟨node, rfl, -⟩ | ⟨ending, rfl, valid, -⟩⟩⟩)
  · exact ⟨sound, rfl⟩
  · exact ⟨sound, rfl⟩
  · exact ⟨sound, rfl⟩
  · exact ⟨valid.sound, valid.same⟩

end Router

/-- What each accepted link extends, a list of offers extends that were all accepted. -/
theorem Network.insertOffers_extends {w : Width} {holds : Network → List Offer → Prop}
    (extend : ∀ {net next : Network} {before : List Offer} {offer : Offer} {id : Nat},
      holds net before → w.Fits offer.capacity → w.Fits offer.cost →
      net.insertLink w offer.tail offer.head offer.capacity offer.cost = .ok (.ok (id, next)) →
      holds next (before ++ [offer]))
    {net next : Network} {before offers : List Offer} (start : holds net before)
    (fit : ∀ offer ∈ offers, w.Fits offer.capacity ∧ w.Fits offer.cost)
    (inserted : net.insertOffers w offers = .ok (.ok next)) : holds next (before ++ offers) := by
  induction offers generalizing net before with
  | nil =>
    cases inserted
    rwa [List.append_nil]
  | cons offer rest ih =>
    obtain ⟨answer, first, inserted⟩ := Checked.bind_eq_ok_iff.mp inserted
    cases answer with
    | error refusal => cases inserted
    | ok added =>
      have fits := fit offer (by simp)
      have grown := ih (extend start fits.1 fits.2 first)
        (fun later member => fit later (by simp [member])) inserted
      rwa [List.append_assoc] at grown

/-- A list of offers that were all accepted makes a network. -/
theorem Network.Made.insertOffers {w : Width} {net next : Network} {before offers : List Offer}
    (made : Network.Made w net before)
    (fit : ∀ offer ∈ offers, w.Fits offer.capacity ∧ w.Fits offer.cost)
    (inserted : net.insertOffers w offers = .ok (.ok next)) :
    Network.Made w next (before ++ offers) :=
  insertOffers_extends .insertLink made fit inserted

/-- Whatever a network was made by, it is sound. -/
theorem Network.Made.sound {w : Width} {net : Network} {offers : List Offer}
    (made : Network.Made w net offers) : net.Sound := by
  induction made with
  | ofNodes nodes => exact Sound.ofNodes nodes
  | insertNode _ sound => exact sound.insertNode
  | insertLink _ _ _ inserted sound => exact sound.insertLink inserted
  | push _ pushed sound => exact sound.push pushed
  | ship _ shipped sound => exact sound.ship shipped
  | @route net offers router order run _ routed sound =>
    exact ((Router.route_ends w sound router order).of_ok routed).1

end Transshipment
