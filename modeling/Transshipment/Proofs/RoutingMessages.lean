import Transshipment.Proofs.FlowConservation

/-! What a run tells of itself. A run that was not refused as malformed opens with its order, tells
of each shipment when it was made, and closes with what it ended in. The messages agree with the
books: the shipments told are those that were made, in order, and their amounts and costs add up
to what was delivered and what was paid. -/
namespace Transshipment

/-- What is told of a shipment. -/
def Shipment.message (shipment : Shipment) : Message :=
  .pushed shipment.amount shipment.path.length shipment.cost

/-- What is told of an order before it is worked on. -/
def Order.message (order : Order) (net : Network) : Message :=
  .routing order.demand order.source order.sink net.nodes net.arcs

/-- What is told at the end of a run, so far as its answer and its books say. Of an order that was
refused as malformed nothing is told. -/
def Run.message? (order : Order) (run : Run) : Option Message :=
  match run.answer with
  | .ok (.optimal cost) => some (.routed run.router.delivered cost run.router.shipments)
  | .ok .infeasible =>
    some (.unreachable order.sink (order.demand - run.router.delivered) order.demand)
  | .error (.limitReached limit) => some (.stopped limit (order.demand - run.router.delivered))
  | .error (.negativeCycle node) => some (.cycleFound node)
  | .error _ => none

/-- What a run closes with is for debugging. -/
theorem Run.level_of_message? {order : Order} {run : Run} {closing : Message}
    (closes : run.message? order = some closing) : closing.level = .debug := by
  unfold message? at closes
  split at closes <;> cases closes <;> rfl

namespace Progress

variable {w : Width} {order : Order} {limit? : Option Nat} {p next : Progress} {ending : Ending}
  {log : List Message} {shipments : List Shipment} {closing : Message}

/-- From a state on, the log tells of these shipments and then of the end, and the books at the
end say the same. -/
structure Reports (w : Width) (order : Order) (limit? : Option Nat) (p : Progress)
    (log : List Message) (ending : Ending) (shipments : List Shipment) (closing : Message) :
    Prop where
  log_eq : log = shipments.map Shipment.message ++ [closing]
  closes : ∀ router : Router, (router.close ending).message? order = some closing
  counted : p.shipments + shipments.length = ending.last.shipments
  delivered : p.delivered + (shipments.map (·.amount)).sum = ending.last.delivered
  paid : ∀ cost, ending.answer = .ok (.optimal cost) → p.cost + (shipments.map (·.cost)).sum = cost
  /-- A negative cycle is found before the rounds or never. -/
  blameless : ∀ node, ending.answer ≠ .error (.negativeCycle node)
  /-- Each shipment told is the one that was made after as many others. -/
  made : ∀ (i : Nat) shipment, shipments[i]? = some shipment → ∃ q survey after,
    p.Searches w order limit? q ∧ q.shipments = p.shipments + i ∧
    q.net.dispatch w q.potentials order.source order.sink q.remaining =
      .ok ⟨survey, some (shipment, after)⟩

/-- At the end no shipment is left to tell of. -/
theorem Reports.end
    (closes : ∀ router : Router, (router.close ending).message? order = some closing)
    (counted : ending.last.shipments = p.shipments)
    (delivered : ending.last.delivered = p.delivered)
    (paid : ∀ cost, ending.answer = .ok (.optimal cost) → p.cost = cost)
    (blameless : ∀ node, ending.answer ≠ .error (.negativeCycle node)) :
    p.Reports w order limit? [closing] ending [] closing where
  log_eq := rfl
  closes := closes
  counted := counted.symm
  delivered := by simp [delivered]
  paid cost optimal := by simp [paid cost optimal]
  blameless := blameless
  made i shipment told := by simp at told

/-- A shipment is told of before all that follows it. -/
theorem Reports.ship (continues : p.Continues limit?)
    (shipped : (p.advance w order).result = .ok (.shipped next))
    (reports : next.Reports w order limit? log ending shipments closing) :
    ∃ shipment, p.Reports w order limit? ((p.advance w order).log ++ log) ending
      (shipment :: shipments) closing := by
  obtain ⟨survey, shipment, dispatched, told, booked⟩ := dispatch_of_shipped shipped
  refine ⟨shipment, ?_⟩
  constructor
  case closes => exact reports.closes
  case blameless => exact reports.blameless
  case log_eq =>
    rw [told, reports.log_eq]
    rfl
  case counted =>
    have counted := reports.counted
    rw [booked] at counted
    rw [List.length_cons, ← counted]
    dsimp only
    omega
  case delivered =>
    have delivered := reports.delivered
    rw [booked] at delivered
    rw [List.map_cons, List.sum_cons, ← delivered, Int.add_assoc]
  case paid =>
    intro cost optimal
    have paid := reports.paid cost optimal
    rw [booked] at paid
    rw [List.map_cons, List.sum_cons, ← paid, Int.add_assoc]
  case made =>
    rintro (_ | i) other listed
    · obtain rfl : shipment = other := by simpa using listed
      exact ⟨p, survey, next.net, .here continues, rfl, dispatched⟩
    · obtain ⟨q, found, after, searches, many, made⟩ := reports.made i other (by simpa using listed)
      have once := congrArg Progress.shipments booked
      refine ⟨q, found, after, .later continues shipped searches, ?_, made⟩
      dsimp only at once
      omega

/-- What remains is the rest of the demand, so long as it was before the round. -/
theorem counted_of_shipped (counted : p.delivered + p.remaining = order.demand)
    (shipped : (p.advance w order).result = .ok (.shipped next)) :
    next.delivered + next.remaining = order.demand := by
  obtain ⟨survey, shipment, dispatched, -, booked⟩ := dispatch_of_shipped shipped
  obtain ⟨path, -, sent⟩ := Network.ship_of_dispatch dispatched
  obtain ⟨-, left⟩ := Network.ship_remaining sent
  rw [booked]
  dsimp only
  omega

/-- The rounds tell of every shipment and then of their end: each appends its message, and the
rest of the log is that of the state it leads to. A message tells what remains, where the books
tell what was delivered. -/
theorem rounds_reports (counted : p.delivered + p.remaining = order.demand)
    (ended : (p.rounds w order limit?).result = .ok ending) :
    ∃ shipments closing,
      p.Reports w order limit? (p.rounds w order limit?).log ending shipments closing := by
  fun_induction p.rounds w order limit? with
  | case1 p met =>
    cases ended
    refine ⟨[], _, .end (fun _ => rfl) rfl rfl ?_ ?_⟩ <;> rintro _ ⟨⟩
    rfl
  | case2 p owing limit reached =>
    cases ended
    have rest : p.remaining = order.demand - p.delivered := by omega
    rw [rest]
    refine ⟨[], _, .end (fun _ => rfl) rfl rfl ?_ ?_⟩ <;> rintro _ ⟨⟩
  | case3 p owing open? turn fault broke => cases ended
  | case4 p owing open? turn last stranded =>
    cases ended
    obtain ⟨survey, -, told, rfl⟩ := dispatch_of_stranded stranded
    have rest : p.remaining = order.demand - p.delivered := by omega
    dsimp only [turn]
    rw [told, rest]
    refine ⟨[], _, .end (fun _ => rfl) rfl rfl ?_ ?_⟩ <;> rintro _ ⟨⟩
  | case5 p owing open? turn next shipped ih =>
    rw [Traced.result_after] at ended
    obtain ⟨shipments, closing, reports⟩ := ih (counted_of_shipped counted shipped) ended
    obtain ⟨shipment, told⟩ := reports.ship ⟨Int.not_le.mp owing, open?⟩ shipped
    exact ⟨shipment :: shipments, closing, told⟩

end Progress

/-- The search for start potentials tells of nothing but a cycle. -/
theorem Network.startPotentials_tells {w : Width} {net : Network}
    {answer : Except Refusal Potentials} (computed : (net.startPotentials w).result = .ok answer) :
    (∃ potentials, answer = .ok potentials ∧ (net.startPotentials w).log = []) ∨
      ∃ node, answer = .error (.negativeCycle node) ∧
        (net.startPotentials w).log = [.cycleFound node] := by
  unfold startPotentials at computed ⊢
  cases relaxed : net.relaxation w with
  | error fault =>
    rw [Traced.result_bind, Traced.result_lift, relaxed] at computed
    cases computed
  | ok r =>
    rw [Traced.result_bind, Traced.result_lift, relaxed] at computed
    rw [Traced.log_bind_of_ok (Traced.result_lift _)]
    change (Traced.result _) = _ at computed
    cases lowered : r.lowered? with
    | none =>
      rw [lowered] at computed
      cases computed
      exact .inl ⟨_, rfl, rfl⟩
    | some last =>
      rw [lowered] at computed
      cases computed
      exact .inr ⟨_, rfl, rfl⟩

namespace Router

variable {w : Width} {net : Network} {router : Router} {order : Order} {run : Run}

/-- The work on an order that asks for something. -/
def work (w : Width) (router : Router) (net : Network) (order : Order) : Traced Run :=
  net.startPotentials w >>= fun
    | .error refusal => pure ⟨{ limit? := router.limit? }, net, .error refusal⟩
    | .ok potentials => close { limit? := router.limit? } <$>
        (Progress.start net potentials order.demand).rounds w order router.limit?

/-- An accepted order is told of, and then worked off unless it asks for nothing. -/
theorem route_eq_work (w : Width) (router : Router) (accepted : orderRefusal? net order = none) :
    router.route w net order = Traced.emit (order.message net) >>= fun _ =>
      if order.demand = 0 ∨ order.source = order.sink then
        pure ⟨{ limit? := router.limit? }, net, .ok (.optimal 0)⟩
      else router.work w net order := by
  unfold route
  rw [accepted]
  rfl

/-- The log opens with the order, tells of these shipments, and has this closing message, if any. It
agrees with the books of the run and with its answer. -/
structure Tells (w : Width) (router : Router) (net : Network) (order : Order) (run : Run)
    (log : List Message) (shipments : List Shipment) (closing? : Option Message) : Prop where
  log_eq : log = order.message net :: (shipments.map Shipment.message ++ closing?.toList)
  counted : shipments.length = run.router.shipments
  delivered : (shipments.map (·.amount)).sum = run.router.delivered
  paid : ∀ cost, run.answer = .ok (.optimal cost) → (shipments.map (·.cost)).sum = cost
  /-- A negative cycle is found before anything is shipped. -/
  unsent : ∀ node, run.answer = .error (.negativeCycle node) → shipments = []
  /-- Each shipment told is the one that was made in the round after as many others. -/
  made : ∀ (i : Nat) shipment, shipments[i]? = some shipment → ∃ p survey after,
    router.SearchesFrom w net order p ∧ p.shipments = i ∧
    p.net.dispatch w p.potentials order.source order.sink p.remaining =
      .ok ⟨survey, some (shipment, after)⟩

/-- Where nothing was shipped, only the order and the end are told of. -/
theorem Tells.unshipped {log : List Message} {closing? : Option Message}
    (told : log = closing?.toList) (unsent : run.router.shipments = 0)
    (nothing : run.router.delivered = 0)
    (free : ∀ cost, run.answer = .ok (.optimal cost) → cost = 0) :
    router.Tells w net order run (order.message net :: log) [] closing? where
  log_eq := congrArg _ told
  counted := unsent.symm
  delivered := nothing.symm
  paid cost optimal := (free cost optimal).symm
  unsent _ _ := rfl
  made i shipment told := by simp at told

/-- Shipments are traced, the rest is for debugging. -/
theorem Tells.levels {log : List Message} {shipments : List Shipment} {closing? : Option Message}
    (tells : router.Tells w net order run log shipments closing?)
    (closes : ∀ closing, closing? = some closing → closing.level = .debug) :
    log.map Message.level =
      .debug :: (List.replicate run.router.shipments .trace ++
        closing?.toList.map fun _ => .debug) := by
  have traced : (shipments.map Shipment.message).map Message.level =
      List.replicate shipments.length .trace :=
    List.eq_replicate_iff.mpr ⟨by simp, by simp [Shipment.message, Message.level]⟩
  rw [tells.log_eq, List.map_cons, List.map_append, traced, tells.counted]
  congr 2
  cases closing? with
  | none => rfl
  | some closing => exact congrArg (fun level => [level]) (closes closing rfl)

/-- The rounds from the start tell of the run, once its order was told of. -/
theorem Tells.of_reports {potentials : Potentials} {ending : Progress.Ending} {log : List Message}
    {shipments : List Shipment} {closing : Message}
    (computed : (net.startPotentials w).result = .ok (.ok potentials))
    (reports : (Progress.start net potentials order.demand).Reports w order router.limit? log ending
      shipments closing) :
    router.Tells w net order (close { limit? := router.limit? } ending)
      (order.message net :: log) shipments (some closing) where
  log_eq := congrArg _ reports.log_eq
  counted := (Nat.zero_add _).symm.trans reports.counted
  delivered := (Int.zero_add _).symm.trans reports.delivered
  paid cost optimal := (Int.zero_add _).symm.trans (reports.paid cost optimal)
  unsent node refused := absurd refused (reports.blameless node)
  made i shipment told := by
    obtain ⟨p, survey, after, searches, many, dispatched⟩ := reports.made i shipment told
    exact ⟨p, survey, after, ⟨potentials, computed, searches⟩, many.trans (Nat.zero_add i),
      dispatched⟩

/-- The work on an order is told of up to its end. -/
theorem work_reports (ran : (router.work w net order).result = .ok run) :
    ∃ shipments closing, run.message? order = some closing ∧
      router.Tells w net order run (order.message net :: (router.work w net order).log) shipments
        (some closing) := by
  unfold work at ran ⊢
  cases computed : (net.startPotentials w).result with
  | error fault =>
    rw [Traced.result_bind, computed] at ran
    cases ran
  | ok answer =>
    rw [Traced.log_bind_of_ok computed]
    rw [Traced.result_bind, computed] at ran
    change Traced.result _ = _ at ran
    obtain ⟨potentials, rfl, silent⟩ | ⟨node, rfl, told⟩ := Network.startPotentials_tells computed
    · rw [Traced.result_map] at ran
      obtain ⟨ending, ended, rfl⟩ := Checked.map_eq_ok_iff.mp ran
      obtain ⟨shipments, closing, reports⟩ := Progress.rounds_reports (Int.zero_add _) ended
      refine ⟨shipments, closing, reports.closes _, ?_⟩
      rw [silent, List.nil_append, Traced.log_map]
      exact .of_reports computed reports
    · cases ran
      refine ⟨[], .cycleFound node, rfl, .unshipped ?_ rfl rfl nofun⟩
      rw [told]
      rfl

/-- The log tells the truth. A run whose order was accepted tells first of the order, then of
each shipment, and last of its end, which only an order of nothing and one from a node to itself
leave out. One shipment was made for each one told, the amounts add up to what was delivered, and
the costs to what an optimal answer names; the end told is that of the answer and the books. -/
theorem route_reports (accepted : orderRefusal? net order = none)
    (ran : (router.route w net order).result = .ok run) :
    ∃ shipments closing?,
      router.Tells w net order run (router.route w net order).log shipments closing? ∧
      closing? =
        (if order.demand = 0 ∨ order.source = order.sink then none else run.message? order) ∧
      (closing?.isSome ↔ order.demand ≠ 0 ∧ order.source ≠ order.sink) ∧
      (router.route w net order).log.map Message.level =
        .debug :: (List.replicate run.router.shipments .trace ++
          closing?.toList.map fun _ => .debug) := by
  rw [← not_or]
  rw [route_eq_work w router accepted] at ran ⊢
  rw [Traced.log_emit_bind]
  rw [Traced.result_bind, Traced.result_emit] at ran
  change Traced.result _ = _ at ran
  by_cases idle : order.demand = 0 ∨ order.source = order.sink
  · rw [if_pos idle] at ran ⊢
    cases ran
    have tells : router.Tells w net order ⟨{ limit? := router.limit? }, net, .ok (.optimal 0)⟩
        [order.message net] [] none :=
      .unshipped rfl rfl rfl fun cost optimal => by cases optimal; rfl
    exact ⟨[], none, tells, (if_pos idle).symm, by simp [idle], tells.levels nofun⟩
  · rw [if_neg idle] at ran ⊢
    obtain ⟨shipments, closing, closes, tells⟩ := work_reports ran
    refine ⟨shipments, some closing, tells, ?_, by simp [idle], tells.levels ?_⟩
    · rw [if_neg idle, closes]
    · rintro _ ⟨⟩
      exact Run.level_of_message? closes

/-- Two paths over the crossing are told of, the second one at what the first one left. -/
theorem route_reports_crossing :
    ∃ shipments, shipments.map Shipment.message = [.pushed 1 3 3, .pushed 1 3 9] ∧
      ({} : Router).Tells ⟨7⟩ (Network.crossing 0 0 0) ⟨0, 3, 2⟩
        ⟨⟨none, 2, 2, #[0, 4, 5, 9]⟩, Network.crossing 1 1 0, .ok (.optimal 12)⟩
        [.routing 2 0 3 4 10, .pushed 1 3 3, .pushed 1 3 9, .routed 2 12 2] shipments
        (some (.routed 2 12 2)) := by
  have ran : ({} : Router).route ⟨7⟩ (Network.crossing 0 0 0) ⟨0, 3, 2⟩ =
      ⟨[.routing 2 0 3 4 10, .pushed 1 3 3, .pushed 1 3 9, .routed 2 12 2],
        .ok ⟨⟨none, 2, 2, #[0, 4, 5, 9]⟩, Network.crossing 1 1 0, .ok (.optimal 12)⟩⟩ := by
    with_unfolding_all rfl
  have accepted : orderRefusal? (Network.crossing 0 0 0) ⟨0, 3, 2⟩ = none := by decide
  obtain ⟨shipments, closing?, tells, rfl, -, -⟩ :=
    route_reports accepted (congrArg Traced.result ran)
  rw [ran] at tells
  refine ⟨shipments, ?_, tells⟩
  exact List.append_cancel_right (List.cons.inj tells.log_eq).2.symm

end Router

end Transshipment
