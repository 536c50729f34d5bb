import Transshipment.Proofs.IdleNodeSearches
import Transshipment.Proofs.RequestAnswers

/-! Runs over a network with one more node, which no link touches. Every search raises the
new node by the largest distance that it finds, and nothing else is done with it. So a run
comes to the same, or it breaks off where the sum of these distances no longer fits. -/
namespace Transshipment

namespace Width

variable {w : Width} {a b c : Int}

/-- Amounts that are not negative are summed in two steps as they are in one. -/
theorem add_add (first : 0 ≤ a) (second : 0 ≤ b) (third : 0 ≤ c) :
    w.add a (b + c) = w.add a b >>= fun sum => w.add sum c := by
  have part := fits_iff_of_nonneg (w := w) (Int.add_nonneg first second)
  have whole := fits_iff_of_nonneg (w := w) (Int.add_nonneg first (Int.add_nonneg second third))
  unfold add keep
  by_cases within : w.Fits (a + b)
  · rw [if_pos within, ← Int.add_assoc]
    rfl
  · rw [if_neg within, if_neg (by rw [whole]; rw [part] at within; omega)]
    rfl

private theorem add_zero (fits : w.Fits a) : w.add a 0 = .ok a :=
  keep_eq_ok_iff.mpr ⟨(Int.add_zero a).symm, (Int.add_zero a).symm ▸ fits⟩

end Width

/-- The same found out, with one more node at this potential. -/
def Survey.widened (survey : Survey) (last : Int) : Survey :=
  ⟨survey.tree.widened, survey.potentials.push last, survey.reached⟩

/-- The same done, with one more node at this potential. -/
def Dispatch.widened (dispatch : Dispatch) (last : Int) : Dispatch :=
  ⟨dispatch.survey.widened last,
    dispatch.shipped?.map fun (shipment, net) => (shipment, net.insertNode.2)⟩

namespace Network

variable {w : Width} {net : Network} {potentials : Potentials} {source sink : Nat}
  {remaining : Int}

private theorem survey_insertNode {survey : Survey} (z : Int) (sound : net.Sound)
    (priced : net.PricedBy potentials) (within : source < net.nodes)
    (ran : net.survey w potentials source sink = .ok survey) :
    net.insertNode.2.survey w (potentials.push z) source sink =
      survey.widened <$> w.add z survey.tree.farthest := by
  unfold Network.survey at ran ⊢
  obtain ⟨tree, grown, ran⟩ := Checked.bind_eq_ok_iff.mp ran
  obtain ⟨raised, risen, ran⟩ := Checked.bind_eq_ok_iff.mp ran
  obtain ⟨reached, known, ran⟩ := Checked.bind_eq_ok_iff.mp ran
  cases ran
  have spans := (Tree.ofSource_ends (Tree.foreseen_of_priced w priced source) sound priced.1
    within).of_ok grown
  have beyond : tree.distance? potentials.size = none := by
    unfold Tree.distance?
    rw [priced.1, ← spans.size, Array.getElem?_eq_none (Nat.le_refl _)]
    rfl
  rw [Tree.ofSource_widened sound priced within grown]
  change tree.widened.raise w (potentials.push z) >>= _ = _
  rw [Tree.raise_widened risen beyond]
  cases w.add z tree.farthest with
  | error fault => rfl
  | ok total =>
    change tree.widened.reaches sink >>= _ = _
    rw [Tree.reaches_widened known]
    rfl

/-- A dispatch began with a search. -/
theorem search_of_dispatch {dispatch : Dispatch}
    (ran : net.dispatch w potentials source sink remaining = .ok dispatch) :
    Tree.ofSource w net potentials source = .ok dispatch.survey.tree := by
  obtain ⟨survey, surveyed, ran⟩ := Checked.bind_eq_ok_iff.mp ran
  have grown := Network.ofSource_of_survey surveyed
  split at ran
  · obtain ⟨path, -, ran⟩ := Checked.bind_eq_ok_iff.mp ran
    obtain ⟨sent, -, ran⟩ := Checked.bind_eq_ok_iff.mp ran
    cases ran
    exact grown
  · cases ran
    exact grown

private theorem dispatch_insertNode {dispatch : Dispatch} (z : Int) (sound : net.Sound)
    (priced : net.PricedBy potentials) (within : source < net.nodes)
    (ran : net.dispatch w potentials source sink remaining = .ok dispatch) :
    net.insertNode.2.dispatch w (potentials.push z) source sink remaining =
      dispatch.widened <$> w.add z dispatch.survey.tree.farthest := by
  unfold Network.dispatch at ran ⊢
  obtain ⟨survey, surveyed, ran⟩ := Checked.bind_eq_ok_iff.mp ran
  rw [survey_insertNode z sound priced within surveyed]
  split at ran
  · rename_i reached
    obtain ⟨path, led, ran⟩ := Checked.bind_eq_ok_iff.mp ran
    obtain ⟨⟨shipment, last⟩, sent, ran⟩ := Checked.bind_eq_ok_iff.mp ran
    cases ran
    cases w.add z survey.tree.farthest with
    | error fault => rfl
    | ok total =>
      change (if survey.reached then survey.tree.widened.trailTo net.insertNode.2 sink >>= _
        else _) = _
      rw [if_pos reached, Tree.trailTo_widened (Nat.zero_lt_of_lt within) led]
      change net.insertNode.2.ship w path remaining >>= _ = _
      rw [ship_insertNode sent]
      rfl
  · rename_i missed
    cases ran
    cases w.add z survey.tree.farthest with
    | error fault => rfl
    | ok total =>
      change (if survey.reached then _ else pure _) = _
      rw [if_neg missed]
      rfl

end Network

namespace Progress

variable {w : Width} {order : Order} {origin : Network} {limit? : Option Nat}
  {p next : Progress} {z : Int}

/-- The same state with one more node at this potential. -/
def widened (p : Progress) (last : Int) : Progress :=
  { p with net := p.net.insertNode.2, potentials := p.potentials.push last }

/-- By how much the next search raises the nodes out of its reach. -/
def shift (w : Width) (order : Order) (p : Progress) : Int :=
  match Tree.ofSource w p.net p.potentials order.source with
  | .ok tree => tree.farthest
  | .error _ => 0

private theorem shift_nonneg (w : Width) (order : Order) (p : Progress) : 0 ≤ p.shift w order := by
  unfold shift
  split
  · exact Tree.farthest_nonneg _
  · exact Int.le_refl 0

private theorem shift_of_search {tree : Tree}
    (grown : Tree.ofSource w p.net p.potentials order.source = .ok tree) :
    p.shift w order = tree.farthest := by
  unfold shift
  rw [grown]

/-- By how much the searches raise together what is out of the reach of all of them. -/
def drift (w : Width) (order : Order) (limit? : Option Nat) (p : Progress) : Int :=
  if _ : p.Continues limit? then
    match _ : (p.advance w order).result with
    | .ok (.shipped next) => p.shift w order + next.drift w order limit?
    | .ok (.stranded _) | .error _ => p.shift w order
  else 0
termination_by p.remaining.toNat
decreasing_by
  have closer : next.remaining < p.remaining := advance_remaining_lt (by assumption)
  have owing : 0 < p.remaining := And.left (by assumption)
  omega

private theorem not_continues_of_met (met : p.remaining ≤ 0) : ¬ p.Continues limit? :=
  fun continues => Int.not_le.mpr continues.1 met

private theorem not_continues_of_reached {limit : Nat}
    (reached : limit?.filter (· ≤ p.shipments) = some limit) : ¬ p.Continues limit? :=
  fun continues => Option.some_ne_none limit (reached.symm.trans continues.2)

private theorem drift_of_not_continues (halts : ¬ p.Continues limit?) :
    p.drift w order limit? = 0 := by
  unfold drift
  rw [dif_neg halts]

private theorem drift_of_stranded {last : Progress} (continues : p.Continues limit?)
    (stranded : (p.advance w order).result = .ok (.stranded last)) :
    p.drift w order limit? = p.shift w order := by
  unfold drift
  rw [dif_pos continues]
  split <;> rename_i other <;> cases other.symm.trans stranded
  rfl

private theorem drift_of_shipped (continues : p.Continues limit?)
    (shipped : (p.advance w order).result = .ok (.shipped next)) :
    p.drift w order limit? = p.shift w order + next.drift w order limit? := by
  conv_lhs => unfold drift
  rw [dif_pos continues]
  split <;> rename_i other <;> cases other.symm.trans shipped
  rfl

private theorem drift_nonneg (w : Width) (order : Order) (limit? : Option Nat) (p : Progress) :
    0 ≤ p.drift w order limit? := by
  fun_induction p.drift w order limit? with
  | case1 p continues next shipped ih => exact Int.add_nonneg (p.shift_nonneg w order) ih
  | case2 p continues last stranded => exact p.shift_nonneg w order
  | case3 p continues fault broke => exact p.shift_nonneg w order
  | case4 p halts => exact Int.le_refl 0

end Progress

/-- The same round with one more node at this potential. -/
def Round.widened (round : Round) (last : Int) : Round :=
  match round with
  | .stranded p => .stranded (p.widened last)
  | .shipped p => .shipped (p.widened last)

namespace Progress

variable {w : Width} {order : Order} {origin : Network} {limit? : Option Nat}
  {p next : Progress} {z : Int}

private theorem account_widened {shipment : Shipment} {potentials : Potentials} {net : Network}
    (accounted : p.account w potentials shipment net = .ok next) (total : Int) :
    (p.widened z).account w (potentials.push total) shipment net.insertNode.2 =
      .ok (next.widened total) := by
  obtain ⟨cost, paid, accounted⟩ := Checked.bind_eq_ok_iff.mp accounted
  obtain ⟨delivered, brought, accounted⟩ := Checked.bind_eq_ok_iff.mp accounted
  cases accounted
  refine Checked.bind_eq_ok_iff.mpr ⟨cost, paid, ?_⟩
  exact Checked.bind_eq_ok_iff.mpr ⟨delivered, brought, rfl⟩

/-- A round does the same, and raises the new node. -/
theorem advance_widened {round : Round} (z : Int) (valid : p.Valid order origin)
    (within : order.source < origin.nodes) (ran : (p.advance w order).result = .ok round) :
    ((p.widened z).advance w order).result = round.widened <$> w.add z (p.shift w order) := by
  rw [← valid.nodes_eq] at within
  rw [result_advance] at ran ⊢
  obtain ⟨dispatch, made, ran⟩ := Checked.bind_eq_ok_iff.mp ran
  have wide := Network.dispatch_insertNode z valid.sound valid.priced within made
  change p.net.insertNode.2.dispatch w (p.potentials.push z) order.source order.sink p.remaining
    >>= _ = _
  rw [wide, shift_of_search (Network.search_of_dispatch made)]
  cases w.add z dispatch.survey.tree.farthest with
  | error fault => rfl
  | ok total =>
    obtain ⟨survey, _ | ⟨shipment, net⟩⟩ := dispatch
    · cases ran
      rfl
    · obtain ⟨next, accounted, rfl⟩ := Checked.map_eq_ok_iff.mp ran
      change Round.shipped <$> (p.widened z).account w (survey.potentials.push total) shipment
        net.insertNode.2 = _
      rw [account_widened accounted]
      rfl

/-- The same ending with one more node at this potential. -/
def Ending.widened (ending : Ending) (last : Int) : Ending :=
  { ending with last := ending.last.widened last }

/-- From whatever potential of the new node, which every round raises, the rounds come to the
same with that node raised by the drift, or they break off where it does not fit. -/
theorem rounds_widened {ending : Ending} (proper : order.Proper origin)
    (valid : p.Valid order origin) (nonneg : 0 ≤ z) (fits : w.Fits z)
    (ended : (p.rounds w order limit?).result = .ok ending) :
    ((p.widened z).rounds w order limit?).result =
      ending.widened <$> w.add z (p.drift w order limit?) := by
  revert z
  fun_induction p.rounds w order limit? with
  | case1 p met =>
    intro z nonneg fits
    cases ended
    rw [drift_of_not_continues (not_continues_of_met met), Width.add_zero fits]
    exact rounds_met met
  | case2 p owing limit reached =>
    intro z nonneg fits
    cases ended
    rw [drift_of_not_continues (not_continues_of_reached reached), Width.add_zero fits]
    obtain ⟨rfl, allowed⟩ := Option.filter_eq_some_iff.mp reached
    exact rounds_stopped (Int.not_le.mp owing) (of_decide_eq_true allowed)
  | case3 p owing open? turn fault broke => cases ended
  | case4 p owing open? turn last stranded =>
    intro z nonneg fits
    cases ended
    have continues : p.Continues limit? := ⟨Int.not_le.mp owing, open?⟩
    have wide := advance_widened z valid proper.source stranded
    rw [drift_of_stranded continues stranded]
    cases summed : w.add z (p.shift w order) with
    | error fault =>
      rw [summed] at wide
      exact Continues.rounds_broke (p := p.widened z) continues wide
    | ok total =>
      rw [summed] at wide
      exact Continues.rounds_stranded (p := p.widened z) continues wide
  | case5 p owing open? turn next shipped ih =>
    intro z nonneg fits
    rw [Traced.result_after] at ended
    have continues : p.Continues limit? := ⟨Int.not_le.mp owing, open?⟩
    have wide := advance_widened z valid proper.source shipped
    have later : next.Valid order origin :=
      (advance_ends proper valid continues.1 (valid.secure w)).of_ok shipped
    have least := p.shift_nonneg w order
    rw [drift_of_shipped continues shipped,
      Width.add_add nonneg least (next.drift_nonneg w order limit?)]
    cases summed : w.add z (p.shift w order) with
    | error fault =>
      rw [summed] at wide
      exact Continues.rounds_broke (p := p.widened z) continues wide
    | ok total =>
      rw [summed] at wide
      obtain ⟨rfl, still⟩ := Width.keep_eq_ok_iff.mp summed
      refine (Continues.rounds_shipped (p := p.widened z) continues wide).trans ?_
      exact ih later ended (Int.add_nonneg nonneg least) still

private theorem shift_widened {round : Round} (z : Int) (valid : p.Valid order origin)
    (within : order.source < origin.nodes) (ran : (p.advance w order).result = .ok round) :
    (p.widened z).shift w order = p.shift w order := by
  rw [result_advance] at ran
  obtain ⟨dispatch, made, -⟩ := Checked.bind_eq_ok_iff.mp ran
  have grown := Network.search_of_dispatch made
  have wide := Tree.ofSource_widened (z := z) valid.sound valid.priced
    (by rwa [valid.nodes_eq]) grown
  rw [shift_of_search grown, shift_of_search (p := p.widened z) wide, Tree.farthest_widened]

/-- The new node, of which the searches know nothing, does not add to the drift. -/
theorem drift_widened {ending : Ending} (proper : order.Proper origin)
    (valid : p.Valid order origin) (nonneg : 0 ≤ z)
    (ended : (p.rounds w order limit?).result = .ok ending)
    (fits : w.Fits (z + p.drift w order limit?)) :
    (p.widened z).drift w order limit? = p.drift w order limit? := by
  revert z
  fun_induction p.rounds w order limit? with
  | case1 p met =>
    intro z nonneg fits
    rw [drift_of_not_continues (not_continues_of_met met)]
    exact drift_of_not_continues (not_continues_of_met (p := p.widened z) met)
  | case2 p owing limit reached =>
    intro z nonneg fits
    rw [drift_of_not_continues (not_continues_of_reached reached)]
    exact drift_of_not_continues (not_continues_of_reached (p := p.widened z) reached)
  | case3 p owing open? turn fault broke => cases ended
  | case4 p owing open? turn last stranded =>
    intro z nonneg fits
    have continues : p.Continues limit? := ⟨Int.not_le.mp owing, open?⟩
    rw [drift_of_stranded continues stranded] at fits ⊢
    have wide := advance_widened z valid proper.source stranded
    rw [Width.add, Width.keep, if_pos fits] at wide
    rw [drift_of_stranded (p := p.widened z) continues wide]
    exact shift_widened z valid proper.source stranded
  | case5 p owing open? turn next shipped ih =>
    intro z nonneg fits
    rw [Traced.result_after] at ended
    have continues : p.Continues limit? := ⟨Int.not_le.mp owing, open?⟩
    have later : next.Valid order origin :=
      (advance_ends proper valid continues.1 (valid.secure w)).of_ok shipped
    have least := p.shift_nonneg w order
    have rest := next.drift_nonneg w order limit?
    rw [drift_of_shipped continues shipped] at fits ⊢
    have part : w.Fits (z + p.shift w order) := by
      rw [Width.fits_iff_of_nonneg (by omega)] at fits ⊢
      omega
    have wide := advance_widened z valid proper.source shipped
    rw [Width.add, Width.keep, if_pos part] at wide
    rw [drift_of_shipped (p := p.widened z) continues wide,
      shift_widened z valid proper.source shipped,
      ih later ended (Int.add_nonneg nonneg least) (by rwa [Int.add_assoc])]

end Progress

namespace Router

variable {w : Width} {router : Router} {net : Network} {order : Order} {run : Run}

/-- By how much the searches of a run raise together what is out of the reach of all of
them. -/
def drift (w : Width) (router : Router) (net : Network) (order : Order) : Int :=
  if order.Proper net then
    match (net.startPotentials w).result with
    | .ok (.ok potentials) =>
      (Progress.start net potentials order.demand).drift w order router.limit?
    | .ok (.error _) | .error _ => 0
  else 0

private theorem drift_nonneg (w : Width) (router : Router) (net : Network) (order : Order) :
    0 ≤ router.drift w net order := by
  unfold drift
  split
  · split
    · exact Progress.drift_nonneg ..
    all_goals exact Int.le_refl 0
  · exact Int.le_refl 0

private theorem drift_proper {potentials : Potentials} (proper : order.Proper net)
    (computed : (net.startPotentials w).result = .ok (.ok potentials)) :
    router.drift w net order =
      (Progress.start net potentials order.demand).drift w order router.limit? := by
  rw [drift, if_pos proper, computed]

private theorem drift_improper (improper : ¬ order.Proper net) : router.drift w net order = 0 := by
  rw [drift, if_neg improper]

private theorem proper_insertNode (proper : order.Proper net) : order.Proper net.insertNode.2 := by
  obtain ⟨source, sink, apart, wanted⟩ := proper
  exact ⟨by simp; omega, by simp; omega, apart, wanted⟩

/-- An order that was not refused is worked off from start potentials, or there is nothing to
send, over the larger network either. -/
theorem route_answered {outcome : Outcome} (sound : net.Sound)
    (ran : (router.route w net order).result = .ok run) (answered : run.answer = .ok outcome) :
    (∃ potentials ending, order.Proper net ∧ (net.startPotentials w).result = .ok (.ok potentials) ∧
      (Progress.start net potentials order.demand).Valid order net ∧
      ((Progress.start net potentials order.demand).rounds w order router.limit?).result =
        .ok ending ∧ ending.answer = .ok outcome) ∨
    ¬ order.Proper net ∧ ¬ order.Proper net.insertNode.2 ∧
      (router.route w net.insertNode.2 order).result =
        .ok ⟨{ limit? := router.limit? }, net.insertNode.2, .ok outcome⟩ := by
  by_cases proper : order.Proper net
  · rw [route_proper w router proper] at ran
    obtain ⟨started, computed, ran⟩ := Checked.bind_eq_ok_iff.mp ran
    cases started with
    | error refusal =>
      cases ran
      cases answered
    | ok potentials =>
      obtain ⟨ending, ended, rfl⟩ := Checked.map_eq_ok_iff.mp ran
      exact .inl ⟨potentials, ending, proper, computed,
        .of_startPotentials sound proper computed, ended, answered⟩
  · rw [route_improper w router proper] at ran
    cases refused : orderRefusal? net order with
    | some refusal =>
      rw [refused] at ran
      cases ran
      cases answered
    | none =>
      rw [refused] at ran
      cases ran
      cases answered
      obtain ⟨source, sink, nonneg⟩ := orderRefusal?_eq_none_iff.mp refused
      have nothing := nothing_of_improper refused proper
      refine .inr ⟨proper, fun wider => ?_,
        route_nothing w router (by simp; omega) (by simp; omega) nonneg nothing⟩
      rcases nothing with none | same
      · exact absurd wider.wanted (by omega)
      · exact wider.apart same

/-- A run that was not refused comes to the same answer, or it breaks off where the drift
does not fit. -/
theorem route_insertNode {outcome : Outcome} (sound : net.Sound)
    (ran : (router.route w net order).result = .ok run) (answered : run.answer = .ok outcome) :
    Run.answer <$> (router.route w net.insertNode.2 order).result =
      (fun _ => .ok outcome) <$> w.add 0 (router.drift w net order) := by
  obtain ⟨potentials, ending, proper, computed, valid, ended, final⟩ | ⟨improper, -, same⟩ :=
    route_answered sound ran answered
  · have wide := Progress.rounds_widened proper valid (Int.le_refl 0) w.fits_zero ended
    rw [route_proper w router (proper_insertNode proper), drift_proper proper computed,
      Network.startPotentials_insertNode (Nat.zero_lt_of_lt proper.source) computed]
    change Run.answer <$> close _ <$> ((Progress.start net potentials order.demand).widened 0
      |>.rounds w order router.limit?).result = _
    rw [wide]
    cases w.add 0 ((Progress.start net potentials order.demand).drift w order router.limit?) with
    | error fault => rfl
    | ok total => exact congrArg Except.ok final
  · rw [drift_improper improper, Width.add_zero w.fits_zero, same]
    rfl

private theorem drift_insertNode {outcome : Outcome} (sound : net.Sound)
    (ran : (router.route w net order).result = .ok run) (answered : run.answer = .ok outcome)
    (fits : router.drift w net order ≤ w.greatest) :
    router.drift w net.insertNode.2 order = router.drift w net order := by
  obtain ⟨potentials, ending, proper, computed, valid, ended, -⟩ | ⟨improper, further, -⟩ :=
    route_answered sound ran answered
  · rw [drift_proper (proper_insertNode proper)
      (Network.startPotentials_insertNode (Nat.zero_lt_of_lt proper.source) computed),
      drift_proper proper computed]
    rw [drift_proper proper computed,
      ← Width.fits_iff_of_nonneg (Progress.drift_nonneg ..)] at fits
    exact Progress.drift_widened proper valid (Int.le_refl 0) ended (by rwa [Int.zero_add])
  · rw [drift_improper improper, drift_improper further]

end Router

namespace Network

variable {w : Width} {net next : Network} {tail head id : Nat} {capacity cost : Int}

private theorem attach_insertNode (within : tail < net.nodes) (withinToo : head < net.nodes)
    (attached : net.attach w tail head capacity cost = .ok next) :
    net.insertNode.2.attach w tail head capacity cost = .ok next.insertNode.2 := by
  unfold attach at attached ⊢
  obtain ⟨refund, negated, attached⟩ := Checked.bind_eq_ok_iff.mp attached
  cases attached
  refine Checked.bind_eq_ok_iff.mpr ⟨refund, negated, ?_⟩
  change Except.ok (Network.mk _ (((net.rows.push #[]).modify tail _).modify head _)) = _
  rw [modify_push within, modify_push (by rwa [Array.size_modify])]
  rfl

private theorem insertLink_insertNode
    (inserted : net.insertLink w tail head capacity cost = .ok (.ok (id, next))) :
    net.insertNode.2.insertLink w tail head capacity cost = .ok (.ok (id, next.insertNode.2)) := by
  unfold insertLink at inserted ⊢
  split at inserted
  · cases inserted
  · rename_i accepted
    obtain ⟨within, withinToo, nonneg⟩ := linkRefusal?_eq_none_iff.mp accepted
    rw [linkRefusal?_eq_none_iff.mpr ⟨by simp; omega, by simp; omega, nonneg⟩]
    obtain ⟨grown, attached, inserted⟩ := Checked.bind_eq_ok_iff.mp inserted
    cases inserted
    exact Checked.bind_eq_ok_iff.mpr ⟨_, attach_insertNode within withinToo attached, rfl⟩

/-- Links that are accepted are accepted beside a new node. -/
theorem insertOffers_insertNode {offers : List Offer}
    (inserted : net.insertOffers w offers = .ok (.ok next)) :
    net.insertNode.2.insertOffers w offers = .ok (.ok next.insertNode.2) := by
  induction offers generalizing net with
  | nil =>
    cases inserted
    rfl
  | cons offer rest ih =>
    obtain ⟨answer, first, inserted⟩ := Checked.bind_eq_ok_iff.mp inserted
    cases answer with
    | error refusal => cases inserted
    | ok added =>
      exact Checked.bind_eq_ok_iff.mpr ⟨_, insertLink_insertNode first, ih inserted⟩

private theorem insertOffers_succ {nodes : Nat} {offers : List Offer}
    (inserted : (ofNodes nodes).insertOffers w offers = .ok (.ok next)) :
    (ofNodes (nodes + 1)).insertOffers w offers = .ok (.ok next.insertNode.2) := by
  have larger : ofNodes (nodes + 1) = (ofNodes nodes).insertNode.2 :=
    congrArg (Network.mk #[]) Array.replicate_succ
  rw [larger, insertOffers_insertNode inserted]

end Network

/-- By how much the searches for an order over offered links raise together what is out of
the reach of all of them. -/
def driftOfOrder (w : Width) (nodes : Nat) (offers : List Offer) (order : Order) : Int :=
  match (Network.ofNodes nodes).insertOffers w offers with
  | .ok (.ok net) => ({} : Router).drift w net order
  | .ok (.error _) | .error _ => 0

section Orders

variable {w : Width} {nodes : Nat} {offers : List Offer} {order : Order} {outcome : Outcome}

private theorem driftOfOrder_nonneg (w : Width) (nodes : Nat) (offers : List Offer)
    (order : Order) : 0 ≤ driftOfOrder w nodes offers order := by
  unfold driftOfOrder
  split
  · exact Router.drift_nonneg ..
  all_goals exact Int.le_refl 0

/-- Over links that were accepted, the answer is that of a run. -/
theorem costOfOrder_of_inserted {net : Network}
    (inserted : (Network.ofNodes nodes).insertOffers w offers = .ok (.ok net)) :
    (costOfOrder w nodes offers order).result =
      Run.answer <$> (({} : Router).route w net order).result := by
  unfold costOfOrder
  rw [Traced.result_bind, Traced.result_lift, inserted]
  exact (Traced.result_bind _ _).trans (bind_pure_comp Run.answer _)

/-- An order that was not refused was answered by a run over links that were accepted. -/
theorem route_of_costOfOrder
    (answered : (costOfOrder w nodes offers order).result = .ok (.ok outcome)) :
    ∃ net run, (Network.ofNodes nodes).insertOffers w offers = .ok (.ok net) ∧ net.Sound ∧
      (({} : Router).route w net order).result = .ok run ∧ run.answer = .ok outcome := by
  unfold costOfOrder at answered
  rw [Traced.result_bind, Traced.result_lift] at answered
  obtain ⟨answer, inserted, answered⟩ := Checked.bind_eq_ok_iff.mp answered
  cases answer with
  | error refusal => cases answered
  | ok net =>
    have extended := ((Network.insertOffers_answers w offers _ (.ofNodes nodes)).of_ok inserted).2
    dsimp only at answered
    rw [Traced.result_bind] at answered
    obtain ⟨run, ran, final⟩ := Checked.bind_eq_ok_iff.mp answered
    exact ⟨net, run, inserted, extended.sound, ran, Except.ok.inj final⟩

private theorem costOfOrder_widened
    (answered : (costOfOrder w nodes offers order).result = .ok (.ok outcome)) :
    (costOfOrder w (nodes + 1) offers order).result =
      (fun _ => .ok outcome) <$> w.add 0 (driftOfOrder w nodes offers order) := by
  obtain ⟨net, run, inserted, sound, ran, final⟩ := route_of_costOfOrder answered
  rw [costOfOrder_of_inserted (Network.insertOffers_succ inserted), driftOfOrder, inserted]
  exact Router.route_insertNode sound ran final

private theorem driftOfOrder_succ
    (answered : (costOfOrder w nodes offers order).result = .ok (.ok outcome))
    (fits : driftOfOrder w nodes offers order ≤ w.greatest) :
    driftOfOrder w (nodes + 1) offers order = driftOfOrder w nodes offers order := by
  obtain ⟨net, run, inserted, sound, ran, final⟩ := route_of_costOfOrder answered
  unfold driftOfOrder at fits ⊢
  rw [inserted] at fits ⊢
  rw [Network.insertOffers_succ inserted]
  exact Router.drift_insertNode sound ran final fits

/-- A node without links changes nothing as long as the drift fits, by which the searches
raise it. Otherwise, and only then, raising it overflows. -/
theorem costOfOrder_insertNode
    (answered : (costOfOrder w nodes offers order).result = .ok (.ok outcome)) :
    (costOfOrder w (nodes + 1) offers order).result =
      if driftOfOrder w nodes offers order ≤ w.greatest then .ok (.ok outcome)
      else .error (.overflow .addition) := by
  rw [costOfOrder_widened answered, Width.add, Int.zero_add, Width.keep]
  simp only [Width.fits_iff_of_nonneg (driftOfOrder_nonneg w nodes offers order)]
  split_ifs <;> rfl

/-- Two ways to node 1, one of them free, and a way to node 2 that is as far as the other. -/
def sidetrack (cost : Int) : List Offer := [⟨0, 1, 1, 0⟩, ⟨0, 1, 1, cost⟩, ⟨0, 2, 1, cost⟩]

theorem costOfOrder_insertNode_sidetrack :
    ((costOfOrder ⟨7⟩ 3 (sidetrack 60) ⟨0, 1, 2⟩).result = .ok (.ok (.optimal 60)) ∧
        (costOfOrder ⟨7⟩ 4 (sidetrack 60) ⟨0, 1, 2⟩).result = .ok (.ok (.optimal 60))) ∧
      (costOfOrder ⟨7⟩ 3 (sidetrack 100) ⟨0, 1, 2⟩).result = .ok (.ok (.optimal 100)) ∧
        (costOfOrder ⟨7⟩ 4 (sidetrack 100) ⟨0, 1, 2⟩).result = .error (.overflow .addition) := by
  have near : (costOfOrder ⟨7⟩ 3 (sidetrack 60) ⟨0, 1, 2⟩).result = .ok (.ok (.optimal 60)) := by
    with_unfolding_all rfl
  have far : (costOfOrder ⟨7⟩ 3 (sidetrack 100) ⟨0, 1, 2⟩).result = .ok (.ok (.optimal 100)) := by
    with_unfolding_all rfl
  have within : driftOfOrder ⟨7⟩ 3 (sidetrack 60) ⟨0, 1, 2⟩ = 120 := by with_unfolding_all rfl
  have beyond : driftOfOrder ⟨7⟩ 3 (sidetrack 100) ⟨0, 1, 2⟩ = 200 := by with_unfolding_all rfl
  refine ⟨⟨near, ?_⟩, far, ?_⟩
  · rw [costOfOrder_insertNode near, within]
    rfl
  · rw [costOfOrder_insertNode far, beyond]
    rfl

/-- Each search takes node 2 to be as far as the second way is long, so a node without links is
raised by 100 twice. -/
theorem not_forall_costOfOrder_insertNode :
    ¬ ∀ (w : Width) (nodes : Nat) (offers : List Offer) (order : Order) (outcome : Outcome),
      (costOfOrder w nodes offers order).result = .ok (.ok outcome) →
        (costOfOrder w (nodes + 1) offers order).result = .ok (.ok outcome) := by
  intro unchanged
  have far : (costOfOrder ⟨7⟩ 3 (sidetrack 100) ⟨0, 1, 2⟩).result = .ok (.ok (.optimal 100)) := by
    with_unfolding_all rfl
  have broke : (costOfOrder ⟨7⟩ 4 (sidetrack 100) ⟨0, 1, 2⟩).result =
      .error (.overflow .addition) := by
    with_unfolding_all rfl
  have same := unchanged ⟨7⟩ 3 (sidetrack 100) ⟨0, 1, 2⟩ (.optimal 100) far
  cases broke.symm.trans same

/-- Where one node without links changes nothing, neither do any more of them. -/
theorem costOfOrder_insertNodes
    (answered : (costOfOrder w nodes offers order).result = .ok (.ok outcome))
    (again : (costOfOrder w (nodes + 1) offers order).result = .ok (.ok outcome)) (more : Nat) :
    (costOfOrder w (nodes + more) offers order).result = .ok (.ok outcome) := by
  have least := driftOfOrder_nonneg w nodes offers order
  rw [costOfOrder_widened answered] at again
  obtain ⟨total, summed, -⟩ := Checked.map_eq_ok_iff.mp again
  have kept := (Width.keep_eq_ok_iff.mp summed).2
  rw [Int.zero_add, Width.fits_iff_of_nonneg least] at kept
  suffices (costOfOrder w (nodes + more) offers order).result = .ok (.ok outcome) ∧
      driftOfOrder w (nodes + more) offers order = driftOfOrder w nodes offers order from this.1
  induction more with
  | zero => exact ⟨answered, rfl⟩
  | succ more ih =>
    obtain ⟨held, drift⟩ := ih
    refine ⟨?_, (driftOfOrder_succ held (drift ▸ kept)).trans drift⟩
    rw [← Nat.add_assoc, costOfOrder_widened held, drift, summed]
    rfl

end Orders

end Transshipment
