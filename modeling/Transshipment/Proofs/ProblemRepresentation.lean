import Transshipment.History
import Transshipment.Proofs.RefusedRequests
import Transshipment.Proofs.RequestAnswers

/-! What a problem holds after any requests. Requests lead to the same problems as the
operations that were accepted, and both histories tell the same supplies and lanes. The problem
tallies with the ledger: the supply of a site is the sum of what was added there, the terms of
the lanes are those that were accepted, and every request keeps that, whether it adds sites,
supplies or lanes or writes flows. From this and the soundness of the problem follows what its
readers are told. -/
namespace Transshipment

/-- What the owner of a lane asked for. -/
def Lane.terms (lane : Lane) : LaneTerms :=
  ⟨lane.tail, lane.head, lane.lower, lane.span + lane.lower, lane.cost⟩

namespace Problem

variable {w : Width} {problem next : Problem} {ledger : Ledger} {node k : Nat} {amount : Int}
  {supplies : List (Nat × Int)} {lanes : List LaneTerms} {lane : Lane} {terms : LaneTerms}
  {offers : List Offer}

/-! ## Requests and operations -/

private theorem Ledger.noteStatus_supplies (ledger : Ledger) (answer : Except Refusal Status) :
    (ledger.noteStatus answer).supplies = ledger.supplies := by
  cases answer <;> rfl

private theorem Ledger.noteStatus_lanes (ledger : Ledger) (answer : Except Refusal Status) :
    (ledger.noteStatus answer).lanes = ledger.lanes := by
  cases answer <;> rfl

namespace Made

/-- An offered lane is one without a lower bound. -/
theorem insertOffers (made : Made w problem supplies lanes)
    (fit : ∀ offer ∈ offers, w.Fits offer.capacity ∧ w.Fits offer.cost)
    (inserted : problem.insertOffers w offers = .ok (.ok next)) :
    Made w next supplies (lanes ++ offers.map Offer.terms) := by
  induction offers generalizing problem lanes with
  | nil =>
    cases inserted
    rwa [List.map_nil, List.append_nil]
  | cons offer rest ih =>
    obtain ⟨answer, first, inserted⟩ := Checked.bind_eq_ok_iff.mp inserted
    cases answer with
    | error refusal => cases inserted
    | ok added =>
      have fits := fit offer (by simp)
      have joined : Made w added.2 supplies (lanes ++ [offer.terms]) :=
        made.insertLane w.fits_zero fits.1 fits.2 first
      have grown := ih joined (fun later member => fit later (by simp [member])) inserted
      rwa [List.append_assoc] at grown

theorem ofOffers {sites : Nat}
    (fit : ∀ offer ∈ offers, w.Fits offer.capacity ∧ w.Fits offer.cost)
    (built : (Problem.ofOffers w sites offers).result = .ok (.ok problem)) :
    Made w problem [] (offers.map Offer.terms) := by
  unfold Problem.ofOffers at built
  rw [Traced.result_bind, Traced.result_lift] at built
  obtain ⟨answer, inserted, built⟩ := Checked.bind_eq_ok_iff.mp built
  cases answer with
  | error refusal => cases built
  | ok last =>
    cases built
    exact (Made.ofSites sites).insertOffers fit inserted

/-- A supply that was granted is noted, and one that was refused is not. -/
private theorem noteSupply {computation : Checked (Except Refusal Problem)}
    {answer : Except Refusal Unit} (made : Made w problem ledger.supplies ledger.lanes)
    (granted : computation = .ok (.ok next) →
      Made w next (ledger.supplies ++ [(node, amount)]) ledger.lanes)
    (done : InPlace.spared problem <$> (·.map ((), ·)) <$> computation = .ok (next, answer)) :
    Made w next (ledger.noteSupply node amount answer).supplies
      (ledger.noteSupply node amount answer).lanes := by
  obtain ⟨rfl, refusal, rfl⟩ | ⟨rfl, computed⟩ := InPlace.spared_unit_cases done
  · exact made
  · exact granted computed

theorem addSupply {answer : Except Refusal Unit}
    (made : Made w problem ledger.supplies ledger.lanes) (fits : w.Fits amount)
    (added : (addSupply w node amount problem).result = .ok (next, answer)) :
    Made w next (ledger.noteSupply node amount answer).supplies
      (ledger.noteSupply node amount answer).lanes := by
  rw [addSupply_eq] at added
  exact made.noteSupply (made.provide fits) added

theorem addDemand {answer : Except Refusal Unit}
    (made : Made w problem ledger.supplies ledger.lanes) (fits : w.Fits amount)
    (added : (addDemand w node amount problem).result = .ok (next, answer)) :
    Made w next (ledger.noteSupply node (-amount) answer).supplies
      (ledger.noteSupply node (-amount) answer).lanes := by
  rw [addDemand_eq] at added
  exact made.noteSupply (made.consume fits) added

theorem addLane {answer : Except Refusal Nat}
    (made : Made w problem ledger.supplies ledger.lanes) (lower : w.Fits terms.lower)
    (upper : w.Fits terms.upper) (cost : w.Fits terms.cost)
    (added : (addLane w terms problem).result = .ok (next, answer)) :
    Made w next (ledger.noteLane terms answer).supplies (ledger.noteLane terms answer).lanes := by
  rw [addLane_eq] at added
  obtain ⟨rfl, refusal, rfl⟩ | ⟨number, rfl, inserted⟩ := InPlace.spared_cases added
  · exact made
  · exact made.insertLane lower upper cost inserted

/-- Every operation is a request that was not refused. -/
theorem served (made : Made w problem supplies lanes) :
    ∃ ledger, Served w problem ledger ∧ ledger.supplies = supplies ∧ ledger.lanes = lanes := by
  induction made with
  | ofSites sites => exact ⟨_, .ofSites sites, rfl, rfl⟩
  | insertSite _ ih =>
    obtain ⟨ledger, served, rfl, rfl⟩ := ih
    exact ⟨_, served.insertSite, rfl, rfl⟩
  | insertSites count _ ih =>
    obtain ⟨ledger, served, rfl, rfl⟩ := ih
    exact ⟨_, served.insertSites count, rfl, rfl⟩
  | @provide problem next _ _ node amount _ fits provided ih =>
    obtain ⟨ledger, served, rfl, rfl⟩ := ih
    have added : (Problem.addSupply w node amount problem).result = .ok (next, .ok ()) := by
      rw [addSupply_eq, provided]
      rfl
    exact ⟨_, served.addSupply fits added, rfl, rfl⟩
  | @consume problem next _ _ node amount _ fits consumed ih =>
    obtain ⟨ledger, served, rfl, rfl⟩ := ih
    have added : (Problem.addDemand w node amount problem).result = .ok (next, .ok ()) := by
      rw [addDemand_eq, consumed]
      rfl
    exact ⟨_, served.addDemand fits added, rfl, rfl⟩
  | @insertLane problem next _ _ terms lane _ lower upper cost inserted ih =>
    obtain ⟨ledger, served, rfl, rfl⟩ := ih
    have added : (Problem.addLane w terms problem).result = .ok (next, .ok lane) := by
      rw [addLane_eq, inserted]
      rfl
    exact ⟨_, served.addLane lower upper cost added, rfl, rfl⟩
  | settle _ ran ih =>
    obtain ⟨ledger, served, rfl, rfl⟩ := ih
    exact ⟨_, served.settle ran, ledger.noteStatus_supplies _, ledger.noteStatus_lanes _⟩

end Made

/-- The accepted among the requests are operations, and the others change nothing. -/
theorem Served.made (served : Served w problem ledger) :
    Made w problem ledger.supplies ledger.lanes := by
  induction served with
  | ofSites sites => exact .ofSites sites
  | ofOffers fit built => exact .ofOffers fit built
  | insertSite _ made => exact made.insertSite
  | insertSites count _ made => exact made.insertSites count
  | addSupply _ fits added made => exact made.addSupply fits added
  | addDemand _ fits added made => exact made.addDemand fits added
  | addLane _ lower upper cost added made => exact made.addLane lower upper cost added
  | @settle _ ledger _ _ _ ran made =>
    rw [ledger.noteStatus_supplies, ledger.noteStatus_lanes]
    exact made.settle ran

/-- Operations and requests lead to the same problems, and tell the same of them. -/
theorem made_iff_served : Made w problem supplies lanes ↔
    ∃ ledger, Served w problem ledger ∧ ledger.supplies = supplies ∧ ledger.lanes = lanes := by
  constructor
  · exact Made.served
  · rintro ⟨ledger, served, rfl, rfl⟩
    exact served.made

/-! ## Ledgers -/

private theorem supplyAt_append (supplies more : List (Nat × Int)) (node : Nat) :
    supplyAt (supplies ++ more) node = supplyAt supplies node + supplyAt more node := by
  simp [supplyAt]

private theorem supplyAt_eq_zero (elsewhere : ∀ supply ∈ supplies, supply.1 ≠ node) :
    supplyAt supplies node = 0 := by
  refine List.sum_eq_zero fun amount member => ?_
  obtain ⟨supply, listed, rfl⟩ := List.mem_map.mp member
  exact if_neg (elsewhere supply listed)

/-- The problem is sound and holds what the ledger notes. -/
structure Tallies (w : Width) (problem : Problem) (ledger : Ledger) : Prop where
  sound : problem.Sound
  sites : problem.sites.size = ledger.sites
  supply : ∀ (node : Nat) site, problem.sites[node]? = some site →
    site.supply = supplyAt ledger.supplies node
  named : ∀ supply ∈ ledger.supplies, supply.1 < ledger.sites
  terms : problem.lanes.toList.map Lane.terms = ledger.lanes
  fit : ∀ terms ∈ ledger.lanes, w.Fits terms.upper
  /-- Nothing is routed beyond the lower bounds before a settlement. -/
  fresh : ledger.settled = false → ∀ (k : Nat) lane, problem.lanes[k]? = some lane →
    lane.routed = 0

namespace Tallies

private theorem ofSites (sites : Nat) : (Problem.ofSites sites).Tallies w { sites } where
  sound := .ofSites sites
  sites := by simp [Problem.ofSites]
  supply node site held := by
    obtain ⟨-, rfl⟩ : node < sites ∧ ⟨0, 0⟩ = site := by
      simpa [Problem.ofSites, Array.getElem?_replicate] using held
    rfl
  named := by simp
  terms := by simp [Problem.ofSites]
  fit := by simp
  fresh _ k lane held := by simp [Problem.ofSites] at held

/-- Offered lanes have no lower bound. -/
theorem ofOffers {sites : Nat} {offers : List Offer}
    (fit : ∀ offer ∈ offers, w.Fits offer.capacity ∧ w.Fits offer.cost)
    (extended : (Problem.ofSites sites).Extended (offers.map Offer.lane) problem) :
    problem.Tallies w { sites, lanes := offers.map Offer.terms } := by
  have empty := ofSites (w := w) sites
  have lanes : problem.lanes.toList = offers.map Offer.lane := by
    rw [extended.lanes]
    simp [Problem.ofSites]
  constructor
  case sound => exact extended.sound
  case sites =>
    rw [extended.sites]
    exact empty.sites
  case supply =>
    intro node site held
    rw [extended.sites] at held
    exact empty.supply node site held
  case named => simp
  case terms => simp [lanes, Lane.terms, Offer.lane, Offer.terms]
  case fit =>
    intro terms member
    obtain ⟨offer, listed, rfl⟩ := List.mem_map.mp member
    exact (fit offer listed).1
  case fresh =>
    intro _ k lane held
    rw [← Array.getElem?_toList, lanes] at held
    obtain ⟨offer, listed, rfl⟩ := List.mem_map.mp (List.mem_of_getElem? held)
    rfl

/-- New sites have no supply, and none was noted for them. -/
theorem insertSites (tallies : problem.Tallies w ledger) (count : Nat) :
    (problem.insertSites count).2.Tallies w { ledger with sites := ledger.sites + count } := by
  refine { tallies with sound := tallies.sound.insertSites count, sites := ?_, supply := ?_,
                        named := ?_ }
  · simp [Problem.insertSites, tallies.sites]
  · intro node site held
    change (problem.sites ++ Array.replicate count ⟨0, 0⟩)[node]? = some site at held
    rw [Array.getElem?_append] at held
    split at held
    · exact tallies.supply node site held
    · rename_i beyond
      obtain ⟨-, rfl⟩ : _ ∧ (⟨0, 0⟩ : Site) = site := by
        simpa [Array.getElem?_replicate] using held
      refine (supplyAt_eq_zero fun supply member => ?_).symm
      have older := tallies.named supply member
      rw [tallies.sites] at beyond
      omega
  · intro supply member
    have older := tallies.named supply member
    dsimp only
    omega

private theorem supplied (tallies : problem.Tallies w ledger) (within : node < ledger.sites)
    (amount : Int) : (problem.supplied node amount).Tallies w
      { ledger with supplies := ledger.supplies ++ [(node, amount)] } := by
  refine { tallies with sound := tallies.sound.supplied, sites := ?_, supply := ?_, named := ?_ }
  · rw [size_supplied, tallies.sites]
  · intro place site held
    rw [supplyAt_append, supplyAt_cons]
    change (problem.sites.modify node _)[place]? = some site at held
    rw [Array.getElem?_modify] at held
    split at held
    · obtain ⟨before, found, rfl⟩ := Option.map_eq_some_iff.mp held
      have kept := tallies.supply place before found
      simp_all [supplyAt]
    · have kept := tallies.supply place site held
      simp_all [supplyAt]
  · intro supply member
    rcases List.mem_append.mp member with older | last
    · exact tallies.named supply older
    · obtain rfl := List.mem_singleton.mp last
      exact within

private theorem joined (tallies : problem.Tallies w ledger) (upper : w.Fits terms.upper)
    (accepted : problem.laneRefusal? terms.tail terms.head terms.lower terms.upper = none) :
    (problem.joined terms.tail terms.head terms.lower terms.upper terms.cost).Tallies w
      { ledger with lanes := ledger.lanes ++ [terms] } := by
  obtain ⟨tail, head, nonneg, order⟩ := laneRefusal?_eq_none_iff.mp accepted
  constructor
  case sound => exact tallies.sound.joined tail head nonneg order
  case sites => simp [Problem.joined, tallies.sites]
  case supply =>
    intro node site held
    simp only [Problem.joined, Array.getElem?_mapIdx] at held
    obtain ⟨before, found, rfl⟩ := Option.map_eq_some_iff.mp held
    exact tallies.supply node before found
  case named => exact tallies.named
  case terms => simp [Problem.joined, tallies.terms, Lane.terms]
  case fit =>
    intro other member
    rcases List.mem_append.mp member with older | last
    · exact tallies.fit other older
    · obtain rfl := List.mem_singleton.mp last
      exact upper
  case fresh =>
    intro unsettled k lane held
    simp only [Problem.joined, Array.getElem?_push] at held
    split at held
    · cases held
      rfl
    · exact tallies.fresh unsettled k lane held

private theorem terms_loaded (problem : Problem) (flow : Assignment) :
    (problem.loaded flow).lanes.toList.map Lane.terms = problem.lanes.toList.map Lane.terms := by
  apply List.ext_getElem?
  intro k
  rw [List.getElem?_map, List.getElem?_map, Array.getElem?_toList, Array.getElem?_toList,
    lanes_loaded, Option.map_map]
  rfl

/-- A supply is added and noted, or neither. -/
theorem noteSupply {computation : Checked (Except Refusal Problem)}
    {answer : Except Refusal Unit} (tallies : problem.Tallies w ledger)
    (ends : Checked.Ends computation Fault.IsOverflow
      (Answered (siteRefusal? problem.sites.size node) (· = problem.supplied node amount)))
    (done : InPlace.spared problem <$> (·.map ((), ·)) <$> computation = .ok (next, answer)) :
    next.Tallies w (ledger.noteSupply node amount answer) := by
  obtain ⟨rfl, refusal, rfl⟩ | ⟨rfl, provided⟩ := InPlace.spared_unit_cases done
  · exact tallies
  · obtain ⟨accepted, rfl⟩ := ends.of_ok provided
    refine tallies.supplied ?_ amount
    rw [← tallies.sites]
    simpa [siteRefusal?] using accepted

private theorem noteLane {answer : Except Refusal Nat} (tallies : problem.Tallies w ledger)
    (upper : w.Fits terms.upper)
    (done : (Problem.addLane w terms problem).result = .ok (next, answer)) :
    next.Tallies w (ledger.noteLane terms answer) := by
  rw [addLane_eq] at done
  obtain ⟨rfl, refusal, rfl⟩ | ⟨number, rfl, added⟩ := InPlace.spared_cases done
  · exact tallies
  · obtain ⟨accepted, same⟩ := (insertLane_ends w problem terms.tail terms.head terms.lower
      terms.upper terms.cost).of_ok added
    cases same
    exact tallies.joined upper accepted

/-- Flows are written and noted, or neither. -/
theorem noteStatus {router : Router} {settlement : Settlement} (tallies : problem.Tallies w ledger)
    (settled : router.Settled w problem settlement) :
    settlement.problem.Tallies w (ledger.noteStatus settlement.answer) := by
  have sound := settled.sound tallies.sound
  obtain ⟨-, rfl⟩ | ⟨-, net, order, run, -, -, settled⟩ := settled
  · exact tallies
  · unfold Router.SettledBy at settled
    split at settled
    · subst settled
      exact tallies
    · subst settled
      exact { tallies with
        sound := sound
        terms := (terms_loaded problem _).trans tallies.terms
        fresh := fun unsettled => by cases unsettled }

end Tallies

/-- Each request leaves a problem that tallies with the ledger. -/
theorem Served.tallies (served : Served w problem ledger) : problem.Tallies w ledger := by
  induction served with
  | ofSites sites => exact .ofSites sites
  | @ofOffers sites offers problem fit built =>
    exact .ofOffers fit ((ofOffers_answers w sites offers).of_ok built).2
  | insertSite _ tallies =>
    rw [insertSite_eq_insertSites]
    exact tallies.insertSites 1
  | insertSites count _ tallies => exact tallies.insertSites count
  | @addSupply problem next ledger node amount answer _ _ added tallies =>
    rw [addSupply_eq] at added
    exact tallies.noteSupply (provide_ends w problem node amount) added
  | @addDemand problem next ledger node amount answer _ _ added tallies =>
    rw [addDemand_eq] at added
    exact tallies.noteSupply (consume_ends w problem node amount) added
  | addLane _ _ upper _ added tallies => exact tallies.noteLane upper added
  | @settle problem ledger router settlement _ settled tallies =>
    exact tallies.noteStatus ((Router.settle_ends w tallies.sound router).of_ok settled)

/-- What the readers of a problem are told, in terms of what its callers asked for. -/
structure Represents (w : Width) (problem : Problem) (ledger : Ledger) : Prop where
  sites : problem.sites.size = ledger.sites
  supply : ∀ node < ledger.sites, problem.supply node = .ok (supplyAt ledger.supplies node)
  /-- The lower bounds are routed in advance: they leave the tail and enter the head. -/
  excess : ∀ (node : Nat) site, problem.sites[node]? = some site →
    site.excess = supplyAt ledger.supplies node -
      (ledger.lanes.map fun terms => if terms.tail = node then terms.lower else 0).sum +
      (ledger.lanes.map fun terms => if terms.head = node then terms.lower else 0).sum
  conserved : (problem.sites.toList.map Site.excess).sum =
    (problem.sites.toList.map Site.supply).sum
  total : (problem.sites.toList.map Site.supply).sum = (ledger.supplies.map Prod.snd).sum
  /-- A lane shows its terms, and a flow between its bounds. -/
  lane : ∀ (k : Nat) terms, ledger.lanes[k]? = some terms → ∃ flow,
    problem.lane? w k =
      .ok (some ⟨terms.tail, terms.head, flow, terms.lower, terms.upper, terms.cost⟩) ∧
    terms.lower ≤ flow ∧ flow ≤ terms.upper ∧ (ledger.settled = false → flow = terms.lower)
  beyond : ∀ k, ledger.lanes.length ≤ k → problem.lane? w k = .ok none
  /-- All lanes are shown in their order. -/
  views : ∃ views, problem.laneViews w = .ok views ∧ ∀ k : Nat, problem.lane? w k = .ok views[k]?

namespace Tallies

/-- What the lower bounds send from a node, told by the terms of the lanes. -/
theorem outflow_lowers_eq (tallies : problem.Tallies w ledger) (node : Nat) :
    problem.outflow problem.lowers node =
      (ledger.lanes.map fun terms => if terms.tail = node then terms.lower else 0).sum -
      (ledger.lanes.map fun terms => if terms.head = node then terms.lower else 0).sum := by
  rw [outflow_lowers, ← tallies.terms, List.map_map, List.map_map]
  induction problem.lanes.toList with
  | nil => rfl
  | cons lane rest ih =>
    simp only [List.map_cons, List.sum_cons, ih, Function.comp_apply]
    unfold turn Lane.terms
    split_ifs <;> ring

/-- Every supply was added at one site, so the sites have them all. -/
theorem sum_supply (tallies : problem.Tallies w ledger) :
    (problem.sites.toList.map Site.supply).sum = (ledger.supplies.map Prod.snd).sum := by
  have sites : (problem.sites.toList.map Site.supply).sum =
      ∑ node ∈ Finset.range ledger.sites, supplyAt ledger.supplies node := by
    rw [sum_map_eq_sum_range, Array.length_toList, tallies.sites]
    refine Finset.sum_congr rfl fun node member => ?_
    rw [Finset.mem_range, ← tallies.sites] at member
    have held : problem.sites[node]? = some problem.sites[node] := Array.getElem?_eq_getElem member
    rw [Array.getElem?_toList, held, ← tallies.supply node _ held]
    rfl
  rw [sites]
  have named := tallies.named
  generalize ledger.supplies = supplies at named ⊢
  induction supplies with
  | nil => simp [supplyAt]
  | cons supply rest ih =>
    have here := named supply (by simp)
    simp only [supplyAt_cons, Finset.sum_add_distrib, List.map_cons, List.sum_cons]
    rw [ih fun other member => named other (by simp [member]), Finset.sum_ite_eq,
      if_pos (Finset.mem_range.mpr here)]

/-- The lane of accepted terms. -/
theorem lane_of_terms (tallies : problem.Tallies w ledger)
    (noted : ledger.lanes[k]? = some terms) :
    ∃ lane, problem.lanes[k]? = some lane ∧ lane.terms = terms := by
  rw [← tallies.terms, List.getElem?_map, Array.getElem?_toList] at noted
  exact Option.map_eq_some_iff.mp noted

/-- A lane shows its terms: its flow fits the width because its upper bound does. -/
theorem view_eq (tallies : problem.Tallies w ledger) (held : problem.lanes[k]? = some lane) :
    lane.view w = .ok ⟨lane.tail, lane.head, lane.routed + lane.lower, lane.lower,
      lane.span + lane.lower, lane.cost⟩ := by
  have bounds := tallies.sound.bounded k lane held
  have listed : lane.terms ∈ ledger.lanes := by
    rw [← tallies.terms]
    exact List.mem_map_of_mem (Array.mem_toList_iff.mpr (Array.mem_of_getElem? held))
  have upper : w.Fits (lane.span + lane.lower) := tallies.fit _ listed
  have flow : w.Fits (lane.routed + lane.lower) := by
    unfold Width.Fits Width.least at upper ⊢
    omega
  unfold Lane.view Width.add
  rw [Width.keep_eq_ok_iff.mpr ⟨rfl, flow⟩, Width.keep_eq_ok_iff.mpr ⟨rfl, upper⟩]
  rfl

theorem lane?_eq (tallies : problem.Tallies w ledger) (held : problem.lanes[k]? = some lane) :
    problem.lane? w k = .ok (some ⟨lane.tail, lane.head, lane.routed + lane.lower, lane.lower,
      lane.span + lane.lower, lane.cost⟩) := by
  unfold Problem.lane?
  rw [held, Option.mapM_some, tallies.view_eq held]
  rfl

theorem lane?_eq_none (beyond : problem.lanes.size ≤ k) : problem.lane? w k = .ok none := by
  unfold Problem.lane?
  rw [Array.getElem?_eq_none beyond]
  rfl

/-- All views are those of the single lanes. -/
theorem laneViews_eq (tallies : problem.Tallies w ledger) :
    ∃ views, problem.laneViews w = .ok views ∧ ∀ k : Nat, problem.lane? w k = .ok views[k]? := by
  have shown : Checked.Ends (problem.laneViews w) (fun _ => False)
      (· = problem.lanes.toList.map fun lane => ⟨lane.tail, lane.head, lane.routed + lane.lower,
        lane.lower, lane.span + lane.lower, lane.cost⟩) := by
    refine Checked.ends_mapM _ fun lane member => ?_
    obtain ⟨k, held⟩ := List.mem_iff_getElem?.mp member
    rw [Array.getElem?_toList] at held
    rw [tallies.view_eq held]
    exact rfl
  cases computed : problem.laneViews w with
  | error fault => exact absurd (shown.of_error computed) id
  | ok views =>
    obtain rfl := shown.of_ok computed
    refine ⟨_, rfl, fun k => ?_⟩
    rw [List.getElem?_map, Array.getElem?_toList]
    cases held : problem.lanes[k]? with
    | none => exact lane?_eq_none (Array.getElem?_eq_none_iff.mp held)
    | some lane => exact tallies.lane?_eq held

private theorem represents (tallies : problem.Tallies w ledger) : problem.Represents w ledger := by
  have lanes : ledger.lanes.length = problem.lanes.size := by simp [← tallies.terms]
  constructor
  case sites => exact tallies.sites
  case supply =>
    intro node within
    rw [← tallies.sites] at within
    have held : problem.sites[node]? = some problem.sites[node] := Array.getElem?_eq_getElem within
    unfold Problem.supply
    rw [fetch_of_getElem? held, ← tallies.supply node _ held]
    rfl
  case excess =>
    intro node site held
    rw [tallies.sound.excess node site held, tallies.supply node site held,
      tallies.outflow_lowers_eq]
    ring
  case conserved => exact tallies.sound.sum_excess
  case total => exact tallies.sum_supply
  case lane =>
    intro k terms noted
    obtain ⟨lane, held, rfl⟩ := tallies.lane_of_terms noted
    have bounds := tallies.sound.bounded k lane held
    refine ⟨_, tallies.lane?_eq held, ?_, ?_, fun unsettled => ?_⟩
    · dsimp only [Lane.terms]
      omega
    · dsimp only [Lane.terms]
      omega
    · rw [tallies.fresh unsettled k lane held]
      exact Int.zero_add _
  case beyond =>
    intro k past
    exact lane?_eq_none (lanes ▸ past)
  case views => exact tallies.laneViews_eq

end Tallies

/-- Whatever was asked of a problem and whatever was refused, its readers are told what was
accepted. -/
theorem served_represents (served : Served w problem ledger) : problem.Represents w ledger :=
  served.tallies.represents

/-- Two sites with a lane between them, of which one unit is routed in advance, and a loop that
carries two units in any case. -/
def looped (routed : Int) : Problem :=
  ⟨#[⟨3, 2⟩, ⟨-3, -2⟩], #[⟨0, 1, 1, 3, routed, 2⟩, ⟨0, 0, 2, 0, 0, 0⟩]⟩

/-- A lane to a third site was refused. -/
theorem looped_built : Served ⟨7⟩ (looped 0)
    ⟨2, [(0, 3), (1, -3)], [⟨0, 1, 1, 4, 2⟩, ⟨0, 0, 2, 2, 0⟩], false⟩ := by
  have offered : (addSupply ⟨7⟩ 0 3 (.ofSites 2)).result =
      .ok (⟨#[⟨3, 3⟩, ⟨0, 0⟩], #[]⟩, .ok ()) := by with_unfolding_all rfl
  have wanted : (addDemand ⟨7⟩ 1 3 ⟨#[⟨3, 3⟩, ⟨0, 0⟩], #[]⟩).result =
      .ok (⟨#[⟨3, 3⟩, ⟨-3, -3⟩], #[]⟩, .ok ()) := by with_unfolding_all rfl
  have joined : (addLane ⟨7⟩ ⟨0, 1, 1, 4, 2⟩ ⟨#[⟨3, 3⟩, ⟨-3, -3⟩], #[]⟩).result =
      .ok (⟨#[⟨3, 2⟩, ⟨-3, -2⟩], #[⟨0, 1, 1, 3, 0, 2⟩]⟩, .ok 0) := by with_unfolding_all rfl
  have closed : (addLane ⟨7⟩ ⟨0, 0, 2, 2, 0⟩
      ⟨#[⟨3, 2⟩, ⟨-3, -2⟩], #[⟨0, 1, 1, 3, 0, 2⟩]⟩).result = .ok (looped 0, .ok 1) := by
    with_unfolding_all rfl
  have refused : (addLane ⟨7⟩ ⟨0, 2, 0, 1, 1⟩ (looped 0)).result =
      .ok (looped 0, .error (.nodeOutOfRange 2 2)) := by with_unfolding_all rfl
  exact (Served.ofSites 2).addSupply (by decide) offered |>.addDemand (by decide) wanted
    |>.addLane (by decide) (by decide) (by decide) joined
    |>.addLane (by decide) (by decide) (by decide) closed
    |>.addLane (by decide) (by decide) (by decide) refused

private theorem looped_settled : (({} : Router).settle ⟨7⟩ (looped 0)).result =
    .ok ⟨⟨none, 2, 1, #[0, 2, 0, 2]⟩, looped 2, .ok .optimal⟩ := by with_unfolding_all rfl

/-- Then it was settled. -/
theorem looped_served : Served ⟨7⟩ (looped 2)
    ⟨2, [(0, 3), (1, -3)], [⟨0, 1, 1, 4, 2⟩, ⟨0, 0, 2, 2, 0⟩], true⟩ :=
  looped_built.settle looped_settled

theorem served_represents_looped : (looped 2).Represents ⟨7⟩
    ⟨2, [(0, 3), (1, -3)], [⟨0, 1, 1, 4, 2⟩, ⟨0, 0, 2, 2, 0⟩], true⟩ :=
  served_represents looped_served

end Problem

end Transshipment
