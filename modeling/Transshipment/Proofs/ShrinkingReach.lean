import Transshipment.Proofs.RisingFares

/-! Reach from round to round. A shipment opens no arc but those that lead back along its path,
and all of the path was in reach already. So nothing comes into reach of the source while an order
is worked off, and what a search reaches, every earlier search of the run reached too. -/
namespace Transshipment

namespace Network

variable {w : Width} {net : Network} {potentials : Potentials} {source sink : Nat}
  {remaining : Int} {survey : Survey} {sent : Shipment × Network}

/-- The nodes that open arcs lead to from a source. -/
def reach (net : Network) (source : Nat) : Set Nat := {node | net.Connects source node}

/-- A survey that comes to an end was made between nodes. -/
theorem surveyed_of_survey (sound : net.Sound) (priced : net.PricedBy potentials)
    (searched : net.survey w potentials source sink = .ok survey) :
    source < net.nodes ∧ sink < net.nodes ∧ net.Surveyed potentials source sink survey :=
  (survey_ends_of_priced w sound priced source sink).of_ok searched

/-- Something is sent only between two different nodes: the way from a node to itself is empty,
and an empty path carries nothing. -/
theorem apart_of_dispatch (sound : net.Sound) (priced : net.PricedBy potentials)
    (dispatched : net.dispatch w potentials source sink remaining = .ok ⟨survey, some sent⟩) :
    source < net.nodes ∧ sink < net.nodes ∧ source ≠ sink := by
  obtain ⟨found, searched, dispatched⟩ := Checked.bind_eq_ok_iff.mp dispatched
  obtain ⟨sourceWithin, sinkWithin, surveyed⟩ := surveyed_of_survey sound priced searched
  refine ⟨sourceWithin, sinkWithin, ?_⟩
  rintro rfl
  obtain ⟨way, led, simple, -⟩ := surveyed.trail sound priced.1 (.refl net source)
  split at dispatched
  · obtain ⟨path, again, dispatched⟩ := Checked.bind_eq_ok_iff.mp dispatched
    obtain ⟨made, shipped, dispatched⟩ := Checked.bind_eq_ok_iff.mp dispatched
    cases again.symm.trans led
    rw [simple.eq_nil_iff.mpr rfl] at shipped
    cases shipped
  · cases dispatched

end Network

/-- The nodes that the search on the chart came to. -/
def Chart.reached (chart : Chart) : Set Nat := {node | chart.visited[node]? = some true}

/-- A search that comes to an end reached just what is in reach. -/
theorem Chart.reached_of_search {w : Width} {net : Network} {potentials raised : Potentials}
    {source sink : Nat} {reached : Bool} {left : Chart} (sound : net.Sound)
    (priced : net.PricedBy potentials) (chart : Chart)
    (searched : chart.search w net potentials source sink = .ok (left, raised, reached)) :
    left.reached = net.reach source := by
  rw [search_eq w sound] at searched
  obtain ⟨survey, surveyed, same⟩ := Checked.map_eq_ok_iff.mp searched
  cases same
  obtain ⟨-, -, surveyed⟩ := Network.surveyed_of_survey sound priced surveyed
  exact Set.ext (visited_iff surveyed)

namespace Progress

variable {w : Width} {order : Order} {limit? : Option Nat} {origin : Network}
  {p last next : Progress}

/-- Only a proper order gets as far as a shipment. -/
theorem Valid.proper_of_shipped (valid : p.Valid order origin) (owing : 0 < p.remaining)
    (shipped : (p.advance w order).result = .ok (.shipped next)) : order.Proper origin := by
  obtain ⟨survey, shipment, dispatched, -, -⟩ := dispatch_of_shipped shipped
  obtain ⟨source, sink, apart⟩ :=
    Network.apart_of_dispatch valid.sound valid.priced dispatched
  rw [valid.nodes_eq] at source sink
  have counted := valid.counted
  have paced := valid.paced
  exact ⟨source, sink, apart, by omega⟩

/-- So a shipment goes as it does for a proper order, whatever was ordered. -/
theorem Valid.follows_of_shipped (valid : p.Valid order origin) (owing : 0 < p.remaining)
    (shipped : (p.advance w order).result = .ok (.shipped next)) :
    Round.Follows order p (.shipped next) :=
  (advance_follows (valid.proper_of_shipped owing shipped) valid owing (valid.secure w)).of_ok
    shipped

/-- What is in reach after a shipment was in reach before. -/
theorem Valid.reach_subset (valid : p.Valid order origin) (owing : 0 < p.remaining)
    (shipped : (p.advance w order).result = .ok (.shipped next)) :
    next.net.reach order.source ⊆ p.net.reach order.source := by
  obtain ⟨survey, shipment, cost, advances⟩ := valid.follows_of_shipped owing shipped
  exact fun node => advances.conveyed.connects advances.simple.1

private theorem Searches.valid (searches : p.Searches w order limit? last)
    (valid : p.Valid order origin) :
    last.Valid order origin := by
  induction searches with
  | here continues => exact valid
  | later continues shipped _ ih =>
    exact ih ((valid.follows_of_shipped continues.1 shipped).valid valid continues.1)

/-- From search to search nothing comes into reach. -/
theorem Searches.reach_subset (searches : p.Searches w order limit? last)
    (valid : p.Valid order origin) :
    last.net.reach order.source ⊆ p.net.reach order.source := by
  induction searches with
  | here continues => exact Set.Subset.rfl
  | later continues shipped _ ih =>
    have follows := valid.follows_of_shipped continues.1 shipped
    exact (ih (follows.valid valid continues.1)).trans (valid.reach_subset continues.1 shipped)

end Progress

namespace Router

variable {w : Width} {net : Network} {offers : List Offer} {router : Router} {order : Order}
  {p q : Progress}

/-- The books are right before each search, whatever was ordered. -/
theorem SearchesFrom.valid_always (searches : router.SearchesFrom w net order p)
    (sound : net.Sound) : p.Valid order net := by
  obtain ⟨potentials, computed, searches⟩ := searches
  have started := (Network.startPotentials_ends w sound).of_ok computed
  have wanted : 0 < order.demand := searches.continues.1
  exact searches.valid (.start sound started.1 (Int.le_of_lt wanted))

/-- Of two searches of a run, the one after fewer shipments leads on to the other. -/
theorem SearchesFrom.onward (searches : router.SearchesFrom w net order p)
    (further : router.SearchesFrom w net order q) (fewer : p.shipments ≤ q.shipments) :
    p.Searches w order router.limit? q := by
  obtain ⟨potentials, computed, searches⟩ := searches
  obtain ⟨others, recomputed, further⟩ := further
  cases computed.symm.trans recomputed
  exact searches.onward further fewer

/-- Nothing out of reach comes into reach while an order is worked off. Each search reaches just
what is in reach, a shipment brings nothing into reach, and so the nodes that a search reaches
are among those that each earlier search of the run reached. -/
theorem route_reach_shrinks (made : Network.Made w net offers) (router : Router) (order : Order) :
    (∀ (p : Progress) (chart : Chart) found, router.SearchesFrom w net order p →
      chart.search w p.net p.potentials order.source order.sink = .ok found →
      found.1.reached = p.net.reach order.source) ∧
    (∀ p next, router.SearchesFrom w net order p →
      (p.advance w order).result = .ok (.shipped next) →
      next.net.reach order.source ⊆ p.net.reach order.source) ∧
    ∀ (p q : Progress) (earlier later : Chart) before after,
      router.SearchesFrom w net order p → router.SearchesFrom w net order q →
      p.shipments ≤ q.shipments →
      earlier.search w p.net p.potentials order.source order.sink = .ok before →
      later.search w q.net q.potentials order.source order.sink = .ok after →
      after.1.reached ⊆ before.1.reached := by
  have reaches : ∀ (p : Progress) (chart : Chart) found, router.SearchesFrom w net order p →
      chart.search w p.net p.potentials order.source order.sink = .ok found →
      found.1.reached = p.net.reach order.source := by
    intro p chart found searches searched
    have valid := searches.valid_always made.sound
    exact Chart.reached_of_search valid.sound valid.priced chart searched
  refine ⟨reaches, fun p next searches shipped => ?_, ?_⟩
  · exact (searches.valid_always made.sound).reach_subset searches.owing shipped
  · intro p q earlier later before after searches further fewer searched searchedLater
    rw [reaches _ _ _ searches searched, reaches _ _ _ further searchedLater]
    exact (searches.onward further fewer).reach_subset (searches.valid_always made.sound)

/-- Where both links side by side are full, the search gets no further than the source. -/
def atSource : Tree := ⟨#[.settled 0 none, .unseen, .unseen]⟩

theorem route_reach_shrinks_sideBySide :
    atSource.chart.reached = (Network.sideBySide 1 1).reach 0 ∧
      (Network.sideBySide 1 0).reach 0 ⊆ (Network.sideBySide 0 0).reach 0 ∧
      atSource.chart.reached ⊆ Chart.besides.chart.reached := by
  have made := Network.sideBySide_made
  have computed : ((Network.sideBySide 0 0).startPotentials ⟨7⟩).result =
      .ok (.ok #[0, -1, 0]) := by with_unfolding_all rfl
  have shipped : ((Progress.start (Network.sideBySide 0 0) #[0, -1, 0] 3).advance ⟨7⟩
      ⟨0, 1, 3⟩).result = .ok (.shipped ⟨Network.sideBySide 1 0, #[0, -1, 0], 2, -1, 1, 1⟩) := by
    with_unfolding_all rfl
  have shippedAgain : (Progress.advance ⟨7⟩ ⟨0, 1, 3⟩
      ⟨Network.sideBySide 1 0, #[0, -1, 0], 2, -1, 1, 1⟩).result =
        .ok (.shipped ⟨Network.sideBySide 1 1, #[0, 3, 4], 1, 2, 2, 2⟩) := by
    with_unfolding_all rfl
  have searched : Chart.used.search ⟨7⟩ (Network.sideBySide 0 0) #[0, -1, 0] 0 1 =
      .ok (Chart.besides.chart, #[0, -1, 0], true) := by
    have surveyed : (Network.sideBySide 0 0).survey ⟨7⟩ #[0, -1, 0] 0 1 =
        .ok ⟨Chart.besides, #[0, -1, 0], true⟩ := by with_unfolding_all rfl
    rw [Chart.search_eq ⟨7⟩ made.sound, surveyed]
    rfl
  have first : ({} : Router).SearchesFrom ⟨7⟩ (Network.sideBySide 0 0) ⟨0, 1, 3⟩
      (.start (Network.sideBySide 0 0) #[0, -1, 0] 3) := ⟨_, computed, .here (by decide)⟩
  have third : ({} : Router).SearchesFrom ⟨7⟩ (Network.sideBySide 0 0) ⟨0, 1, 3⟩
      ⟨Network.sideBySide 1 1, #[0, 3, 4], 1, 2, 2, 2⟩ :=
    ⟨_, computed, .later (by decide) shipped (.later (by decide) shippedAgain (.here (by decide)))⟩
  have searchedLast : Chart.used.search ⟨7⟩ (Network.sideBySide 1 1) #[0, 3, 4] 0 1 =
      .ok (atSource.chart, #[0, 3, 4], false) := by
    have surveyed : (Network.sideBySide 1 1).survey ⟨7⟩ #[0, 3, 4] 0 1 =
        .ok ⟨atSource, #[0, 3, 4], false⟩ := by with_unfolding_all rfl
    rw [Chart.search_eq ⟨7⟩ (third.valid_always made.sound).sound, surveyed]
    rfl
  obtain ⟨reaches, shrinks, nested⟩ := route_reach_shrinks made {} ⟨0, 1, 3⟩
  exact ⟨reaches _ _ _ third searchedLast, shrinks _ _ first shipped,
    nested _ _ _ _ _ _ first third (by decide) searched searchedLast⟩

end Router

end Transshipment
