import Transshipment.Proofs.FlowConservation

/-! Runs under a limit. A limit is looked at before each search and nowhere else, so a run
under it goes step by step as the run without one does. Either it comes to the same end, or
it stops before the first search that it is not allowed, with the books of that moment. -/
namespace Transshipment

namespace Progress

variable {w : Width} {order : Order} {limit? : Option Nat} {limit : Nat}
  {p next last other : Progress} {ending : Ending}

/-- A round that ships is counted. -/
theorem advance_shipments (round : (p.advance w order).result = .ok (.shipped next)) :
    next.shipments = p.shipments + 1 := by
  obtain ⟨survey, shipment, -, -, booked⟩ := dispatch_of_shipped round
  rw [booked]

/-- A round that finds the sink out of reach is not. -/
theorem advance_stranded (round : (p.advance w order).result = .ok (.stranded last)) :
    last.shipments = p.shipments := by
  obtain ⟨survey, -, -, rfl⟩ := dispatch_of_stranded round
  rfl

private theorem shipments_le_rounds (ended : (p.rounds w order limit?).result = .ok ending) :
    p.shipments ≤ ending.last.shipments := by
  fun_induction p.rounds w order limit? with
  | case1 p met =>
    cases ended
    exact Nat.le_refl _
  | case2 p owing limit reached =>
    cases ended
    exact Nat.le_refl _
  | case3 p owing open? turn fault broke => cases ended
  | case4 p owing open? turn last stranded =>
    cases ended
    exact Nat.le_of_eq (advance_stranded stranded).symm
  | case5 p owing open? turn next shipped ih =>
    rw [Traced.result_after] at ended
    have counted := advance_shipments shipped
    have later := ih ended
    omega

/-- Without a limit no round is refused. -/
theorem rounds_unlimited (ended : (p.rounds w order none).result = .ok ending) :
    ∃ outcome, ending.answer = .ok outcome := by
  fun_induction p.rounds w order none with
  | case1 p met =>
    cases ended
    exact ⟨_, rfl⟩
  | case2 p owing limit reached => cases reached
  | case3 p owing open? turn fault broke => cases ended
  | case4 p owing open? turn last stranded =>
    cases ended
    exact ⟨_, rfl⟩
  | case5 p owing open? turn next shipped ih =>
    rw [Traced.result_after] at ended
    exact ih ended

theorem Searches.shipments_le (searches : p.Searches w order limit? last) :
    p.shipments ≤ last.shipments := by
  induction searches with
  | here continues => exact Nat.le_refl _
  | later continues shipped _ ih =>
    have counted := advance_shipments shipped
    omega

/-- As many shipments lead to one state only. -/
theorem Searches.unique (searches : p.Searches w order limit? last)
    (again : p.Searches w order limit? other) (same : other.shipments = last.shipments) :
    other = last := by
  induction searches with
  | here continues =>
    cases again with
    | here continues => rfl
    | later continues shipped further =>
      have counted := advance_shipments shipped
      have below := further.shipments_le
      omega
  | later continues shipped further ih =>
    cases again with
    | here continues =>
      have counted := advance_shipments shipped
      have below := further.shipments_le
      omega
    | later continues shippedToo furtherToo =>
      cases shipped.symm.trans shippedToo
      exact ih furtherToo same

private theorem continues_of_lt (owing : 0 < p.remaining) (below : p.shipments < limit) :
    p.Continues (some limit) :=
  ⟨owing, Option.filter_some_neg (by simpa using below)⟩

end Progress

/-- A limit leaves room for a run with this answer if there were fewer shipments, or as many
and nothing was left to send after the last of them. -/
def Suffices (limit : Nat) (answer : Except Refusal Outcome) (shipments : Nat) : Prop :=
  shipments < limit ∨ shipments = limit ∧ ∃ cost, answer = .ok (.optimal cost)

namespace Progress

variable {w : Width} {order : Order} {limit : Nat} {p : Progress} {ending : Ending}

/-- Rounds under a limit come to what they come to without one, or they stop where as many
shipments were made as it allows and another search is due, even one that finds nothing to
ship. -/
theorem rounds_truncated (few : p.shipments ≤ limit)
    (ended : (p.rounds w order none).result = .ok ending) :
    (Suffices limit ending.answer ending.last.shipments ∧
        (p.rounds w order (some limit)).result = .ok ending) ∨
      ¬ Suffices limit ending.answer ending.last.shipments ∧
        ∃ last, p.Searches w order none last ∧ last.shipments = limit ∧
          (p.rounds w order (some limit)).result = .ok ⟨last, .error (.limitReached limit)⟩ := by
  fun_induction p.rounds w order none with
  | case1 p met =>
    cases ended
    exact .inl ⟨(Nat.lt_or_eq_of_le few).imp_right fun all => ⟨all, _, rfl⟩, rounds_met met⟩
  | case2 p owing other reached => cases reached
  | case3 p owing open? turn fault broke => cases ended
  | case4 p owing open? turn last stranded =>
    cases ended
    have counted := advance_stranded stranded
    rcases Nat.lt_or_eq_of_le few with below | all
    · have continues := continues_of_lt (Int.not_le.mp owing) below
      exact .inl ⟨.inl (counted ▸ below), continues.rounds_stranded stranded⟩
    · refine .inr ⟨?_, p, .here ⟨Int.not_le.mp owing, rfl⟩, all,
        rounds_stopped (Int.not_le.mp owing) (Nat.le_of_eq all.symm)⟩
      rintro (fewer | ⟨-, cost, optimal⟩)
      · dsimp only at fewer
        omega
      · cases optimal
  | case5 p owing open? turn next shipped ih =>
    rw [Traced.result_after] at ended
    have counted := advance_shipments shipped
    have unlimited : p.Continues none := ⟨Int.not_le.mp owing, rfl⟩
    rcases Nat.lt_or_eq_of_le few with below | all
    · rw [(continues_of_lt unlimited.1 below).rounds_shipped shipped]
      rcases ih (by omega) ended with same | ⟨cut, last, searches, reached, stopped⟩
      · exact .inl same
      · exact .inr ⟨cut, last, .later unlimited shipped searches, reached, stopped⟩
    · refine .inr ⟨?_, p, .here unlimited, all,
        rounds_stopped unlimited.1 (Nat.le_of_eq all.symm)⟩
      have later := shipments_le_rounds ended
      rintro (fewer | ⟨exactly, -⟩) <;> omega

end Progress

namespace Router

variable {w : Width} {net : Network} {router : Router} {order : Order} {run : Run}
  {p q : Progress}

/-- A run comes to one state only after as many shipments. -/
theorem SearchesFrom.unique (searches : router.SearchesFrom w net order p)
    (again : router.SearchesFrom w net order q) (same : q.shipments = p.shipments) : q = p := by
  obtain ⟨potentials, computed, searches⟩ := searches
  obtain ⟨others, recomputed, again⟩ := again
  cases computed.symm.trans recomputed
  exact searches.unique again same

/-- A limit truncates a run and never alters it. If the run without a limit was refused, or
the limit leaves room for it, the run under the limit comes to the same, books and all;
otherwise it is stopped in the one state from which the other goes on to search after as many
shipments as the limit allows. -/
theorem route_truncated (limit : Nat)
    (ran : (route w { router with limit? := none } net order).result = .ok run) :
    ((∃ refusal, run.answer = .error refusal) ∨ Suffices limit run.answer run.router.shipments →
      (route w { router with limit? := some limit } net order).result =
        .ok { run with router := { run.router with limit? := some limit } }) ∧
    (¬ ((∃ refusal, run.answer = .error refusal) ∨
        Suffices limit run.answer run.router.shipments) →
      ∃ p, (∀ q, (SearchesFrom w { router with limit? := none } net order q ∧
            q.shipments = limit) ↔ q = p) ∧
        (route w { router with limit? := some limit } net order).result =
          .ok ⟨⟨some limit, p.delivered, limit, p.potentials⟩, p.net,
            .error (.limitReached limit)⟩) := by
  by_cases proper : order.Proper net
  · rw [route_proper w _ proper] at ran ⊢
    cases computed : (net.startPotentials w).result with
    | error fault =>
      rw [computed] at ran
      cases ran
    | ok answer =>
      rw [computed] at ran
      cases answer with
      | error refusal =>
        cases ran
        exact ⟨fun _ => rfl, fun answered => absurd (.inl ⟨refusal, rfl⟩) answered⟩
      | ok potentials =>
        obtain ⟨ending, ended, rfl⟩ := Checked.map_eq_ok_iff.mp ran
        obtain ⟨outcome, unrefused⟩ := Progress.rounds_unlimited ended
        obtain ⟨enough, same⟩ | ⟨cut, last, searches, reached, stopped⟩ :=
          Progress.rounds_truncated (Nat.zero_le limit) ended
        · exact ⟨fun _ => Checked.map_eq_ok_iff.mpr ⟨ending, same, rfl⟩,
            fun answered => absurd (.inr enough) answered⟩
        · refine ⟨?_, fun _ => ⟨last, fun q => ⟨fun ⟨again, many⟩ => ?_, ?_⟩,
            Checked.map_eq_ok_iff.mpr ⟨_, stopped, by rw [← reached]; rfl⟩⟩⟩
          · rintro (⟨refusal, refused⟩ | enough)
            · cases unrefused.symm.trans refused
            · exact absurd enough cut
          · exact SearchesFrom.unique ⟨potentials, computed, searches⟩ again
              (many.trans reached.symm)
          · rintro rfl
            exact ⟨⟨potentials, computed, searches⟩, reached⟩
  · rw [route_improper w _ proper] at ran ⊢
    cases refused : orderRefusal? net order with
    | some refusal =>
      rw [refused] at ran
      cases ran
      exact ⟨fun _ => rfl, fun answered => absurd (.inl ⟨refusal, rfl⟩) answered⟩
    | none =>
      rw [refused] at ran
      cases ran
      have enough : Suffices limit (.ok (.optimal 0)) 0 :=
        (Nat.eq_zero_or_pos limit).symm.imp_right fun none => ⟨none.symm, 0, rfl⟩
      exact ⟨fun _ => rfl, fun answered => absurd (.inr enough) answered⟩

theorem route_truncated_crossing :
    (route ⟨7⟩ { limit? := some 2 } (Network.crossing 0 0 0) ⟨0, 3, 2⟩).result =
        .ok ⟨⟨some 2, 2, 2, #[0, 4, 5, 9]⟩, Network.crossing 1 1 0, .ok (.optimal 12)⟩ ∧
      ∃ p, SearchesFrom ⟨7⟩ { limit? := none } (Network.crossing 0 0 0) ⟨0, 3, 2⟩ p ∧
        p.shipments = 1 ∧
        (route ⟨7⟩ { limit? := some 1 } (Network.crossing 0 0 0) ⟨0, 3, 2⟩).result =
          .ok ⟨⟨some 1, p.delivered, 1, p.potentials⟩, p.net, .error (.limitReached 1)⟩ := by
  have ran : (route ⟨7⟩ { limit? := none } (Network.crossing 0 0 0) ⟨0, 3, 2⟩).result =
      .ok ⟨⟨none, 2, 2, #[0, 4, 5, 9]⟩, Network.crossing 1 1 0, .ok (.optimal 12)⟩ := by
    with_unfolding_all rfl
  refine ⟨(@route_truncated _ _ {} _ _ 2 ran).1 (.inr (.inr ⟨rfl, 12, rfl⟩)), ?_⟩
  have cut : ¬ ((∃ refusal, (Except.ok (.optimal 12) : Except Refusal Outcome) = .error refusal) ∨
      Suffices 1 (.ok (.optimal 12)) 2) := by
    rintro (⟨refusal, refused⟩ | below | ⟨exactly, -⟩)
    · cases refused
    · exact absurd below (by decide)
    · exact absurd exactly (by decide)
  obtain ⟨p, unique, stopped⟩ := (@route_truncated _ _ {} _ _ 1 ran).2 cut
  obtain ⟨searches, once⟩ := (unique p).mpr rfl
  exact ⟨p, searches, once, stopped⟩

end Router

end Transshipment
