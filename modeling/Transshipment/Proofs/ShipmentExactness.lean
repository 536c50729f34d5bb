import Transshipment.Proofs.AmountBounds

/-! What a shipment changes, to the unit. An arc loses the amount as often as it stands on the
path and gains it as often as its mate does. A simple path takes no link twice, so each of its
arcs loses the amount once, each mate gains it once, and every other arc stays as it was. -/
namespace Transshipment

/-- The arc with that much more room. -/
def Arc.gain (arc : Arc) (amount : Int) : Arc := { arc with residual := arc.residual + amount }

@[simp] theorem Arc.gain_zero (arc : Arc) : arc.gain 0 = arc := by simp [gain]

@[simp] theorem Arc.gain_gain (arc : Arc) (first second : Int) :
    (arc.gain first).gain second = arc.gain (first + second) := by
  simp [gain, Int.add_assoc]

private theorem Link.arc_moved (link : Link) (along side : Bool) (amount : Int) :
    (link.moved along amount).arc side =
      (link.arc side).gain (if side = along then -amount else amount) := by
  cases along <;> cases side <;> rfl

namespace Network

variable {w : Width} {net next last origin : Network} {offers : List Offer} {path : List Nat}
  {source sink id : Nat} {amount remaining cost paid total : Int} {arc : Arc}

/-- A push takes the amount from its arc and gives it to the mate. -/
theorem arc_pushed (net : Network) (id : Nat) (amount : Int) (other : Nat) :
    (net.pushed id amount).arc other =
      (·.gain (if other = id then -amount else if other = Arc.mate id then amount else 0)) <$>
        net.arc other := by
  by_cases same : other / 2 = id / 2
  · unfold Network.arc Network.link
    rw [links_pushed, if_pos same.symm]
    cases found : net.links[other / 2]? with
    | none => simp [pushed, arcs, bind, Except.bind, Functor.map, Except.map]
    | some link =>
      have side : Arc.along other = Arc.along id ↔ other = id := by
        constructor
        · intro alike
          refine (Arc.eq_or_eq_mate_of_half same).resolve_right ?_
          rintro rfl
          rw [Arc.along_mate] at alike
          simp at alike
        · rintro rfl
          rfl
      have paired : other ≠ id → other = Arc.mate id :=
        (Arc.eq_or_eq_mate_of_half same).resolve_left
      change Except.ok ((link.moved (Arc.along id) amount).arc (Arc.along other)) = .ok _
      rw [Link.arc_moved]
      by_cases here : other = id
      · simp [here]
      · simp [here, side, ← paired here]
  · have apart : other ≠ id ∧ other ≠ Arc.mate id := by
      refine ⟨fun equal => same (by rw [equal]), fun equal => same ?_⟩
      rw [equal, Arc.mate_half]
    rw [arc_pushed_of_ne same, if_neg apart.1, if_neg apart.2]
    cases net.arc other <;> simp [Functor.map, Except.map]

/-- Along a path an arc loses the amount as often as it is taken, and gains it as often as its
mate is. -/
theorem arc_pushedAlong (net : Network) (path : List Nat) (amount : Int) (id : Nat) :
    (net.pushedAlong path amount).arc id =
      (·.gain (amount * (path.count (Arc.mate id) - path.count id))) <$> net.arc id := by
  induction path generalizing net with
  | nil =>
    change net.arc id = _
    cases net.arc id <;> simp [Functor.map, Except.map]
  | cons first rest ih =>
    have mates : id = Arc.mate first ↔ first = Arc.mate id := by
      constructor <;> rintro rfl <;> rw [Arc.mate_mate]
    change ((net.pushed first amount).pushedAlong rest amount).arc id = _
    rw [ih, arc_pushed, Functor.map_map]
    refine congrArg (· <$> net.arc id) (funext fun arc => ?_)
    rw [Arc.gain_gain, List.count_cons, List.count_cons]
    congr 1
    by_cases here : id = first
    · subst here
      have other : ¬ id = Arc.mate id := fun equal => Arc.mate_ne id equal.symm
      simp [other]
      ring
    · simp only [here, if_false, mates, beq_iff_eq, Ne.symm here]
      split <;> push_cast <;> ring

/-- A simple walk that takes an arc does not take its mate. -/
theorem SimpleWalk.mate_notMem (simple : net.SimpleWalk source path sink cost)
    (member : id ∈ path) : Arc.mate id ∉ path := fun again =>
  Arc.mate_ne id (List.inj_on_of_nodup_map simple.halves_nodup again member (Arc.mate_half id))

/-- The shipment sent as much along the path as its arcs let through and as was wanted, for
what the path costs, and changed nothing else. -/
structure Shipped (net last : Network) (source : Nat) (path : List Nat) (sink : Nat)
    (remaining cost : Int) (shipment : Shipment) : Prop where
  positive : 0 < shipment.amount
  isLeast : IsLeast (insert remaining (net.rooms path)) shipment.amount
  remaining_eq : shipment.remaining = remaining - shipment.amount
  path_eq : shipment.path = path
  cost_eq : shipment.cost = shipment.amount * cost
  price_eq : last.price last.carried = net.price net.carried + shipment.cost
  taken : ∀ id ∈ path, ∀ arc, net.arc id = .ok arc →
    last.arc id = .ok { arc with residual := arc.residual - shipment.amount }
  given : ∀ id ∈ path, ∀ arc, net.arc (Arc.mate id) = .ok arc →
    last.arc (Arc.mate id) = .ok { arc with residual := arc.residual + shipment.amount }
  others : ∀ id, id ∉ path → Arc.mate id ∉ path → last.arc id = net.arc id
  outflow : ∀ node, last.outflow last.carried node = net.outflow net.carried node +
    (if node = source then shipment.amount else 0) - (if node = sink then shipment.amount else 0)
  /-- Nothing is left to send, or some arc of the path is full. -/
  exhausted : shipment.remaining = 0 ∨ ∃ id ∈ path, ∃ arc, last.arc id = .ok arc ∧ arc.residual = 0

/-- The bottleneck of a simple walk, sent over each arc, makes for a shipment without a rest. -/
theorem Conveyed.shipped (simple : net.SimpleWalk source path sink cost) (positive : 0 < amount)
    (isLeast : IsLeast (insert remaining (net.rooms path)) amount)
    (conveyed : net.Conveyed (net.pushedAlong path amount) path source sink amount cost) :
    net.Shipped (net.pushedAlong path amount) source path sink remaining cost
      ⟨amount, amount * cost, remaining - amount, path⟩ := by
  have once : ∀ id ∈ path, path.count id = 1 ∧ path.count (Arc.mate id) = 0 := fun id member =>
    ⟨List.count_eq_one_of_mem (.of_map _ simple.halves_nodup) member,
      List.count_eq_zero.mpr (simple.mate_notMem member)⟩
  have taken : ∀ id ∈ path, ∀ arc, net.arc id = .ok arc →
      (net.pushedAlong path amount).arc id =
        .ok { arc with residual := arc.residual - amount } := by
    intro id member arc held
    obtain ⟨one, none⟩ := once id member
    rw [arc_pushedAlong, held, one, none]
    simp [Functor.map, Except.map, Arc.gain, Int.sub_eq_add_neg]
  constructor
  case positive => exact positive
  case isLeast => exact isLeast
  case remaining_eq | path_eq | cost_eq => rfl
  case price_eq => exact conveyed.price
  case taken => exact taken
  case given =>
    intro id member arc held
    obtain ⟨one, none⟩ := once id member
    rw [arc_pushedAlong, held, Arc.mate_mate, one, none]
    simp [Functor.map, Except.map, Arc.gain]
  case others =>
    intro id away mateAway
    rw [arc_pushedAlong, List.count_eq_zero.mpr away, List.count_eq_zero.mpr mateAway]
    cases net.arc id <;> simp [Functor.map, Except.map]
  case outflow =>
    intro node
    rw [outflow_of_unloaded conveyed.same]
    exact conveyed.brings node
  case exhausted =>
    obtain whole | ⟨id, member, arc, held, full⟩ := isLeast.1
    · exact .inl (by dsimp only; omega)
    · exact .inr ⟨id, member, _, taken id member arc held, by dsimp only; omega⟩

/-- What each arc of the path costs for the amount fits the width, and so does what the arcs up
to any point cost together. -/
structure Payable (w : Width) (net : Network) (source : Nat) (path : List Nat) (amount : Int) :
    Prop where
  shares : ∀ id ∈ path, ∀ arc, net.arc id = .ok arc → w.Fits (amount * arc.cost)
  totals : ∀ first rest node part, path = first ++ rest → net.Walk source first node part →
    w.Fits (amount * part)

private theorem payable_iff_fares : net.Payable w source path amount ↔
    net.Fares w (fun _ => False) source path amount 0 := by
  constructor
  · intro payable
    exact ⟨fun id member arc held => Width.keeps_of_fits (payable.shares id member arc held),
      fun first rest node part split walk => Width.keeps_of_fits
        ((Int.zero_add (amount * part)).symm ▸ payable.totals first rest node part split walk)⟩
  · intro fares
    refine ⟨fun id member arc held => Width.keeps_false_iff.mp (fares.shares id member arc held),
      fun first rest node part split walk => ?_⟩
    have total := Width.keeps_false_iff.mp (fares.totals first rest node part split walk)
    rwa [Int.zero_add] at total

/-- An arc that was crossed was paid for. -/
theorem traverse_eq_ok (held : net.arc id = .ok arc)
    (crossed : traverse w amount (net, paid) id = .ok (next, total)) :
    next = net.pushed id amount ∧ total = paid + amount * arc.cost ∧
      w.Fits (amount * arc.cost) ∧ w.Fits (paid + amount * arc.cost) := by
  obtain ⟨after, pushed, crossed⟩ := Checked.bind_eq_ok_iff.mp crossed
  obtain ⟨entry, entryHeld, crossed⟩ := Checked.bind_eq_ok_iff.mp crossed
  obtain ⟨share, multiplied, crossed⟩ := Checked.bind_eq_ok_iff.mp crossed
  obtain ⟨sum, added, crossed⟩ := Checked.bind_eq_ok_iff.mp crossed
  cases crossed
  obtain ⟨-, -, rfl⟩ := push_eq_ok pushed
  obtain ⟨twin, found, -, -, price⟩ := arc_of_unloaded (unloaded_pushed net id amount).symm held
  cases entryHeld.symm.trans found
  obtain ⟨rfl, shareFits⟩ := Width.keep_eq_ok_iff.mp multiplied
  obtain ⟨rfl, sumFits⟩ := Width.keep_eq_ok_iff.mp added
  rw [price] at shareFits sumFits ⊢
  exact ⟨rfl, rfl, shareFits, sumFits⟩

/-- Whatever was crossed in all was paid for, arc by arc. -/
theorem Walk.fares_of_traversed {sent : Network × Int} (walk : origin.Walk source path sink cost)
    (same : net.unloaded = origin.unloaded) (fits : w.Fits paid)
    (traversed : path.foldlM (traverse w amount) (net, paid) = .ok sent) :
    origin.Fares w (fun _ => False) source path amount paid := by
  induction walk generalizing net paid with
  | nil node =>
    refine ⟨by simp, fun first rest place part split walk => Width.keeps_of_fits ?_⟩
    obtain ⟨rfl, -⟩ := List.append_eq_nil_iff.mp split.symm
    cases walk
    simpa using fits
  | @cons id arc path sink cost held isOpen walk ih =>
    rw [List.foldlM_cons] at traversed
    obtain ⟨⟨next, total⟩, crossed, traversed⟩ := Checked.bind_eq_ok_iff.mp traversed
    obtain ⟨twin, twinHeld, -, -, price⟩ := arc_of_unloaded same.symm held
    obtain ⟨rfl, rfl, shareFits, totalFits⟩ := traverse_eq_ok twinHeld crossed
    rw [price] at shareFits totalFits traversed
    have later := ih ((unloaded_pushed net id amount).trans same) totalFits traversed
    constructor
    case shares =>
      intro other member entry entryHeld
      rcases List.mem_cons.mp member with rfl | further
      · cases held.symm.trans entryHeld
        exact Width.keeps_of_fits shareFits
      · exact later.shares other further entry entryHeld
    case totals =>
      intro first rest node part split walked
      generalize arc.tail = start at walked
      cases walked with
      | nil => exact Width.keeps_of_fits (by simpa using fits)
      | cons entryHeld _ onward =>
        obtain ⟨rfl, rfl⟩ := List.cons.inj split
        cases held.symm.trans entryHeld
        rw [mul_add, ← Int.add_assoc]
        exact later.totals _ rest node _ rfl onward

/-- A shipment that went through was paid for. -/
theorem Walk.payable_of_shipped {sent : Shipment × Network}
    (walk : net.Walk source path sink cost)
    (narrowest : net.bottleneck path remaining = .ok amount)
    (shipped : net.ship w path remaining = .ok sent) : net.Payable w source path amount := by
  obtain ⟨again, found, shipped⟩ := Checked.bind_eq_ok_iff.mp shipped
  cases narrowest.symm.trans found
  split at shipped
  · cases shipped
  · obtain ⟨traversed, ran, -⟩ := Checked.bind_eq_ok_iff.mp shipped
    exact payable_iff_fares.mpr (walk.fares_of_traversed rfl w.fits_zero ran)

/-- What remains after a part was sent fits if the whole does. -/
theorem fits_rest (fits : w.Fits remaining) (positive : 0 < amount) (below : amount ≤ remaining) :
    w.Fits (remaining - amount) :=
  (Width.fits_iff_of_nonneg (Int.sub_nonneg.mpr below)).mpr
    ((Int.sub_le_self _ (Int.le_of_lt positive)).trans fits.2)

/-- A shipment along a simple path that is not empty sends exactly the least of what is wanted
and what the arcs let through. It goes through where this can be paid for, arc by arc, and
otherwise breaks off at an overflow. -/
theorem ship_exact (made : Made w net offers) (simple : net.SimpleWalk source path sink cost)
    (leads : path ≠ []) (wanted : 0 < remaining) (fits : w.Fits remaining) :
    ∃ amount, 0 < amount ∧ IsLeast (insert remaining (net.rooms path)) amount ∧
      ((∃ sent, net.ship w path remaining = .ok sent) ↔ net.Payable w source path amount) ∧
      Checked.Ends (net.ship w path remaining) Fault.IsOverflow fun (shipment, last) =>
        shipment.amount = amount ∧ net.Shipped last source path sink remaining cost shipment := by
  obtain ⟨amount, narrowest, positive, least⟩ := simple.1.exists_bottleneck wanted
  have below : amount ≤ remaining := least.2 (.inl rfl)
  refine ⟨amount, positive, least, ⟨?_, fun payable => ?_⟩, ?_⟩
  · rintro ⟨sent, shipped⟩
    exact simple.1.payable_of_shipped narrowest shipped
  · have ends := ship_bottleneck_ends made.sound simple leads positive narrowest least
      made.fitting.holds (payable_iff_fares.mp payable)
      (Width.keeps_of_fits (fits_rest fits positive below))
    cases shipped : net.ship w path remaining with
    | ok sent => exact ⟨sent, rfl⟩
    | error fault => exact (ends.of_error shipped).elim
  · have anyway := w.keeps_of_overflows Fault.isOverflow_overflow
    refine (ship_bottleneck_ends made.sound simple leads positive narrowest least
      made.fitting.holds ⟨fun _ _ _ _ => anyway _, fun _ _ _ _ _ _ => anyway _⟩
      (anyway _)).weaken ?_
    rintro _ ⟨rfl, conveyed⟩
    exact ⟨rfl, conveyed.shipped simple positive least⟩

/-- The path goes back over the cut and is refunded for it. -/
theorem ship_exact_crossing : (crossing 1 0 1).Payable ⟨7⟩ 0 [2, 5, 6] 1 ∧
    (crossing 1 0 1).Shipped (crossing 1 1 0) 0 [2, 5, 6] 3 2 9 ⟨1, 9, 1, [2, 5, 6]⟩ := by
  have shippedBefore : (crossing 0 0 0).ship ⟨7⟩ [0, 4, 8] 1 =
      .ok (⟨1, 3, 0, [0, 4, 8]⟩, crossing 1 0 1) := by decide
  have made := Made.ship crossing_made shippedBefore
  have far : (crossing 1 0 1).arc 2 = .ok ⟨0, 2, 1, 5⟩ := rfl
  have back : (crossing 1 0 1).arc 5 = .ok ⟨2, 1, 1, -1⟩ := rfl
  have onward : (crossing 1 0 1).arc 6 = .ok ⟨1, 3, 1, 5⟩ := rfl
  have simple : (crossing 1 0 1).SimpleWalk 0 [2, 5, 6] 3 9 :=
    ⟨.cons far (by decide) (.cons back (by decide) (.cons onward (by decide) (.nil 3))), by decide⟩
  have shipped : (crossing 1 0 1).ship ⟨7⟩ [2, 5, 6] 2 =
      .ok (⟨1, 9, 1, [2, 5, 6]⟩, crossing 1 1 0) := by decide
  obtain ⟨amount, -, -, through, ends⟩ :=
    ship_exact made simple (by decide) (by decide : (0 : Int) < 2) (by decide)
  obtain ⟨rfl, exactly⟩ := ends.of_ok shipped
  exact ⟨through.mp ⟨_, shipped⟩, exactly⟩

end Network

end Transshipment
