import Mathlib.Order.Bounds.Defs
import Transshipment.Network.Shipment
import Transshipment.Proofs.FlowDuality

/-! A shipment along a simple walk of open arcs never meets an arc without room,
because it comes to no link twice. It brings its amount from one end to the
other, pays the cost of the walk for each unit, and opens no arc but the mates of
those that it took. -/
namespace Transshipment.Network

variable {net middle last : Network} {path : List Nat} {source node sink id : Nat}
  {amount remaining cost : Int} {arc : Arc}

/-- An amount was brought along a path at a cost for each unit, and nothing but
the flow on the path changed. -/
structure Conveyed (net last : Network) (path : List Nat) (source sink : Nat)
    (amount cost : Int) : Prop where
  sound : last.Sound
  same : last.unloaded = net.unloaded
  outflow : ∀ node, last.outflow last.carried node =
    net.outflow net.carried node + amount * turn source sink node
  price : last.price last.carried = net.price net.carried + amount * cost
  opened : ∀ id arc, last.arc id = .ok arc → arc.Open →
    (∃ before, net.arc id = .ok before ∧ before.Open ∧ before.tail = arc.tail ∧
      before.head = arc.head ∧ before.cost = arc.cost) ∨ Arc.mate id ∈ path

namespace Conveyed

theorem brings (conveyed : net.Conveyed last path source sink amount cost) :
    net.Brings net.carried last.carried source sink amount := by
  rw [brings_iff_turn]
  intro node
  rw [← outflow_of_unloaded conveyed.same, conveyed.outflow]

theorem refl (sound : net.Sound) (node : Nat) (amount : Int) :
    net.Conveyed net [] node node amount 0 :=
  ⟨sound, rfl, by simp [turn], by simp, fun _ arc held isOpen =>
    .inl ⟨arc, held, isOpen, rfl, rfl, rfl⟩⟩

private theorem pushed (sound : net.Sound) (nonneg : 0 ≤ amount) (held : net.arc id = .ok arc)
    (room : amount ≤ arc.residual) :
    net.Conveyed (net.pushed id amount) [id] arc.tail arc.head amount arc.cost := by
  refine ⟨sound.pushed nonneg held room, unloaded_pushed net id amount, outflow_pushed held amount,
    price_pushed held amount, fun first arc found isOpen => ?_⟩
  obtain older | rfl := open_of_pushed nonneg found isOpen
  · exact .inl older
  · exact .inr (by rw [Arc.mate_mate]; simp)

theorem trans {rest : List Nat} {onward : Int}
    (first : net.Conveyed middle path source node amount cost)
    (second : middle.Conveyed last rest node sink amount onward) :
    net.Conveyed last (path ++ rest) source sink amount (cost + onward) := by
  refine ⟨second.sound, second.same.trans first.same, fun place => ?_, ?_,
    fun id arc held isOpen => ?_⟩
  · rw [second.outflow, first.outflow, ← turn_add_turn source node sink, mul_add, Int.add_assoc]
  · rw [second.price, first.price, mul_add, Int.add_assoc]
  · rcases second.opened id arc held isOpen with ⟨between, found, wasOpen, tail, head, price⟩ | mate
    · rcases first.opened id between found wasOpen with ⟨before, again, older, ends⟩ | mate
      · exact .inl ⟨before, again, older, ends.1.trans tail, ends.2.1.trans head,
          ends.2.2.trans price⟩
      · exact .inr (List.mem_append_left _ mate)
    · exact .inr (List.mem_append_right _ mate)

/-- Nothing comes into reach of the source: a new open arc leads back along the path. -/
theorem connects (conveyed : net.Conveyed last path source sink amount cost)
    (walked : net.Walk source path sink cost) (connected : last.Connects source node) :
    net.Connects source node := by
  have onward : ∀ {first way node fare}, last.Walk first way node fare →
      net.Connects source first → net.Connects source node := by
    intro first way node fare walk reached
    induction walk with
    | nil node => exact reached
    | @cons id arc way node fare held isOpen walk ih =>
      apply ih
      rcases conveyed.opened id arc held isOpen with ⟨before, found, wasOpen, tail, head, -⟩ | taken
      · rw [← head]
        rw [← tail] at reached
        exact reached.step found wasOpen
      · obtain ⟨twin, twinHeld, -, head, -⟩ := arc_of_unloaded conveyed.same held
        obtain ⟨mate, mateHeld, mateTail, -, -⟩ := arc_mate twinHeld
        rw [← head, ← mateTail]
        exact walked.connects_tail taken mateHeld
  obtain ⟨way, fare, walk⟩ := connected
  exact onward walk (.refl net source)

end Conveyed

/-- What the arcs of a path let through. -/
def rooms (net : Network) (path : List Nat) : Set Int :=
  {room | ∃ id ∈ path, ∃ arc, net.arc id = .ok arc ∧ arc.residual = room}

/-- The bottleneck is the least of the bound and of what the arcs let through. -/
theorem bottleneck_eq (bound : Int) (arcs : ∀ id ∈ path, ∃ arc, net.arc id = .ok arc) :
    ∃ least, net.bottleneck path bound = .ok least ∧
      IsLeast (insert bound (net.rooms path)) least := by
  induction path generalizing bound with
  | nil => exact ⟨bound, rfl, .inl rfl, by simp [rooms, lowerBounds]⟩
  | cons id path ih =>
    obtain ⟨arc, held⟩ := arcs id (by simp)
    obtain ⟨least, found, attained, below⟩ :=
      ih (min bound arc.residual) fun id later => arcs id (by simp [later])
    have first : least ≤ min bound arc.residual := below (.inl rfl)
    refine ⟨least, ?_, ?_, ?_⟩
    · unfold bottleneck at found ⊢
      rw [List.foldlM_cons, held]
      exact found
    · obtain atFirst | ⟨other, later, entry, entryHeld, exactly⟩ := attained
      · rcases Int.le_total bound arc.residual with low | high
        · exact .inl (by omega)
        · exact .inr ⟨id, by simp, arc, held, by omega⟩
      · exact .inr ⟨other, by simp [later], entry, entryHeld, exactly⟩
    · rintro room (rfl | ⟨other, member, entry, entryHeld, rfl⟩)
      · omega
      · rcases List.mem_cons.mp member with rfl | later
        · obtain rfl : arc = entry := Except.ok.inj (held.symm.trans entryHeld)
          omega
        · exact below (.inr ⟨other, later, entry, entryHeld, rfl⟩)

/-- Along a walk of open arcs something can be sent. -/
theorem Walk.exists_bottleneck (walk : net.Walk source path sink cost) (wanted : 0 < remaining) :
    ∃ amount, net.bottleneck path remaining = .ok amount ∧ 0 < amount ∧
      IsLeast (insert remaining (net.rooms path)) amount := by
  obtain ⟨amount, narrowest, least⟩ := bottleneck_eq remaining fun id member =>
    (walk.open_of_mem member).imp fun _ found => found.1
  refine ⟨amount, narrowest, ?_, least⟩
  obtain rfl | ⟨id, member, arc, held, rfl⟩ := least.1
  · exact wanted
  · obtain ⟨entry, entryHeld, isOpen⟩ := walk.open_of_mem member
    cases held.symm.trans entryHeld
    exact isOpen

/-- The network after an amount went over each arc of a path. -/
def pushedAlong (net : Network) (path : List Nat) (amount : Int) : Network :=
  path.foldl (fun net id => net.pushed id amount) net

/-- The amounts in which a shipment counts its cost are kept: what each arc costs, and what
the arcs up to any point cost. -/
structure Fares (w : Width) (breaks : Fault → Prop) (net : Network) (source : Nat)
    (path : List Nat) (amount paid : Int) : Prop where
  shares : ∀ id ∈ path, ∀ arc, net.arc id = .ok arc → w.Keeps breaks (amount * arc.cost)
  totals : ∀ first rest node part, path = first ++ rest → net.Walk source first node part →
    w.Keeps breaks (paid + amount * part)

private theorem Fares.tail {w : Width} {breaks : Fault → Prop} {paid : Int}
    (fares : net.Fares w breaks arc.tail (id :: path) amount paid) (held : net.arc id = .ok arc)
    (isOpen : arc.Open) : net.Fares w breaks arc.head path amount (paid + amount * arc.cost) where
  shares other later := fares.shares other (by simp [later])
  totals first rest node part split walk := by
    rw [Int.add_assoc, ← mul_add]
    exact fares.totals (id :: first) rest node _ (by rw [split]; rfl) (.cons held isOpen walk)

/-- One arc is crossed by a push, and what it costs is added. -/
theorem traverse_arc_ends {w : Width} {breaks : Fault → Prop} {paid : Int} (sound : net.Sound)
    (nonneg : 0 ≤ amount) (held : net.arc id = .ok arc) (fits : amount ≤ arc.residual)
    (holds : net.Holds w breaks) (share : w.Keeps breaks (amount * arc.cost))
    (total : w.Keeps breaks (paid + amount * arc.cost)) :
    Checked.Ends (traverse w amount (net, paid) id) breaks
      (· = (net.pushed id amount, paid + amount * arc.cost)) := by
  apply (push_ends nonneg held fits (holds.moved sound nonneg held fits)).bind
  rintro _ rfl
  obtain ⟨after, afterHeld, -, -, price⟩ :=
    arc_of_unloaded (unloaded_pushed net id amount).symm held
  apply Checked.ends_bind_of_ok afterHeld
  rw [price]
  apply share.mul.bind
  rintro share rfl
  apply total.add.bind
  rintro total rfl
  exact rfl

/-- Each arc of a walk that meets no link twice still has the room that it had
at the start when its turn comes. -/
theorem traverse_ends {w : Width} {breaks : Fault → Prop} {origin : Network}
    (walk : origin.Walk source path sink cost) (apart : (path.map (· / 2)).Nodup)
    (nonneg : 0 ≤ amount) (net : Network) (paid : Int) (sound : net.Sound)
    (same : net.unloaded = origin.unloaded)
    (room : ∀ id ∈ path, ∃ arc, net.arc id = .ok arc ∧ amount ≤ arc.residual)
    (holds : origin.Holds w breaks) (fares : origin.Fares w breaks source path amount paid) :
    Checked.Ends (path.foldlM (traverse w amount) (net, paid)) breaks
      fun sent => sent = (net.pushedAlong path amount, paid + amount * cost) ∧
        net.Conveyed sent.1 path source sink amount cost := by
  induction walk generalizing net paid with
  | nil node => exact ⟨by simp [pushedAlong], .refl sound node amount⟩
  | @cons id arc path sink cost held isOpen walk ih =>
    obtain ⟨twin, twinHeld, tail, head, price⟩ := arc_of_unloaded same.symm held
    obtain ⟨narrow, again, fits⟩ := room id (by simp)
    obtain rfl : narrow = twin := Except.ok.inj (again.symm.trans twinHeld)
    have start := Conveyed.pushed sound nonneg twinHeld fits
    rw [List.map_cons, List.nodup_cons] at apart
    rw [List.foldlM_cons]
    have share := fares.shares id (by simp) arc held
    have total := fares.totals [id] path arc.head arc.cost rfl (.single held isOpen)
    rw [← price] at share total
    have first := traverse_arc_ends sound nonneg twinHeld fits (holds.of_unloaded same.symm)
      share total
    rw [price] at first
    refine first.bind ?_
    rintro _ rfl
    refine (ih apart.2 _ _ start.sound (start.same.trans same) (fun other later => ?_)
      (fares.tail held isOpen)).weaken ?_
    · obtain ⟨entry, entryHeld, entryFits⟩ := room other (by simp [later])
      have distinct : other / 2 ≠ id / 2 := fun equal =>
        apart.1 (List.mem_map.mpr ⟨other, later, equal⟩)
      exact ⟨entry, by rw [arc_pushed_of_ne distinct, entryHeld], entryFits⟩
    · rintro _ ⟨rfl, rest⟩
      rw [tail, head, price] at start
      exact ⟨by rw [mul_add, Int.add_assoc]; rfl, start.trans rest⟩

/-- A shipment along a simple walk sends its bottleneck over each arc, if the amounts in which
it counts can be kept. -/
theorem ship_bottleneck_ends {w : Width} {breaks : Fault → Prop} (sound : net.Sound)
    (simple : net.SimpleWalk source path sink cost) (leads : path ≠ []) (positive : 0 < amount)
    (narrowest : net.bottleneck path remaining = .ok amount)
    (least : IsLeast (insert remaining (net.rooms path)) amount) (holds : net.Holds w breaks)
    (fares : net.Fares w breaks source path amount 0) (left : w.Keeps breaks (remaining - amount)) :
    Checked.Ends (net.ship w path remaining) breaks fun sent =>
      sent = (⟨amount, amount * cost, remaining - amount, path⟩, net.pushedAlong path amount) ∧
        net.Conveyed sent.2 path source sink amount cost := by
  unfold ship
  apply Checked.ends_bind_of_ok narrowest
  rw [if_neg (not_or.mpr ⟨leads, by omega⟩)]
  refine (traverse_ends simple.1 simple.halves_nodup (by omega) net 0 sound rfl ?_ holds
    fares).bind ?_
  · intro id member
    obtain ⟨arc, held, -⟩ := simple.1.open_of_mem member
    exact ⟨arc, held, least.2 (.inr ⟨id, member, arc, held, rfl⟩)⟩
  · rintro _ ⟨rfl, conveyed⟩
    apply left.sub.bind
    rintro left rfl
    exact ⟨by rw [Int.zero_add], conveyed⟩

/-- A shipment along a simple walk sends what it can, if its amounts can be kept. -/
theorem ship_ends {w : Width} {breaks : Fault → Prop} (sound : net.Sound)
    (simple : net.SimpleWalk source path sink cost) (leads : path ≠ []) (wanted : 0 < remaining)
    (holds : net.Holds w breaks)
    (kept : ∀ amount, 0 < amount → amount ≤ remaining →
      net.Fares w breaks source path amount 0 ∧ w.Keeps breaks (remaining - amount)) :
    Checked.Ends (net.ship w path remaining) breaks fun sent =>
      0 < sent.1.amount ∧ sent.1.amount ≤ remaining ∧
        sent.1.remaining = remaining - sent.1.amount ∧
        sent.1.cost = sent.1.amount * cost ∧ sent.1.path = path ∧
        net.Conveyed sent.2 path source sink sent.1.amount cost := by
  obtain ⟨amount, narrowest, positive, least⟩ := simple.1.exists_bottleneck wanted
  have below : amount ≤ remaining := least.2 (.inl rfl)
  obtain ⟨fares, left⟩ := kept amount positive below
  refine (ship_bottleneck_ends sound simple leads positive narrowest least holds fares
    left).weaken ?_
  rintro _ ⟨rfl, conveyed⟩
  exact ⟨positive, below, rfl, rfl, rfl, conveyed⟩

/-- A shipment that went through keeps what every push keeps, whatever its path. -/
theorem ship_keeps {w : Width} {shipment : Shipment} {kept : Network → Prop}
    (pushes : ∀ net id amount next, kept net → net.push w id amount = .ok next → kept next)
    (held : kept net) (sent : net.ship w path remaining = .ok (shipment, last)) : kept last := by
  unfold Network.ship at sent
  obtain ⟨amount, -, sent⟩ := Checked.bind_eq_ok_iff.mp sent
  split at sent
  · cases sent
  · obtain ⟨⟨after, cost⟩, traversed, sent⟩ := Checked.bind_eq_ok_iff.mp sent
    obtain ⟨left, -, sent⟩ := Checked.bind_eq_ok_iff.mp sent
    cases sent
    have through : Checked.Ends (path.foldlM (traverse w amount) (net, 0)) (fun _ => True)
        fun sent : Network × Int => kept sent.1 := by
      refine Checked.ends_foldlM (fun _ (sent : Network × Int) => kept sent.1)
        (fun id rest sent held => Checked.ends_iff.mpr ⟨?_, fun _ _ => trivial⟩) path _ held
      rintro ⟨next, total⟩ crossed
      obtain ⟨after, pushed, crossed⟩ := Checked.bind_eq_ok_iff.mp crossed
      obtain ⟨arc, -, crossed⟩ := Checked.bind_eq_ok_iff.mp crossed
      obtain ⟨share, -, crossed⟩ := Checked.bind_eq_ok_iff.mp crossed
      obtain ⟨sum, -, crossed⟩ := Checked.bind_eq_ok_iff.mp crossed
      cases crossed
      exact pushes _ _ _ _ held pushed
    exact through.of_ok traversed

/-- Every shipment that went through left a sound network. -/
theorem Sound.ship {w : Width} {shipment : Shipment} (sound : net.Sound)
    (sent : net.ship w path remaining = .ok (shipment, last)) : last.Sound :=
  ship_keeps (fun _ _ _ _ sound pushed => sound.push pushed) sound sent

end Transshipment.Network
