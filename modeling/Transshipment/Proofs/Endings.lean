import Mathlib.Algebra.Ring.Int.Defs
import Transshipment.Answers

/-! What a checked computation can end in. One statement says both which faults
can break it off and what holds of the value that it yields, so a proof follows
the computation step by step and never has to look at a fault twice. -/
namespace Transshipment

/-- The fault reports a result that left its width. -/
def Fault.IsOverflow (fault : Fault) : Prop := ∃ operation, fault = .overflow operation

theorem Fault.isOverflow_overflow (operation : Operation) : (overflow operation).IsOverflow :=
  ⟨operation, rfl⟩

/-- The answer is the refusal if there is one, and otherwise a value with this property. -/
def Answered (refusal? : Option Refusal) (holds : α → Prop) : Except Refusal α → Prop
  | .error refusal => refusal? = some refusal
  | .ok value => refusal? = none ∧ holds value

namespace Checked

/-- Only these faults break the computation off, and its value has this
property. -/
def Ends (computation : Checked α) (breaks : Fault → Prop) (yields : α → Prop) : Prop :=
  match computation with
  | .ok value => yields value
  | .error fault => breaks fault

variable {breaks : Fault → Prop}

theorem ends_iff {computation : Checked α} {yields : α → Prop} :
    Ends computation breaks yields ↔
      (∀ value, computation = .ok value → yields value) ∧
        ∀ fault, computation = .error fault → breaks fault := by
  cases computation <;> simp [Ends]

theorem Ends.of_ok {computation : Checked α} {yields : α → Prop} {value : α}
    (ends : Ends computation breaks yields) (ran : computation = .ok value) : yields value :=
  (ends_iff.mp ends).1 value ran

theorem Ends.of_error {computation : Checked α} {yields : α → Prop} {fault : Fault}
    (ends : Ends computation breaks yields) (broke : computation = .error fault) :
    breaks fault :=
  (ends_iff.mp ends).2 fault broke

/-- A weaker property of the value, and a wider choice of faults. -/
theorem Ends.imp {computation : Checked α} {wider : Fault → Prop} {yields weaker : α → Prop}
    (ends : Ends computation breaks yields) (faults : ∀ fault, breaks fault → wider fault)
    (values : ∀ value, yields value → weaker value) : Ends computation wider weaker := by
  cases computation with
  | ok value => exact values value ends
  | error fault => exact faults fault ends

theorem Ends.weaken {computation : Checked α} {yields weaker : α → Prop}
    (ends : Ends computation breaks yields)
    (values : ∀ value, yields value → weaker value) : Ends computation breaks weaker :=
  ends.imp (fun _ broken => broken) values

/-- That a value was computed may tell more of it. -/
theorem Ends.weaken_of_ok {computation : Checked α} {yields further : α → Prop}
    (ends : Ends computation breaks yields)
    (values : ∀ value, computation = .ok value → yields value → further value) :
    Ends computation breaks further := by
  cases computation with
  | ok value => exact values value rfl ends
  | error fault => exact ends

/-- The rest of a computation starts from what is known of the first value. -/
theorem Ends.bind {first : Checked α} {next : α → Checked β} {middle : α → Prop}
    {yields : β → Prop} (start : Ends first breaks middle)
    (rest : ∀ value, middle value → Ends (next value) breaks yields) :
    Ends (first >>= next) breaks yields := by
  cases first with
  | ok value => exact rest value start
  | error fault => exact start

theorem Ends.map {computation : Checked α} {f : α → β} {yields : β → Prop}
    (ends : Ends computation breaks (fun value => yields (f value))) :
    Ends (f <$> computation) breaks yields := by
  cases computation with
  | ok value => exact ends
  | error fault => exact ends

/-- A first step whose value is known leaves the rest. -/
theorem ends_bind_of_ok {first : Checked α} {next : α → Checked β} {yields : β → Prop}
    (ran : first = .ok value) (rest : Ends (next value) breaks yields) :
    Ends (first >>= next) breaks yields := by
  subst ran
  exact rest

/-- What follows a first step matters only where the step yields a value. -/
theorem bind_congr_of_ok {first : Checked α} {next onward : α → Checked β}
    (same : ∀ value, first = .ok value → next value = onward value) :
    (first >>= next) = (first >>= onward) := by
  cases first with
  | error fault => rfl
  | ok value => exact same value rfl

/-- A fold keeps an invariant that knows which entries are still to come. -/
theorem ends_foldlM {step : α → β → Checked α} (invariant : List β → α → Prop)
    (keeps : ∀ entry rest state, invariant (entry :: rest) state →
      Ends (step state entry) breaks (invariant rest))
    (entries : List β) (state : α) (start : invariant entries state) :
    Ends (entries.foldlM step state) breaks (invariant []) := by
  induction entries generalizing state with
  | nil => exact start
  | cons entry rest ih =>
    rw [List.foldlM_cons]
    exact (keeps entry rest state start).bind fun next held => ih next held

/-- A fold in which every entry adds its share yields their sum. -/
theorem ends_foldlM_sum {step : Int → β → Checked Int} (share : β → Int) (entries : List β)
    (adds : ∀ sum, ∀ entry ∈ entries, Ends (step sum entry) breaks (· = sum + share entry))
    (start : Int) : Ends (entries.foldlM step start) breaks (· = start + (entries.map share).sum) := by
  induction entries generalizing start with
  | nil => exact (Int.add_zero start).symm
  | cons entry rest ih =>
    rw [List.foldlM_cons, List.map_cons, List.sum_cons, ← Int.add_assoc]
    apply (adds start entry List.mem_cons_self).bind
    rintro _ rfl
    exact ih (fun sum later member => adds sum later (List.mem_cons_of_mem _ member)) _

/-- A traversal of steps with known values yields them in order. -/
theorem ends_mapM {step : α → Checked β} {f : α → β} (entries : List α)
    (each : ∀ entry ∈ entries, Ends (step entry) breaks (· = f entry)) :
    Ends (entries.mapM step) breaks (· = entries.map f) := by
  induction entries with
  | nil => exact rfl
  | cons entry rest ih =>
    rw [List.mapM_cons]
    apply (each entry (by simp)).bind
    rintro _ rfl
    apply (ih fun other member => each other (by simp [member])).bind
    rintro _ rfl
    exact rfl

end Checked

namespace Width

variable {w : Width} {breaks : Fault → Prop} {a b exact : Int}

/-- An amount that is not negative can only be too large. -/
theorem fits_iff_of_nonneg (nonneg : 0 ≤ a) : w.Fits a ↔ a ≤ w.greatest := by
  unfold Fits least
  omega

theorem fits_zero (w : Width) : w.Fits 0 := by
  have positive : 0 < Nat.pow 2 w.valueBits := Nat.two_pow_pos w.valueBits
  unfold Fits least greatest
  omega

/-- Whichever operation has the amount as its exact result, it yields the amount or breaks
off with one of these faults. -/
def Keeps (w : Width) (breaks : Fault → Prop) (exact : Int) : Prop :=
  ∀ operation, Checked.Ends (w.keep operation exact) breaks (· = exact)

theorem keeps_of_fits (fits : w.Fits exact) : w.Keeps breaks exact := by
  intro operation
  unfold keep
  rw [if_pos fits]
  exact rfl

/-- What is kept in any case fits. -/
theorem keeps_false_iff : w.Keeps (fun _ => False) exact ↔ w.Fits exact := by
  refine ⟨fun kept => ?_, keeps_of_fits⟩
  cases added : w.keep .addition exact with
  | ok result => exact (keep_eq_ok_iff.mp added).2
  | error fault => exact ((kept .addition).of_error added).elim

namespace Keeps

theorem add (kept : w.Keeps breaks (a + b)) : Checked.Ends (w.add a b) breaks (· = a + b) :=
  kept .addition

theorem sub (kept : w.Keeps breaks (a - b)) : Checked.Ends (w.sub a b) breaks (· = a - b) :=
  kept .subtraction

theorem mul (kept : w.Keeps breaks (a * b)) : Checked.Ends (w.mul a b) breaks (· = a * b) :=
  kept .multiplication

theorem neg (kept : w.Keeps breaks (-a)) : Checked.Ends (w.neg a) breaks (· = -a) :=
  kept .negation

end Keeps

variable (overflows : ∀ operation, breaks (.overflow operation))
include overflows

/-- Where an overflow is among the faults, every amount is kept. -/
theorem keeps_of_overflows (w : Width) (exact : Int) : w.Keeps breaks exact := by
  intro operation
  unfold keep
  split
  · exact rfl
  · exact overflows operation

theorem add_ends (w : Width) (a b : Int) : Checked.Ends (w.add a b) breaks (· = a + b) :=
  (keeps_of_overflows overflows w (a + b)).add

theorem sub_ends (w : Width) (a b : Int) : Checked.Ends (w.sub a b) breaks (· = a - b) :=
  (keeps_of_overflows overflows w (a - b)).sub

theorem mul_ends (w : Width) (a b : Int) : Checked.Ends (w.mul a b) breaks (· = a * b) :=
  (keeps_of_overflows overflows w (a * b)).mul

theorem neg_ends (w : Width) (a : Int) : Checked.Ends (w.neg a) breaks (· = -a) :=
  (keeps_of_overflows overflows w (-a)).neg

end Width

theorem fetch_of_getElem? {table : Array α} (held : table[index]? = some entry) :
    fetch table index = .ok entry :=
  fetch_eq_ok_iff.mpr held

/-- To write what is there already changes nothing. -/
theorem setIfInBounds_eq_self {table : Array α} (held : table[index]? = some entry) :
    table.setIfInBounds index entry = table := by
  obtain ⟨within, rfl⟩ := Array.getElem?_eq_some_iff.mp held
  rw [Array.setIfInBounds_def, dif_pos within, Array.set_getElem_self]

/-- To write back what became of an entry is to modify it. -/
theorem setIfInBounds_eq_modify {table : Array α} (held : table[index]? = some entry)
    (f : α → α) : table.setIfInBounds index (f entry) = table.modify index f := by
  obtain ⟨within, rfl⟩ := Array.getElem?_eq_some_iff.mp held
  apply Array.ext_getElem?
  intro place
  rw [Array.getElem?_setIfInBounds, Array.getElem?_modify]
  by_cases here : index = place
  · subst here
    simp [within]
  · simp [here]

namespace Traced

instance : LawfulMonad Traced := by
  refine .mk' Traced ?_ ?_ ?_
  · rintro α ⟨log, result⟩
    cases result <;> simp [Functor.map, Traced.bind]
  · intro α β value next
    rfl
  · rintro α β γ ⟨log, result⟩ first second
    cases result with
    | error fault => rfl
    | ok value =>
      simp only [bind, Traced.bind]
      cases (first value).result <;> simp

/-- The result of a sequence is the sequence of the results. -/
theorem result_bind (first : Traced α) (next : α → Traced β) :
    (first >>= next).result = first.result >>= fun value => (next value).result := by
  change (Traced.bind first next).result = _
  unfold Traced.bind
  cases first.result <;> rfl

@[simp] theorem result_emit (message : Message) : (emit message).result = .ok () := rfl

@[simp] theorem result_lift (checked : Checked α) :
    (liftM checked : Traced α).result = checked := rfl

@[simp] theorem result_after (earlier : List Message) (computation : Traced α) :
    (computation.after earlier).result = computation.result := rfl

theorem map_mk (f : α → β) (log : List Message) (result : Checked α) :
    f <$> (⟨log, result⟩ : Traced α) = ⟨log, f <$> result⟩ := by
  cases result <;> simp [Functor.map, Traced.bind, Except.map]

theorem result_map (f : α → β) (computation : Traced α) :
    (f <$> computation).result = f <$> computation.result :=
  congrArg result (map_mk f computation.log computation.result)

/-- What follows a value is told after what led to it. -/
theorem log_bind_of_ok {first : Traced α} {next : α → Traced β} {value : α}
    (ran : first.result = .ok value) : (first >>= next).log = first.log ++ (next value).log := by
  change (Traced.bind first next).log = _
  unfold Traced.bind
  rw [ran]

/-- What is emitted first stands before the rest. -/
theorem log_emit_bind (message : Message) (next : Unit → Traced β) :
    (emit message >>= next).log = message :: (next ()).log :=
  rfl

theorem log_map (f : α → β) (computation : Traced α) : (f <$> computation).log = computation.log :=
  congrArg log (map_mk f computation.log computation.result)

/-- What was emitted before stays before what is made of the value. -/
theorem map_after (f : α → β) (earlier : List Message) (computation : Traced α) :
    f <$> computation.after earlier = (f <$> computation).after earlier := by
  obtain ⟨log, result⟩ := computation
  rw [after, map_mk, map_mk]
  rfl

/-- Where a function tells a value from all others, so does the function of its computation. -/
theorem eq_of_map_eq {f : α → β} {first second : Traced α} {value : α}
    (same : f <$> first = f <$> second) (yields : second.result = .ok value)
    (tells : ∀ other, f other = f value → other = value) : first = second := by
  obtain ⟨log, result⟩ := first
  obtain ⟨logAgain, _⟩ := second
  cases yields
  rw [map_mk, map_mk] at same
  obtain ⟨rfl, mapped⟩ := Traced.mk.inj same
  obtain ⟨other, rfl, alike⟩ := Checked.map_eq_ok_iff.mp mapped
  rw [tells other alike]

end Traced

end Transshipment
