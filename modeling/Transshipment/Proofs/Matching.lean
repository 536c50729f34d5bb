import Transshipment.Proofs.Endings

/-! Two computations that take the same course. They break off with the same fault, or both
yield a value and the values are related; and if they are traced, they emit the same messages.
Step by step this carries a relation of states from one computation to the other. -/
namespace Transshipment

namespace Checked

variable {α β γ δ : Type} {relates : α → β → Prop}

/-- Both computations yield values that are related, or both break off with the same fault. -/
def Matches (relates : α → β → Prop) : Checked α → Checked β → Prop
  | .ok value, .ok other => relates value other
  | .error fault, .error other => fault = other
  | _, _ => False

/-- What matches a value is a value that is related to it. -/
theorem Matches.of_ok {value : α} {other : Checked β} (same : Matches relates (.ok value) other) :
    ∃ image, other = .ok image ∧ relates value image := by
  cases other with
  | error fault => cases same
  | ok image => exact ⟨image, rfl, same⟩

theorem Matches.of_error {fault : Fault} {other : Checked β}
    (same : Matches relates (.error fault) other) : other = .error fault := by
  cases other with
  | error broke => exact congrArg Except.error same.symm
  | ok image => cases same

/-- That the values were computed may tell more of them. -/
theorem Matches.imp_of_ok {further : α → β → Prop} {first : Checked α} {other : Checked β}
    (same : Matches relates first other) (more : ∀ value image, first = .ok value →
      other = .ok image → relates value image → further value image) :
    Matches further first other := by
  cases first <;> cases other
  · exact same
  · cases same
  · cases same
  · exact more _ _ rfl rfl same

theorem Matches.bind {further : γ → δ → Prop} {first : Checked α} {other : Checked β}
    {next : α → Checked γ} {onward : β → Checked δ} (start : Matches relates first other)
    (rest : ∀ value image, relates value image → Matches further (next value) (onward image)) :
    Matches further (first >>= next) (other >>= onward) := by
  cases first <;> cases other
  · exact start
  · cases start
  · cases start
  · exact rest _ _ start

theorem Matches.map {further : γ → δ → Prop} {first : Checked α} {other : Checked β}
    {f : α → γ} {g : β → δ} (same : Matches relates first other)
    (tells : ∀ value image, relates value image → further (f value) (g image)) :
    Matches further (f <$> first) (g <$> other) := by
  cases first <;> cases other
  · exact same
  · cases same
  · cases same
  · exact tells _ _ same

/-- Where both start with the same computation, its value is the same for both. -/
theorem matches_bind {first : Checked α} {next : α → Checked γ} {onward : α → Checked δ}
    {further : γ → δ → Prop}
    (rest : ∀ value, first = .ok value → Matches further (next value) (onward value)) :
    Matches further (first >>= next) (first >>= onward) := by
  cases first with
  | error fault => exact rfl
  | ok value => exact rest value rfl

theorem matches_foldlM {step : α → γ → Checked α} {other : β → γ → Checked β}
    (each : ∀ entry state image, relates state image →
      Matches relates (step state entry) (other image entry))
    (entries : List γ) {state : α} {image : β} (start : relates state image) :
    Matches relates (entries.foldlM step state) (entries.foldlM other image) := by
  induction entries generalizing state image with
  | nil => exact start
  | cons entry rest ih =>
    rw [List.foldlM_cons, List.foldlM_cons]
    exact (each entry state image start).bind fun next onward related => ih related

/-- Equal but for a function that is applied at the end. -/
theorem Matches.bind_eq {first : Checked α} {other : Checked β} {next : α → Checked γ}
    {onward : β → Checked γ} (start : Matches relates first other)
    (rest : ∀ value image, relates value image → next value = onward image) :
    (first >>= next) = (other >>= onward) := by
  cases first <;> cases other
  · exact congrArg Except.error start
  · cases start
  · cases start
  · exact rest _ _ start

end Checked

namespace Traced

variable {α β γ δ : Type} {relates : α → β → Prop}

/-- Both computations emit the same messages, and their results match. -/
def Matches (relates : α → β → Prop) (first : Traced α) (other : Traced β) : Prop :=
  first.log = other.log ∧ Checked.Matches relates first.result other.result

theorem Matches.after {first : Traced α} {other : Traced β} (same : Matches relates first other)
    (earlier : List Message) : Matches relates (first.after earlier) (other.after earlier) :=
  ⟨congrArg (earlier ++ ·) same.1, same.2⟩

theorem Matches.bind {first : Traced α} {other : Traced β} {next : α → Traced γ}
    {onward : β → Traced δ} {further : γ → δ → Prop} (same : Matches relates first other)
    (rest : ∀ value image, first.result = .ok value → relates value image →
      Matches further (next value) (onward image)) :
    Matches further (first >>= next) (other >>= onward) := by
  obtain ⟨log, result⟩ := first
  obtain ⟨_, otherResult⟩ := other
  obtain ⟨rfl, related⟩ := same
  cases result <;> cases otherResult
  · exact ⟨rfl, related⟩
  · cases related
  · cases related
  · obtain ⟨logs, results⟩ := rest _ _ rfl related
    exact ⟨congrArg (log ++ ·) logs, results⟩

/-- Where both start with the same computation, its value is the same for both. -/
theorem matches_bind (first : Traced α) {next : α → Traced γ} {onward : α → Traced δ}
    {further : γ → δ → Prop} (rest : ∀ value, Matches further (next value) (onward value)) :
    Matches further (first >>= next) (first >>= onward) := by
  obtain ⟨log, fault | value⟩ := first
  · exact ⟨rfl, rfl⟩
  · exact ⟨congrArg (log ++ ·) (rest value).1, (rest value).2⟩

/-- Where a value tells all that is related to it, so does its computation. -/
theorem Matches.map_eq {first : Traced α} {other : Traced β} {f : α → β}
    (same : Matches relates first other)
    (tells : ∀ value image, relates value image → f value = image) : f <$> first = other := by
  obtain ⟨log, result⟩ := first
  obtain ⟨_, image⟩ := other
  obtain ⟨rfl, related⟩ := same
  rw [map_mk]
  cases result <;> cases image
  · cases related
    rfl
  · cases related
  · cases related
  · rw [← tells _ _ related]
    rfl

end Traced

end Transshipment
