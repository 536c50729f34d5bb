/-! Computations on amounts, and what breaks them off. A fault ends a computation
for good: a value left its width, an index named nothing, or a condition the program
relies on did not hold. Amounts are integers of a bounded width. Every operation is
exact: it is computed without a bound first and kept only if the result fits, so a
computed amount is always the true one and a fault marks the first result that is not
representable. -/
namespace Transshipment

/-! ## Faults -/

/-- The checked operations on amounts, named in the overflow message. -/
inductive Operation where
  | addition
  | subtraction
  | multiplication
  | negation
  deriving DecidableEq

/-- The verb under which an overflow of the operation is reported. -/
def Operation.verb : Operation → String
  | .addition => "add"
  | .subtraction => "subtract"
  | .multiplication => "multiply"
  | .negation => "negate"

/-- Why a computation broke off. -/
inductive Fault where
  /-- The exact result of the operation does not fit the width. -/
  | overflow (operation : Operation)
  /-- The index names no entry of a table with this many entries. -/
  | outOfBounds (length index : Nat)
  /-- The amount is negative or exceeds the residual capacity of the arc. -/
  | invalidPush (arc : Nat)
  /-- The search met an open arc whose reduced cost is negative. -/
  | negativeReducedCost (arc : Nat)
  /-- A flow or a capacity was asked of an arc that runs against its link. -/
  | backwardArc
  /-- A shipment needs a path with an arc and a positive amount. -/
  | emptyShipment
  /-- The arcs recorded by a search lead back further than a simple path can. -/
  | endlessPath
  /-- There has to be one potential for each node. -/
  | potentialCount (potentials nodes : Nat)
  deriving DecidableEq

/-- The text under which a fault is reported. -/
def Fault.message : Fault → String
  | .overflow operation => s!"attempt to {operation.verb} with overflow"
  | .outOfBounds length index => s!"index out of bounds: the len is {length} but the index is {index}"
  | .invalidPush arc => s!"push of an invalid amount on residual edge {arc}"
  | .negativeReducedCost arc => s!"negative reduced cost on residual edge {arc}"
  | .backwardArc => "assertion failed: self.is_forward(edge_id)"
  | .emptyShipment => "assertion failed: !path.is_empty() && delta > Flow::zero()"
  | .endlessPath => "assertion failed: path.len() < graph.num_nodes()"
  | .potentialCount potentials nodes =>
    s!"assertion `left == right` failed\n  left: {potentials}\n right: {nodes}"

/-- A computation that yields a value or breaks off. -/
abbrev Checked := Except Fault

/-- Two computations in sequence yield a value exactly when both do. -/
theorem Checked.bind_eq_ok_iff {first : Checked α} {next : α → Checked β} :
    (first >>= next) = .ok result ↔ ∃ value, first = .ok value ∧ next value = .ok result := by
  cases first with
  | error fault => simp [bind, Except.bind]
  | ok value => simp [bind, Except.bind]

/-- A function applied to the value of a computation keeps its end. -/
theorem Checked.map_eq_ok_iff {computation : Checked α} {f : α → β} :
    f <$> computation = .ok result ↔ ∃ value, computation = .ok value ∧ f value = result := by
  cases computation with
  | error fault => simp [Functor.map, Except.map]
  | ok value => simp [Functor.map, Except.map]

/-- The entry at an index; an index past the end is a fault that tells both
numbers. -/
def fetch (table : Array α) (index : Nat) : Checked α :=
  match table[index]? with
  | some entry => .ok entry
  | none => .error (.outOfBounds table.size index)

theorem fetch_eq_ok_iff {table : Array α} :
    fetch table index = .ok entry ↔ table[index]? = some entry := by
  unfold fetch
  split <;> simp_all

theorem fetch_map (f : α → β) (table : Array α) (index : Nat) :
    fetch (table.map f) index = f <$> fetch table index := by
  unfold fetch
  rw [Array.getElem?_map, Array.size_map]
  cases table[index]? <;> rfl

/-! ## Amounts -/

/-- A signed width in two's complement, given by the number of bits besides the
sign: a 64-bit amount has 63. -/
structure Width where
  valueBits : Nat
  deriving DecidableEq

namespace Width

/-- The least amount; its negation does not fit. -/
def least (w : Width) : Int := -(Nat.pow 2 w.valueBits : Int)

/-- The greatest amount. -/
def greatest (w : Width) : Int := (Nat.pow 2 w.valueBits : Int) - 1

/-- The amounts a width can hold. -/
def Fits (w : Width) (amount : Int) : Prop :=
  w.least ≤ amount ∧ amount ≤ w.greatest

instance (w : Width) (amount : Int) : Decidable (w.Fits amount) :=
  inferInstanceAs (Decidable (_ ∧ _))

/-- An exact result is kept if it fits; otherwise the operation overflowed. -/
def keep (w : Width) (operation : Operation) (exact : Int) : Checked Int :=
  if w.Fits exact then .ok exact else .error (.overflow operation)

/-- The exact sum. -/
def add (w : Width) (a b : Int) : Checked Int := w.keep .addition (a + b)

/-- The exact difference. -/
def sub (w : Width) (a b : Int) : Checked Int := w.keep .subtraction (a - b)

/-- The exact product. -/
def mul (w : Width) (a b : Int) : Checked Int := w.keep .multiplication (a * b)

/-- The exact negation, which only the least amount lacks. -/
def neg (w : Width) (a : Int) : Checked Int := w.keep .negation (-a)

/-- A kept result is the exact one, and it fits. -/
theorem keep_eq_ok_iff {w : Width} :
    w.keep operation exact = .ok result ↔ result = exact ∧ w.Fits exact := by
  unfold keep
  split <;> simp_all [eq_comm]

end Width

end Transshipment
