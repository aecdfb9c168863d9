import SorobanProxy.Handlers
import SorobanProxy.Soundness

/-! The argument list of a call. Arguments are bound to parameters by name and listed in the
order of declaration; what is left out counts as null. -/
namespace SorobanProxy

open Library

variable {p : Platform} {spec : ContractSpec} {args : OrdMap String Value}
    {inputs : List ScSpecFunctionInputV0} {scvals : List ScVal}

/-- The value of a parameter: what is given under its name, converted to its type, or
`Void` where nothing is given and the type has a value for that. -/
def Bound (p : Platform) (spec : ContractSpec) (args : OrdMap String Value) (input : ScSpecFunctionInputV0)
    (v : ScVal) : Prop :=
  match args.get input.name.toUtf8StringLossy with
  | some given => jsonToScval p.toCrates spec given input.type = .ok v
  | none => input.type.Omissible ∧ v = .void

/-- What decides of a parameter whether it has a value. -/
def Bindable (p : Platform) (spec : ContractSpec) (args : OrdMap String Value) (input : ScSpecFunctionInputV0) :
    Prop :=
  match args.get input.name.toUtf8StringLossy with
  | some given => ∃ v, jsonToScval p.toCrates spec given input.type = .ok v
  | none => input.type.Omissible

theorem exists_bound_iff {input : ScSpecFunctionInputV0} :
    (∃ v, Bound p spec args input v) ↔ Bindable p spec args input := by
  unfold Bound Bindable
  split <;> simp

theorem convertArgs_ok_iff :
    convertArgs p spec args inputs = .ok scvals ↔ List.Forall₂ (Bound p spec args) inputs scvals := by
  rw [convertArgs,mapM_eq_ok_iff]
  refine iff_of_eq (congrArg (List.Forall₂ · inputs scvals) ?_)
  funext input v
  rw [mapError_eq_ok_iff,Bound]
  cases args.get input.name.toUtf8StringLossy with
  | some given => rfl
  | none => exact propext null_ok_iff

/-- Only what is given under the names of parameters is looked at. -/
theorem convertArgs_congr {other : OrdMap String Value}
    (same : ∀ input ∈ inputs, (other.get input.name.toUtf8StringLossy).getD .null =
      (args.get input.name.toUtf8StringLossy).getD .null) :
    convertArgs p spec other inputs = convertArgs p spec args inputs := by
  apply mapM_congr
  intro input member
  simp only [same input member]

/-- Binding of arguments is complete and in order, null stands for what is left out, and
other members do not count. It rests on null being a value of no further type. -/
theorem convertArgs_binds (p : Platform) (spec : ContractSpec) (args : OrdMap String Value)
    (inputs : List ScSpecFunctionInputV0) :
    ((∃ scvals, convertArgs p spec args inputs = .ok scvals) ↔ ∀ input ∈ inputs, Bindable p spec args input) ∧
    (∀ scvals, convertArgs p spec args inputs = .ok scvals ↔ List.Forall₂ (Bound p spec args) inputs scvals) ∧
    (∀ name, args.get name = none →
      convertArgs p spec (args.insert name .null) inputs = convertArgs p spec args inputs) ∧
    (∀ other : OrdMap String Value,
      (∀ input ∈ inputs, other.get input.name.toUtf8StringLossy = args.get input.name.toUtf8StringLossy) →
      convertArgs p spec other inputs = convertArgs p spec args inputs) ∧
    (∀ ty v, jsonToScval p.toCrates spec .null ty = .ok v ↔ ty.Omissible ∧ v = .void) := by
  refine ⟨?_,fun scvals => convertArgs_ok_iff,?_,?_,fun ty v => null_ok_iff⟩
  · simp only [convertArgs_ok_iff, exists_forall₂_iff, exists_bound_iff]
  · intro name absent
    apply convertArgs_congr
    intro input _
    rw [OrdMap.get_insert]
    split_ifs with same
    · rw [same,absent]
      rfl
    · rfl
  · intro other same
    apply convertArgs_congr
    intro input member
    rw [same input member]

end SorobanProxy
