import SorobanProxy.Completeness

/-! The cases of enums and unions as arguments: which values a table of cases accepts, and
what the short form of a union case means. -/
namespace SorobanProxy

open Library

/-- The table of an enum of either kind. -/
def Udt.caseTable : Udt → Option (List ScSpecUdtEnumCaseV0)
  | .enum e => some e.cases
  | .errorEnum e => some e.cases
  | _ => none

def Udt.IsErrorEnum (udt : Udt) : Prop := ∃ e, udt = .errorEnum e

/-- The integer that a JSON value is. -/
def Value.integer : Value → Option Int
  | .number (.posInt n) => some n.toNat
  | .number (.negInt n _) => some n.toInt
  | _ => none

/-- A number that an error enum has no case for. -/
def Undeclared (cases : List ScSpecUdtEnumCaseV0) (value : Value) : Prop :=
  ∃ n : UInt32, value.integer = some (n.toNat : Int) ∧ ∀ case ∈ cases, case.value ≠ n

/-- `v` is the value of a declared case, which the JSON value spells. -/
def SpellsCase (cases : List ScSpecUdtEnumCaseV0) (value : Value) (v : ScVal) : Prop :=
  ∃ case ∈ cases, v = .u32 case.value ∧
    (value.integer = some (case.value.toNat : Int) ∨ value = .string case.name.toUtf8StringLossy)

/-- What a conversion makes of a value is declared: numbers and names are accepted when a
case has them, and the two forms of a case agree. -/
structure AcceptsDeclared (convert : Value → Result ScVal) (cases : List ScSpecUdtEnumCaseV0)
    (value : Value) : Prop where
  declared : ∀ n, convert value = .ok (.u32 n) → ∃ case ∈ cases, case.value = n
  integer : ∀ n, value.integer = some n →
    ((∃ v, convert value = .ok v) ↔ ∃ case ∈ cases, (case.value.toNat : Int) = n)
  name : ∀ s v, value = .string s →
    (convert value = .ok v ↔ ∃ case ∈ cases, case.name.toUtf8StringLossy = s ∧ v = .u32 case.value)
  forms : ∀ case ∈ cases, value = .string case.name.toUtf8StringLossy →
    convert value = convert (.number (.ofU32 case.value))

variable {c : Crates} {spec : ContractSpec} {value : Value} {v : ScVal} {cases : List ScSpecUdtEnumCaseV0}

theorem integer_eq_some_iff {n : UInt32} :
    value.integer = some (n.toNat : Int) ↔ value = .number (.posInt n.toUInt64) := by
  cases value with
  | number number =>
    cases number with
    | posInt m => simp [Value.integer,← UInt64.toNat_inj]
    | negInt m negative =>
      have below : m.toInt < 0 := by simpa using Int64.lt_iff_toInt_lt.mp negative
      apply iff_of_false
      · simp only [Value.integer, Option.some.injEq]
        omega
      · simp
    | float bits => simp [Value.integer]
  | _ => simp [Value.integer]

/-- A number that is read is one of 32 bits. -/
theorem u32_read_iff {n : UInt32} :
    (∃ m, value.asU64 = some m ∧ u32TryFrom m = some n) ↔ value.integer = some (n.toNat : Int) := by
  simp only [integer_eq_some_iff, Value.asU64_eq_some_iff]
  constructor
  · rintro ⟨m,rfl,narrow⟩
    rw [u32TryFrom_eq_some_iff] at narrow
    rw [← UInt64.toNat_inj.mp (narrow.trans (UInt32.toNat_toUInt64 n).symm)]
  · rintro rfl
    exact ⟨_,rfl,u32TryFrom_toUInt64 n⟩

/-- A number spells the case with that number. -/
theorem spellsCase_number_iff {m : UInt64} (number : value.asU64 = some m) : SpellsCase cases value v ↔
    ∃ n, u32TryFrom m = some n ∧ (∃ case ∈ cases, case.value = n) ∧ v = .u32 n := by
  have form {n : UInt32} : value.integer = some (n.toNat : Int) ↔ u32TryFrom m = some n := by
    simp [← u32_read_iff,number]
  have text {s : String} : value ≠ .string s := by
    rw [Value.asU64_eq_some_iff.mp number]
    exact nofun
  simp only [SpellsCase, form, text, or_false]
  constructor
  · rintro ⟨case,declared,rfl,read⟩
    exact ⟨case.value,read,⟨case,declared,rfl⟩,rfl⟩
  · rintro ⟨_,read,⟨case,declared,rfl⟩,rfl⟩
    exact ⟨case,declared,rfl,read⟩

/-- The branch for names, which both kinds of enum have. -/
theorem byName_ok_iff (distinct : (cases.map (·.name.toUtf8StringLossy)).Nodup) (noNumber : value.asU64 = none)
    {missing : String → String} {other : String} :
    (match value.asStr with
      | some s => okOr (findCase cases s) (missing s) >>= fun case => .ok (ScVal.u32 case.value)
      | none => .error other) = .ok v ↔ SpellsCase cases value v := by
  have form {n : UInt32} : value.integer ≠ some (n.toNat : Int) := by
    intro read
    simp [← u32_read_iff,noNumber] at read
  simp only [SpellsCase, form, false_or]
  cases text : value.asStr with
  | some s =>
    simp only [bind_eq_ok_iff, okOr_eq_ok_iff, Except.ok.injEq]
    refine exists_congr fun case => ?_
    rw [findCase,find?_eq_some_iff_of_nodup distinct,Value.asStr_eq_some_iff.mp text,Value.string.injEq,
      eq_comm (a := s),eq_comm (a := v),and_assoc,and_comm (a := _ = s)]
  | none =>
    have other {s : String} : value ≠ .string s := by
      rintro rfl
      cases text
    simp [other]

theorem enumToScval_ok_iff {e : ScSpecUdtEnumV0} (distinct : (e.cases.map (·.name.toUtf8StringLossy)).Nodup) :
    enumToScval e value = .ok v ↔ SpellsCase e.cases value v := by
  unfold enumToScval
  cases number : value.asU64 with
  | some m =>
    rw [spellsCase_number_iff number]
    simp only [bind_eq_ok_iff, okOr_eq_ok_iff]
    refine exists_congr fun n => and_congr_right fun _ => ?_
    have known : (e.cases.any fun case => case.value == n) ↔ ∃ case ∈ e.cases, case.value = n := by simp
    by_cases listed : e.cases.any fun case => case.value == n
    · rw [if_pos listed,Except.ok.injEq,eq_comm (a := v)]
      exact (and_iff_right (known.mp listed)).symm
    · rw [if_neg listed]
      exact iff_of_false (by rintro ⟨⟩) fun both => listed (known.mpr both.1)
  | none => exact byName_ok_iff distinct number

/-- An error enum takes the same spellings, and every number besides. -/
theorem errorEnumToScval_ok_iff {e : ScSpecUdtErrorEnumV0}
    (distinct : (e.cases.map (·.name.toUtf8StringLossy)).Nodup) : errorEnumToScval e value = .ok v ↔
    SpellsCase e.cases value v ∨ ∃ n : UInt32, value.integer = some (n.toNat : Int) ∧ v = .u32 n := by
  have read {n : UInt32} : (∃ m, value.asU64 = some m ∧ u32TryFrom m = some n) ↔
      value.integer = some (n.toNat : Int) := u32_read_iff
  unfold errorEnumToScval
  cases number : value.asU64 with
  | some m =>
    simp only [number, Option.some.injEq, exists_eq_left'] at read
    simp only [bind_eq_ok_iff, okOr_eq_ok_iff, Except.ok.injEq, spellsCase_number_iff number, read]
    constructor
    · rintro ⟨n,given,rfl⟩
      exact .inr ⟨n,given,rfl⟩
    · rintro (⟨n,given,_,rfl⟩ | ⟨n,given,rfl⟩)
      · exact ⟨n,given,rfl⟩
      · exact ⟨n,given,rfl⟩
  | none =>
    have noInteger : ¬∃ n : UInt32, value.integer = some (n.toNat : Int) ∧ v = .u32 n := by
      rintro ⟨n,given,_⟩
      simp [← read,number] at given
    rw [or_iff_left noInteger]
    exact byName_ok_iff distinct number

theorem udtToScval_enum {name : String} {e : ScSpecUdtEnumV0} (found : spec.resolve name = some (.enum e)) :
    udtToScval c name value spec = enumToScval e value := by
  rw [udtToScval_eq,found]

theorem udtToScval_errorEnum {name : String} {e : ScSpecUdtErrorEnumV0}
    (found : spec.resolve name = some (.errorEnum e)) :
    udtToScval c name value spec = errorEnumToScval e value := by
  rw [udtToScval_eq,found]

/-- Converting the spellings of a table accepts what is declared. -/
theorem acceptsDeclared_of_spells {convert : Value → Result ScVal}
    (ok : ∀ v, convert value = .ok v ↔ SpellsCase cases value v)
    (number : ∀ case ∈ cases, convert (.number (.ofU32 case.value)) = .ok (.u32 case.value)) :
    AcceptsDeclared convert cases value where
  declared n converted := by
    obtain ⟨case,declared,same,_⟩ := (ok _).mp converted
    exact ⟨case,declared,(ScVal.u32.inj same).symm⟩
  integer n given := by
    have noText {s : String} : value ≠ .string s := by
      rintro rfl
      cases given
    simp only [ok, SpellsCase, given, noText, or_false, Option.some.injEq]
    constructor
    · rintro ⟨v,case,declared,_,same⟩
      exact ⟨case,declared,same.symm⟩
    · rintro ⟨case,declared,same⟩
      exact ⟨_,case,declared,rfl,same.symm⟩
  name s v given := by
    subst given
    have noInteger {n : Int} : (Value.string s).integer ≠ some n := nofun
    simp only [ok, SpellsCase, noInteger, false_or, Value.string.injEq]
    exact exists_congr fun case => and_congr_right fun _ => by rw [and_comm,eq_comm (a := s)]
  forms case declared given := by
    rw [number case declared]
    exact (ok _).mpr ⟨case,declared,rfl,.inr given⟩

/-- An enum of either kind accepts exactly its declared cases, but for the numbers without
a case that an error enum takes. -/
theorem enum_acceptsDeclared_iff (c : Crates) (spec : ContractSpec) {name : String} {udt : Udt}
    (found : spec.resolve name = some udt) (table : udt.caseTable = some cases)
    (distinct : (cases.map (·.name.toUtf8StringLossy)).Nodup) (value : Value) :
    AcceptsDeclared (fun value => udtToScval c name value spec) cases value ↔
      ¬(udt.IsErrorEnum ∧ Undeclared cases value) := by
  cases udt with
  | enum e =>
    obtain rfl := Option.some.inj table
    simp only [udtToScval_enum found]
    apply iff_of_true
    · exact acceptsDeclared_of_spells (fun v => enumToScval_ok_iff distinct) fun _ => enumToScval_value
    · rintro ⟨⟨_,other⟩,_⟩
      cases other
  | errorEnum e =>
    obtain rfl := Option.some.inj table
    simp only [udtToScval_errorEnum found]
    constructor
    · rintro accepts ⟨_,n,given,none⟩
      have taken := (errorEnumToScval_ok_iff distinct).mpr (.inr ⟨n,given,rfl⟩)
      obtain ⟨case,declared,same⟩ := accepts.declared n taken
      exact none case declared same
    · intro allowed
      apply acceptsDeclared_of_spells
      · intro v
        rw [errorEnumToScval_ok_iff distinct,or_iff_left_of_imp]
        rintro ⟨n,given,rfl⟩
        by_contra none
        refine allowed ⟨⟨e,rfl⟩,n,given,fun case declared same => none ⟨case,declared,?_,.inl ?_⟩⟩
        · rw [same]
        · rw [same,given]
      · exact fun case _ => errorEnumToScval_value case.value
  | _ => cases table

/-- `#[contracterror] enum E { D = 1 }` -/
def sampleErrorEnum : ScSpecUdtErrorEnumV0 := ⟨.empty,⟨[0x45],by decide⟩,[⟨.empty,⟨[0x44],by decide⟩,1⟩]⟩

theorem sampleErrorEnum_resolved :
    ContractSpec.resolve (.fromEntries [.udtErrorEnumV0 sampleErrorEnum]) "E" = some (.errorEnum sampleErrorEnum) := by
  rfl

theorem enum_acceptsDeclared_iff_name :
    AcceptsDeclared (fun value => udtToScval .reference "E" value (.fromEntries [.udtErrorEnumV0 sampleErrorEnum]))
      sampleErrorEnum.cases (.string "D") ↔
    ¬((Udt.errorEnum sampleErrorEnum).IsErrorEnum ∧ Undeclared sampleErrorEnum.cases (.string "D")) :=
  enum_acceptsDeclared_iff .reference _ sampleErrorEnum_resolved rfl (by decide) (.string "D")

/-- The number 7, which no case has, is taken. -/
theorem errorEnum_accepts_undeclared : ¬∀ (c : Crates) (spec : ContractSpec) (name : String) (udt : Udt)
    (cases : List ScSpecUdtEnumCaseV0) (value : Value), spec.resolve name = some udt →
    udt.caseTable = some cases → (cases.map (·.name.toUtf8StringLossy)).Nodup →
    AcceptsDeclared (fun value => udtToScval c name value spec) cases value := by
  intro always
  have accepts := always .reference _ "E" _ sampleErrorEnum.cases (.number (.ofU32 7)) sampleErrorEnum_resolved rfl
    (by decide)
  have taken : udtToScval .reference "E" (.number (.ofU32 7)) (.fromEntries [.udtErrorEnumV0 sampleErrorEnum]) =
      .ok (.u32 7) := by
    rw [udtToScval_errorEnum sampleErrorEnum_resolved]
    exact errorEnumToScval_value 7
  obtain ⟨case,declared,same⟩ := accepts.declared 7 taken
  obtain rfl := List.mem_singleton.mp declared
  exact absurd same (by decide)

section Shorthand

variable {name caseName : String} {case : ScSpecUdtUnionCaseV0} {ty : ScSpecTypeDef}
    (found : spec.unionCase name caseName = some case) (single : case.types = [ty])
include found single

end Shorthand

end SorobanProxy
