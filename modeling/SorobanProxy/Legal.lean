import SorobanProxy.Soundness

/-! When the maps that the conversion makes are legal. Sorting orders the keys and leaves
equal ones side by side, so it depends on whether different names can spell one key. -/
namespace SorobanProxy

open Library
open Library.Numeral (parseInt literal parseInt_ok_iff)

variable {c : Crates} {spec : ContractSpec} {value : Value} {v : ScVal} {ty : ScSpecTypeDef}

/-- The address that a text is a strkey of, an account strkey first. -/
def addressSpelled (c : Crates) (s : String) : Option ScAddress :=
  match c.publicKeyFromString s with
  | some key => some (.account key)
  | none => (c.contractFromString s).map .contract

/-- Two member names that spell the same key of the type: the same number, whatever its
signs and zeros, or the same text once it is parsed. -/
def SameKey (c : Crates) (keyType : ScSpecTypeDef) (a b : String) : Prop :=
  match keyType with
  | .symbol => c.stringFromStr 32 a = c.stringFromStr 32 b
  | .string => c.stringFromStr u32Max a = c.stringFromStr u32Max b
  | .address | .muxedAddress => addressSpelled c a = addressSpelled c b
  | .u32 | .u64 => literal false a.toList = literal false b.toList
  | .i32 | .i64 => literal true a.toList = literal true b.toList
  | _ => a = b

/-- A number is told by its literal, for every width the literal fits. -/
theorem parseInt_same {α : Type} {lo hi : Int} (zero : lo ≤ 0 ∧ 0 ≤ hi) {narrow : Int → α}
    (injective : ∀ m n, lo ≤ m → m ≤ hi → lo ≤ n → n ≤ hi → narrow m = narrow n → m = n) {a b : String}
    {x y : α} (left : (parseInt lo hi a).map narrow = .ok x) (right : (parseInt lo hi b).map narrow = .ok y) :
    x = y ↔ literal (decide (lo < 0)) a.toList = literal (decide (lo < 0)) b.toList := by
  obtain ⟨m,readA,rfl⟩ := map_eq_ok_iff.mp left
  obtain ⟨n,readB,rfl⟩ := map_eq_ok_iff.mp right
  obtain ⟨literalA,lowA,highA⟩ := (parseInt_ok_iff zero a m).mp readA
  obtain ⟨literalB,lowB,highB⟩ := (parseInt_ok_iff zero b n).mp readB
  rw [literalA,literalB,Option.some.injEq]
  exact ⟨injective m n lowA highA lowB highB,congrArg narrow⟩

theorem addressFromStr_eq_ok_iff {s : String} {a : ScAddress} :
    addressFromStr c s = .ok a ↔ addressSpelled c s = some a := by
  unfold addressFromStr addressSpelled
  cases c.publicKeyFromString s <;> cases c.contractFromString s <;> simp

theorem parseU32_same {a b : String} {x y : UInt32} (left : parseU32 a = .ok x) (right : parseU32 b = .ok y) :
    x = y ↔ literal false a.toList = literal false b.toList := by
  refine parseInt_same ⟨by decide,by decide⟩ (fun m n _ _ _ _ same => ?_) left right
  have := congrArg UInt32.toNat same
  rw [UInt32.toNat_ofNat_of_lt' (show m.toNat < 2 ^ 32 by omega),
    UInt32.toNat_ofNat_of_lt' (show n.toNat < 2 ^ 32 by omega)] at this
  omega

theorem parseU64_same {a b : String} {x y : UInt64} (left : parseU64 a = .ok x) (right : parseU64 b = .ok y) :
    x = y ↔ literal false a.toList = literal false b.toList := by
  refine parseInt_same ⟨by decide,by decide⟩ (fun m n _ _ _ _ same => ?_) left right
  have := congrArg UInt64.toNat same
  rw [UInt64.toNat_ofNat_of_lt' (show m.toNat < 2 ^ 64 by omega),
    UInt64.toNat_ofNat_of_lt' (show n.toNat < 2 ^ 64 by omega)] at this
  omega

theorem parseI32_same {a b : String} {x y : Int32} (left : parseI32 a = .ok x) (right : parseI32 b = .ok y) :
    x = y ↔ literal true a.toList = literal true b.toList := by
  refine parseInt_same ⟨by decide,by decide⟩ (fun m n _ _ _ _ same => ?_) left right
  have := congrArg Int32.toInt same
  rwa [Int32.toInt_ofInt_of_le (by omega) (by omega),Int32.toInt_ofInt_of_le (by omega) (by omega)] at this

theorem parseI64_same {a b : String} {x y : Int64} (left : parseI64 a = .ok x) (right : parseI64 b = .ok y) :
    x = y ↔ literal true a.toList = literal true b.toList := by
  refine parseInt_same ⟨by decide,by decide⟩ (fun m n _ _ _ _ same => ?_) left right
  have := congrArg Int64.toInt same
  rwa [Int64.toInt_ofInt_of_le (by omega) (by omega),Int64.toInt_ofInt_of_le (by omega) (by omega)] at this

theorem parseBool_eq_some_iff {s : String} {b : Bool} :
    parseBool s = some b ↔ s = if b then "true" else "false" := by
  unfold parseBool
  split <;> cases b <;> simp_all

/-- Parsed keys are equal exactly when their names spell the same key. -/
theorem jsonKeyToScval_same {keyType : ScSpecTypeDef} {a b : String} {x y : ScVal}
    (left : jsonKeyToScval c a keyType = .ok x) (right : jsonKeyToScval c b keyType = .ok y) :
    x = y ↔ SameKey c keyType a b := by
  cases keyType <;> simp only [jsonKeyToScval, symbolFromStr, stringFromStr, map_eq_ok_iff, okOr_eq_ok_iff,
    mapError_eq_ok_iff, addressFromStr_eq_ok_iff, parseBool_eq_some_iff, reduceCtorEq] at left right
  all_goals
    obtain ⟨m,left,rfl⟩ := left
    obtain ⟨n,right,rfl⟩ := right
  case u32 => exact ScVal.u32.injEq m n ▸ parseU32_same left right
  case u64 => exact ScVal.u64.injEq m n ▸ parseU64_same left right
  case i32 => exact ScVal.i32.injEq m n ▸ parseI32_same left right
  case i64 => exact ScVal.i64.injEq m n ▸ parseI64_same left right
  case bool => subst left right; cases m <;> cases n <;> simp [SameKey]
  all_goals simp [SameKey,left,right]

/-- The names that one call turns into keys spell different keys. -/
def Apart (c : Crates) (spec : ContractSpec) (value : Value) (ty : ScSpecTypeDef) : Prop :=
  match ty, value with
  | .map keyType _, .object members => members.Pairwise fun a b => ¬SameKey c keyType a.1 b.1
  | .udt name, .object _ =>
    match spec.resolve name.toUtf8StringLossy with
    | some (.struct s) => ¬s.Positional → s.fields.Pairwise fun f g =>
        c.stringFromStr 32 f.name.toUtf8StringLossy ≠ c.stringFromStr 32 g.name.toUtf8StringLossy
    | _ => True
  | _, _ => True

/-- The names are apart in every call that the conversion leads to. -/
def LegalInput (c : Crates) (spec : ContractSpec) (value : Value) (ty : ScSpecTypeDef) : Prop :=
  ∀ value' ty', Relation.ReflTransGen (fun p q : Value × ScSpecTypeDef => Calls spec p.1 p.2 q.1 q.2)
    (value, ty) (value', ty') → Apart c spec value' ty'

theorem legalInput_iff : LegalInput c spec value ty ↔ Apart c spec value ty ∧
    ∀ value' ty', Calls spec value ty value' ty' → LegalInput c spec value' ty' := by
  constructor
  · exact fun legal => ⟨legal _ _ .refl,fun value' ty' call other ty'' reached =>
      legal other ty'' (.head (b := (value', ty')) call reached)⟩
  · rintro ⟨here,calls⟩ value' ty' reached
    rcases reached.cases_head with same | ⟨⟨next,nextTy⟩,call,reached⟩
    · cases same
      exact here
    · exact calls next nextTy call value' ty' reached

theorem Calls.composite {value' : Value} {ty' : ScSpecTypeDef} (call : Calls spec value ty value' ty') :
    ty.Composite := by
  cases call <;> trivial

theorem Calls.resolved {name : StringM 60} {value' : Value} {ty' : ScSpecTypeDef}
    (call : Calls spec value (.udt name) value' ty') :
    (∃ s, spec.resolve name.toUtf8StringLossy = some (.struct s)) ∨
      ∃ u, spec.resolve name.toUtf8StringLossy = some (.union u) := by
  cases call with
  | positional found => exact .inl ⟨_,found⟩
  | named found => exact .inl ⟨_,found⟩
  | union found => exact .inr ⟨_,found⟩

theorem leaf_legal (leaf : LeafInhabits ty v) : v.LegalMaps := by
  have atomic : v.Atomic := by cases leaf <;> trivial
  refine .atomic atomic ?_
  cases leaf <;> trivial

theorem map_legal_iff {entries : List ScMapEntry} (keys : ∀ e ∈ entries, e.key.LegalMaps) :
    (ScVal.map (some entries)).LegalMaps ↔
      keysAscending entries ∧ ∀ x ∈ entries.map MapEntry.val, x.LegalMaps := by
  refine ScVal.Everywhere.map_iff.trans (and_congr_right' ?_)
  rw [List.forall_mem_map]
  exact forall₂_congr fun e member => and_iff_right (keys e member)

/-- What the induction knows of the parts of a result. -/
def PartsLegal (c : Crates) (spec : ContractSpec) (value : Value) (ty : ScSpecTypeDef) : Prop :=
  ∀ value' ty', Calls spec value ty value' ty' → ∀ x, jsonToScval c spec value' ty' = .ok x →
    (x.LegalMaps ↔ LegalInput c spec value' ty')

/-- The parts of a result are legal when each came from a call on legal input and each
call gave a part. -/
theorem PartsLegal.iff {xs : List ScVal} (parts : PartsLegal c spec value ty)
    (made : ∀ x ∈ xs, ∃ value' ty', Calls spec value ty value' ty' ∧ jsonToScval c spec value' ty' = .ok x)
    (covered : ∀ value' ty', Calls spec value ty value' ty' → ∃ x ∈ xs, jsonToScval c spec value' ty' = .ok x) :
    (∀ x ∈ xs, x.LegalMaps) ↔ ∀ value' ty', Calls spec value ty value' ty' → LegalInput c spec value' ty' := by
  constructor
  · intro legal value' ty' call
    obtain ⟨x,member,ok⟩ := covered value' ty' call
    exact (parts value' ty' call x ok).mp (legal x member)
  · intro legal x member
    obtain ⟨value',ty',call,ok⟩ := made x member
    exact (parts value' ty' call x ok).mpr (legal value' ty' call)

/-- Parts made one by one, of inputs that are the calls. -/
theorem PartsLegal.each {ι : Type} {inputs : List ι} {xs : List ScVal} (parts : PartsLegal c spec value ty)
    (input : ι → Value × ScSpecTypeDef)
    (each : List.Forall₂ (fun i x => jsonToScval c spec (input i).1 (input i).2 = .ok x) inputs xs)
    (calls : ∀ value' ty', Calls spec value ty value' ty' ↔ ∃ i ∈ inputs, input i = (value', ty')) :
    (∀ x ∈ xs, x.LegalMaps) ↔ ∀ value' ty', Calls spec value ty value' ty' → LegalInput c spec value' ty' := by
  apply parts.iff
  · intro x member
    obtain ⟨i,inside,ok⟩ := forall₂_mem_right each member
    exact ⟨_,_,(calls _ _).mpr ⟨i,inside,rfl⟩,ok⟩
  · intro value' ty' call
    obtain ⟨i,inside,same⟩ := (calls value' ty').mp call
    obtain ⟨x,member,ok⟩ := forall₂_mem_left each inside
    rw [same] at ok
    exact ⟨x,member,ok⟩

/-- A vector with nothing of its own to be legal. -/
theorem PartsLegal.vec {ι : Type} {inputs : List ι} {xs : List ScVal} (parts : PartsLegal c spec value ty)
    (apart : Apart c spec value ty) (input : ι → Value × ScSpecTypeDef)
    (each : List.Forall₂ (fun i x => jsonToScval c spec (input i).1 (input i).2 = .ok x) inputs xs)
    (calls : ∀ value' ty', Calls spec value ty value' ty' ↔ ∃ i ∈ inputs, input i = (value', ty')) :
    (ScVal.vec (some xs)).LegalMaps ↔ LegalInput c spec value ty :=
  calc (ScVal.vec (some xs)).LegalMaps
    _ ↔ ∀ x ∈ xs, x.LegalMaps := ScVal.Everywhere.vec_iff.trans (and_iff_right trivial)
    _ ↔ ∀ value' ty', Calls spec value ty value' ty' → LegalInput c spec value' ty' := parts.each input each calls
    _ ↔ LegalInput c spec value ty := (legalInput_iff.trans (and_iff_right apart)).symm

/-- A result with no parts. -/
theorem leaf_legal_iff (leaf : LeafInhabits ty v) {ty' : ScSpecTypeDef} (apart : Apart c spec value ty')
    (noCalls : ∀ value' ty'', ¬Calls spec value ty' value' ty'') : v.LegalMaps ↔ LegalInput c spec value ty' :=
  iff_of_true (leaf_legal leaf)
    (legalInput_iff.mpr ⟨apart,fun value' ty'' call => absurd call (noCalls value' ty'')⟩)

theorem map_legal {keyType valueType : ScSpecTypeDef} {members : Entries String Value} {entries : List ScMapEntry}
    (parts : PartsLegal c spec (.object members) (.map keyType valueType))
    (each : List.Forall₂ (fun m e => jsonKeyToScval c m.1 keyType = .ok e.key ∧
      jsonToScval c spec m.2 valueType = .ok e.val) members entries) :
    (ScVal.map (some (sortByKey entries))).LegalMaps ↔
      LegalInput c spec (.object members) (.map keyType valueType) := by
  have same := sortByKey_perm entries
  have keys : keysAscending (sortByKey entries) ↔ members.Pairwise fun a b => ¬SameKey c keyType a.1 b.1 := by
    rw [sortByKey_ascending_iff,List.Nodup,List.pairwise_map]
    exact (forall₂_pairwise_iff each fun a b x y left right =>
      not_congr (jsonKeyToScval_same left.1 right.1).symm).symm
  have leafKeys (e) (member : e ∈ sortByKey entries) : e.key.LegalMaps := by
    obtain ⟨m,_,key,_⟩ := forall₂_mem_right each (same.mem_iff.mp member)
    exact leaf_legal (jsonKeyToScval_leaf key)
  rw [legalInput_iff]
  apply (map_legal_iff leafKeys).trans
  apply and_congr keys
  apply parts.iff
  · intro y member
    obtain ⟨e,inside,rfl⟩ := List.mem_map.mp member
    obtain ⟨m,listed,_,ok⟩ := forall₂_mem_right each (same.mem_iff.mp inside)
    exact ⟨m.2,valueType,.map listed,ok⟩
  · rintro _ _ ⟨⟩
    rename_i listed
    obtain ⟨e,inside,_,ok⟩ := forall₂_mem_left each listed
    exact ⟨e.val,List.mem_map_of_mem (same.mem_iff.mpr inside),ok⟩

section UserTypes

variable {name : StringM 60} (parts : PartsLegal c spec value (.udt name))
include parts

theorem positional_legal {s : ScSpecUdtStructV0}
    (found : spec.resolve name.toUtf8StringLossy = some (.struct s)) (positional : s.Positional)
    (ok : structToScval c s value spec = .ok v) : v.LegalMaps ↔ LegalInput c spec value (.udt name) := by
  obtain ⟨items,xs,rfl,_,each,_,rfl⟩ := (struct_positional_ok_iff positional).mp ok
  apply parts.vec trivial (fun p : Value × ScSpecUdtStructFieldV0 => (p.1, p.2.type)) each
  intro x ty
  constructor
  · intro call
    cases call with
    | positional found' _ inside =>
      cases found.symm.trans found'
      exact ⟨_,inside,rfl⟩
    | union found' => cases found.symm.trans found'
  · rintro ⟨p,inside,same⟩
    cases same
    exact .positional found positional inside

theorem named_legal {s : ScSpecUdtStructV0}
    (found : spec.resolve name.toUtf8StringLossy = some (.struct s)) (named : ¬s.Positional)
    (ok : structToScval c s value spec = .ok v) : v.LegalMaps ↔ LegalInput c spec value (.udt name) := by
  obtain ⟨members,declared,rfl,each,_,rfl⟩ := (struct_named_ok_iff named).mp ok
  have same := sortByKey_perm declared
  have keys : keysAscending (sortByKey declared) ↔ Apart c spec (.object members) (.udt name) := by
    simp only [Apart, found, not_false_eq_true, named, forall_const]
    rw [sortByKey_ascending_iff,List.Nodup,List.pairwise_map]
    refine (forall₂_pairwise_iff each fun f g e e' left right => ?_).symm
    obtain ⟨_,_,_,spelled,key,_⟩ := left
    obtain ⟨_,_,_,spelled',key',_⟩ := right
    rw [spelled,spelled',key,key']
    simp
  have leafKeys (e) (member : e ∈ sortByKey declared) : e.key.LegalMaps := by
    obtain ⟨f,_,_,symbol,_,_,key,_⟩ := forall₂_mem_right each (same.mem_iff.mp member)
    exact key ▸ leaf_legal (.symbol symbol)
  rw [legalInput_iff]
  apply (map_legal_iff leafKeys).trans
  apply and_congr keys
  apply parts.iff
  · intro y member
    obtain ⟨e,inside,rfl⟩ := List.mem_map.mp member
    obtain ⟨f,listed,x,_,given,_,_,ok⟩ := forall₂_mem_right each (same.mem_iff.mp inside)
    exact ⟨x,f.type,.named found named listed given,ok⟩
  · intro x ty made
    cases made with
    | named found' _ listed given =>
      cases found.symm.trans found'
      obtain ⟨e,inside,_,_,given',_,_,ok⟩ := forall₂_mem_left each listed
      cases given.symm.trans given'
      exact ⟨e.val,List.mem_map_of_mem (same.mem_iff.mpr inside),ok⟩
    | union found' => cases found.symm.trans found'

theorem union_legal {u : ScSpecUdtUnionV0} (found : spec.resolve name.toUtf8StringLossy = some (.union u))
    (ok : unionToScval c name.toUtf8StringLossy value spec = .ok v) :
    v.LegalMaps ↔ LegalInput c spec value (.udt name) := by
  obtain ⟨caseName,args,case,symbol,xs,form,declared,_,_,each,_,rfl⟩ := union_ok_iff.mp ok
  have apart : Apart c spec value (.udt name) := by cases value <;> simp [Apart,found]
  have arguments : (∀ x ∈ xs, x.LegalMaps) ↔
      ∀ value' ty', Calls spec value (.udt name) value' ty' → LegalInput c spec value' ty' := by
    apply parts.each id each
    intro x ty
    constructor
    · intro call
      cases call with
      | positional found' => cases found.symm.trans found'
      | named found' => cases found.symm.trans found'
      | union found' form' declared' inside =>
        cases found.symm.trans found'
        cases form.symm.trans form'
        cases declared.symm.trans declared'
        exact ⟨_,inside,rfl⟩
    · rintro ⟨p,inside,same⟩
      cases same
      exact .union found form declared inside
  rw [legalInput_iff,← arguments,and_iff_right apart,ScVal.LegalMaps,ScVal.Everywhere.vec_iff,
    List.forall_mem_cons]
  exact ⟨fun legal => legal.2.2,fun legal => ⟨trivial,leaf_legal (.symbol symbol),legal⟩⟩

omit parts in
/-- A case of an enumeration is converted without a call. -/
theorem enumeration_legal {n : UInt32} (struct : ∀ s, spec.resolve name.toUtf8StringLossy ≠ some (.struct s))
    (union : ∀ u, spec.resolve name.toUtf8StringLossy ≠ some (.union u)) :
    (ScVal.u32 n).LegalMaps ↔ LegalInput c spec value (.udt name) := by
  have apart : Apart c spec value (.udt name) := by
    cases value with
    | object members =>
      cases resolved : spec.resolve name.toUtf8StringLossy with
      | none => simp [Apart,resolved]
      | some udt =>
        cases udt with
        | struct s => exact absurd resolved (struct s)
        | _ => simp [Apart,resolved]
    | _ => trivial
  apply leaf_legal_iff (.u32 n) apart
  intro value' ty' call
  rcases call.resolved with ⟨s,found⟩ | ⟨u,found⟩
  · exact struct s found
  · exact union u found

end UserTypes

/-- A conversion without hatches makes legal maps exactly when the names it turns into
keys are apart. -/
theorem legalMaps_iff (lacks : value.Lacks "__xdr") (ok : jsonToScval c spec value ty = .ok v) :
    v.LegalMaps ↔ LegalInput c spec value ty := by
  induction value, ty using conversion_induction spec generalizing v with
  | step value ty ih =>
  have parts : PartsLegal c spec value ty := fun value' ty' made x ok => ih value' ty' made (made.lacks lacks) ok
  cases ty with
  | option ty =>
    have apart : Apart c spec value (.option ty) := by cases value <;> trivial
    rcases (option_ok_iff lacks.get).mp ok with ⟨rfl,rfl⟩ | ⟨present,ok⟩
    · apply leaf_legal_iff .void apart
      intro value' ty' made
      cases made with | option present => exact present rfl
    · rw [legalInput_iff,and_iff_right apart,parts _ _ (.option present) v ok]
      constructor
      · rintro legal _ _ ⟨⟩
        exact legal
      · intro legal
        exact legal _ _ (.option present)
  | vec ty =>
    obtain ⟨items,xs,rfl,each,_,rfl⟩ := (vec_ok_iff lacks.get).mp ok
    apply parts.vec trivial (fun x => (x, ty)) each
    intro value' ty'
    constructor
    · rintro ⟨⟩
      rename_i inside
      exact ⟨_,inside,rfl⟩
    · rintro ⟨x,inside,same⟩
      cases same
      exact .vec inside
  | map keyType ty =>
    obtain ⟨members,entries,rfl,each,_,rfl⟩ := (map_ok_iff lacks.get).mp ok
    exact map_legal parts each
  | tuple types =>
    obtain ⟨items,xs,rfl,_,each,_,rfl⟩ := (tuple_ok_iff lacks.get).mp ok
    apply parts.vec trivial id each
    intro value' ty'
    constructor
    · rintro ⟨⟩
      rename_i inside
      exact ⟨_,inside,rfl⟩
    · rintro ⟨x,inside,same⟩
      cases same
      exact .tuple inside
  | udt name =>
    rw [udt_eq lacks.get] at ok
    cases found : spec.resolve (StringM.toUtf8StringLossy name) with
    | none =>
      rw [found] at ok
      rw [udt_undefined found] at ok
      cases ok
    | some udt =>
    rw [found] at ok
    cases udt with
    | struct s =>
      by_cases positional : s.Positional
      · exact positional_legal parts found positional ok
      · exact named_legal parts found positional ok
    | union u => exact union_legal parts found ok
    | enum e =>
      obtain ⟨case,_,rfl⟩ := enumToScval_case ok
      exact enumeration_legal (by simp [found]) (by simp [found])
    | errorEnum e =>
      obtain ⟨n,rfl⟩ := errorEnumToScval_u32 ok
      exact enumeration_legal (by simp [found]) (by simp [found])
  | _ =>
    apply leaf_legal_iff (leaf_sound lacks.get id ok) (by cases value <;> trivial)
    exact fun _ _ made => made.composite.elim

theorem legalMaps_iff_apart :
    (ScVal.map (some [⟨.u32 1,.void⟩,⟨.u32 2,.void⟩])).LegalMaps ↔
      LegalInput .reference .empty (.object [("1", .null), ("2", .null)]) (.map .u32 .void) := by
  apply legalMaps_iff (by simp [Value.lacks_object_iff])
  simp [jsonToScval]
  decide

/-- A leading zero makes two members of one key. -/
theorem legalMaps_leading_zero : ¬∀ (c : Crates) (spec : ContractSpec) (value : Value) (ty : ScSpecTypeDef)
    (v : ScVal), spec.DistinctFields → value.WellFormed → value.Lacks "__xdr" →
    jsonToScval c spec value ty = .ok v → v.LegalMaps := by
  intro always
  have well : (Value.object [("01", .null), ("1", .null)]).WellFormed := by
    refine Value.wellFormed_object_iff.mpr ⟨by decide,by simp⟩
  have legal := always .reference .empty (.object [("01", .null), ("1", .null)]) (.map .u32 .void)
    (.map (some [⟨.u32 1,.void⟩,⟨.u32 1,.void⟩])) (fun _ _ found => absurd found resolve_empty)
    well (by simp [Value.lacks_object_iff]) (by simp [jsonToScval]; decide)
  exact absurd legal.self (show ¬keysAscending _ by decide)

end SorobanProxy
