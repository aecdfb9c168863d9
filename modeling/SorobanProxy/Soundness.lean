import SorobanProxy.Inhabits

/-! What the conversion produces has the type it was asked for. -/
namespace SorobanProxy

open Library

variable {c : Crates} {spec : ContractSpec} {value : Value} {v : ScVal}

theorem addressFromStr_kind {s : String} {a : ScAddress} (ok : addressFromStr c s = .ok a) :
    a.AccountOrContract := by
  unfold addressFromStr at ok
  split at ok
  · obtain rfl := Except.ok.inj ok
    trivial
  · split at ok
    · obtain rfl := Except.ok.inj ok
      trivial
    · cases ok

theorem leaf_sound (noHatch : value.get "__xdr" = none) {ty : ScSpecTypeDef} (simple : ¬ty.Composite)
    (ok : jsonToScval c spec value ty = .ok v) : LeafInhabits ty v := by
  rw [jsonToScval.eq_def,noHatch] at ok
  cases ty <;> simp [ScSpecTypeDef.Composite] at simple ok
  case void => exact ok ▸ .void
  case bool => rcases ok with ⟨_,rfl⟩ | ⟨_,rfl⟩ <;> exact .bool _
  case u32 => obtain ⟨_,_,n,_,rfl⟩ := ok; exact .u32 n
  case i32 => obtain ⟨_,_,n,_,rfl⟩ := ok; exact .i32 n
  case u64 => obtain ⟨n,_,rfl⟩ := ok; exact .u64 n
  case i64 => obtain ⟨n,_,rfl⟩ := ok; exact .i64 n
  case timepoint => obtain ⟨n,_,rfl⟩ := ok; exact .timepoint n
  case duration => obtain ⟨n,_,rfl⟩ := ok; exact .duration n
  case u128 => obtain ⟨n,_,rfl⟩ := ok; exact .u128 _
  case i128 => obtain ⟨n,_,rfl⟩ := ok; exact .i128 _
  case string => obtain ⟨_,_,s,_,rfl⟩ := ok; exact .string s
  case symbol => obtain ⟨_,_,s,_,rfl⟩ := ok; exact .symbol s
  case bytes => obtain ⟨_,_,b,_,rfl⟩ := ok; exact .bytes b
  case address => obtain ⟨_,_,a,valid,rfl⟩ := ok; exact .address (addressFromStr_kind valid)
  case muxedAddress => obtain ⟨_,_,a,valid,rfl⟩ := ok; exact .muxedAddress (addressFromStr_kind valid)
  case bytesN n =>
    obtain ⟨bytes,_,ok⟩ := ok
    split_ifs at ok with size
    simp at ok
    obtain ⟨b,fits,rfl⟩ := ok
    refine .bytesN b ?_
    rw [BytesM.tryFrom_eq_some_iff.mp fits,size]

/-- The types with a value for nothing at all. -/
def ScSpecTypeDef.Omissible : ScSpecTypeDef → Prop
  | .void | .option _ => True
  | _ => False

/-- No user type takes null: one without fields still asks for an object. -/
theorem udt_null_refused {name : StringM 60} : jsonToScval c spec .null (.udt name) ≠ .ok v := by
  intro ok
  rw [udt_eq rfl] at ok
  cases found : spec.resolve (StringM.toUtf8StringLossy name) with
  | none =>
    rw [found,udt_undefined found] at ok
    cases ok
  | some udt =>
    rw [found] at ok
    cases udt with
    | struct s =>
      by_cases positional : s.Positional
      · obtain ⟨_,_,shape,_⟩ := (struct_positional_ok_iff positional).mp ok
        cases shape
      · obtain ⟨_,_,shape,_⟩ := (struct_named_ok_iff positional).mp ok
        cases shape
    | union u =>
      obtain ⟨_,_,_,_,_,form,_⟩ := union_ok_iff.mp ok
      cases form
    | enum e => cases ok
    | errorEnum e => cases ok

/-- No other type takes null, whatever the spec defines. -/
theorem null_ok_iff {ty : ScSpecTypeDef} :
    jsonToScval c spec .null ty = .ok v ↔ ty.Omissible ∧ v = .void := by
  have noHatch : Value.null.get "__xdr" = none := rfl
  constructor
  · intro ok
    cases ty with
    | option ty =>
      rcases (option_ok_iff noHatch).mp ok with ⟨_,empty⟩ | ⟨present,_⟩
      · exact ⟨trivial,empty⟩
      · exact absurd rfl present
    | vec ty =>
      obtain ⟨_,_,shape,_⟩ := (vec_ok_iff noHatch).mp ok
      cases shape
    | map keyType ty =>
      obtain ⟨_,_,shape,_⟩ := (map_ok_iff noHatch).mp ok
      cases shape
    | tuple types =>
      obtain ⟨_,_,shape,_⟩ := (tuple_ok_iff noHatch).mp ok
      cases shape
    | udt name => exact absurd ok udt_null_refused
    | _ =>
      have typed := leaf_sound noHatch id ok
      cases typed <;> first | exact ⟨trivial,rfl⟩ | (rw [jsonToScval.eq_def] at ok; cases ok)
  · rintro ⟨omissible,rfl⟩
    cases ty with
    | void => rw [jsonToScval.eq_def,noHatch]
    | option ty => exact (option_ok_iff noHatch).mpr (.inl ⟨rfl,rfl⟩)
    | _ => exact omissible.elim

/-- The key parser makes values of the key type. -/
theorem jsonKeyToScval_leaf {key : String} {ty : ScSpecTypeDef} (ok : jsonKeyToScval c key ty = .ok v) :
    LeafInhabits ty v := by
  cases ty <;> simp [jsonKeyToScval] at ok
  case symbol => obtain ⟨s,_,rfl⟩ := ok; exact .symbol s
  case string => obtain ⟨s,_,rfl⟩ := ok; exact .string s
  case address => obtain ⟨a,valid,rfl⟩ := ok; exact .address (addressFromStr_kind valid)
  case muxedAddress => obtain ⟨a,valid,rfl⟩ := ok; exact .muxedAddress (addressFromStr_kind valid)
  case bool => rcases ok with ⟨_,rfl⟩ | ⟨_,rfl⟩ <;> exact .bool _
  case u32 => obtain ⟨n,_,rfl⟩ := ok; exact .u32 n
  case i32 => obtain ⟨n,_,rfl⟩ := ok; exact .i32 n
  case u64 => obtain ⟨n,_,rfl⟩ := ok; exact .u64 n
  case i64 => obtain ⟨n,_,rfl⟩ := ok; exact .i64 n

theorem findCase_mem {cases : List ScSpecUdtEnumCaseV0} {name : String} {case : ScSpecUdtEnumCaseV0}
    (found : findCase cases name = some case) : case ∈ cases := List.mem_of_find?_eq_some found

theorem enumToScval_case {e : ScSpecUdtEnumV0} (ok : enumToScval e value = .ok v) :
    ∃ case ∈ e.cases, v = .u32 case.value := by
  unfold enumToScval at ok
  split at ok
  · obtain ⟨n,_,ok⟩ := bind_eq_ok_iff.mp ok
    split_ifs at ok with known
    obtain ⟨case,declared,same⟩ := List.any_eq_true.mp known
    obtain rfl := Except.ok.inj ok
    exact ⟨case,declared,by rw [beq_iff_eq.mp same]⟩
  · split at ok
    · obtain ⟨case,found,ok⟩ := bind_eq_ok_iff.mp ok
      exact ⟨case,findCase_mem (okOr_eq_ok_iff.mp found),(Except.ok.inj ok).symm⟩
    · cases ok

theorem errorEnumToScval_u32 {e : ScSpecUdtErrorEnumV0} (ok : errorEnumToScval e value = .ok v) :
    ∃ n, v = .u32 n := by
  unfold errorEnumToScval at ok
  split at ok
  · obtain ⟨n,_,ok⟩ := bind_eq_ok_iff.mp ok
    exact ⟨n,(Except.ok.inj ok).symm⟩
  · split at ok
    · obtain ⟨case,_,ok⟩ := bind_eq_ok_iff.mp ok
      exact ⟨case.value,(Except.ok.inj ok).symm⟩
    · cases ok

theorem unionCase_mem {name caseName : String} {u : ScSpecUdtUnionV0} {case : ScSpecUdtUnionCaseV0}
    (found : spec.resolve name = some (.union u)) (declared : spec.unionCase name caseName = some case) :
    case ∈ u.cases ∧ case.name.toUtf8StringLossy = caseName := by
  rw [unionCase_eq found] at declared
  exact ⟨List.mem_of_find?_eq_some declared,by simpa using List.find?_some declared⟩

theorem unionForm_lacks {name : String} {args : List Value} (lacks : value.Lacks "__xdr")
    (form : unionForm value = some (name, args)) {x : Value} (member : x ∈ args) : x.Lacks "__xdr" := by
  unfold unionForm at form
  split at form
  · simp only [Option.some.injEq, Prod.mk.injEq] at form
    simp [← form.2] at member
  · have inner := lacks.member (List.mem_singleton_self _)
    split at form <;> simp only [Option.some.injEq, Prod.mk.injEq] at form <;> rw [← form.2] at member
    · exact inner.item member
    · simp at member
    · rwa [List.mem_singleton.mp member]
  · cases form

/-- A call inside a value without hatches is on a value without hatches. -/
theorem Calls.lacks {value' : Value} {ty ty' : ScSpecTypeDef} (call : Calls spec value ty value' ty')
    (lacks : value.Lacks "__xdr") : value'.Lacks "__xdr" := by
  cases call with
  | option => exact lacks
  | vec member => exact lacks.item member
  | map member => exact lacks.member member
  | tuple member => exact lacks.item (List.of_mem_zip member).1
  | positional _ _ member => exact lacks.item (List.of_mem_zip member).1
  | named _ _ _ found => exact lacks.member (Entries.mem_of_find found)
  | union _ form _ member => exact unionForm_lacks lacks form (List.of_mem_zip member).1

/-- A conversion without hatches gives a value of the type. -/
theorem jsonToScval_inhabits {ty : ScSpecTypeDef} (lacks : value.Lacks "__xdr")
    (ok : jsonToScval c spec value ty = .ok v) : Inhabits spec (parsed c) ty v := by
  induction value, ty using conversion_induction spec generalizing v with
  | step value ty ih =>
  have call {value' ty' v'} (made : Calls spec value ty value' ty')
      (ok : jsonToScval c spec value' ty' = .ok v') : Inhabits spec (parsed c) ty' v' :=
    ih value' ty' made (made.lacks lacks) ok
  cases ty with
  | option ty =>
    rcases (option_ok_iff lacks.get).mp ok with ⟨_,rfl⟩ | ⟨present,ok⟩
    · exact .none
    · exact .some (call (.option present) ok)
  | vec ty =>
    obtain ⟨items,xs,rfl,each,fits,rfl⟩ := (vec_ok_iff lacks.get).mp ok
    refine .vec (fun y member => ?_) fits
    obtain ⟨x,inside,ok⟩ := forall₂_mem_right each member
    exact call (.vec inside) ok
  | map keyType ty =>
    obtain ⟨members,entries,rfl,each,fits,rfl⟩ := (map_ok_iff lacks.get).mp ok
    have same := sortByKey_perm entries
    refine .map (fun e member => ?_) (fun e member => ?_) (sortByKey_sorted entries)
      (same.length_eq ▸ fits)
    · obtain ⟨_,_,key,_⟩ := forall₂_mem_right each (same.mem_iff.mp member)
      exact .leaf (jsonKeyToScval_leaf key)
    · obtain ⟨_,inside,_,ok⟩ := forall₂_mem_right each (same.mem_iff.mp member)
      exact call (.map inside) ok
  | tuple types =>
    obtain ⟨items,xs,rfl,arity,each,fits,rfl⟩ := (tuple_ok_iff lacks.get).mp ok
    refine .tuple (forall₂_zip_length arity each) (fun p member => ?_) fits
    obtain ⟨x,inside,ok⟩ := forall₂_zip_mem each member
    exact call (.tuple inside) ok
  | udt name =>
    rw [udt_eq lacks.get] at ok
    cases found : spec.resolve (StringM.toUtf8StringLossy name) with
    | none =>
      rw [found] at ok
      rw [udt_undefined found] at ok
      cases ok
    | some udt =>
    rw [found] at ok
    cases udt with
    | struct s =>
      by_cases positional : s.Positional
      · obtain ⟨items,xs,rfl,arity,each,fits,rfl⟩ := (struct_positional_ok_iff positional).mp ok
        refine .positional found positional (forall₂_zip_length arity each) (fun p member => ?_) fits
        obtain ⟨x,inside,ok⟩ := forall₂_zip_mem each member
        exact call (.positional found positional inside) ok
      · obtain ⟨members,declared,rfl,each,fits,rfl⟩ := (struct_named_ok_iff positional).mp ok
        have same := sortByKey_perm declared
        have field (p) (member : p ∈ declared.zip s.fields) := List.forall₂_zip each.flip member
        refine .named found positional each.length_eq.symm (fun p member => ?_) (fun p member => ?_) same
          (sortByKey_sorted declared) (same.length_eq ▸ fits)
        · obtain ⟨_,symbol,_,spelled,key,_⟩ := field p member
          exact ⟨symbol,spelled,key⟩
        · obtain ⟨x,_,given,_,_,ok⟩ := field p member
          exact call (.named found positional (List.of_mem_zip member).2 given) ok
    | union u =>
      obtain ⟨caseName,args,case,symbol,xs,form,declared,spelled,arity,each,fits,rfl⟩ := union_ok_iff.mp ok
      obtain ⟨listed,rfl⟩ := unionCase_mem found declared
      refine .union found listed spelled (forall₂_zip_length arity each) (fun p member => ?_) fits
      obtain ⟨x,inside,ok⟩ := forall₂_zip_mem each member
      exact call (.union found form declared inside) ok
    | enum e =>
      obtain ⟨case,listed,rfl⟩ := enumToScval_case ok
      exact .enum found listed
    | errorEnum e =>
      obtain ⟨n,rfl⟩ := errorEnumToScval_u32 ok
      exact .errorEnum n found
  | _ => exact .leaf (leaf_sound lacks.get id ok)

/-- Type soundness. Names are compared as the parser reads them; a name that is plain text
is its own symbol, byte for byte. -/
theorem jsonToScval_sound (c : Crates) (spec : ContractSpec) (value : Value) (ty : ScSpecTypeDef)
    (v : ScVal) (lacks : value.Lacks "__xdr") (ok : jsonToScval c spec value ty = .ok v) :
    Inhabits spec (parsed c) ty v ∧
      (c.TextLaw → (∀ name, spec.Declares name → PlainBytes name) → Inhabits spec verbatim ty v) := by
  have typed := jsonToScval_inhabits lacks ok
  refine ⟨typed,fun text plain => typed.mono fun name symbol declared spelled => ?_⟩
  exact (parsed_iff_verbatim text (plain name declared)).mp spelled

namespace Reference

def disc : ScSpecUdtStructV0 := ⟨.empty,⟨utf8 "Disc",by decide⟩,[⟨.empty,⟨utf8 "radius",by decide⟩,.u32⟩]⟩

def point : ScSpecUdtUnionCaseV0 := .voidV0 .empty ⟨utf8 "Point",by decide⟩

def circle : ScSpecUdtUnionCaseV0 := .tupleV0 .empty ⟨utf8 "Circle",by decide⟩ [.udt disc.name]

def shape : ScSpecUdtUnionV0 := ⟨.empty,⟨utf8 "Shape",by decide⟩,[point, circle]⟩

/-- A struct, and a union with a case that takes it. -/
def shapes : ContractSpec := .fromEntries [.udtStructV0 disc, .udtUnionV0 shape]

def discArgument : Value := .object [("radius", .number (.ofU32 5))]

def circleArgument : Value := .object [("Circle", .array [discArgument])]

def discValue : ScVal := .map (some [⟨.symbol ⟨utf8 "radius",by decide⟩,.u32 5⟩])

def circleValue : ScVal := .vec (some [.symbol ⟨utf8 "Circle",by decide⟩, discValue])

theorem shapes_names : disc.name.toUtf8StringLossy = "Disc" ∧ shape.name.toUtf8StringLossy = "Shape" :=
  ⟨fromUtf8Lossy_utf8 "Disc",fromUtf8Lossy_utf8 "Shape"⟩

theorem shapes_resolve (name : String) : shapes.resolve name =
    if name = "Disc" then some (.struct disc) else if name = "Shape" then some (.union shape) else none := by
  obtain ⟨discName,shapeName⟩ := shapes_names
  simp only [shapes, ContractSpec.fromEntries, List.foldl, ContractSpec.addEntry, ContractSpec.empty,
    ContractSpec.resolve, OrdMap.get_insert, OrdMap.get_empty, discName, shapeName]
  split_ifs <;> rfl

/-- All that the types declare is plain text. -/
theorem shapes_plain (name : List UInt8) (declared : shapes.Declares name) : PlainBytes name := by
  cases declared with
  | field found member =>
    rw [shapes_resolve] at found
    split_ifs at found <;> cases found
    obtain rfl := List.mem_singleton.mp member
    decide
  | case found member =>
    rw [shapes_resolve] at found
    split_ifs at found <;> cases found
    rcases List.mem_pair.mp member with rfl | rfl <;> decide

theorem disc_converts : jsonToScval .reference shapes discArgument (.udt disc.name) = .ok discValue := by
  have radius : fromUtf8Lossy (utf8 "radius") = "radius" := fromUtf8Lossy_utf8 "radius"
  have symbol : Crates.reference.stringFromStr 32 "radius" = some ⟨utf8 "radius",by decide⟩ :=
    (Crates.reference_text.some_iff (by decide)).mpr rfl
  have five : jsonToScval .reference shapes (.number (.ofU32 5)) .u32 = .ok (.u32 5) := by
    simp [jsonToScval]
    decide
  rw [udt_eq rfl,shapes_names.1,shapes_resolve,if_pos rfl]
  refine (struct_named_ok_iff (by decide)).mpr ⟨_,[⟨_,_⟩],rfl,.cons ?_ .nil,by decide,rfl⟩
  refine ⟨_,_,?_,?_,rfl,five⟩
  · exact (congrArg (Entries.find · _) radius).trans rfl
  · exact (congrArg _ radius).trans symbol

theorem circle_converts : jsonToScval .reference shapes circleArgument (.udt shape.name) = .ok circleValue := by
  have symbol : Crates.reference.stringFromStr 32 "Circle" = some ⟨utf8 "Circle",by decide⟩ :=
    (Crates.reference_text.some_iff (by decide)).mpr rfl
  have union : shapes.resolve "Shape" = some (.union shape) := by
    rw [shapes_resolve,if_neg (by decide),if_pos rfl]
  have declared : shapes.unionCase "Shape" "Circle" = some circle := by
    have pointName : point.name.toUtf8StringLossy = "Point" := fromUtf8Lossy_utf8 "Point"
    have circleName : circle.name.toUtf8StringLossy = "Circle" := fromUtf8Lossy_utf8 "Circle"
    rw [unionCase_eq union,shape,List.find?_cons_of_neg (by rw [pointName]; decide)]
    exact List.find?_cons_of_pos (by rw [circleName]; rfl)
  rw [udt_eq rfl,shapes_names.2,union]
  exact union_ok_iff.mpr
    ⟨"Circle",_,circle,_,[discValue],rfl,declared,symbol,rfl,.cons disc_converts .nil,by decide,rfl⟩

theorem jsonToScval_sound_circle : Inhabits shapes (parsed .reference) (.udt shape.name) circleValue ∧
    Inhabits shapes verbatim (.udt shape.name) circleValue := by
  have lacks : circleArgument.Lacks "__xdr" := by
    simp [circleArgument,discArgument,Value.lacks_object_iff,Value.lacks_array_iff]
  obtain ⟨typed,named⟩ := jsonToScval_sound .reference shapes _ _ _ lacks circle_converts
  exact ⟨typed,named Crates.reference_text shapes_plain⟩

end Reference
end SorobanProxy
