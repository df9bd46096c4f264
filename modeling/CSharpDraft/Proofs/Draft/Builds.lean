import CSharpDraft.Draft.Build
import Mathlib.Data.List.Forall2

/-!
# What a draft builds

For each kind of draft a relation `Builds` between the draft and the declaration that it becomes, and a theorem
`build_eq_ok` : the checks of `build` pass with this declaration exactly if the relation holds. A relation lists what the
draft must satisfy and where each part of the declaration comes from; proofs about drafts that build go through it, and
not through the order of the checks.
-/

set_option autoImplicit false

namespace CSharpDraft

open List (Forall₂)

/-! ## Checks that pass -/

theorem bind_eq_ok {α β : Type} {x : Except Fault α} {f : α → Except Fault β} {b : β} :
    x >>= f = .ok b ↔ ∃ a, x = .ok a ∧ f a = .ok b := by
  cases x <;> simp [bind, Except.bind]

theorem pure_eq_ok {α : Type} {a b : α} : (pure a : Except Fault α) = .ok b ↔ a = b := by simp [pure, Except.pure]

theorem failIf_eq_ok {condition : Bool} {fault : Fault} {u : Unit} :
    failIf condition fault = .ok u ↔ condition = false := by
  cases condition <;> simp [failIf]

theorem forbid_eq_ok {condition : Bool} {v : Violation} {u : Unit} : forbid condition v = .ok u ↔ condition = false :=
  failIf_eq_ok

/-- The setting is there, it is not blank, and it is `t`. -/
def Gives (setting : Option Text) (t : Text) : Prop := setting = some t ∧ Text.isBlank t = false

theorem require_eq_ok {setting : Option Text} {fault : Fault} {t : Text} :
    require setting fault = .ok t ↔ Gives setting t := by
  unfold require Gives
  cases setting with
  | none => simp
  | some s =>
    by_cases h : Text.isBlank s = true
    · simp only [h, if_true, reduceCtorEq, Option.some.injEq, false_iff, not_and]
      rintro rfl
      simp [h]
    · simp only [h, Bool.false_eq_true, if_false, Except.ok.injEq, Option.some.injEq]
      constructor
      · rintro rfl
        exact ⟨rfl, by simpa using h⟩
      · exact fun hs => hs.1

theorem Gives.getD_eq {setting : Option Text} {t : Text} (h : Gives setting t) : setting.getD [] = t := by
  rw [h.1, Option.getD_some]

/-- Whether a setting was left out or is blank. -/
def isMissing (setting : Option Text) : Bool := setting.all Text.isBlank

theorem Gives.isMissing_eq {setting : Option Text} {t : Text} (h : Gives setting t) : isMissing setting = false := by
  rw [h.1]
  exact h.2

theorem require_eq (setting : Option Text) (fault : Fault) :
    require setting fault = if isMissing setting then .error fault else .ok (setting.getD []) := by
  cases setting <;> rfl

theorem checkEach_eq_ok {α β : Type} {f : α → Except Fault β} {as : List α} {bs : List β} :
    checkEach f as = .ok bs ↔ Forall₂ (fun a b => f a = .ok b) as bs := by
  induction as generalizing bs with
  | nil =>
    rw [checkEach, pure_eq_ok, List.forall₂_nil_left_iff]
    exact eq_comm
  | cons a as ih =>
    simp only [checkEach, bind_eq_ok, pure_eq_ok, List.forall₂_cons_left_iff, ih]
    constructor
    · rintro ⟨b, hb, bs, hbs, rfl⟩
      exact ⟨b, bs, hb, hbs, rfl⟩
    · rintro ⟨b, bs, hb, hbs, rfl⟩
      exact ⟨b, hb, bs, hbs, rfl⟩

/-- A check of each element whose results are not used passes if it passes for each of them. -/
theorem exists_forall₂_unit {α : Type} {P : α → Prop} {as : List α} :
    (∃ us : List Unit, Forall₂ (fun a _ => P a) as us) ↔ ∀ a ∈ as, P a := by
  induction as with
  | nil => simp
  | cons a as ih =>
    simp only [List.forall₂_cons_left_iff, List.mem_cons, forall_eq_or_imp, ← ih]
    constructor
    · rintro ⟨_, _, us, ha, hus, -⟩
      exact ⟨ha, us, hus⟩
    · rintro ⟨ha, us, hus⟩
      exact ⟨() :: us, (), us, ha, hus, rfl⟩

theorem forall₂_exists_left {α β : Type} {R : α → β → Prop} {as : List α} {bs : List β} (h : Forall₂ R as bs) :
    ∀ b ∈ bs, ∃ a ∈ as, R a b := by
  induction h with
  | nil => simp
  | cons hab _ ih =>
    intro c hc
    rcases List.mem_cons.mp hc with rfl | hc
    · exact ⟨_, List.mem_cons_self, hab⟩
    · obtain ⟨a, ha, hac⟩ := ih c hc
      exact ⟨a, List.mem_cons_of_mem _ ha, hac⟩

theorem map_eq_of_forall₂ {α β γ : Type} {R : α → β → Prop} {f : α → γ} {g : β → γ} (hfg : ∀ {a b}, R a b → f a = g b)
    {as : List α} {bs : List β} (h : Forall₂ R as bs) : as.map f = bs.map g := by
  have heq : Forall₂ Eq (as.map f) (bs.map g) := by
    rw [List.forall₂_map_left_iff, List.forall₂_map_right_iff]
    exact h.imp fun _ _ => hfg
  rwa [List.forall₂_eq_eq_eq] at heq

/-! ## Members -/

structure TypeParameterDraft.Builds (d : TypeParameterDraft) (t : TypeParameterDecl) : Prop where
  name : Gives d.name t.name
  constraints : t.constraints = d.constraints

theorem TypeParameterDraft.build_eq_ok {d : TypeParameterDraft} {t : TypeParameterDecl} :
    d.build = .ok t ↔ d.Builds t := by
  simp only [TypeParameterDraft.build, CSharpDraft.bind_eq_ok, require_eq_ok, pure_eq_ok]
  constructor
  · rintro ⟨name, hname, rfl⟩
    exact ⟨hname, rfl⟩
  · intro h
    refine ⟨t.name, h.name, ?_⟩
    rw [← h.constraints]

structure FieldDraft.Builds (d : Plan.Field) (f : FieldDecl) : Prop where
  name : Gives d.name f.name
  typeName : Gives d.typeName f.typeName
  access : f.access = d.access
  isReadonly : f.isReadonly = d.isReadonly
  summary : f.summary = d.summary
  typeArguments : Forall₂ TypeParameterDraft.Builds d.typeParameters f.typeArguments

theorem FieldDraft.build_eq_ok {d : Plan.Field} {f : FieldDecl} :
    FieldDraft.build d = .ok f ↔ FieldDraft.Builds d f := by
  simp only [FieldDraft.build, FieldDraft.buildWith, monadLift_self, CSharpDraft.bind_eq_ok, require_eq_ok,
    checkEach_eq_ok, TypeParameterDraft.build_eq_ok, pure_eq_ok]
  constructor
  · rintro ⟨name, hname, typeName, htype, typeArguments, harguments, rfl⟩
    exact ⟨hname, htype, rfl, rfl, rfl, harguments⟩
  · intro h
    refine ⟨f.name, h.name, f.typeName, h.typeName, f.typeArguments, h.typeArguments, ?_⟩
    rw [← h.access, ← h.isReadonly, ← h.summary]

structure PropertyDraft.Builds (inInterface : Bool) (d : Plan.Property) (p : PropertyDecl) : Prop where
  name : Gives d.name p.name
  typeName : Gives d.typeName p.typeName
  access : p.access = if inInterface then .unstated else d.access
  getter : p.getter = d.getter
  setter : p.setter = d.setter
  setterAccess : p.setterAccess = if d.setter.isSome then d.setterAccess else none
  defaultValue : p.defaultValue = d.defaultValue
  isStatic : p.isStatic = d.isStatic
  summary : p.summary = d.summary
  typeArguments : Forall₂ TypeParameterDraft.Builds d.typeParameters p.typeArguments
  autoSetter : inInterface = false → p.setter = some .auto → p.getter = some .auto
  autoDefault : p.defaultValue.isSome → isCustom p.getter = false ∧ isCustom p.setter = false
  narrower : ∀ a, p.setterAccess = some a → a.narrowerThan p.access = true

/-- The two checks of a setter of the compiler ask for a getter of the compiler. -/
theorem autoSetter_checks {getter setter : Option Accessor} {inInterface : Bool} :
    ((setter == some .auto && !inInterface && getter.isNone) = false ∧
      (setter == some .auto && !inInterface && isCustom getter) = false) ↔
    (inInterface = false → setter = some .auto → getter = some .auto) := by
  cases inInterface with
  | true => simp
  | false =>
    rcases getter with _ | _ | body
    · simp [isCustom]
    · simp [isCustom]
    · simp [isCustom]

theorem PropertyDraft.build_eq_ok {inInterface : Bool} {d : Plan.Property} {p : PropertyDecl} :
    PropertyDraft.build d inInterface = .ok p ↔ PropertyDraft.Builds inInterface d p := by
  simp only [PropertyDraft.build, PropertyDraft.buildWith, monadLift_self, CSharpDraft.bind_eq_ok, require_eq_ok,
    forbid_eq_ok, checkEach_eq_ok, TypeParameterDraft.build_eq_ok, pure_eq_ok, exists_const]
  constructor
  · rintro ⟨name, hname, typeName, htype, hnone, hcustom, hdefault, haccess, typeArguments, harguments, rfl⟩
    refine ⟨hname, htype, rfl, rfl, rfl, rfl, rfl, rfl, rfl, harguments, autoSetter_checks.mp ⟨hnone, hcustom⟩,
      fun hd => ?_, fun a ha => ?_⟩
    · simpa [show d.defaultValue.isSome = true from hd] using hdefault
    · dsimp only at ha
      split at ha
      · next hs => simpa [hs, ha] using haccess
      · cases ha
  · intro h
    have hauto := h.autoSetter
    have hdefault := h.autoDefault
    have hnarrower := h.narrower
    rw [h.getter, h.setter] at hauto hdefault
    rw [h.setterAccess, h.access] at hnarrower
    rw [h.defaultValue] at hdefault
    obtain ⟨hnone, hcustom⟩ := autoSetter_checks.mpr hauto
    refine ⟨p.name, h.name, p.typeName, h.typeName, hnone, hcustom, ?_, ?_, p.typeArguments, h.typeArguments, ?_⟩
    · cases hd : d.defaultValue with
      | none => simp
      | some v => simpa [hd] using hdefault
    · cases hs : d.setter with
      | none => simp
      | some s =>
        cases ha : d.setterAccess with
        | none => simp
        | some a => simpa [hs, ha] using hnarrower
    · rw [← h.access, ← h.getter, ← h.setter, ← h.defaultValue, ← h.isStatic, ← h.summary, h.setter, ← h.setterAccess,
        ← h.setter]

structure ConstructorDraft.Builds (owner : Text) (static : Bool) (d : ConstructorDraft) (c : ConstructorDecl) :
    Prop where
  className : c.className = owner
  access : c.access = if static then .unstated else d.access.getD .pub
  parameters : c.parameters = d.parameters
  baseCall : c.baseCall = d.baseCall
  isStatic : c.isStatic = static
  summary : c.summary = d.summary
  plain : static = true → d.access.all (· == .unstated) ∧ d.parameters = [] ∧ d.baseCall = none

/-- The checks of a static constructor ask that nothing was said about it. -/
theorem staticConstructor_checks {static : Bool} {d : ConstructorDraft} :
    ((static && d.access.any (· != .unstated)) = false ∧ (static && !d.parameters.isEmpty) = false ∧
      (static && d.baseCall.isSome) = false) ↔
    (static = true → d.access.all (· == .unstated) ∧ d.parameters = [] ∧ d.baseCall = none) := by
  cases static with
  | false => simp
  | true => cases d.access <;> simp

theorem ConstructorDraft.build_eq_ok {owner : Text} {static : Bool} {d : ConstructorDraft} {c : ConstructorDecl} :
    d.build owner static = .ok c ↔ ConstructorDraft.Builds owner static d c := by
  simp only [ConstructorDraft.build, CSharpDraft.bind_eq_ok, forbid_eq_ok, pure_eq_ok, exists_const]
  constructor
  · rintro ⟨haccess, hparameters, hcall, rfl⟩
    exact ⟨rfl, rfl, rfl, rfl, rfl, rfl, staticConstructor_checks.mp ⟨haccess, hparameters, hcall⟩⟩
  · intro h
    obtain ⟨haccess, hparameters, hcall⟩ := staticConstructor_checks.mpr h.plain
    refine ⟨haccess, hparameters, hcall, ?_⟩
    rw [← h.access, ← h.parameters, ← h.baseCall, ← h.summary, ← h.className, ← h.isStatic]

structure EnumMemberDraft.Builds (d : EnumMemberDraft) (m : EnumMemberDecl) : Prop where
  name : Gives d.name m.name
  value : m.value = d.value
  summary : m.summary = d.summary

theorem EnumMemberDraft.build_eq_ok {d : EnumMemberDraft} {m : EnumMemberDecl} : d.build = .ok m ↔ d.Builds m := by
  simp only [EnumMemberDraft.build, CSharpDraft.bind_eq_ok, require_eq_ok, pure_eq_ok]
  constructor
  · rintro ⟨name, hname, rfl⟩
    exact ⟨hname, rfl, rfl⟩
  · intro h
    refine ⟨m.name, h.name, ?_⟩
    rw [← h.value, ← h.summary]

/-! ## Types -/

structure ClassDraft.Builds (d : Plan.Class) (c : ClassDecl) : Prop where
  name : Gives d.name c.name
  access : c.access = d.access
  summary : c.summary = d.summary
  baseClass : c.baseClass = d.baseClass
  interfaces : c.interfaces = d.interfaces
  isStatic : c.isStatic = d.isStatic
  typeParameters : Forall₂ TypeParameterDraft.Builds d.typeParameters c.typeParameters
  fields : Forall₂ FieldDraft.Builds d.fields c.fields
  properties : Forall₂ (PropertyDraft.Builds false) d.properties c.properties
  constructors : Forall₂ (ConstructorDraft.Builds c.name c.isStatic) d.constructors c.constructors
  staticConstructors : c.isStatic = true → c.constructors.length ≤ 1

theorem ClassDraft.build_eq_ok {d : Plan.Class} {c : ClassDecl} :
    ClassDraft.build d = .ok c ↔ ClassDraft.Builds d c := by
  simp only [ClassDraft.build, ClassDraft.buildWith, monadLift_self, CSharpDraft.bind_eq_ok, require_eq_ok,
    forbid_eq_ok, checkEach_eq_ok, TypeParameterDraft.build_eq_ok, FieldDraft.build_eq_ok, PropertyDraft.build_eq_ok,
    ConstructorDraft.build_eq_ok, pure_eq_ok, exists_const]
  constructor
  · rintro ⟨name, hname, hcount, typeParameters, htypes, fields, hfields, properties, hproperties, constructors,
      hconstructors, rfl⟩
    refine ⟨hname, rfl, rfl, rfl, rfl, rfl, htypes, hfields, hproperties, hconstructors, fun hs => ?_⟩
    have hlen := hconstructors.length_eq
    simp only [show d.isStatic = true from hs, Bool.true_and, decide_eq_false_iff_not] at hcount
    dsimp only
    omega
  · intro h
    have hconstructors := h.constructors
    have hlen := hconstructors.length_eq
    have hcount := h.staticConstructors
    rw [h.isStatic] at hconstructors hcount
    refine ⟨c.name, h.name, ?_, c.typeParameters, h.typeParameters, c.fields, h.fields, c.properties, h.properties,
      c.constructors, hconstructors, ?_⟩
    · cases hs : d.isStatic with
      | false => simp
      | true =>
        have := hcount hs
        simp only [Bool.true_and, decide_eq_false_iff_not]
        omega
    · rw [← h.access, ← h.summary, ← h.baseClass, ← h.interfaces, ← h.isStatic]

structure StructDraft.Builds (d : Plan.Struct) (s : StructDecl) : Prop where
  name : Gives d.name s.name
  access : s.access = d.access
  summary : s.summary = d.summary
  interfaces : s.interfaces = d.interfaces
  typeParameters : Forall₂ TypeParameterDraft.Builds d.typeParameters s.typeParameters
  fields : Forall₂ FieldDraft.Builds d.fields s.fields
  properties : Forall₂ (PropertyDraft.Builds false) d.properties s.properties
  constructors : Forall₂ (ConstructorDraft.Builds s.name false) d.constructors s.constructors
  noDefault : ∀ p ∈ s.properties, p.defaultValue = none
  parameters : ∀ c ∈ s.constructors, c.parameters ≠ []

theorem StructDraft.build_eq_ok {d : Plan.Struct} {s : StructDecl} :
    StructDraft.build d = .ok s ↔ StructDraft.Builds d s := by
  have hnone (p : PropertyDecl) : p.defaultValue.isSome = false ↔ p.defaultValue = none := by simp
  have hany (cs : List ConstructorDecl) :
      cs.any (fun c => c.parameters.isEmpty) = false ↔ ∀ c ∈ cs, c.parameters ≠ [] := by
    simp
  simp only [StructDraft.build, StructDraft.buildWith, monadLift_self, CSharpDraft.bind_eq_ok, require_eq_ok,
    forbid_eq_ok, checkEach_eq_ok, TypeParameterDraft.build_eq_ok, FieldDraft.build_eq_ok, PropertyDraft.build_eq_ok,
    ConstructorDraft.build_eq_ok, pure_eq_ok, exists_const, exists_and_right, exists_forall₂_unit, hnone, hany]
  constructor
  · rintro ⟨name, hname, typeParameters, htypes, fields, hfields, properties, hproperties, hdefault, constructors,
      hconstructors, hparameters, rfl⟩
    exact ⟨hname, rfl, rfl, rfl, htypes, hfields, hproperties, hconstructors, hdefault, hparameters⟩
  · intro h
    refine ⟨s.name, h.name, s.typeParameters, h.typeParameters, s.fields, h.fields, s.properties, h.properties,
      h.noDefault, s.constructors, h.constructors, h.parameters, ?_⟩
    rw [← h.access, ← h.summary, ← h.interfaces]

/-- A property as an interface may have it. -/
structure PropertyDecl.Abstract (p : PropertyDecl) : Prop where
  noDefault : p.defaultValue = none
  accessor : p.getter.isSome = true ∨ p.setter.isSome = true
  autoGetter : isCustom p.getter = false
  autoSetter : isCustom p.setter = false

theorem checkInterfaceProperty_eq_ok {name : Text} {p : PropertyDecl} {u : Unit} :
    checkInterfaceProperty name p = .ok u ↔ p.Abstract := by
  simp only [checkInterfaceProperty, CSharpDraft.bind_eq_ok, forbid_eq_ok, exists_const]
  constructor
  · rintro ⟨hdefault, haccessor, hgetter, hsetter⟩
    refine ⟨by simpa using hdefault, ?_, hgetter, hsetter⟩
    cases hg : p.getter with
    | none => simpa [hg] using haccessor
    | some g => simp
  · intro h
    refine ⟨by simp [h.noDefault], ?_, h.autoGetter, h.autoSetter⟩
    rcases h.accessor with ha | ha
    · simp [Option.isNone_eq_false_iff.mpr ha]
    · simp [Option.isNone_eq_false_iff.mpr ha]

structure InterfaceDraft.Builds (d : Plan.Interface) (i : InterfaceDecl) : Prop where
  name : Gives d.name i.name
  access : i.access = d.access
  summary : i.summary = d.summary
  interfaces : i.interfaces = d.interfaces
  typeParameters : Forall₂ TypeParameterDraft.Builds d.typeParameters i.typeParameters
  properties : Forall₂ (PropertyDraft.Builds true) d.properties i.properties
  abstract : ∀ p ∈ i.properties, p.Abstract

theorem InterfaceDraft.build_eq_ok {d : Plan.Interface} {i : InterfaceDecl} :
    InterfaceDraft.build d = .ok i ↔ InterfaceDraft.Builds d i := by
  simp only [InterfaceDraft.build, InterfaceDraft.buildWith, monadLift_self, CSharpDraft.bind_eq_ok, require_eq_ok,
    checkEach_eq_ok, TypeParameterDraft.build_eq_ok, PropertyDraft.build_eq_ok, checkInterfaceProperty_eq_ok,
    pure_eq_ok, exists_and_right, exists_forall₂_unit]
  constructor
  · rintro ⟨name, hname, typeParameters, htypes, properties, hproperties, habstract, rfl⟩
    exact ⟨hname, rfl, rfl, rfl, htypes, hproperties, habstract⟩
  · intro h
    refine ⟨i.name, h.name, i.typeParameters, h.typeParameters, i.properties, h.properties, h.abstract, ?_⟩
    rw [← h.access, ← h.summary, ← h.interfaces]

/-! ## Enumerations -/

theorem firstRepeated?_eq_none {ns : List Text} : firstRepeated? ns = none ↔ ns.Nodup := by
  induction ns with
  | nil => simp [firstRepeated?]
  | cons n ns ih =>
    rw [firstRepeated?, List.nodup_cons, ← ih]
    by_cases h : n ∈ ns
    · simp [h]
    · simp [h]

/-- The members of an enumeration with the values of bits, where these are due. -/
def withFlags (isFlags : Bool) (members : List EnumMemberDecl) : List EnumMemberDecl :=
  if isFlags && members.all (fun m => m.value.isNone) then assignFlags members else members

structure EnumDraft.Builds (d : Plan.Enum) (e : EnumDecl) : Prop where
  name : Gives d.name e.name
  access : e.access = d.access
  summary : e.summary = d.summary
  isFlags : e.isFlags = d.isFlags
  members : ∃ ms, Forall₂ EnumMemberDraft.Builds d.members ms ∧ (ms.map (·.name)).Nodup ∧
    e.members = withFlags d.isFlags ms

theorem checkDistinct_eq_ok {enumName : Text} {members : List EnumMemberDecl} {u : Unit} :
    checkDistinct enumName members = .ok u ↔ (members.map (·.name)).Nodup := by
  rw [checkDistinct, ← firstRepeated?_eq_none]
  cases firstRepeated? (members.map (·.name)) <;> simp

theorem EnumDraft.build_eq_ok {d : Plan.Enum} {e : EnumDecl} : EnumDraft.build d = .ok e ↔ EnumDraft.Builds d e := by
  simp only [EnumDraft.build, EnumDraft.buildWith, monadLift_self, CSharpDraft.bind_eq_ok, require_eq_ok,
    checkEach_eq_ok, EnumMemberDraft.build_eq_ok, checkDistinct_eq_ok, exists_const, pure_eq_ok]
  constructor
  · rintro ⟨name, hname, ms, hms, hnodup, rfl⟩
    exact ⟨hname, rfl, rfl, rfl, ms, hms, hnodup, rfl⟩
  · intro h
    obtain ⟨ms, hms, hnodup, hmembers⟩ := h.members
    refine ⟨e.name, h.name, ms, hms, hnodup, ?_⟩
    rw [← h.access, ← h.summary, h.isFlags.symm]
    unfold withFlags at hmembers
    rw [← h.isFlags] at hmembers
    rw [← hmembers]

/-! ## Namespaces -/

theorem checkNamespaceAccess_eq_ok {kind : Kind} {name : Text} {access : Access} {u : Unit} :
    checkNamespaceAccess kind name access = .ok u ↔ access ∈ namespaceAccesses := by
  simp [checkNamespaceAccess, forbid_eq_ok]

structure NamespaceDraft.Builds (d : Plan.Namespace) (n : NamespaceDecl) : Prop where
  name : Gives d.name n.name
  usings : n.usings = d.usings
  classes : Forall₂ ClassDraft.Builds d.classes n.classes
  structs : Forall₂ StructDraft.Builds d.structs n.structs
  interfaces : Forall₂ InterfaceDraft.Builds d.interfaces n.interfaces
  enums : Forall₂ EnumDraft.Builds d.enums n.enums
  classAccess : ∀ c ∈ n.classes, c.access ∈ namespaceAccesses
  structAccess : ∀ s ∈ n.structs, s.access ∈ namespaceAccesses
  interfaceAccess : ∀ i ∈ n.interfaces, i.access ∈ namespaceAccesses
  enumAccess : ∀ e ∈ n.enums, e.access ∈ namespaceAccesses

theorem NamespaceDraft.build_eq_ok {d : Plan.Namespace} {n : NamespaceDecl} :
    NamespaceDraft.build d = .ok n ↔ NamespaceDraft.Builds d n := by
  simp only [NamespaceDraft.build, NamespaceDraft.buildWith, monadLift_self, CSharpDraft.bind_eq_ok, require_eq_ok,
    checkEach_eq_ok, ClassDraft.build_eq_ok, StructDraft.build_eq_ok, InterfaceDraft.build_eq_ok,
    EnumDraft.build_eq_ok, checkNamespaceAccess_eq_ok, pure_eq_ok, exists_and_right, exists_forall₂_unit]
  constructor
  · rintro ⟨name, hname, classes, hclasses, structs, hstructs, interfaces, hinterfaces, enums, henums, hca, hsa, hia,
      hea, rfl⟩
    exact ⟨hname, rfl, hclasses, hstructs, hinterfaces, henums, hca, hsa, hia, hea⟩
  · intro h
    refine ⟨n.name, h.name, n.classes, h.classes, n.structs, h.structs, n.interfaces, h.interfaces, n.enums, h.enums,
      h.classAccess, h.structAccess, h.interfaceAccess, h.enumAccess, ?_⟩
    rw [← h.usings]

end CSharpDraft
