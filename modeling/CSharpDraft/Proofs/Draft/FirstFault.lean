import CSharpDraft.Proofs.Draft.Plans
import Mathlib.Data.List.Count
import Mathlib.Data.List.Find

/-!
# The fault of a build

A build fails with the first check that does not pass, in one fixed order. The order is written down here as a list of
checks for each kind of draft, in terms of the settings of the draft alone: a list says what is looked at after what, and
nothing about the declarations that come to be in between.

* `Check`, `firstFault` : a condition under which a fault is reported, and the first fault of a list of checks;
* `Reports x cs` : the computation `x` fails with the first fault of `cs`, and succeeds if there is none. A sequence of
  computations reports the lists one after the other (`Reports.bind`);
* `TypeParameterDraft.checks`, …, `NamespaceDraft.checks` : the checks in their order, with `reports_build` for each;
* `build_namespace_eq_error_iff` : when the build of a namespace fails, and how.
-/

set_option autoImplicit false

namespace CSharpDraft

open List (Forall₂)

/-! ## Checks in a row -/

/-- A fault, and whether there is reason to report it. -/
structure Check where
  fails : Bool
  fault : Fault
  deriving DecidableEq, Repr

/-- The fault of the first check that fails. -/
def firstFault (cs : List Check) : Option Fault := (cs.find? (·.fails)).map (·.fault)

theorem firstFault_cons_of_fails {c : Check} (h : c.fails = true) (cs : List Check) :
    firstFault (c :: cs) = some c.fault := by
  rw [firstFault, List.find?_cons_of_pos h, Option.map_some]

theorem firstFault_cons_of_passes {c : Check} (h : c.fails = false) (cs : List Check) :
    firstFault (c :: cs) = firstFault cs := by
  rw [firstFault, List.find?_cons_of_neg (by simp [h]), firstFault]

theorem firstFault_append (cs ds : List Check) : firstFault (cs ++ ds) = (firstFault cs).or (firstFault ds) := by
  rw [firstFault, List.find?_append, Option.map_or, firstFault, firstFault]

theorem exists_of_firstFault {cs : List Check} {f : Fault} (h : firstFault cs = some f) : ∃ c ∈ cs, c.fault = f := by
  obtain ⟨c, hc, hf⟩ := Option.map_eq_some_iff.mp h
  exact ⟨c, List.mem_of_find?_eq_some hc, hf⟩

/-- A computation that fails with the first fault of the checks, and succeeds if there is none. -/
def Reports {α : Type} (x : Except Fault α) (cs : List Check) : Prop :=
  match x with
  | .ok _ => firstFault cs = none
  | .error f => firstFault cs = some f

namespace Reports

variable {α β : Type} {x : Except Fault α} {k : α → Except Fault β} {cs ds : List Check}

theorem ok_iff (h : Reports x cs) : (∃ a, x = .ok a) ↔ firstFault cs = none := by
  cases x with
  | ok a =>
    have hnone : firstFault cs = none := h
    simp [hnone]
  | error f =>
    have hsome : firstFault cs = some f := h
    simp [hsome]

theorem error_iff (h : Reports x cs) (f : Fault) : x = .error f ↔ firstFault cs = some f := by
  cases x with
  | ok a =>
    have hnone : firstFault cs = none := h
    simp [hnone]
  | error g =>
    have hsome : firstFault cs = some g := h
    simp [hsome]

theorem pure (a : α) : Reports (Pure.pure a) [] := rfl

theorem bind (h : Reports x cs) (hk : ∀ a, x = .ok a → Reports (k a) ds) : Reports (x >>= k) (cs ++ ds) := by
  cases x with
  | error f =>
    have hsome : firstFault cs = some f := h
    change firstFault (cs ++ ds) = some f
    rw [firstFault_append, hsome, Option.some_or]
  | ok a =>
    have hnone : firstFault cs = none := h
    change Reports (k a) (cs ++ ds)
    unfold Reports
    rw [firstFault_append, hnone, Option.none_or]
    exact hk a rfl

theorem bind_pure (h : Reports x cs) (g : α → β) : Reports (x >>= fun a => Pure.pure (g a)) cs := by
  rw [← List.append_nil cs]
  exact h.bind (fun a _ => Reports.pure (g a))

theorem failIf (condition : Bool) (fault : Fault) : Reports (failIf condition fault) [⟨condition, fault⟩] := by
  cases condition <;> rfl

theorem forbid_bind {condition : Bool} {v : Violation} {l : Unit → Except Fault β} (h : Reports (l ()) cs) :
    Reports (forbid condition v >>= l) (⟨condition, .violation v⟩ :: cs) :=
  (Reports.failIf condition (.violation v)).bind (fun _ _ => h)

theorem require_bind {setting : Option Text} {fault : Fault} {l : Text → Except Fault β}
    (h : Reports (l (setting.getD [])) cs) :
    Reports (require setting fault >>= l) (⟨isMissing setting, fault⟩ :: cs) := by
  rw [require_eq]
  cases isMissing setting with
  | true => exact firstFault_cons_of_fails rfl cs
  | false =>
    change Reports (l (setting.getD [])) _
    unfold Reports
    rw [firstFault_cons_of_passes rfl]
    exact h

end Reports

/-! ## Checks of each element -/

/-- A check of each element reports the lists of the elements one after the other. The elements that are checked may have
been made from others, in whose terms the lists are given. -/
theorem Reports.checkEach {α β γ : Type} {f : β → Except Fault γ} {g : α → List Check} {as : List α} {bs : List β}
    (h : Forall₂ (fun a b => Reports (f b) (g a)) as bs) : Reports (checkEach f bs) (as.flatMap g) := by
  induction h with
  | nil => rfl
  | cons hab _ ih =>
    rw [List.flatMap_cons, CSharpDraft.checkEach]
    exact hab.bind (fun c _ => ih.bind_pure (c :: ·))

theorem Reports.checkEach_self {α β : Type} {f : α → Except Fault β} {g : α → List Check} (as : List α)
    (h : ∀ a, Reports (f a) (g a)) : Reports (CSharpDraft.checkEach f as) (as.flatMap g) :=
  Reports.checkEach (List.forall₂_same.mpr (fun a _ => h a))

theorem Reports.checkEach_map {α β γ : Type} {f : β → Except Fault γ} {g : α → Check} {as : List α} {bs : List β}
    (h : Forall₂ (fun a b => Reports (f b) [g a]) as bs) : Reports (CSharpDraft.checkEach f bs) (as.map g) := by
  rw [List.map_eq_flatMap]
  exact Reports.checkEach h

/-! ## Members -/

def TypeParameterDraft.checks (d : TypeParameterDraft) : List Check := [⟨isMissing d.name, .missingName .typeParameter⟩]

theorem TypeParameterDraft.reports_build (d : TypeParameterDraft) : Reports d.build d.checks :=
  Reports.require_bind (Reports.pure _)

def FieldDraft.checks (d : Plan.Field) : List Check :=
  ⟨isMissing d.name, .missingName .fieldMember⟩ ::
  ⟨isMissing d.typeName, .missingType .fieldMember⟩ ::
  d.typeParameters.flatMap TypeParameterDraft.checks

theorem FieldDraft.reports_build (d : Plan.Field) : Reports (FieldDraft.build d) (FieldDraft.checks d) := by
  refine Reports.require_bind (Reports.require_bind ?_)
  exact (Reports.checkEach_self _ TypeParameterDraft.reports_build).bind_pure _

/-- The checks of a property. Those of a setter of the compiler are left out inside an interface, where the modifier of a
setter is compared with none. -/
def PropertyDraft.checks (inInterface : Bool) (d : Plan.Property) : List Check :=
  let autoSetter := d.setter == some .auto && !inInterface
  let access := if inInterface then .unstated else d.access
  ⟨isMissing d.name, .missingName .propertyMember⟩ ::
  ⟨isMissing d.typeName, .missingType .propertyMember⟩ ::
  ⟨autoSetter && d.getter.isNone, .violation .setterWithoutGetter⟩ ::
  ⟨autoSetter && isCustom d.getter, .violation .setterBesideCustomGetter⟩ ::
  ⟨d.defaultValue.isSome && (isCustom d.getter || isCustom d.setter), .violation .defaultBesideCustomAccessor⟩ ::
  ⟨d.setter.isSome && d.setterAccess.any (fun a => !a.narrowerThan access),
    .violation (.setterAccess (d.name.getD []))⟩ ::
  d.typeParameters.flatMap TypeParameterDraft.checks

theorem PropertyDraft.reports_build (inInterface : Bool) (d : Plan.Property) :
    Reports (PropertyDraft.build d inInterface) (PropertyDraft.checks inInterface d) := by
  refine Reports.require_bind (Reports.require_bind ?_)
  refine Reports.forbid_bind (Reports.forbid_bind (Reports.forbid_bind (Reports.forbid_bind ?_)))
  exact (Reports.checkEach_self _ TypeParameterDraft.reports_build).bind_pure _

/-- The checks of a static constructor; a constructor that is not static has none. -/
def ConstructorDraft.checks (className : Text) (d : ConstructorDraft) : List Check := [
  ⟨d.access.any (· != .unstated), .violation (.staticConstructorAccess className)⟩,
  ⟨!d.parameters.isEmpty, .violation (.staticConstructorParameters className)⟩,
  ⟨d.baseCall.isSome, .violation (.staticConstructorBaseCall className)⟩]

theorem ConstructorDraft.reports_build (className : Text) (d : ConstructorDraft) :
    Reports (d.build className true) (d.checks className) :=
  Reports.forbid_bind (Reports.forbid_bind (Reports.forbid_bind (Reports.pure _)))

theorem ConstructorDraft.reports_build_instance (className : Text) (d : ConstructorDraft) :
    Reports (d.build className false) [] :=
  rfl

theorem reports_build_constructors (className : Text) (isStatic : Bool) (ds : List ConstructorDraft) :
    Reports (checkEach (fun c => c.build className isStatic) ds)
      (if isStatic then ds.flatMap (ConstructorDraft.checks className) else []) := by
  cases isStatic with
  | true => exact Reports.checkEach_self ds (ConstructorDraft.reports_build className)
  | false =>
    have h := Reports.checkEach_self ds (ConstructorDraft.reports_build_instance className)
    rw [List.flatMap_eq_nil_iff.mpr (fun _ _ => rfl)] at h
    exact h

def EnumMemberDraft.checks (d : EnumMemberDraft) : List Check := [⟨isMissing d.name, .missingName .enumMember⟩]

theorem EnumMemberDraft.reports_build (d : EnumMemberDraft) : Reports d.build d.checks :=
  Reports.require_bind (Reports.pure _)

/-! ## Classes, structures and interfaces -/

def ClassDraft.checks (d : Plan.Class) : List Check :=
  let name := d.name.getD []
  ⟨isMissing d.name, .missingName .classType⟩ ::
  ⟨d.isStatic && 1 < d.constructors.length, .violation (.staticConstructors name d.constructors.length)⟩ ::
  (d.typeParameters.flatMap TypeParameterDraft.checks ++
  (d.fields.flatMap FieldDraft.checks ++
  (d.properties.flatMap (PropertyDraft.checks false) ++
  if d.isStatic then d.constructors.flatMap (ConstructorDraft.checks name) else [])))

theorem ClassDraft.reports_build (d : Plan.Class) : Reports (ClassDraft.build d) (ClassDraft.checks d) := by
  refine Reports.require_bind (Reports.forbid_bind ?_)
  refine (Reports.checkEach_self _ TypeParameterDraft.reports_build).bind (fun _ _ => ?_)
  refine (Reports.checkEach_self _ FieldDraft.reports_build).bind (fun _ _ => ?_)
  refine (Reports.checkEach_self _ (PropertyDraft.reports_build false)).bind (fun _ _ => ?_)
  exact (reports_build_constructors _ _ _).bind_pure _

/-- The checks of a structure. All properties are built before the first is asked for an initial value. -/
def StructDraft.checks (d : Plan.Struct) : List Check :=
  let name := d.name.getD []
  ⟨isMissing d.name, .missingName .structType⟩ ::
  (d.typeParameters.flatMap TypeParameterDraft.checks ++
  (d.fields.flatMap FieldDraft.checks ++
  (d.properties.flatMap (PropertyDraft.checks false) ++
  (d.properties.map (fun p => ⟨p.defaultValue.isSome, .violation (.structDefault name (p.name.getD []))⟩) ++
  [⟨d.constructors.any (fun c => c.parameters.isEmpty), .violation (.structParameterless name)⟩]))))

theorem PropertyDraft.builds_of_checkEach {inInterface : Bool} {ds : List Plan.Property} {ps : List PropertyDecl}
    (h : checkEach (fun p => PropertyDraft.build p inInterface) ds = .ok ps) :
    Forall₂ (PropertyDraft.Builds inInterface) ds ps := by
  simpa only [checkEach_eq_ok, PropertyDraft.build_eq_ok] using h

theorem any_parameterless_of_builds {owner : Text} {static : Bool} {ds : List ConstructorDraft}
    {cs : List ConstructorDecl} (h : Forall₂ (ConstructorDraft.Builds owner static) ds cs) :
    cs.any (fun c => c.parameters.isEmpty) = ds.any (fun d => d.parameters.isEmpty) := by
  induction h with
  | nil => rfl
  | cons hab _ ih => rw [List.any_cons, List.any_cons, hab.parameters, ih]

theorem StructDraft.reports_build (d : Plan.Struct) : Reports (StructDraft.build d) (StructDraft.checks d) := by
  refine Reports.require_bind ?_
  refine (Reports.checkEach_self _ TypeParameterDraft.reports_build).bind (fun _ _ => ?_)
  refine (Reports.checkEach_self _ FieldDraft.reports_build).bind (fun _ _ => ?_)
  refine (Reports.checkEach_self _ (PropertyDraft.reports_build false)).bind (fun ps hps => ?_)
  refine (Reports.checkEach_map ?_).bind (fun _ _ => ?_)
  · refine (PropertyDraft.builds_of_checkEach hps).imp (fun p q hpq => ?_)
    rw [← hpq.defaultValue, hpq.name.getD_eq]
    exact Reports.failIf _ _
  · have hconstructors := reports_build_constructors (d.name.getD []) false d.constructors
    show Reports _ ([] ++ [_])
    refine hconstructors.bind (fun cs hcs => ?_)
    simp only [checkEach_eq_ok, ConstructorDraft.build_eq_ok] at hcs
    rw [← any_parameterless_of_builds hcs]
    exact (Reports.failIf _ _).bind_pure _

/-- What a property of an interface is asked once all properties of the interface are built. -/
def PropertyDraft.abstractChecks (interfaceName : Text) (d : Plan.Property) : List Check :=
  let name := d.name.getD []
  [⟨d.defaultValue.isSome, .violation (.interfaceDefault interfaceName name)⟩,
   ⟨d.getter.isNone && d.setter.isNone, .violation (.interfaceNoAccessor name)⟩,
   ⟨isCustom d.getter, .violation (.interfaceCustomGetter name)⟩,
   ⟨isCustom d.setter, .violation (.interfaceCustomSetter name)⟩]

theorem PropertyDraft.Builds.reports_check {d : Plan.Property} {p : PropertyDecl} (h : PropertyDraft.Builds true d p)
    (interfaceName : Text) :
    Reports (checkInterfaceProperty interfaceName p) (PropertyDraft.abstractChecks interfaceName d) := by
  unfold PropertyDraft.abstractChecks
  rw [← h.defaultValue, ← h.getter, ← h.setter, h.name.getD_eq]
  exact Reports.forbid_bind (Reports.forbid_bind (Reports.forbid_bind (Reports.failIf _ _)))

def InterfaceDraft.checks (d : Plan.Interface) : List Check :=
  ⟨isMissing d.name, .missingName .interfaceType⟩ ::
  (d.typeParameters.flatMap TypeParameterDraft.checks ++
  (d.properties.flatMap (PropertyDraft.checks true) ++
  d.properties.flatMap (PropertyDraft.abstractChecks (d.name.getD []))))

theorem InterfaceDraft.reports_build (d : Plan.Interface) :
    Reports (InterfaceDraft.build d) (InterfaceDraft.checks d) := by
  refine Reports.require_bind ?_
  refine (Reports.checkEach_self _ TypeParameterDraft.reports_build).bind (fun _ _ => ?_)
  refine (Reports.checkEach_self _ (PropertyDraft.reports_build true)).bind (fun ps hps => ?_)
  refine (Reports.checkEach ?_).bind_pure _
  exact (PropertyDraft.builds_of_checkEach hps).imp (fun p q hpq => hpq.reports_check _)

/-! ## Enumerations -/

/-- Each name is compared with all names of the enumeration. -/
def duplicateChecks (enumName : Text) (names : List (Option Text)) : List Check :=
  names.map (fun n => ⟨1 < names.count n, .violation (.duplicateMember enumName (n.getD []))⟩)

/-- The checks of an enumeration. All members are built before the first name is compared with the others. -/
def EnumDraft.checks (d : Plan.Enum) : List Check :=
  ⟨isMissing d.name, .missingName .enumType⟩ ::
  (d.members.flatMap EnumMemberDraft.checks ++ duplicateChecks (d.name.getD []) (d.members.map (·.name)))

theorem firstRepeated?_eq_find? (ns : List Text) : firstRepeated? ns = ns.find? (fun n => 1 < ns.count n) := by
  induction ns with
  | nil => rfl
  | cons n ns ih =>
    rw [firstRepeated?]
    by_cases h : n ∈ ns
    · have hcount : 1 < (n :: ns).count n := by
        have := List.count_pos_iff.mpr h
        rw [List.count_cons_self]
        omega
      rw [if_pos (by simpa using h), List.find?_cons_of_pos (by simpa using hcount)]
    · have hcount : ¬ 1 < (n :: ns).count n := by
        rw [List.count_cons_self, List.count_eq_zero_of_not_mem h]
        omega
      rw [if_neg (by simpa using h), List.find?_cons_of_neg (by simpa using hcount), ih]
      refine List.find?_congr (fun m hm => ?_)
      have hne : n ≠ m := by
        rintro rfl
        exact h hm
      rw [List.count_cons_of_ne hne]

theorem map_name_of_builds {ds : List EnumMemberDraft} {ms : List EnumMemberDecl}
    (h : Forall₂ EnumMemberDraft.Builds ds ms) : ds.map (·.name) = (ms.map (·.name)).map some := by
  rw [List.map_map]
  exact map_eq_of_forall₂ (fun hb => hb.name.1) h

/-- The first fault of the comparisons is about the first name that occurs again. -/
theorem firstFault_duplicateChecks (enumName : Text) (ns : List Text) :
    firstFault (duplicateChecks enumName (ns.map some)) =
      (firstRepeated? ns).map (fun n => .violation (.duplicateMember enumName n)) := by
  have hcount (n : Text) : (ns.map some).count (some n) = ns.count n :=
    List.count_map_of_injective ns some (fun _ _ => Option.some.inj) n
  rw [duplicateChecks, List.map_map, firstFault, List.find?_map, Option.map_map, firstRepeated?_eq_find?]
  simp only [Function.comp_def, hcount, Option.getD_some]

theorem EnumDraft.reports_build (d : Plan.Enum) : Reports (EnumDraft.build d) (EnumDraft.checks d) := by
  refine Reports.require_bind ?_
  refine (Reports.checkEach_self _ EnumMemberDraft.reports_build).bind (fun ms hms => ?_)
  simp only [checkEach_eq_ok, EnumMemberDraft.build_eq_ok] at hms
  rw [map_name_of_builds hms]
  refine Reports.bind_pure (x := checkDistinct (d.name.getD []) ms) ?_ _
  unfold Reports
  rw [firstFault_duplicateChecks, checkDistinct]
  cases firstRepeated? (ms.map (·.name)) with
  | none => rfl
  | some n => rfl

/-! ## Namespaces -/

/-- The check of the access modifier of a type in a namespace. -/
def accessCheck (kind : Kind) (name : Option Text) (access : Access) : Check :=
  ⟨!namespaceAccesses.contains access, .violation (.namespaceAccess kind (name.getD []) access)⟩

/-- The checks of a namespace. All types are built before the access modifier of the first is looked at. -/
def NamespaceDraft.checks (d : Plan.Namespace) : List Check :=
  ⟨isMissing d.name, .missingName .namespaceFile⟩ ::
  (d.classes.flatMap ClassDraft.checks ++
  (d.structs.flatMap StructDraft.checks ++
  (d.interfaces.flatMap InterfaceDraft.checks ++
  (d.enums.flatMap EnumDraft.checks ++
  (d.classes.map (fun c => accessCheck .classType c.name c.access) ++
  (d.structs.map (fun s => accessCheck .structType s.name s.access) ++
  (d.interfaces.map (fun i => accessCheck .interfaceType i.name i.access) ++
  d.enums.map (fun e => accessCheck .enumType e.name e.access))))))))

theorem reports_checkNamespaceAccess {kind : Kind} {setting : Option Text} {name : Text} (h : Gives setting name)
    (access : Access) : Reports (checkNamespaceAccess kind name access) [accessCheck kind setting access] := by
  unfold accessCheck
  rw [h.getD_eq]
  exact Reports.failIf _ _

theorem NamespaceDraft.reports_build (d : Plan.Namespace) :
    Reports (NamespaceDraft.build d) (NamespaceDraft.checks d) := by
  refine Reports.require_bind ?_
  refine (Reports.checkEach_self _ ClassDraft.reports_build).bind (fun cs hcs => ?_)
  refine (Reports.checkEach_self _ StructDraft.reports_build).bind (fun ss hss => ?_)
  refine (Reports.checkEach_self _ InterfaceDraft.reports_build).bind (fun is his => ?_)
  refine (Reports.checkEach_self _ EnumDraft.reports_build).bind (fun es hes => ?_)
  simp only [checkEach_eq_ok, ClassDraft.build_eq_ok, StructDraft.build_eq_ok, InterfaceDraft.build_eq_ok,
    EnumDraft.build_eq_ok] at hcs hss his hes
  refine (Reports.checkEach_map (hcs.imp fun a b hab => ?_)).bind (fun _ _ => ?_)
  · rw [hab.access]
    exact reports_checkNamespaceAccess hab.name a.access
  refine (Reports.checkEach_map (hss.imp fun a b hab => ?_)).bind (fun _ _ => ?_)
  · rw [hab.access]
    exact reports_checkNamespaceAccess hab.name a.access
  refine (Reports.checkEach_map (his.imp fun a b hab => ?_)).bind (fun _ _ => ?_)
  · rw [hab.access]
    exact reports_checkNamespaceAccess hab.name a.access
  refine (Reports.checkEach_map (hes.imp fun a b hab => ?_)).bind_pure _
  · rw [hab.access]
    exact reports_checkNamespaceAccess hab.name a.access

/-- A namespace builds exactly if no check fails, and otherwise the fault is that of the first check that fails. -/
theorem build_namespace_eq_error_iff {w : Workspace} {r : Ref} {d : Plan.Namespace} (h : w.namespace? r = some d)
    (purpose : Workspace.Purpose) :
    ((∃ n, w.build r purpose = .ok (.ofNamespace n)) ↔ firstFault (NamespaceDraft.checks d) = none) ∧
      ∀ f, w.build r purpose = .error f ↔ firstFault (NamespaceDraft.checks d) = some f := by
  have hreports := NamespaceDraft.reports_build d
  rw [Workspace.build_of_namespace? h, ← hreports.ok_iff]
  simp only [← hreports.error_iff]
  cases NamespaceDraft.build d with
  | ok n => simp [Except.map]
  | error g => simp [Except.map]

/-- A namespace with something wrong in each of its types. The protected class comes first, but its modifier is looked at
last; of the structure, the property without a type is reported before the initial value of the other one. -/
def brokenWorkspace : Workspace where
  entries := [
    .propertyMember { name := some "Size".toList, typeName := some "int".toList, defaultValue := some "1".toList },
    .propertyMember { name := some "Name".toList },
    .classType { name := some "Hidden".toList, access := .prot },
    .structType { name := some "Item".toList, properties := [⟨0⟩, ⟨1⟩] },
    .interfaceType { properties := [⟨1⟩] },
    .namespaceFile { name := some "Shop".toList, classes := [⟨2⟩], structs := [⟨3⟩], interfaces := [⟨4⟩] }]

theorem build_namespace_eq_error_iff_broken :
    ∃ d, brokenWorkspace.namespace? ⟨5⟩ = some d ∧
      ((NamespaceDraft.checks d).filter (·.fails)).map (·.fault) = [
        .missingType .propertyMember, .violation (.structDefault "Item".toList "Size".toList),
        .missingName .interfaceType, .missingType .propertyMember,
        .violation (.namespaceAccess .classType "Hidden".toList .prot)] ∧
      brokenWorkspace.build ⟨5⟩ {} = .error (.missingType .propertyMember) := by
  obtain ⟨d, hd⟩ : ∃ d, brokenWorkspace.namespace? ⟨5⟩ = some d := ⟨_, rfl⟩
  refine ⟨d, hd, ?_, ?_⟩
  · cases hd
    decide
  · rw [(build_namespace_eq_error_iff hd {}).2]
    cases hd
    decide

end CSharpDraft
