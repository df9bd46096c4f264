import CSharpDraft.Fragment.Grammar
import CSharpDraft.Proofs.Draft.Checked
import CSharpDraft.Proofs.Draft.FlagValues

/-!
# Built namespaces are legal

What C# and the calls ask of a declaration, for each kind as a structure `Legal`, and the theorem that every namespace
built after any script is legal with everything in it. Of the rules, some are kept by the calls (`Workspace.Checked`) and
some are looked at by the build (`NamespaceDraft.Builds`); a draft may be part of several types, and the rules about its
type are those of the type that it is built for.

* `TypeParameterDecl.Legal`, …, `NamespaceDecl.Legal` : the rules;
* `NamespaceDraft.Builds.legal` : a checked plan builds a legal namespace;
* `legal_of_build_namespace` : whatever a script did before, a namespace that builds is legal.
-/

set_option autoImplicit false

namespace CSharpDraft

/-! ## Members -/

structure TypeParameterDecl.Legal (t : TypeParameterDecl) : Prop where
  name : Text.isBlank t.name = false
  constraints : ∀ c ∈ t.constraints, Text.isBlank c = false

structure FieldDecl.Legal (f : FieldDecl) : Prop where
  name : Text.isBlank f.name = false
  typeName : Text.isBlank f.typeName = false
  typeArguments : ∀ t ∈ f.typeArguments, t.Legal

/-- What holds of every property, inside an interface or not. -/
structure PropertyDecl.Legal (p : PropertyDecl) : Prop where
  name : Text.isBlank p.name = false
  typeName : Text.isBlank p.typeName = false
  getter : BodyChecked p.getter
  setter : BodyChecked p.setter
  defaultValue : ∀ v ∈ p.defaultValue, Text.isBlank v = false
  /-- A property with an initial value has no accessor with a body. -/
  autoDefault : p.defaultValue.isSome = true → isCustom p.getter = false ∧ isCustom p.setter = false
  /-- An access modifier for the setter stands only at a setter, and is narrower than that of the property. -/
  setterAccess : ∀ a ∈ p.setterAccess, p.setter.isSome = true ∧ a.narrowerThan p.access = true
  typeArguments : ∀ t ∈ p.typeArguments, t.Legal

/-- Outside an interface a setter of the compiler goes with a getter of the compiler. -/
structure PropertyDecl.LegalInType (p : PropertyDecl) : Prop extends p.Legal where
  autoSetter : p.setter = some .auto → p.getter = some .auto

/-- Inside an interface a property has accessors of the compiler only, and nothing else is said about it. -/
structure PropertyDecl.LegalInInterface (p : PropertyDecl) : Prop extends p.Legal, p.Abstract where
  access : p.access = .unstated
  noSetterAccess : p.setterAccess = none

/-- A constructor of the type `owner`, which is a static class or not. -/
structure ConstructorDecl.Legal (owner : Text) (static : Bool) (c : ConstructorDecl) : Prop where
  className : c.className = owner
  isStatic : c.isStatic = static
  plain : c.isStatic = true → c.parameters = [] ∧ c.baseCall = none ∧ c.access = .unstated
  parameters : ∀ p ∈ c.parameters, p.Legal
  baseCall : ∀ as ∈ c.baseCall, ∀ a ∈ as, Text.isBlank a = false

/-! ## Types and namespaces -/

structure ClassDecl.Legal (c : ClassDecl) : Prop where
  name : Text.isBlank c.name = false
  baseClass : ∀ b ∈ c.baseClass, Text.isBlank b = false
  interfaces : ∀ i ∈ c.interfaces, Text.isBlank i = false
  typeParameters : ∀ t ∈ c.typeParameters, t.Legal
  fields : ∀ f ∈ c.fields, f.Legal
  properties : ∀ p ∈ c.properties, p.LegalInType
  constructors : ∀ k ∈ c.constructors, k.Legal c.name c.isStatic
  staticConstructors : c.isStatic = true → c.constructors.length ≤ 1

structure StructDecl.Legal (s : StructDecl) : Prop where
  name : Text.isBlank s.name = false
  interfaces : ∀ i ∈ s.interfaces, Text.isBlank i = false
  typeParameters : ∀ t ∈ s.typeParameters, t.Legal
  fields : ∀ f ∈ s.fields, f.Legal
  properties : ∀ p ∈ s.properties, p.LegalInType
  noDefault : ∀ p ∈ s.properties, p.defaultValue = none
  constructors : ∀ k ∈ s.constructors, k.Legal s.name false
  parameters : ∀ k ∈ s.constructors, k.parameters ≠ []

structure InterfaceDecl.Legal (i : InterfaceDecl) : Prop where
  name : Text.isBlank i.name = false
  interfaces : ∀ j ∈ i.interfaces, Text.isBlank j = false
  typeParameters : ∀ t ∈ i.typeParameters, t.Legal
  properties : ∀ p ∈ i.properties, p.LegalInInterface

structure EnumDecl.Legal (e : EnumDecl) : Prop where
  name : Text.isBlank e.name = false
  memberNames : ∀ m ∈ e.members, Text.isBlank m.name = false
  distinct : (e.members.map (·.name)).Nodup

structure NamespaceDecl.Legal (n : NamespaceDecl) : Prop where
  name : Text.isBlank n.name = false
  usings : ∀ u ∈ n.usings, Text.isBlank u = false
  classes : ∀ c ∈ n.classes, c.Legal ∧ c.access ∈ namespaceAccesses
  structs : ∀ s ∈ n.structs, s.Legal ∧ s.access ∈ namespaceAccesses
  interfaces : ∀ i ∈ n.interfaces, i.Legal ∧ i.access ∈ namespaceAccesses
  enums : ∀ e ∈ n.enums, e.Legal ∧ e.access ∈ namespaceAccesses

/-! ## What checked drafts build -/

/-- If checked drafts build legal declarations one by one, then so do lists of them. -/
theorem forall_of_builds {α β : Type} {R : α → β → Prop} {P : α → Prop} {Q : β → Prop} {as : List α} {bs : List β}
    (h : List.Forall₂ R as bs) (has : ∀ a ∈ as, P a) (hR : ∀ {a b}, R a b → P a → Q b) : ∀ b ∈ bs, Q b := by
  intro b hb
  obtain ⟨a, ha, hab⟩ := forall₂_exists_left h b hb
  exact hR hab (has a ha)

theorem TypeParameterDraft.Builds.legal {d : TypeParameterDraft} {t : TypeParameterDecl} (h : d.Builds t)
    (hd : d.Checked) : t.Legal := by
  refine ⟨h.name.2, ?_⟩
  rw [h.constraints]
  exact hd.constraints

theorem FieldDraft.Builds.legal {d : Plan.Field} {f : FieldDecl} (h : FieldDraft.Builds d f)
    (hd : ∀ t ∈ d.typeParameters, t.Checked) : f.Legal :=
  ⟨h.name.2, h.typeName.2, forall_of_builds h.typeArguments hd TypeParameterDraft.Builds.legal⟩

theorem PropertyDraft.Builds.legal {inInterface : Bool} {d : Plan.Property} {p : PropertyDecl}
    (h : PropertyDraft.Builds inInterface d p) (hd : Plan.Property.Checked d) : p.Legal where
  name := h.name.2
  typeName := h.typeName.2
  getter := by
    rw [h.getter]
    exact hd.own.getter
  setter := by
    rw [h.setter]
    exact hd.own.setter
  defaultValue := by
    rw [h.defaultValue]
    exact hd.own.defaultValue
  autoDefault := h.autoDefault
  setterAccess := by
    intro a ha
    refine ⟨?_, h.narrower a ha⟩
    rw [h.setterAccess] at ha
    rw [h.setter]
    split at ha
    · assumption
    · cases ha
  typeArguments := forall_of_builds h.typeArguments hd.typeParameters TypeParameterDraft.Builds.legal

theorem PropertyDraft.Builds.legalInType {d : Plan.Property} {p : PropertyDecl} (h : PropertyDraft.Builds false d p)
    (hd : Plan.Property.Checked d) : p.LegalInType :=
  ⟨h.legal hd, h.autoSetter rfl⟩

/-- No modifier is narrower than that of a property of an interface, so its setter has none. -/
theorem PropertyDraft.Builds.legalInInterface {d : Plan.Property} {p : PropertyDecl}
    (h : PropertyDraft.Builds true d p) (hd : Plan.Property.Checked d) (hp : p.Abstract) : p.LegalInInterface := by
  have access : p.access = .unstated := h.access
  refine { h.legal hd, hp with access, noSetterAccess := ?_ }
  rw [Option.eq_none_iff_forall_ne_some]
  intro a ha
  have hnarrower := h.narrower a ha
  rw [access] at hnarrower
  cases hnarrower

theorem ConstructorDraft.Builds.legal {owner : Text} {static : Bool} {d : ConstructorDraft} {c : ConstructorDecl}
    (h : ConstructorDraft.Builds owner static d c) (hd : d.Checked) : c.Legal owner static where
  className := h.className
  isStatic := h.isStatic
  plain := by
    intro hs
    rw [h.isStatic] at hs
    obtain ⟨-, hparameters, hcall⟩ := h.plain hs
    rw [h.parameters, h.baseCall, h.access, if_pos hs]
    exact ⟨hparameters, hcall, rfl⟩
  parameters := by
    rw [h.parameters]
    exact hd.parameters
  baseCall := by
    rw [h.baseCall]
    exact hd.baseCall

theorem ClassDraft.Builds.legal {d : Plan.Class} {c : ClassDecl} (h : ClassDraft.Builds d c)
    (hd : Plan.Class.Checked d) : c.Legal where
  name := h.name.2
  baseClass := by
    rw [h.baseClass]
    exact hd.own.baseClass
  interfaces := by
    rw [h.interfaces]
    exact hd.own.interfaces
  typeParameters := forall_of_builds h.typeParameters hd.typeParameters TypeParameterDraft.Builds.legal
  fields := forall_of_builds h.fields hd.fields FieldDraft.Builds.legal
  properties := forall_of_builds h.properties hd.properties PropertyDraft.Builds.legalInType
  constructors := forall_of_builds h.constructors hd.constructors ConstructorDraft.Builds.legal
  staticConstructors := h.staticConstructors

theorem StructDraft.Builds.legal {d : Plan.Struct} {s : StructDecl} (h : StructDraft.Builds d s)
    (hd : Plan.Struct.Checked d) : s.Legal where
  name := h.name.2
  interfaces := by
    rw [h.interfaces]
    exact hd.own.interfaces
  typeParameters := forall_of_builds h.typeParameters hd.typeParameters TypeParameterDraft.Builds.legal
  fields := forall_of_builds h.fields hd.fields FieldDraft.Builds.legal
  properties := forall_of_builds h.properties hd.properties PropertyDraft.Builds.legalInType
  noDefault := h.noDefault
  constructors := forall_of_builds h.constructors hd.constructors ConstructorDraft.Builds.legal
  parameters := h.parameters

theorem InterfaceDraft.Builds.legal {d : Plan.Interface} {i : InterfaceDecl} (h : InterfaceDraft.Builds d i)
    (hd : Plan.Interface.Checked d) : i.Legal where
  name := h.name.2
  interfaces := by
    rw [h.interfaces]
    exact hd.own.interfaces
  typeParameters := forall_of_builds h.typeParameters hd.typeParameters TypeParameterDraft.Builds.legal
  properties := by
    intro p hp
    obtain ⟨q, hq, hqp⟩ := forall₂_exists_left h.properties p hp
    exact hqp.legalInInterface (hd.properties q hq) (h.abstract p hp)

/-! ## Enumerations -/

theorem EnumDraft.Builds.legal {d : Plan.Enum} {e : EnumDecl} (h : EnumDraft.Builds d e) : e.Legal := by
  obtain ⟨ms, hms, hnodup, hmembers⟩ := h.members
  have hnames : e.members.map (·.name) = ms.map (·.name) := by rw [hmembers, map_withFlags (fun _ _ => rfl)]
  refine ⟨h.name.2, ?_, by rwa [hnames]⟩
  have hblank : ∀ n ∈ ms.map (·.name), Text.isBlank n = false := by
    rw [List.forall_mem_map]
    intro m hm
    obtain ⟨b, -, hb⟩ := forall₂_exists_left hms m hm
    exact hb.name.2
  rw [← hnames, List.forall_mem_map] at hblank
  exact hblank

/-! ## Namespaces -/

/-- A checked plan builds a legal namespace. -/
theorem NamespaceDraft.Builds.legal {d : Plan.Namespace} {n : NamespaceDecl} (h : NamespaceDraft.Builds d n)
    (hd : Plan.Namespace.Checked d) : n.Legal where
  name := h.name.2
  usings := by
    rw [h.usings]
    exact hd.own.usings
  classes c hc := ⟨forall_of_builds h.classes hd.classes ClassDraft.Builds.legal c hc, h.classAccess c hc⟩
  structs s hs := ⟨forall_of_builds h.structs hd.structs StructDraft.Builds.legal s hs, h.structAccess s hs⟩
  interfaces i hi :=
    ⟨forall_of_builds h.interfaces hd.interfaces InterfaceDraft.Builds.legal i hi, h.interfaceAccess i hi⟩
  enums e he := by
    obtain ⟨d, -, hd⟩ := forall₂_exists_left h.enums e he
    exact ⟨hd.legal, h.enumAccess e he⟩

/-- Whatever a script did before, with whatever drafts shared, a namespace that builds is legal with all its parts. -/
theorem legal_of_build_namespace [Fragment.Parser] (steps : List Step) (r : Ref) (purpose : Workspace.Purpose)
    (n : NamespaceDecl)
    (h : (Session.run {} steps).1.workspace.build r purpose = .ok (.ofNamespace n)) : n.Legal := by
  have hchecked := (Session.run_reachable (s := {}) .empty steps).checked
  obtain ⟨d, hd, hbuilds⟩ := Workspace.builds_of_build_eq_ok h
  exact hbuilds.legal (hchecked.ofNamespace hd)

/-- A class and an interface that share a property, which loses its setter after both hold it. -/
def sharingScript : List Step := [
  .create (.propertyMember (some (some "int".toList)) (some (some "Id".toList)) none) "p".toList,
  .create (.classType (some (some "Account".toList)) none) "c".toList,
  .create (.interfaceType (some (some "IAccount".toList)) none) "i".toList,
  .create (.namespaceFile (some (some "Bank".toList))) "n".toList,
  .call "c".toList (.addChild .properties (some "p".toList)),
  .call "i".toList (.addChildren .properties (.separate [some "p".toList])),
  .call "n".toList (.addChild .classes (some "c".toList)),
  .call "n".toList (.addChild .interfaces (some "i".toList)),
  .call "n".toList (.addName .usings (some "System;".toList)),
  .call "p".toList .dropSetter]

def sharingNamespace : NamespaceDecl where
  name := "Bank".toList
  usings := ["System".toList]
  classes := [{
    name := "Account".toList
    properties := [{ name := "Id".toList, typeName := "int".toList, setter := none }] }]
  interfaces := [{
    name := "IAccount".toList
    properties := [{ name := "Id".toList, typeName := "int".toList, access := .unstated, setter := none }] }]

theorem legal_of_build_namespace_sharing :
    (Session.run {} sharingScript).1.workspace.build ⟨3⟩ {} = .ok (.ofNamespace sharingNamespace) ∧
      sharingNamespace.Legal := by
  have hb : (Session.run {} sharingScript).1.workspace.build ⟨3⟩ {} = .ok (.ofNamespace sharingNamespace) := rfl
  exact ⟨hb, legal_of_build_namespace sharingScript ⟨3⟩ {} sharingNamespace hb⟩

end CSharpDraft
