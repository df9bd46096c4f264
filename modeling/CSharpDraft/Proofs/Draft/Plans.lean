import CSharpDraft.Draft.Workspace
import CSharpDraft.Proofs.Draft.Builds

/-!
# What a draft of a workspace builds

`Workspace.Builds` is the relation `Builds` for a draft that is known by its reference: the draft with the drafts that it
holds is a plan, and the plan builds the declaration.
-/

set_option autoImplicit false

namespace CSharpDraft.Workspace

/-- The draft at the reference has a plan that builds the declaration. -/
def Builds (w : Workspace) (r : Ref) (purpose : Purpose) : Decl → Prop
  | .bare => False
  | .ofTypeParameter t => ∃ d, w.typeParameter? r = some d ∧ d.Builds t
  | .ofField f => ∃ d, w.field? r = some d ∧ FieldDraft.Builds d f
  | .ofProperty p => ∃ d, w.property? r = some d ∧ PropertyDraft.Builds purpose.inInterface d p
  | .ofParameter _ => False
  | .ofConstructor c =>
    ∃ d, w.constructor? r = some d ∧ ConstructorDraft.Builds purpose.typeName purpose.isStatic d c
  | .ofClass c => ∃ d, w.class? r = some d ∧ ClassDraft.Builds d c
  | .ofStruct s => ∃ d, w.struct? r = some d ∧ StructDraft.Builds d s
  | .ofInterface i => ∃ d, w.interface? r = some d ∧ InterfaceDraft.Builds d i
  | .ofEnumMember m => ∃ d, w.enumMember? r = some d ∧ d.Builds m
  | .ofEnum e => ∃ d, w.enum? r = some d ∧ EnumDraft.Builds d e
  | .ofNamespace n => ∃ d, w.namespace? r = some d ∧ NamespaceDraft.Builds d n

theorem buildPlan_eq_ok {α β : Type} {plan : Option α} {build : α → Except Fault β} {wrap : β → Decl} {d : Decl} :
    buildPlan plan build wrap = .ok d ↔ ∃ p b, plan = some p ∧ build p = .ok b ∧ wrap b = d := by
  cases plan with
  | none => simp [buildPlan]
  | some p =>
    unfold buildPlan
    cases hb : build p with
    | error e => simp [Except.map, hb]
    | ok b => simp [Except.map, hb]

theorem buildPlan_some_eq_error {α β : Type} {p : α} {build : α → Except Fault β} {wrap : β → Decl} {f : Fault} :
    buildPlan (some p) build wrap = .error f ↔ build p = .error f := by
  unfold buildPlan
  cases hb : build p with
  | error e => simp [Except.map, hb]
  | ok b => simp [Except.map, hb]

theorem builds_of_build_eq_ok {w : Workspace} {r : Ref} {purpose : Purpose} {d : Decl} (h : w.build r purpose = .ok d) :
    w.Builds r purpose d := by
  unfold build at h
  split at h
  · obtain ⟨p, b, hp, hb, rfl⟩ := buildPlan_eq_ok.mp h
    exact ⟨p, hp, TypeParameterDraft.build_eq_ok.mp hb⟩
  · obtain ⟨p, b, hp, hb, rfl⟩ := buildPlan_eq_ok.mp h
    exact ⟨p, hp, FieldDraft.build_eq_ok.mp hb⟩
  · obtain ⟨p, b, hp, hb, rfl⟩ := buildPlan_eq_ok.mp h
    exact ⟨p, hp, PropertyDraft.build_eq_ok.mp hb⟩
  · obtain ⟨p, b, hp, hb, rfl⟩ := buildPlan_eq_ok.mp h
    exact ⟨p, hp, ConstructorDraft.build_eq_ok.mp hb⟩
  · obtain ⟨p, b, hp, hb, rfl⟩ := buildPlan_eq_ok.mp h
    exact ⟨p, hp, EnumMemberDraft.build_eq_ok.mp hb⟩
  · obtain ⟨p, b, hp, hb, rfl⟩ := buildPlan_eq_ok.mp h
    exact ⟨p, hp, ClassDraft.build_eq_ok.mp hb⟩
  · obtain ⟨p, b, hp, hb, rfl⟩ := buildPlan_eq_ok.mp h
    exact ⟨p, hp, StructDraft.build_eq_ok.mp hb⟩
  · obtain ⟨p, b, hp, hb, rfl⟩ := buildPlan_eq_ok.mp h
    exact ⟨p, hp, InterfaceDraft.build_eq_ok.mp hb⟩
  · obtain ⟨p, b, hp, hb, rfl⟩ := buildPlan_eq_ok.mp h
    exact ⟨p, hp, EnumDraft.build_eq_ok.mp hb⟩
  · obtain ⟨p, b, hp, hb, rfl⟩ := buildPlan_eq_ok.mp h
    exact ⟨p, hp, NamespaceDraft.build_eq_ok.mp hb⟩
  · cases h

/-- The draft of a namespace builds what its plan builds, whatever it is built for. -/
theorem build_of_namespace? {w : Workspace} {r : Ref} {d : Plan.Namespace} (h : w.namespace? r = some d)
    (purpose : Purpose) : w.build r purpose = (NamespaceDraft.build d).map .ofNamespace := by
  have hkind : (w.entry? r).map Entry.kind = some .namespaceFile := by
    unfold namespace? at h
    split at h
    · next d₀ he =>
      rw [he]
      rfl
    · cases h
  unfold build
  rw [hkind]
  dsimp only
  rw [h]
  rfl

end CSharpDraft.Workspace
