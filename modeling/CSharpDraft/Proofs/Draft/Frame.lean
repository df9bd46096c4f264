import CSharpDraft.Fragment.Grammar
import CSharpDraft.Proofs.Draft.FirstFault
import CSharpDraft.Proofs.Draft.Order
import Mathlib.Logic.Relation

/-!
# What a build depends on

Drafts refer to drafts of lower kinds: a namespace to types, a type to members, and both types and members to type
parameters. The references that a draft holds always lead somewhere, and a build looks at the drafts that they lead to
and at no others.

* `Entry.Holds`, `Workspace.Leads` : a draft holds a reference in one of its lists; a chain of such references;
* `Workspace.Resolves` : each reference is to a draft of the kind of its list. New drafts and calls keep this
  (`Workspace.Reachable.resolves`), and the kinds go down along references (`Entry.Holds.rank_lt`);
* `Workspace.Resolves.isOfBuild_of_build` : a build that fails has found something missing or forbidden, and no reference
  that leads nowhere;
* `Workspace.SameBelow`, `Workspace.SameBelow.build_eq` : two workspaces that agree on the drafts that `r` leads to build
  the same for `r`;
* `build_eq_of_not_leads` : what follows for calls on other drafts, and for new drafts.
-/

set_option autoImplicit false

namespace CSharpDraft

/-! ## References to lower kinds -/

/-- The place of a kind in the order from type parameters up to namespaces. -/
def Kind.rank : Kind → Nat
  | typeParameter => 0
  | fieldMember => 1
  | propertyMember => 1
  | constructorMember => 1
  | enumMember => 1
  | classType => 2
  | structType => 2
  | interfaceType => 2
  | enumType => 2
  | namespaceFile => 3

/-- The draft holds the reference in one of its lists. -/
def Entry.Holds (e : Entry) (list : ChildList) (q : Ref) : Prop :=
  ∃ rs, (Setting.children list, Cell.children rs) ∈ e.cells ∧ q ∈ rs

theorem ChildList.rank_lt {k : Kind} {list : ChildList} (h : .children list ∈ k.settings) :
    list.kind.rank < k.rank := by
  cases k <;> cases list <;> revert h <;> decide

/-- The drafts in a list of a draft are of a lower kind. -/
theorem Entry.Holds.rank_lt {e : Entry} {list : ChildList} {q : Ref} (h : e.Holds list q) :
    list.kind.rank < e.kind.rank := by
  obtain ⟨rs, hrs, -⟩ := h
  apply ChildList.rank_lt
  rw [← e.map_fst_cells]
  exact List.mem_map_of_mem hrs

/-- After a change, a draft holds the references that it held before and those that were added. -/
theorem Entry.Holds.of_change? {e f : Entry} {c : Change} (h : e.change? c = some f) {list : ChildList} {q : Ref}
    (hq : f.Holds list q) : e.Holds list q ∨ ∃ qs, c = .addChildren list qs ∧ q ∈ qs := by
  obtain ⟨rs, hrs, hmem⟩ := hq
  rw [Entry.cells_change? h, List.mem_map] at hrs
  obtain ⟨⟨s, x⟩, hx, happly⟩ := hrs
  obtain ⟨rfl, hcell⟩ : s = .children list ∧ (if s = c.setting then c.update x else x) = .children rs :=
    Prod.mk.inj happly
  by_cases hs : .children list = c.setting
  · rw [if_pos hs] at hcell
    cases c with
    | addChildren l qs =>
      cases hs
      cases x with
      | children ps =>
        cases hcell
        rcases List.mem_append.mp hmem with hmem | hmem
        · exact Or.inl ⟨ps, hx, hmem⟩
        · exact Or.inr ⟨qs, rfl, hmem⟩
      | _ => cases hcell
    | _ => cases hs
  · rw [if_neg hs] at hcell
    subst hcell
    exact Or.inl ⟨rs, hx, hmem⟩

/-- The references in a cell. -/
def Cell.references : Cell → List Ref
  | children rs => rs
  | _ => []

def Entry.references (e : Entry) : List Ref := e.cells.flatMap (fun p => p.2.references)

theorem Entry.Holds.mem_references {e : Entry} {list : ChildList} {q : Ref} (h : e.Holds list q) :
    q ∈ e.references := by
  obtain ⟨rs, hrs, hq⟩ := h
  exact List.mem_flatMap.mpr ⟨_, hrs, hq⟩

/-- A new draft holds no references. -/
theorem Recipe.references_entry {recipe : Recipe} {e : Entry} (h : recipe.entry = .ok e) : e.references = [] := by
  cases recipe with
  | typeParameter name constraints =>
    cases name with
    | none =>
      cases h
      rfl
    | some name =>
      simp only [Recipe.entry, bind_eq_ok, pure_eq_ok] at h
      obtain ⟨_, -, _, -, rfl⟩ := h
      rfl
  | constructorMember access =>
    cases access with
    | none =>
      cases h
      rfl
    | some access =>
      simp only [Recipe.entry, bind_eq_ok, pure_eq_ok] at h
      obtain ⟨_, -, rfl⟩ := h
      rfl
  | propertyMember typeName name access =>
    simp only [Recipe.entry, PropertyDraft.create, bind_eq_ok, pure_eq_ok] at h
    obtain ⟨d, ⟨_, -, _, -, rfl⟩, rfl⟩ := h
    rfl
  | classType name access =>
    simp only [Recipe.entry, ClassDraft.create, bind_eq_ok, pure_eq_ok] at h
    obtain ⟨d, ⟨_, -, _, -, rfl⟩, rfl⟩ := h
    rfl
  | namespaceFile name =>
    simp only [Recipe.entry, NamespaceDraft.create, bind_eq_ok, pure_eq_ok] at h
    obtain ⟨d, ⟨_, -, rfl⟩, rfl⟩ := h
    rfl
  | _ =>
    simp only [Recipe.entry, bind_eq_ok, pure_eq_ok] at h
    obtain ⟨_, -, _, -, rfl⟩ := h
    rfl

namespace Workspace

/-! ## References that resolve -/

/-- Each reference that a draft holds is to a draft of the kind of its list. -/
def Resolves (w : Workspace) : Prop := ∀ r e, w.entry? r = some e → ∀ list q, e.Holds list q → w.holds list.kind q = true

theorem holds_eq_true {w : Workspace} {k : Kind} {r : Ref} :
    w.holds k r = true ↔ ∃ e, w.entry? r = some e ∧ e.kind = k := by
  unfold holds
  cases w.entry? r <;> simp

theorem entry?_add {w : Workspace} {r : Ref} {e f : Entry} (h : w.entry? r = some e) :
    Workspace.entry? (w.add f).1 r = some e := by
  have hlt : r.index < w.entries.length := (List.getElem?_eq_some_iff.mp h).1
  unfold entry? add
  rw [List.getElem?_append_left hlt]
  exact h

/-- The drafts of a workspace with one more are those that were there, and the new one. -/
theorem entry?_add_cases {w : Workspace} {r : Ref} {e f : Entry} (h : Workspace.entry? (w.add f).1 r = some e) :
    w.entry? r = some e ∨ e = f := by
  unfold entry? add at h
  rw [List.getElem?_append] at h
  split at h
  · exact Or.inl h
  · exact Or.inr (List.mem_singleton.mp (List.mem_of_getElem? h))

theorem Resolves.add {w : Workspace} (hw : w.Resolves) {recipe : Recipe} {f : Entry} (hf : recipe.entry = .ok f) :
    (w.add f).1.Resolves := by
  intro r e he list q hq
  rcases entry?_add_cases he with he | rfl
  · obtain ⟨d, hd, hkind⟩ := holds_eq_true.mp (hw r e he list q hq)
    exact holds_eq_true.mpr ⟨d, entry?_add hd, hkind⟩
  · have hmem := hq.mem_references
    rw [Recipe.references_entry hf] at hmem
    cases hmem

theorem Resolves.change {w v : Workspace} (hw : w.Resolves) {r : Ref} {c : Change} (h : w.change r c = .ok v) :
    v.Resolves := by
  have hkinds : v.kinds = w.kinds := kinds_change h
  obtain ⟨hadmits, d, d', hd, hd', rfl⟩ := change_eq_ok h
  intro p e he list q hq
  rw [holds_eq, hkinds, ← holds_eq]
  rw [entry?_set] at he
  by_cases hpr : p = r
  · rw [if_pos hpr, hd, Option.map_some] at he
    cases he
    rcases hq.of_change? hd' with hq | ⟨qs, rfl, hmem⟩
    · exact hw r d hd list q hq
    · exact List.all_eq_true.mp hadmits q hmem
  · rw [if_neg hpr] at he
    exact hw p e he list q hq

/-- Whatever new drafts and calls lead to, all references resolve. -/
theorem Reachable.resolves {w : Workspace} (h : w.Reachable) : w.Resolves := by
  induction h with
  | empty => exact fun r e he => nomatch he
  | add _ he ih => exact ih.add he
  | call _ hcall ih =>
    obtain ⟨c, -, hchange⟩ := bind_eq_ok.mp hcall
    exact ih.change hchange

/-! ## Plans of drafts -/

theorem isSome_mapM {α β : Type} {f : α → Option β} {as : List α} (h : ∀ a ∈ as, (f a).isSome = true) :
    ∃ bs, as.mapM f = some bs := by
  induction as with
  | nil => exact ⟨[], rfl⟩
  | cons a as ih =>
    rw [List.forall_mem_cons] at h
    obtain ⟨b, hb⟩ := Option.isSome_iff_exists.mp h.1
    obtain ⟨bs, hbs⟩ := ih h.2
    refine ⟨b :: bs, ?_⟩
    rw [List.mapM_cons, hb, hbs]
    rfl

theorem isSome_typeParameter? {w : Workspace} {r : Ref} (h : w.holds .typeParameter r = true) :
    (w.typeParameter? r).isSome = true := by
  obtain ⟨e, he, hkind⟩ := holds_eq_true.mp h
  cases e <;> cases hkind
  rw [typeParameter?, he]
  rfl

theorem isSome_constructor? {w : Workspace} {r : Ref} (h : w.holds .constructorMember r = true) :
    (w.constructor? r).isSome = true := by
  obtain ⟨e, he, hkind⟩ := holds_eq_true.mp h
  cases e <;> cases hkind
  rw [constructor?, he]
  rfl

theorem isSome_enumMember? {w : Workspace} {r : Ref} (h : w.holds .enumMember r = true) :
    (w.enumMember? r).isSome = true := by
  obtain ⟨e, he, hkind⟩ := holds_eq_true.mp h
  cases e <;> cases hkind
  rw [enumMember?, he]
  rfl

namespace Resolves

variable {w : Workspace} (hw : w.Resolves) {r : Ref}
include hw

/-- The drafts in a list of a draft have what each draft of their kind has. -/
theorem isSome_of_mem {e : Entry} (he : w.entry? r = some e) (list : ChildList) {rs : List Ref}
    (hrs : (.children list, .children rs) ∈ e.cells) {β : Type} {f : Ref → Option β}
    (hf : ∀ {q}, w.holds list.kind q = true → (f q).isSome = true) : ∃ bs, rs.mapM f = some bs :=
  isSome_mapM (fun q hq => hf (hw r e he list q ⟨rs, hrs, hq⟩))

theorem isSome_field? (h : w.holds .fieldMember r = true) : (w.field? r).isSome = true := by
  obtain ⟨e, he, hkind⟩ := holds_eq_true.mp h
  cases e <;> cases hkind
  rename_i d
  obtain ⟨ts, hts⟩ : ∃ ts, d.typeParameters.mapM w.typeParameter? = some ts :=
    hw.isSome_of_mem he .typeParameters (by simp [Entry.cells]) isSome_typeParameter?
  simp [field?, he, hts]

theorem isSome_property? (h : w.holds .propertyMember r = true) : (w.property? r).isSome = true := by
  obtain ⟨e, he, hkind⟩ := holds_eq_true.mp h
  cases e <;> cases hkind
  rename_i d
  obtain ⟨ts, hts⟩ : ∃ ts, d.typeParameters.mapM w.typeParameter? = some ts :=
    hw.isSome_of_mem he .typeParameters (by simp [Entry.cells]) isSome_typeParameter?
  simp [property?, he, hts]

theorem isSome_class? (h : w.holds .classType r = true) : (w.class? r).isSome = true := by
  obtain ⟨e, he, hkind⟩ := holds_eq_true.mp h
  cases e <;> cases hkind
  rename_i d
  obtain ⟨ts, hts⟩ : ∃ ts, d.typeParameters.mapM w.typeParameter? = some ts :=
    hw.isSome_of_mem he .typeParameters (by simp [Entry.cells]) isSome_typeParameter?
  obtain ⟨fs, hfs⟩ : ∃ fs, d.fields.mapM w.field? = some fs :=
    hw.isSome_of_mem he .fields (by simp [Entry.cells]) hw.isSome_field?
  obtain ⟨ps, hps⟩ : ∃ ps, d.properties.mapM w.property? = some ps :=
    hw.isSome_of_mem he .properties (by simp [Entry.cells]) hw.isSome_property?
  obtain ⟨cs, hcs⟩ : ∃ cs, d.constructors.mapM w.constructor? = some cs :=
    hw.isSome_of_mem he .constructors (by simp [Entry.cells]) isSome_constructor?
  simp [class?, he, hts, hfs, hps, hcs]

theorem isSome_struct? (h : w.holds .structType r = true) : (w.struct? r).isSome = true := by
  obtain ⟨e, he, hkind⟩ := holds_eq_true.mp h
  cases e <;> cases hkind
  rename_i d
  obtain ⟨ts, hts⟩ : ∃ ts, d.typeParameters.mapM w.typeParameter? = some ts :=
    hw.isSome_of_mem he .typeParameters (by simp [Entry.cells]) isSome_typeParameter?
  obtain ⟨fs, hfs⟩ : ∃ fs, d.fields.mapM w.field? = some fs :=
    hw.isSome_of_mem he .fields (by simp [Entry.cells]) hw.isSome_field?
  obtain ⟨ps, hps⟩ : ∃ ps, d.properties.mapM w.property? = some ps :=
    hw.isSome_of_mem he .properties (by simp [Entry.cells]) hw.isSome_property?
  obtain ⟨cs, hcs⟩ : ∃ cs, d.constructors.mapM w.constructor? = some cs :=
    hw.isSome_of_mem he .constructors (by simp [Entry.cells]) isSome_constructor?
  simp [struct?, he, hts, hfs, hps, hcs]

theorem isSome_interface? (h : w.holds .interfaceType r = true) : (w.interface? r).isSome = true := by
  obtain ⟨e, he, hkind⟩ := holds_eq_true.mp h
  cases e <;> cases hkind
  rename_i d
  obtain ⟨ts, hts⟩ : ∃ ts, d.typeParameters.mapM w.typeParameter? = some ts :=
    hw.isSome_of_mem he .typeParameters (by simp [Entry.cells]) isSome_typeParameter?
  obtain ⟨ps, hps⟩ : ∃ ps, d.properties.mapM w.property? = some ps :=
    hw.isSome_of_mem he .properties (by simp [Entry.cells]) hw.isSome_property?
  simp [interface?, he, hts, hps]

theorem isSome_enum? (h : w.holds .enumType r = true) : (w.enum? r).isSome = true := by
  obtain ⟨e, he, hkind⟩ := holds_eq_true.mp h
  cases e <;> cases hkind
  rename_i d
  obtain ⟨ms, hms⟩ : ∃ ms, d.members.mapM w.enumMember? = some ms :=
    hw.isSome_of_mem he .members (by simp [Entry.cells]) isSome_enumMember?
  simp [enum?, he, hms]

theorem isSome_namespace? (h : w.holds .namespaceFile r = true) : (w.namespace? r).isSome = true := by
  obtain ⟨e, he, hkind⟩ := holds_eq_true.mp h
  cases e <;> cases hkind
  rename_i d
  obtain ⟨cs, hcs⟩ : ∃ cs, d.classes.mapM w.class? = some cs :=
    hw.isSome_of_mem he .classes (by simp [Entry.cells]) hw.isSome_class?
  obtain ⟨ss, hss⟩ : ∃ ss, d.structs.mapM w.struct? = some ss :=
    hw.isSome_of_mem he .structs (by simp [Entry.cells]) hw.isSome_struct?
  obtain ⟨is, his⟩ : ∃ is, d.interfaces.mapM w.interface? = some is :=
    hw.isSome_of_mem he .interfaces (by simp [Entry.cells]) hw.isSome_interface?
  obtain ⟨es, hes⟩ : ∃ es, d.enums.mapM w.enum? = some es :=
    hw.isSome_of_mem he .enums (by simp [Entry.cells]) hw.isSome_enum?
  simp [namespace?, he, hcs, hss, his, hes]

end Resolves

end Workspace

/-! ## Faults of builds -/

/-- Whether a fault is one that a build reports: a setting is missing, or C# forbids something. -/
def Fault.isOfBuild : Fault → Bool
  | missingName _ => true
  | missingType _ => true
  | violation _ => true
  | _ => false

namespace Fault

@[simp] theorem isOfBuild_missingName (kind : Kind) : (missingName kind).isOfBuild = true := rfl

@[simp] theorem isOfBuild_missingType (kind : Kind) : (missingType kind).isOfBuild = true := rfl

@[simp] theorem isOfBuild_violation (v : Violation) : (violation v).isOfBuild = true := rfl

end Fault

/-- Whether all checks look for faults of a build. -/
def areOfBuild (cs : List Check) : Bool := cs.all (fun c => c.fault.isOfBuild)

theorem Reports.isOfBuild {α : Type} {x : Except Fault α} {cs : List Check} (h : Reports x cs)
    (hcs : areOfBuild cs = true) {f : Fault} (hf : x = .error f) : f.isOfBuild = true := by
  obtain ⟨c, hc, rfl⟩ := exists_of_firstFault ((h.error_iff f).mp hf)
  exact List.all_eq_true.mp hcs c hc

section Checks

variable {α : Type}

@[simp] theorem areOfBuild_nil : areOfBuild [] = true := rfl

@[simp] theorem areOfBuild_cons (c : Check) (cs : List Check) :
    areOfBuild (c :: cs) = (c.fault.isOfBuild && areOfBuild cs) := List.all_cons

@[simp] theorem areOfBuild_append (cs ds : List Check) :
    areOfBuild (cs ++ ds) = (areOfBuild cs && areOfBuild ds) := List.all_append

@[simp] theorem areOfBuild_flatMap (f : α → List Check) (as : List α) :
    areOfBuild (as.flatMap f) = as.all (fun a => areOfBuild (f a)) := List.all_flatMap

@[simp] theorem areOfBuild_map (f : α → Check) (as : List α) :
    areOfBuild (as.map f) = as.all (fun a => (f a).fault.isOfBuild) := List.all_map

end Checks

theorem TypeParameterDraft.areOfBuild_checks (d : TypeParameterDraft) : areOfBuild d.checks = true := rfl

theorem FieldDraft.areOfBuild_checks (d : Plan.Field) : areOfBuild (FieldDraft.checks d) = true := by
  simp [FieldDraft.checks, TypeParameterDraft.areOfBuild_checks]

theorem PropertyDraft.areOfBuild_checks (inInterface : Bool) (d : Plan.Property) :
    areOfBuild (PropertyDraft.checks inInterface d) = true := by
  simp [PropertyDraft.checks, TypeParameterDraft.areOfBuild_checks]

theorem ConstructorDraft.areOfBuild_checks (className : Text) (d : ConstructorDraft) :
    areOfBuild (d.checks className) = true := rfl

theorem EnumMemberDraft.areOfBuild_checks (d : EnumMemberDraft) : areOfBuild d.checks = true := rfl

theorem ClassDraft.areOfBuild_checks (d : Plan.Class) : areOfBuild (ClassDraft.checks d) = true := by
  unfold ClassDraft.checks
  cases d.isStatic <;>
    simp [TypeParameterDraft.areOfBuild_checks, FieldDraft.areOfBuild_checks,
      PropertyDraft.areOfBuild_checks, ConstructorDraft.areOfBuild_checks]

theorem StructDraft.areOfBuild_checks (d : Plan.Struct) : areOfBuild (StructDraft.checks d) = true := by
  simp [StructDraft.checks, TypeParameterDraft.areOfBuild_checks, FieldDraft.areOfBuild_checks,
    PropertyDraft.areOfBuild_checks]

theorem InterfaceDraft.areOfBuild_checks (d : Plan.Interface) : areOfBuild (InterfaceDraft.checks d) = true := by
  simp [InterfaceDraft.checks, PropertyDraft.abstractChecks, TypeParameterDraft.areOfBuild_checks,
    PropertyDraft.areOfBuild_checks]

theorem EnumDraft.areOfBuild_checks (d : Plan.Enum) : areOfBuild (EnumDraft.checks d) = true := by
  simp [EnumDraft.checks, duplicateChecks, EnumMemberDraft.areOfBuild_checks]

theorem NamespaceDraft.areOfBuild_checks (d : Plan.Namespace) : areOfBuild (NamespaceDraft.checks d) = true := by
  simp [NamespaceDraft.checks, accessCheck, ClassDraft.areOfBuild_checks,
    StructDraft.areOfBuild_checks, InterfaceDraft.areOfBuild_checks, EnumDraft.areOfBuild_checks]

namespace Workspace

theorem isOfBuild_of_buildPlan {α β : Type} {plan : Option α} {build : α → Except Fault β} {wrap : β → Decl} {f : Fault}
    (hplan : plan.isSome = true) (hbuild : ∀ p g, build p = .error g → g.isOfBuild = true)
    (h : buildPlan plan build wrap = .error f) : f.isOfBuild = true := by
  obtain ⟨p, rfl⟩ := Option.isSome_iff_exists.mp hplan
  exact hbuild p f (buildPlan_some_eq_error.mp h)

/-- A build that fails has found something missing or forbidden. -/
theorem Resolves.isOfBuild_of_build {w : Workspace} (hw : w.Resolves) {r : Ref} {e : Entry} (he : w.entry? r = some e)
    {purpose : Purpose} {f : Fault} (h : w.build r purpose = .error f) : f.isOfBuild = true := by
  have hholds : w.holds e.kind r = true := holds_eq_true.mpr ⟨e, he, rfl⟩
  rw [build, he, Option.map_some] at h
  cases e with
  | typeParameter d =>
    exact isOfBuild_of_buildPlan (isSome_typeParameter? hholds)
      (fun p g => p.reports_build.isOfBuild p.areOfBuild_checks) h
  | fieldMember d =>
    exact isOfBuild_of_buildPlan (hw.isSome_field? hholds)
      (fun p g => (FieldDraft.reports_build p).isOfBuild (FieldDraft.areOfBuild_checks p)) h
  | propertyMember d =>
    exact isOfBuild_of_buildPlan (hw.isSome_property? hholds)
      (fun p g => (PropertyDraft.reports_build _ p).isOfBuild (PropertyDraft.areOfBuild_checks _ p)) h
  | constructorMember d =>
    refine isOfBuild_of_buildPlan (isSome_constructor? hholds) (fun p g hg => ?_) h
    cases hstatic : purpose.isStatic with
    | true =>
      rw [hstatic] at hg
      exact (p.reports_build _).isOfBuild (p.areOfBuild_checks _) hg
    | false =>
      rw [hstatic] at hg
      cases hg
  | enumMember d =>
    exact isOfBuild_of_buildPlan (isSome_enumMember? hholds)
      (fun p g => p.reports_build.isOfBuild p.areOfBuild_checks) h
  | classType d =>
    exact isOfBuild_of_buildPlan (hw.isSome_class? hholds)
      (fun p g => (ClassDraft.reports_build p).isOfBuild (ClassDraft.areOfBuild_checks p)) h
  | structType d =>
    exact isOfBuild_of_buildPlan (hw.isSome_struct? hholds)
      (fun p g => (StructDraft.reports_build p).isOfBuild (StructDraft.areOfBuild_checks p)) h
  | interfaceType d =>
    exact isOfBuild_of_buildPlan (hw.isSome_interface? hholds)
      (fun p g => (InterfaceDraft.reports_build p).isOfBuild (InterfaceDraft.areOfBuild_checks p)) h
  | enumType d =>
    exact isOfBuild_of_buildPlan (hw.isSome_enum? hholds)
      (fun p g => (EnumDraft.reports_build p).isOfBuild (EnumDraft.areOfBuild_checks p)) h
  | namespaceFile d =>
    exact isOfBuild_of_buildPlan (hw.isSome_namespace? hholds)
      (fun p g => (NamespaceDraft.reports_build p).isOfBuild (NamespaceDraft.areOfBuild_checks p)) h

/-! ## Chains of references -/

/-- The draft at `r` holds a reference to `q`. -/
def PointsTo (w : Workspace) (r q : Ref) : Prop := ∃ e list, w.entry? r = some e ∧ e.Holds list q

/-- A chain of references leads from `r` to `q`; each draft leads to itself. -/
def Leads (w : Workspace) : Ref → Ref → Prop := Relation.ReflTransGen w.PointsTo

/-- The workspaces have the same drafts wherever the first one leads from `r`. -/
def SameBelow (w v : Workspace) (r : Ref) : Prop := ∀ q, w.Leads r q → v.entry? q = w.entry? q

theorem mapM_congr {α β : Type} {f g : α → Option β} {as : List α} (h : ∀ a ∈ as, f a = g a) :
    as.mapM f = as.mapM g := by
  induction as with
  | nil => rfl
  | cons a as ih =>
    rw [List.forall_mem_cons] at h
    rw [List.mapM_cons, List.mapM_cons, h.1, ih h.2]

namespace SameBelow

variable {w v : Workspace} {r : Ref} (h : w.SameBelow v r)
include h

theorem entry?_eq : v.entry? r = w.entry? r := h r .refl

theorem below {q : Ref} (hq : w.PointsTo r q) : w.SameBelow v q := fun p hp => h p (.head hq hp)

/-- What is found at each draft of a list, if it is the same in both workspaces. -/
theorem mapM_eq {e : Entry} (he : w.entry? r = some e) (list : ChildList) {rs : List Ref}
    (hrs : (.children list, .children rs) ∈ e.cells) {β : Type} {f : Workspace → Ref → Option β}
    (hf : ∀ {q}, w.SameBelow v q → f v q = f w q) : rs.mapM (f v) = rs.mapM (f w) :=
  mapM_congr (fun _ hq => hf (h.below ⟨e, list, he, rs, hrs, hq⟩))

theorem typeParameter?_eq : v.typeParameter? r = w.typeParameter? r := by
  rw [typeParameter?, typeParameter?, h.entry?_eq]

theorem constructor?_eq : v.constructor? r = w.constructor? r := by
  rw [constructor?, constructor?, h.entry?_eq]

theorem enumMember?_eq : v.enumMember? r = w.enumMember? r := by
  rw [enumMember?, enumMember?, h.entry?_eq]

theorem field?_eq : v.field? r = w.field? r := by
  rw [field?, field?, h.entry?_eq]
  split
  · next d he => rw [h.mapM_eq he .typeParameters (by simp [Entry.cells]) typeParameter?_eq]
  · rfl

theorem property?_eq : v.property? r = w.property? r := by
  rw [property?, property?, h.entry?_eq]
  split
  · next d he => rw [h.mapM_eq he .typeParameters (by simp [Entry.cells]) typeParameter?_eq]
  · rfl

theorem class?_eq : v.class? r = w.class? r := by
  rw [class?, class?, h.entry?_eq]
  split
  · next d he =>
    rw [h.mapM_eq he .typeParameters (by simp [Entry.cells]) typeParameter?_eq,
      h.mapM_eq he .fields (by simp [Entry.cells]) field?_eq,
      h.mapM_eq he .properties (by simp [Entry.cells]) property?_eq,
      h.mapM_eq he .constructors (by simp [Entry.cells]) constructor?_eq]
  · rfl

theorem struct?_eq : v.struct? r = w.struct? r := by
  rw [struct?, struct?, h.entry?_eq]
  split
  · next d he =>
    rw [h.mapM_eq he .typeParameters (by simp [Entry.cells]) typeParameter?_eq,
      h.mapM_eq he .fields (by simp [Entry.cells]) field?_eq,
      h.mapM_eq he .properties (by simp [Entry.cells]) property?_eq,
      h.mapM_eq he .constructors (by simp [Entry.cells]) constructor?_eq]
  · rfl

theorem interface?_eq : v.interface? r = w.interface? r := by
  rw [interface?, interface?, h.entry?_eq]
  split
  · next d he =>
    rw [h.mapM_eq he .typeParameters (by simp [Entry.cells]) typeParameter?_eq,
      h.mapM_eq he .properties (by simp [Entry.cells]) property?_eq]
  · rfl

theorem enum?_eq : v.enum? r = w.enum? r := by
  rw [enum?, enum?, h.entry?_eq]
  split
  · next d he => rw [h.mapM_eq he .members (by simp [Entry.cells]) enumMember?_eq]
  · rfl

theorem namespace?_eq : v.namespace? r = w.namespace? r := by
  rw [namespace?, namespace?, h.entry?_eq]
  split
  · next d he =>
    rw [h.mapM_eq he .classes (by simp [Entry.cells]) class?_eq,
      h.mapM_eq he .structs (by simp [Entry.cells]) struct?_eq,
      h.mapM_eq he .interfaces (by simp [Entry.cells]) interface?_eq,
      h.mapM_eq he .enums (by simp [Entry.cells]) enum?_eq]
  · rfl

/-- A build looks at the drafts that the draft leads to, and at no others. -/
theorem build_eq (purpose : Purpose) : v.build r purpose = w.build r purpose := by
  unfold build
  rw [h.entry?_eq, h.typeParameter?_eq, h.field?_eq, h.property?_eq, h.constructor?_eq, h.enumMember?_eq, h.class?_eq,
    h.struct?_eq, h.interface?_eq, h.enum?_eq, h.namespace?_eq]

end SameBelow

theorem sameBelow_call {w v : Workspace} {r x : Ref} {c : Call Ref} (hcall : w.call x c = .ok v)
    (hx : ¬ w.Leads r x) : w.SameBelow v r := by
  obtain ⟨y, -, hchange⟩ := bind_eq_ok.mp hcall
  obtain ⟨-, d, d', -, -, rfl⟩ := change_eq_ok hchange
  intro q hq
  have hne : q ≠ x := by
    rintro rfl
    exact hx hq
  rw [entry?_set, if_neg hne]

/-- In a workspace whose references resolve, a draft that is there leads to drafts that are there. -/
theorem Resolves.entry_of_leads {w : Workspace} (hw : w.Resolves) {r q : Ref} {e : Entry} (he : w.entry? r = some e)
    (hq : w.Leads r q) : ∃ f, w.entry? q = some f := by
  induction hq with
  | refl => exact ⟨e, he⟩
  | tail _ hpoints _ =>
    obtain ⟨d, list, hd, hholds⟩ := hpoints
    obtain ⟨f, hf, -⟩ := holds_eq_true.mp (hw _ d hd list _ hholds)
    exact ⟨f, hf⟩

theorem Resolves.sameBelow_add {w : Workspace} (hw : w.Resolves) {r : Ref} {e : Entry} (he : w.entry? r = some e)
    (f : Entry) : w.SameBelow (w.add f).1 r := by
  intro q hq
  obtain ⟨d, hd⟩ := hw.entry_of_leads he hq
  rw [entry?_add hd, hd]

end Workspace

/-- In a workspace that new drafts and calls have led to, each reference is to a draft that is there and of a lower kind,
so a build that fails has found something missing or forbidden. It depends on the drafts that the draft leads to: a call
on another draft does not change it, and neither does a new draft, whatever name the session gives to it. -/
theorem build_eq_of_not_leads [Fragment.Parser] {w : Workspace} (hw : w.Reachable) {r : Ref} {e : Entry}
    (he : w.entry? r = some e)
    (purpose : Workspace.Purpose) :
    (∀ list q, e.Holds list q → ∃ f, w.entry? q = some f ∧ f.kind = list.kind ∧ f.kind.rank < e.kind.rank) ∧
    (∀ f, w.build r purpose = .error f → f.isOfBuild = true) ∧
    (∀ x c v, ¬ w.Leads r x → w.call x c = .ok v → v.build r purpose = w.build r purpose) ∧
    ∀ names recipe name t a, Session.step { workspace := w, names } (.create recipe name) = .ok a t →
      t.workspace.build r purpose = w.build r purpose := by
  have hresolves : w.Resolves := hw.resolves
  refine ⟨fun list q hq => ?_, fun f hf => hresolves.isOfBuild_of_build he hf, fun x c v hx hcall => ?_,
    fun names recipe name t a hstep => ?_⟩
  · obtain ⟨f, hf, hkind⟩ := Workspace.holds_eq_true.mp (hresolves r e he list q hq)
    refine ⟨f, hf, hkind, ?_⟩
    rw [hkind]
    exact hq.rank_lt
  · exact (Workspace.sameBelow_call hcall hx).build_eq purpose
  · obtain ⟨_, h⟩ | ⟨_, _, f, -, -, h⟩ | ⟨_, _, _, _, _, hcreate, -⟩ | ⟨_, _, _, hcreate, -⟩ :=
      Session.step_cases { workspace := w, names } (.create recipe name)
    · rw [h] at hstep
      cases hstep
    · rw [h] at hstep
      cases hstep
      exact (hresolves.sameBelow_add he f).build_eq purpose
    · cases hcreate
    · cases hcreate

/-- A class with a property in it, and a second property that took over the name of the first. -/
def reusedName : List Step := [
  .create (.propertyMember (some (some "int".toList)) (some (some "Id".toList)) none) "p".toList,
  .create (.classType (some (some "Account".toList)) none) "c".toList,
  .call "c".toList (.addChild .properties (some "p".toList)),
  .create (.propertyMember (some (some "string".toList)) (some (some "Name".toList)) none) "p".toList]

theorem build_eq_of_not_leads_reusedName :
    let s := (Session.run {} reusedName).1
    s.find "p".toList = .ok ⟨2⟩ ∧ ¬ s.workspace.Leads ⟨1⟩ ⟨2⟩ ∧
      ∃ d v, s.workspace.build ⟨1⟩ = .ok d ∧ s.workspace.call ⟨2⟩ (.setName (some "Owner".toList)) = .ok v ∧
        v.build ⟨1⟩ = .ok d := by
  intro s
  have hreachable : s.workspace.Reachable := Session.run_reachable .empty reusedName
  have hclosed (q : Ref) (hq : s.workspace.Leads ⟨1⟩ q) : q = ⟨1⟩ ∨ q = ⟨0⟩ := by
    induction hq with
    | refl => exact Or.inl rfl
    | tail _ hpoints ih =>
      obtain ⟨e, list, he, hholds⟩ := hpoints
      have hmem := hholds.mem_references
      rcases ih with rfl | rfl
      · cases he
        exact Or.inr (List.mem_singleton.mp hmem)
      · cases he
        cases hmem
  have hleads : ¬ s.workspace.Leads ⟨1⟩ ⟨2⟩ := by
    intro h
    rcases hclosed ⟨2⟩ h with h | h <;> cases h
  obtain ⟨d, hd⟩ : ∃ d, s.workspace.build ⟨1⟩ = .ok d := ⟨_, rfl⟩
  obtain ⟨v, hv⟩ : ∃ v, s.workspace.call ⟨2⟩ (.setName (some "Owner".toList)) = .ok v := ⟨_, rfl⟩
  obtain ⟨e, he⟩ : ∃ e, s.workspace.entry? ⟨1⟩ = some e := ⟨_, rfl⟩
  obtain ⟨-, -, hcall, -⟩ := build_eq_of_not_leads hreachable he {}
  exact ⟨rfl, hleads, d, v, hd, hv, (hcall ⟨2⟩ _ v hleads hv).trans hd⟩

end CSharpDraft
