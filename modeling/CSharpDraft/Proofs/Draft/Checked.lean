import CSharpDraft.Proofs.Draft.Plans
import CSharpDraft.Proofs.Script.Run

/-!
# What calls guarantee

Some rules are kept by the calls themselves and not looked at again by a build: names in lists, bases, bodies, initial
values, parameters and arguments of base calls are never blank.

* `Change.Checked`, `Entry.Checked` : a change, and a draft, with no blank text in such a place;
* `Call.change_checked`, `Recipe.entry_checked` : what calls ask for is checked;
* `Entry.change?_checked` : a checked change keeps a draft checked, whichever of its settings it concerns;
* `Workspace.Reachable.checked` : all drafts of a reachable workspace are checked;
* `Plan.Property.Checked`, …, `Workspace.Checked.ofNamespace` : and so are the plans that they make up.
-/

set_option autoImplicit false

namespace CSharpDraft

open List (Forall₂)

/-! ## Arguments -/

theorem given_eq_ok {α : Type} {argument : String} {t : Option α} {a : α} : given argument t = .ok a ↔ t = some a := by
  cases t <;> simp [given]

theorem nonBlank_eq_ok {argument : String} {t : Option Text} {u : Text} : nonBlank argument t = .ok u ↔ Gives t u := by
  simp only [nonBlank, bind_eq_ok, given_eq_ok, failIf_eq_ok, pure_eq_ok, exists_const]
  constructor
  · rintro ⟨a, rfl, hb, rfl⟩
    exact ⟨rfl, hb⟩
  · rintro ⟨rfl, hb⟩
    exact ⟨u, rfl, hb, rfl⟩

theorem Value.present_eq_ok {α : Type} {argument : String} {v u : Value α} :
    Value.present argument v = .ok u ↔ v = u ∧ v ≠ .nothing := by
  cases v <;> simp [Value.present]

theorem Value.get_eq_ok {α : Type} {v : Value α} {a : α} : v.get = .ok a ↔ v = .item a := by
  cases v <;> simp [Value.get]

theorem Value.get?_eq_some {α : Type} {v : Value α} {a : α} : v.get? = .ok (some a) ↔ v = .item a := by
  cases v <;> simp [Value.get?]

theorem Bundle.values_eq_ok {α : Type} {argument : String} {b : Bundle α} {vs : List (Value α)} :
    b.values argument = .ok vs ↔ b.items = vs ∧ .nothing ∉ b.items := by
  rw [Bundle.values, checkEach_eq_ok]
  simp only [Value.present_eq_ok]
  constructor
  · intro h
    have heq : Forall₂ Eq b.items vs := h.imp (fun _ _ h => h.1)
    refine ⟨List.forall₂_eq_eq_eq ▸ heq, fun hmem => ?_⟩
    obtain ⟨v, -, hv⟩ := forall₂_exists_left h.flip _ hmem
    exact hv.2 rfl
  · rintro ⟨rfl, hno⟩
    exact List.forall₂_same.mpr (fun v hv => ⟨rfl, fun h => hno (h ▸ hv)⟩)

theorem Bundle.collect_eq_ok {α : Type} {argument : String} {b : Bundle α} {as : List α} :
    b.collect argument = .ok as ↔ b.items = as.map .item := by
  have hitems : b.items = as.map .item ↔ Forall₂ (fun v a => v = .item a) b.items as := by
    rw [← List.forall₂_eq_eq_eq, List.forall₂_map_right_iff]
  simp only [hitems, Bundle.collect, bind_eq_ok, Bundle.values_eq_ok, checkEach_eq_ok, Value.get_eq_ok]
  constructor
  · rintro ⟨_, ⟨rfl, -⟩, h⟩
    exact h
  · intro h
    refine ⟨_, ⟨rfl, fun hmem => ?_⟩, h⟩
    obtain ⟨_, -, hv⟩ := forall₂_exists_left h.flip _ hmem
    cases hv

theorem Bundle.collectBy_eq_ok {check : String → Option Text → Except Fault Text} {argument : String} {b : Bundle Text}
    {ns : List Text} :
    b.collectBy check argument = .ok ns ↔
      Forall₂ (fun v n => ∃ t, v = .item t ∧ check argument (some t) = .ok n) b.items ns := by
  simp only [Bundle.collectBy, bind_eq_ok, Bundle.values_eq_ok, checkEach_eq_ok, Value.get_eq_ok]
  constructor
  · rintro ⟨_, ⟨rfl, -⟩, h⟩
    exact h
  · intro h
    refine ⟨_, ⟨rfl, fun hmem => ?_⟩, h⟩
    obtain ⟨_, -, _, hv, -⟩ := forall₂_exists_left h.flip _ hmem
    cases hv

theorem notBlank_of_collectNames {argument : String} {b : Bundle Text} {ns : List Text}
    (h : b.collectNames argument = .ok ns) : ∀ n ∈ ns, Text.isBlank n = false := by
  intro n hn
  obtain ⟨_, -, _, -, hm⟩ := forall₂_exists_left (Bundle.collectBy_eq_ok.mp h) n hn
  exact (nonBlank_eq_ok.mp hm).2

theorem notBlank_of_usingName {argument : String} {t : Option Text} {u : Text} (h : usingName argument t = .ok u) :
    Text.isBlank u = false := by
  simp only [usingName, bind_eq_ok, nonBlank_eq_ok] at h
  obtain ⟨_, -, hu⟩ := h
  exact hu.2

theorem notBlank_of_listedName {list : NameList} {t : Option Text} {n : Text} (h : listedName list t = .ok n) :
    Text.isBlank n = false := by
  cases list with
  | interfaces => exact (nonBlank_eq_ok.mp h).2
  | constraints => exact (nonBlank_eq_ok.mp h).2
  | usings => exact notBlank_of_usingName h

theorem notBlank_of_listedNames {list : NameList} {b : Bundle Text} {ns : List Text}
    (h : listedNames list b = .ok ns) : ∀ n ∈ ns, Text.isBlank n = false := by
  cases list with
  | interfaces => exact notBlank_of_collectNames h
  | constraints => exact notBlank_of_collectNames h
  | usings =>
    intro n hn
    obtain ⟨_, -, _, -, hm⟩ := forall₂_exists_left (Bundle.collectBy_eq_ok.mp h) n hn
    exact notBlank_of_usingName hm

/-! ## Checked changes -/

/-- A parameter of a constructor without a blank part. -/
structure ParameterDecl.Legal (p : ParameterDecl) : Prop where
  name : Text.isBlank p.name = false
  typeName : Text.isBlank p.typeName = false
  receiver : ∀ r ∈ p.receiver, Text.isBlank r = false

theorem legal_of_parameterOf {typeName name receiver : Option Text} {p : ParameterDecl}
    (h : parameterOf typeName name receiver = .ok p) : p.Legal := by
  simp only [parameterOf, bind_eq_ok, nonBlank_eq_ok] at h
  obtain ⟨t, ht, n, hn, h⟩ := h
  cases receiver with
  | none =>
    rw [pure_eq_ok] at h
    subst h
    exact ⟨hn.2, ht.2, by simp⟩
  | some r =>
    simp only [bind_eq_ok, nonBlank_eq_ok, pure_eq_ok] at h
    obtain ⟨q, hq, rfl⟩ := h
    refine ⟨hn.2, ht.2, fun x hx => ?_⟩
    rw [Option.mem_some_iff.mp hx] at hq
    exact hq.2

/-- The body of an accessor, if it has one, is not blank. -/
def BodyChecked (a : Option Accessor) : Prop := ∀ body, a = some (.custom body) → Text.isBlank body = false

theorem bodyChecked_none : BodyChecked none := by
  intro _ h
  cases h

theorem bodyChecked_auto : BodyChecked (some .auto) := by
  intro _ h
  cases h

theorem bodyChecked_of_accessorOf {body : Option Text} {a : Accessor} (h : accessorOf body = .ok a) :
    BodyChecked (some a) := by
  cases body with
  | none =>
    cases h
    exact bodyChecked_auto
  | some t =>
    simp only [accessorOf, bind_eq_ok, nonBlank_eq_ok, pure_eq_ok] at h
    obtain ⟨u, hu, rfl⟩ := h
    intro b hb
    cases hb
    exact hu.2

/-- A change that puts no blank text where none may stand. -/
def Change.Checked : Change → Prop
  | setBase name => Text.isBlank name = false
  | setGetter a => BodyChecked a
  | setSetter a => BodyChecked a
  | setDefault v => Text.isBlank v = false
  | addParameter p => p.Legal
  | setBaseCall arguments => ∀ a ∈ arguments, Text.isBlank a = false
  | addNames _ names => ∀ n ∈ names, Text.isBlank n = false
  | _ => True

theorem Call.change_checked {c : Call Ref} {x : Change} (h : c.change = .ok x) : x.Checked := by
  cases c with
  | setBase name =>
    simp only [Call.change, bind_eq_ok, nonBlank_eq_ok, pure_eq_ok] at h
    obtain ⟨n, hn, rfl⟩ := h
    exact hn.2
  | setGetter body =>
    simp only [Call.change, bind_eq_ok, pure_eq_ok] at h
    obtain ⟨a, ha, rfl⟩ := h
    exact bodyChecked_of_accessorOf ha
  | setSetter body =>
    simp only [Call.change, bind_eq_ok, pure_eq_ok] at h
    obtain ⟨a, ha, rfl⟩ := h
    exact bodyChecked_of_accessorOf ha
  | dropGetter =>
    cases h
    exact bodyChecked_none
  | dropSetter =>
    cases h
    exact bodyChecked_none
  | setDefault v =>
    simp only [Call.change, bind_eq_ok, nonBlank_eq_ok, pure_eq_ok] at h
    obtain ⟨n, hn, rfl⟩ := h
    exact hn.2
  | addParameter t n r =>
    simp only [Call.change, bind_eq_ok, pure_eq_ok] at h
    obtain ⟨p, hp, rfl⟩ := h
    exact legal_of_parameterOf hp
  | setBaseCall arguments =>
    simp only [Call.change, bind_eq_ok, pure_eq_ok] at h
    obtain ⟨as, has, rfl⟩ := h
    exact notBlank_of_collectNames has
  | addName list name =>
    simp only [Call.change, bind_eq_ok, pure_eq_ok] at h
    obtain ⟨n, hn, rfl⟩ := h
    intro m hm
    rw [List.mem_singleton.mp hm]
    exact notBlank_of_listedName hn
  | addNames list names =>
    simp only [Call.change, bind_eq_ok, pure_eq_ok] at h
    obtain ⟨ns, hns, rfl⟩ := h
    exact notBlank_of_listedNames hns
  | setFlag f b =>
    cases h
    trivial
  | _ =>
    simp only [Call.change, bind_eq_ok, pure_eq_ok] at h
    obtain ⟨_, -, rfl⟩ := h
    trivial

/-! ## Checked drafts -/

structure TypeParameterDraft.Checked (d : TypeParameterDraft) : Prop where
  constraints : ∀ c ∈ d.constraints, Text.isBlank c = false

structure PropertyDraft.Checked {τ : Type} (d : PropertyDraft τ) : Prop where
  getter : BodyChecked d.getter
  setter : BodyChecked d.setter
  defaultValue : ∀ v ∈ d.defaultValue, Text.isBlank v = false

structure ConstructorDraft.Checked (d : ConstructorDraft) : Prop where
  parameters : ∀ p ∈ d.parameters, p.Legal
  baseCall : ∀ as ∈ d.baseCall, ∀ a ∈ as, Text.isBlank a = false

structure ClassDraft.Checked {τ φ π κ : Type} (d : ClassDraft τ φ π κ) : Prop where
  baseClass : ∀ b ∈ d.baseClass, Text.isBlank b = false
  interfaces : ∀ i ∈ d.interfaces, Text.isBlank i = false

structure StructDraft.Checked {τ φ π κ : Type} (d : StructDraft τ φ π κ) : Prop where
  interfaces : ∀ i ∈ d.interfaces, Text.isBlank i = false

structure InterfaceDraft.Checked {τ π : Type} (d : InterfaceDraft τ π) : Prop where
  interfaces : ∀ i ∈ d.interfaces, Text.isBlank i = false

structure NamespaceDraft.Checked {γ σ ι ε : Type} (d : NamespaceDraft γ σ ι ε) : Prop where
  usings : ∀ u ∈ d.usings, Text.isBlank u = false

/-- A draft with no blank text where none may stand. -/
def Entry.Checked : Entry → Prop
  | typeParameter d => d.Checked
  | propertyMember d => d.Checked
  | constructorMember d => d.Checked
  | classType d => d.Checked
  | structType d => d.Checked
  | interfaceType d => d.Checked
  | namespaceFile d => d.Checked
  | fieldMember _ => True
  | enumMember _ => True
  | enumType _ => True

/-! ## Changes of checked drafts -/

section Change

variable {c : Change} (hc : c.Checked)
include hc

theorem TypeParameterDraft.change?_checked {d e : TypeParameterDraft} (h : d.change? c = some e) (hd : d.Checked) :
    e.Checked := by
  unfold TypeParameterDraft.change? at h
  split at h <;> cases h
  · exact ⟨hd.constraints⟩
  · exact ⟨List.forall_mem_append.mpr ⟨hd.constraints, hc⟩⟩

theorem PropertyDraft.change?_checked {d e : PropertyDraft Ref} (h : d.change? c = some e) (hd : d.Checked) :
    e.Checked := by
  unfold PropertyDraft.change? at h
  split at h <;> cases h
  case h_5 => exact ⟨hc, hd.setter, hd.defaultValue⟩
  case h_6 => exact ⟨hd.getter, hc, hd.defaultValue⟩
  case h_8 v =>
    refine ⟨hd.getter, hd.setter, fun w hw => ?_⟩
    rw [← Option.mem_some_iff.mp hw]
    exact hc
  all_goals exact ⟨hd.getter, hd.setter, hd.defaultValue⟩

theorem ConstructorDraft.change?_checked {d e : ConstructorDraft} (h : d.change? c = some e) (hd : d.Checked) :
    e.Checked := by
  unfold ConstructorDraft.change? at h
  split at h <;> cases h
  · exact ⟨hd.parameters, hd.baseCall⟩
  · exact ⟨hd.parameters, hd.baseCall⟩
  · refine ⟨List.forall_mem_append.mpr ⟨hd.parameters, ?_⟩, hd.baseCall⟩
    rw [List.forall_mem_singleton]
    exact hc
  · refine ⟨hd.parameters, fun as has => ?_⟩
    rw [← Option.mem_some_iff.mp has]
    exact hc

theorem ClassDraft.change?_checked {d e : ClassDraft Ref Ref Ref Ref} (h : d.change? c = some e) (hd : d.Checked) :
    e.Checked := by
  unfold ClassDraft.change? at h
  split at h <;> cases h
  case h_4 =>
    refine ⟨fun b hb => ?_, hd.interfaces⟩
    rw [← Option.mem_some_iff.mp hb]
    exact hc
  case h_6 => exact ⟨hd.baseClass, List.forall_mem_append.mpr ⟨hd.interfaces, hc⟩⟩
  all_goals exact ⟨hd.baseClass, hd.interfaces⟩

theorem StructDraft.change?_checked {d e : StructDraft Ref Ref Ref Ref} (h : d.change? c = some e) (hd : d.Checked) :
    e.Checked := by
  unfold StructDraft.change? at h
  split at h <;> cases h
  case h_4 => exact ⟨List.forall_mem_append.mpr ⟨hd.interfaces, hc⟩⟩
  all_goals exact ⟨hd.interfaces⟩

theorem InterfaceDraft.change?_checked {d e : InterfaceDraft Ref Ref} (h : d.change? c = some e) (hd : d.Checked) :
    e.Checked := by
  unfold InterfaceDraft.change? at h
  split at h <;> cases h
  case h_4 => exact ⟨List.forall_mem_append.mpr ⟨hd.interfaces, hc⟩⟩
  all_goals exact ⟨hd.interfaces⟩

theorem NamespaceDraft.change?_checked {d e : NamespaceDraft Ref Ref Ref Ref} (h : d.change? c = some e)
    (hd : d.Checked) : e.Checked := by
  unfold NamespaceDraft.change? at h
  split at h <;> cases h
  case h_2 => exact ⟨List.forall_mem_append.mpr ⟨hd.usings, hc⟩⟩
  all_goals exact ⟨hd.usings⟩

/-- A checked change keeps a draft checked. -/
theorem Entry.change?_checked {e e' : Entry} (h : e.change? c = some e') (he : e.Checked) : e'.Checked := by
  cases e with
  | typeParameter d =>
    obtain ⟨d', hd', rfl⟩ := Option.map_eq_some_iff.mp h
    exact TypeParameterDraft.change?_checked hc hd' he
  | fieldMember d =>
    obtain ⟨d', -, rfl⟩ := Option.map_eq_some_iff.mp h
    trivial
  | propertyMember d =>
    obtain ⟨d', hd', rfl⟩ := Option.map_eq_some_iff.mp h
    exact PropertyDraft.change?_checked hc hd' he
  | constructorMember d =>
    obtain ⟨d', hd', rfl⟩ := Option.map_eq_some_iff.mp h
    exact ConstructorDraft.change?_checked hc hd' he
  | enumMember d =>
    obtain ⟨d', -, rfl⟩ := Option.map_eq_some_iff.mp h
    trivial
  | classType d =>
    obtain ⟨d', hd', rfl⟩ := Option.map_eq_some_iff.mp h
    exact ClassDraft.change?_checked hc hd' he
  | structType d =>
    obtain ⟨d', hd', rfl⟩ := Option.map_eq_some_iff.mp h
    exact StructDraft.change?_checked hc hd' he
  | interfaceType d =>
    obtain ⟨d', hd', rfl⟩ := Option.map_eq_some_iff.mp h
    exact InterfaceDraft.change?_checked hc hd' he
  | enumType d =>
    obtain ⟨d', -, rfl⟩ := Option.map_eq_some_iff.mp h
    trivial
  | namespaceFile d =>
    obtain ⟨d', hd', rfl⟩ := Option.map_eq_some_iff.mp h
    exact NamespaceDraft.change?_checked hc hd' he

end Change

/-! ## Checked workspaces -/

/-- A new draft is checked: the only names that it may come with are constraints, and those are looked at. -/
theorem Recipe.entry_checked {recipe : Recipe} {e : Entry} (h : recipe.entry = .ok e) : e.Checked := by
  cases recipe with
  | typeParameter name constraints =>
    cases name with
    | none =>
      cases h
      exact ⟨by simp⟩
    | some name =>
      simp only [Recipe.entry, bind_eq_ok, pure_eq_ok] at h
      obtain ⟨_, -, cs, hcs, rfl⟩ := h
      exact ⟨notBlank_of_collectNames hcs⟩
  | constructorMember access =>
    cases access with
    | none =>
      cases h
      exact ⟨by simp, by simp⟩
    | some access =>
      simp only [Recipe.entry, bind_eq_ok, pure_eq_ok] at h
      obtain ⟨_, -, rfl⟩ := h
      exact ⟨by simp, by simp⟩
  | propertyMember typeName name access =>
    simp only [Recipe.entry, PropertyDraft.create, bind_eq_ok, pure_eq_ok] at h
    obtain ⟨d, ⟨_, -, _, -, rfl⟩, rfl⟩ := h
    exact ⟨bodyChecked_auto, bodyChecked_auto, by simp⟩
  | classType name access =>
    simp only [Recipe.entry, ClassDraft.create, bind_eq_ok, pure_eq_ok] at h
    obtain ⟨d, ⟨_, -, _, -, rfl⟩, rfl⟩ := h
    exact ⟨by simp, by simp⟩
  | namespaceFile name =>
    simp only [Recipe.entry, NamespaceDraft.create, bind_eq_ok, pure_eq_ok] at h
    obtain ⟨d, ⟨_, -, rfl⟩, rfl⟩ := h
    exact ⟨by simp⟩
  | structType name access =>
    simp only [Recipe.entry, bind_eq_ok, pure_eq_ok] at h
    obtain ⟨_, -, _, -, rfl⟩ := h
    exact ⟨by simp⟩
  | interfaceType name access =>
    simp only [Recipe.entry, bind_eq_ok, pure_eq_ok] at h
    obtain ⟨_, -, _, -, rfl⟩ := h
    exact ⟨by simp⟩
  | fieldMember typeName name access =>
    simp only [Recipe.entry, bind_eq_ok, pure_eq_ok] at h
    obtain ⟨_, -, _, -, rfl⟩ := h
    trivial
  | enumMember name value =>
    simp only [Recipe.entry, bind_eq_ok, pure_eq_ok] at h
    obtain ⟨_, -, _, -, rfl⟩ := h
    trivial
  | enumType name access =>
    simp only [Recipe.entry, bind_eq_ok, pure_eq_ok] at h
    obtain ⟨_, -, _, -, rfl⟩ := h
    trivial

namespace Workspace

/-- All drafts of the workspace are checked. -/
def Checked (w : Workspace) : Prop := ∀ e ∈ w.entries, e.Checked

/-- A change that succeeds replaces one draft by its change. -/
theorem change_eq_ok {w v : Workspace} {r : Ref} {c : Change} (h : w.change r c = .ok v) :
    w.admits c = true ∧ ∃ e e', w.entry? r = some e ∧ e.change? c = some e' ∧ v = ⟨w.entries.set r.index e'⟩ := by
  unfold change at h
  split at h
  · next hadmits =>
    split at h
    · next e' he' =>
      cases h
      obtain ⟨e, he, hchange⟩ := Option.bind_eq_some_iff.mp he'
      exact ⟨hadmits, e, e', he, hchange, rfl⟩
    · cases h
  · cases h

theorem Checked.entry {w : Workspace} (hw : w.Checked) {r : Ref} {e : Entry} (h : w.entry? r = some e) : e.Checked :=
  hw e (List.mem_of_getElem? h)

theorem Checked.change {w v : Workspace} (hw : w.Checked) {r : Ref} {c : Change} (hc : c.Checked)
    (h : w.change r c = .ok v) : v.Checked := by
  obtain ⟨-, e, e', he, he', rfl⟩ := change_eq_ok h
  intro x hx
  rcases List.mem_or_eq_of_mem_set hx with hx | rfl
  · exact hw x hx
  · exact Entry.change?_checked hc he' (hw.entry he)

/-- All drafts of a reachable workspace are checked: new drafts are, and calls ask for checked changes only. -/
theorem Reachable.checked {w : Workspace} (h : w.Reachable) : w.Checked := by
  induction h with
  | empty => exact fun _ he => nomatch he
  | add _ he ih =>
    rw [Checked, Workspace.add, List.forall_mem_append, List.forall_mem_singleton]
    exact ⟨ih, Recipe.entry_checked he⟩
  | call _ hcall ih =>
    obtain ⟨c, hc, hchange⟩ := bind_eq_ok.mp hcall
    exact ih.change (Call.change_checked hc) hchange

end Workspace

/-! ## Checked plans -/

structure Plan.Property.Checked (d : Plan.Property) : Prop where
  own : PropertyDraft.Checked d
  typeParameters : ∀ t ∈ d.typeParameters, t.Checked

structure Plan.Class.Checked (d : Plan.Class) : Prop where
  own : ClassDraft.Checked d
  typeParameters : ∀ t ∈ d.typeParameters, t.Checked
  fields : ∀ f ∈ d.fields, ∀ t ∈ f.typeParameters, t.Checked
  properties : ∀ p ∈ d.properties, Plan.Property.Checked p
  constructors : ∀ c ∈ d.constructors, c.Checked

structure Plan.Struct.Checked (d : Plan.Struct) : Prop where
  own : StructDraft.Checked d
  typeParameters : ∀ t ∈ d.typeParameters, t.Checked
  fields : ∀ f ∈ d.fields, ∀ t ∈ f.typeParameters, t.Checked
  properties : ∀ p ∈ d.properties, Plan.Property.Checked p
  constructors : ∀ c ∈ d.constructors, c.Checked

structure Plan.Interface.Checked (d : Plan.Interface) : Prop where
  own : InterfaceDraft.Checked d
  typeParameters : ∀ t ∈ d.typeParameters, t.Checked
  properties : ∀ p ∈ d.properties, Plan.Property.Checked p

structure Plan.Namespace.Checked (d : Plan.Namespace) : Prop where
  own : NamespaceDraft.Checked d
  classes : ∀ c ∈ d.classes, Plan.Class.Checked c
  structs : ∀ s ∈ d.structs, Plan.Struct.Checked s
  interfaces : ∀ i ∈ d.interfaces, Plan.Interface.Checked i

theorem forall_of_mapM_eq_some {α β : Type} {f : α → Option β} {P : β → Prop} (hf : ∀ {a b}, f a = some b → P b)
    {as : List α} {bs : List β} (h : as.mapM f = some bs) : ∀ b ∈ bs, P b := by
  induction as generalizing bs with
  | nil =>
    cases h
    simp
  | cons a as ih =>
    simp only [List.mapM_cons, Option.pure_def, Option.bind_eq_bind, Option.bind_eq_some_iff, Option.some.injEq] at h
    obtain ⟨b, hb, cs, hcs, rfl⟩ := h
    rw [List.forall_mem_cons]
    exact ⟨hf hb, ih hcs⟩

namespace Workspace.Checked

variable {w : Workspace} (hw : w.Checked) {r : Ref}
include hw

theorem typeParameter {d : TypeParameterDraft} (h : w.typeParameter? r = some d) : d.Checked := by
  unfold typeParameter? at h
  split at h
  · next d₀ he =>
    cases h
    exact hw.entry he
  · cases h

theorem constructor {d : ConstructorDraft} (h : w.constructor? r = some d) : d.Checked := by
  unfold constructor? at h
  split at h
  · next d₀ he =>
    cases h
    exact hw.entry he
  · cases h

theorem field {d : Plan.Field} (h : w.field? r = some d) : ∀ t ∈ d.typeParameters, t.Checked := by
  unfold field? at h
  split at h
  · simp only [Option.pure_def, Option.bind_eq_bind, Option.bind_eq_some_iff, Option.some.injEq] at h
    obtain ⟨ts, hts, rfl⟩ := h
    exact forall_of_mapM_eq_some hw.typeParameter hts
  · cases h

theorem property {d : Plan.Property} (h : w.property? r = some d) : Plan.Property.Checked d := by
  unfold property? at h
  split at h
  · next d₀ he =>
    have own : d₀.Checked := hw.entry he
    simp only [Option.pure_def, Option.bind_eq_bind, Option.bind_eq_some_iff, Option.some.injEq] at h
    obtain ⟨ts, hts, rfl⟩ := h
    exact ⟨⟨own.getter, own.setter, own.defaultValue⟩, forall_of_mapM_eq_some hw.typeParameter hts⟩
  · cases h

theorem ofClass {d : Plan.Class} (h : w.class? r = some d) : Plan.Class.Checked d := by
  unfold class? at h
  split at h
  · next d₀ he =>
    have own : d₀.Checked := hw.entry he
    simp only [Option.pure_def, Option.bind_eq_bind, Option.bind_eq_some_iff, Option.some.injEq] at h
    obtain ⟨ts, hts, fs, hfs, ps, hps, cs, hcs, rfl⟩ := h
    exact ⟨⟨own.baseClass, own.interfaces⟩, forall_of_mapM_eq_some hw.typeParameter hts,
      forall_of_mapM_eq_some hw.field hfs, forall_of_mapM_eq_some hw.property hps,
      forall_of_mapM_eq_some hw.constructor hcs⟩
  · cases h

theorem ofStruct {d : Plan.Struct} (h : w.struct? r = some d) : Plan.Struct.Checked d := by
  unfold struct? at h
  split at h
  · next d₀ he =>
    have own : d₀.Checked := hw.entry he
    simp only [Option.pure_def, Option.bind_eq_bind, Option.bind_eq_some_iff, Option.some.injEq] at h
    obtain ⟨ts, hts, fs, hfs, ps, hps, cs, hcs, rfl⟩ := h
    exact ⟨⟨own.interfaces⟩, forall_of_mapM_eq_some hw.typeParameter hts, forall_of_mapM_eq_some hw.field hfs,
      forall_of_mapM_eq_some hw.property hps, forall_of_mapM_eq_some hw.constructor hcs⟩
  · cases h

theorem ofInterface {d : Plan.Interface} (h : w.interface? r = some d) : Plan.Interface.Checked d := by
  unfold interface? at h
  split at h
  · next d₀ he =>
    have own : d₀.Checked := hw.entry he
    simp only [Option.pure_def, Option.bind_eq_bind, Option.bind_eq_some_iff, Option.some.injEq] at h
    obtain ⟨ts, hts, ps, hps, rfl⟩ := h
    exact ⟨⟨own.interfaces⟩, forall_of_mapM_eq_some hw.typeParameter hts, forall_of_mapM_eq_some hw.property hps⟩
  · cases h

/-- The plan of a namespace in a checked workspace is checked, whatever drafts it reaches. -/
theorem ofNamespace {d : Plan.Namespace} (h : w.namespace? r = some d) : Plan.Namespace.Checked d := by
  unfold namespace? at h
  split at h
  · next d₀ he =>
    have own : d₀.Checked := hw.entry he
    simp only [Option.pure_def, Option.bind_eq_bind, Option.bind_eq_some_iff, Option.some.injEq] at h
    obtain ⟨cs, hcs, ss, hss, is, his, es, hes, rfl⟩ := h
    exact ⟨⟨own.usings⟩, forall_of_mapM_eq_some hw.ofClass hcs, forall_of_mapM_eq_some hw.ofStruct hss,
      forall_of_mapM_eq_some hw.ofInterface his⟩
  · cases h

end Workspace.Checked

end CSharpDraft
