import CSharpDraft.Proofs.Draft.AsClass
import CSharpDraft.Proofs.Draft.FlagValues

/-!
# Members that are found

A draft is asked for members before it is built, and looks through the drafts that it holds. What it answers is what the
declaration holds once it is built, whatever is asked for and in whatever spelling.

* `Decl.members` : the members of a declaration that can be asked for, of all sorts in one list;
* `MemberQuery.Means` : what it is for a member to be meant;
* `hasMember_of_build` : a draft that builds has a member that is meant exactly if its declaration has one.
-/

set_option autoImplicit false

namespace CSharpDraft

open List (Forall₂)

/-! ## The members of a declaration -/

/-- What a question looks at in a member. The members of an enumeration are of no sort that can be asked for and have no
access modifier. -/
structure MemberKey where
  kind : Option MemberKind := none
  name : Text
  access : Option Access := none
  deriving DecidableEq, Repr

def FieldDecl.key (f : FieldDecl) : MemberKey := ⟨some .field, f.name, some f.access⟩

def PropertyDecl.key (p : PropertyDecl) : MemberKey := ⟨some .property, p.name, some p.access⟩

def ClassDecl.key (c : ClassDecl) : MemberKey := ⟨some .classType, c.name, some c.access⟩

def StructDecl.key (s : StructDecl) : MemberKey := ⟨some .structType, s.name, some s.access⟩

def InterfaceDecl.key (i : InterfaceDecl) : MemberKey := ⟨some .interfaceType, i.name, some i.access⟩

def EnumDecl.key (e : EnumDecl) : MemberKey := ⟨some .enumType, e.name, some e.access⟩

def EnumMemberDecl.key (m : EnumMemberDecl) : MemberKey := { name := m.name }

/-- The members of a declaration that can be asked for. -/
def Decl.members : Decl → List MemberKey
  | ofClass c => c.fields.map FieldDecl.key ++ c.properties.map PropertyDecl.key
  | ofStruct s => s.fields.map FieldDecl.key ++ s.properties.map PropertyDecl.key
  | ofInterface i => i.properties.map PropertyDecl.key
  | ofEnum e => e.members.map EnumMemberDecl.key
  | ofNamespace n =>
    n.classes.map ClassDecl.key ++ n.structs.map StructDecl.key ++ n.interfaces.map InterfaceDecl.key ++
      n.enums.map EnumDecl.key
  | _ => []

/-! ## What is meant -/

namespace MemberQuery

/-- The member is of the sort that is asked for and has the access modifier, as far as these are given, and it has the
name, up to case unless case counts. -/
structure Means (q : MemberQuery) (m : MemberKey) : Prop where
  kind : ∀ k ∈ q.kind, m.kind = some k
  access : ∀ a ∈ q.access, m.access.map Access.text = some a
  name : m.name = q.name ∨ q.caseSensitive = false ∧ Text.fold m.name = Text.fold q.name

instance (q : MemberQuery) (m : MemberKey) : Decidable (q.Means m) :=
  decidable_of_iff ((∀ k ∈ q.kind, m.kind = some k) ∧ (∀ a ∈ q.access, m.access.map Access.text = some a) ∧
      (m.name = q.name ∨ q.caseSensitive = false ∧ Text.fold m.name = Text.fold q.name))
    ⟨fun h => ⟨h.1, h.2.1, h.2.2⟩, fun h => ⟨h.kind, h.access, h.name⟩⟩

/-- Whether the question is one for this sort of declaration: an enumeration is asked for names only, and an interface not
for access modifiers. -/
def Suits (q : MemberQuery) : Decl → Prop
  | .ofClass _ => True
  | .ofStruct _ => True
  | .ofInterface _ => q.access = none
  | .ofEnum _ => q.kind = none ∧ q.access = none
  | .ofNamespace _ => True
  | _ => False

variable {q : MemberQuery}

theorem sameName_eq_true {caseSensitive : Bool} {a b : Text} :
    sameName caseSensitive a b = true ↔ a = b ∨ caseSensitive = false ∧ Text.fold a = Text.fold b := by
  cases caseSensitive with
  | true => simp [sameName]
  | false =>
    simp only [sameName, Bool.false_eq_true, if_false, beq_iff_eq, true_and]
    exact ⟨.inr, fun h => h.elim (congrArg Text.fold) id⟩

theorem matchesName_iff {m : MemberKey} (hkind : q.kind = none) (haccess : q.access = none) :
    q.matchesName (some m.name) = true ↔ q.Means m := by
  rw [matchesName, Option.any_some, sameName_eq_true]
  exact ⟨fun h => ⟨by simp [hkind], by simp [haccess], h⟩, fun h => h.name⟩

theorem asksFor_and_matches_iff {m : MemberKey} {kind : MemberKind} {access : Access} (hkind : m.kind = some kind)
    (haccess : q.access = none ∨ m.access = some access) :
    (q.asksFor kind && q.matches (some m.name) access) = true ↔ q.Means m := by
  have hk : q.asksFor kind = true ↔ ∀ k ∈ q.kind, m.kind = some k := by
    rw [asksFor, Option.all_eq_true, hkind]
    exact forall₂_congr fun k _ => by rw [beq_iff_eq, Option.some.injEq, eq_comm]
  have ha : q.access.all (fun a => access.text == a) = true ↔ ∀ a ∈ q.access, m.access.map Access.text = some a := by
    rcases haccess with h | h
    · simp [h]
    · rw [Option.all_eq_true, h]
      simp
  rw [MemberQuery.matches, matchesName, Option.any_some, Bool.and_eq_true, Bool.and_eq_true, hk, ha, sameName_eq_true]
  exact ⟨fun h => ⟨h.1, h.2.2, h.2.1⟩, fun h => ⟨h.kind, h.name, h.access⟩⟩

/-! ## Lists of drafts -/

theorem any_iff_of_forall₂ {α β : Type} {R : α → β → Prop} {p : α → Bool} {key : β → MemberKey}
    (hp : ∀ {a b}, R a b → (p a = true ↔ q.Means (key b))) {as : List α} {bs : List β} (h : Forall₂ R as bs) :
    as.any p = true ↔ ∃ m ∈ bs.map key, q.Means m := by
  induction h with
  | nil => simp
  | cons hab _ ih => rw [List.any_cons, Bool.or_eq_true, hp hab, ih, List.map_cons, List.exists_mem_cons_iff]

/-- A list of drafts has a member that is meant exactly if the list built from it has one. The access modifiers of the
drafts have to be those of the members only if the question is for them. -/
theorem asksFor_and_any_iff {α β : Type} {R : α → β → Prop} {kind : MemberKind} {name : α → Option Text}
    {access : α → Access} (key : β → MemberKey) (hkind : ∀ b, (key b).kind = some kind)
    (hname : ∀ {a b}, R a b → name a = some (key b).name)
    (haccess : ∀ {a b}, R a b → q.access = none ∨ (key b).access = some (access a)) {as : List α} {bs : List β}
    (h : Forall₂ R as bs) :
    (q.asksFor kind && as.any (fun a => q.matches (name a) (access a))) = true ↔ ∃ m ∈ bs.map key, q.Means m := by
  rw [List.and_any_distrib_left]
  refine any_iff_of_forall₂ (fun {a b} hab => ?_) h
  rw [hname hab]
  exact asksFor_and_matches_iff (hkind b) (haccess hab)

theorem exists_mem_append {ms ns : List MemberKey} :
    (∃ m ∈ ms ++ ns, q.Means m) ↔ (∃ m ∈ ms, q.Means m) ∨ ∃ m ∈ ns, q.Means m := by
  simp only [List.mem_append, or_and_right, exists_or]

theorem fields_iff {ds : List Plan.Field} {fs : List FieldDecl} (h : Forall₂ FieldDraft.Builds ds fs) :
    (q.asksFor .field && ds.any (fun f => q.matches f.name f.access)) = true ↔
      ∃ m ∈ fs.map FieldDecl.key, q.Means m :=
  asksFor_and_any_iff FieldDecl.key (fun _ => rfl) (fun hf => hf.name.1) (fun hf => .inr (congrArg some hf.access)) h

/-- The properties of an interface have lost their access modifiers when they are built. -/
theorem properties_iff {inInterface : Bool} (hq : inInterface = false ∨ q.access = none) {ds : List Plan.Property}
    {ps : List PropertyDecl} (h : Forall₂ (PropertyDraft.Builds inInterface) ds ps) :
    (q.asksFor .property && ds.any (fun p => q.matches p.name p.access)) = true ↔
      ∃ m ∈ ps.map PropertyDecl.key, q.Means m := by
  refine asksFor_and_any_iff PropertyDecl.key (fun _ => rfl) (fun hp => hp.name.1) (fun hp => ?_) h
  rcases hq with rfl | hq
  · exact .inr (congrArg some hp.access)
  · exact .inl hq

end MemberQuery

/-! ## Drafts that build -/

section Builds

variable {q : MemberQuery}

open MemberQuery

theorem ClassDraft.Builds.hasMember_iff {d : Plan.Class} {c : ClassDecl} (h : ClassDraft.Builds d c) :
    ClassDraft.hasMember d q = true ↔ ∃ m ∈ (Decl.ofClass c).members, q.Means m := by
  rw [ClassDraft.hasMember, Decl.members, exists_mem_append, Bool.or_eq_true, fields_iff h.fields,
    properties_iff (.inl rfl) h.properties]

/-- A structure holds what the class with its settings holds. -/
theorem StructDraft.Builds.hasMember_iff {d : Plan.Struct} {s : StructDecl} (h : StructDraft.Builds d s) :
    StructDraft.hasMember d q = true ↔ ∃ m ∈ (Decl.ofStruct s).members, q.Means m :=
  h.asClass.hasMember_iff

theorem InterfaceDraft.Builds.hasMember_iff {d : Plan.Interface} {i : InterfaceDecl} (h : InterfaceDraft.Builds d i)
    (hq : q.access = none) : InterfaceDraft.hasMember d q = true ↔ ∃ m ∈ (Decl.ofInterface i).members, q.Means m := by
  rw [InterfaceDraft.hasMember, Decl.members, properties_iff (.inr hq) h.properties]

theorem EnumDraft.Builds.hasMember_iff {d : Plan.Enum} {e : EnumDecl} (h : EnumDraft.Builds d e) (hkind : q.kind = none)
    (haccess : q.access = none) : EnumDraft.hasMember d q = true ↔ ∃ m ∈ (Decl.ofEnum e).members, q.Means m := by
  obtain ⟨ms, hms, -, hmembers⟩ := h.members
  rw [EnumDraft.hasMember, Decl.members, hmembers, map_withFlags (fun _ _ => rfl)]
  refine any_iff_of_forall₂ (fun {d m} hd => ?_) hms
  rw [hd.name.1]
  exact matchesName_iff (m := m.key) hkind haccess

theorem NamespaceDraft.Builds.hasMember_iff {d : Plan.Namespace} {n : NamespaceDecl} (h : NamespaceDraft.Builds d n) :
    NamespaceDraft.hasMember d q = true ↔ ∃ m ∈ (Decl.ofNamespace n).members, q.Means m := by
  have hclasses := asksFor_and_any_iff (q := q) ClassDecl.key (fun _ => rfl) (fun hc => hc.name.1)
    (fun hc => .inr (congrArg some hc.access)) h.classes
  have hstructs := asksFor_and_any_iff (q := q) StructDecl.key (fun _ => rfl) (fun hs => hs.name.1)
    (fun hs => .inr (congrArg some hs.access)) h.structs
  have hinterfaces := asksFor_and_any_iff (q := q) InterfaceDecl.key (fun _ => rfl) (fun hi => hi.name.1)
    (fun hi => .inr (congrArg some hi.access)) h.interfaces
  have henums := asksFor_and_any_iff (q := q) EnumDecl.key (fun _ => rfl) (fun he => he.name.1)
    (fun he => .inr (congrArg some he.access)) h.enums
  rw [NamespaceDraft.hasMember, Decl.members, exists_mem_append, exists_mem_append, exists_mem_append, Bool.or_eq_true,
    Bool.or_eq_true, Bool.or_eq_true, hclasses, hstructs, hinterfaces, henums]

end Builds

/-- A draft that builds has a member that is meant exactly if the declaration built has one. -/
theorem hasMember_of_build {w : Workspace} {r : Ref} {purpose : Workspace.Purpose} {d : Decl}
    (h : w.build r purpose = .ok d) {q : MemberQuery} (hq : q.Suits d) :
    w.hasMember r q = .ok (decide (∃ m ∈ d.members, q.Means m)) := by
  cases hk : (w.entry? r).map Entry.kind with
  | none =>
    rw [Workspace.build, hk] at h
    cases h
  | some kind =>
    rw [Workspace.build, hk] at h
    cases kind with
    | classType =>
      obtain ⟨p, c, hp, hb, rfl⟩ := Workspace.buildPlan_eq_ok.mp h
      have hiff := (ClassDraft.build_eq_ok.mp hb).hasMember_iff (q := q)
      simp only [Workspace.hasMember, hk, hp, ← hiff, Bool.decide_eq_true]
    | structType =>
      obtain ⟨p, s, hp, hb, rfl⟩ := Workspace.buildPlan_eq_ok.mp h
      have hiff := (StructDraft.build_eq_ok.mp hb).hasMember_iff (q := q)
      simp only [Workspace.hasMember, hk, hp, ← hiff, Bool.decide_eq_true]
    | interfaceType =>
      obtain ⟨p, i, hp, hb, rfl⟩ := Workspace.buildPlan_eq_ok.mp h
      have hiff := (InterfaceDraft.build_eq_ok.mp hb).hasMember_iff hq
      simp only [Workspace.hasMember, hk, hp, ← hiff, Bool.decide_eq_true]
    | enumType =>
      obtain ⟨p, e, hp, hb, rfl⟩ := Workspace.buildPlan_eq_ok.mp h
      have hiff := (EnumDraft.build_eq_ok.mp hb).hasMember_iff hq.1 hq.2
      simp only [Workspace.hasMember, hk, hp, ← hiff, Bool.decide_eq_true]
    | namespaceFile =>
      obtain ⟨p, n, hp, hb, rfl⟩ := Workspace.buildPlan_eq_ok.mp h
      have hiff := (NamespaceDraft.build_eq_ok.mp hb).hasMember_iff (q := q)
      simp only [Workspace.hasMember, hk, hp, ← hiff, Bool.decide_eq_true]
    | _ =>
      obtain ⟨_, _, -, -, rfl⟩ := Workspace.buildPlan_eq_ok.mp h
      exact hq.elim

/-- A class with a private field and a public property whose names have the same case folding. -/
def addressWorkspace : Workspace where
  entries := [
    .fieldMember { name := some "strasse".toList, typeName := some "string".toList },
    .propertyMember { name := some "Straße".toList, typeName := some "string".toList },
    .classType { name := some "Address".toList, fields := [⟨0⟩], properties := [⟨1⟩] }]

def address : ClassDecl where
  name := "Address".toList
  fields := [{ name := "strasse".toList, typeName := "string".toList }]
  properties := [{ name := "Straße".toList, typeName := "string".toList }]

/-- The public property is found under a name that differs in case; where case counts, nothing has this name. -/
theorem hasMember_of_build_address :
    addressWorkspace.build ⟨2⟩ {} = .ok (.ofClass address) ∧
      addressWorkspace.hasMember ⟨2⟩ { name := "STRASSE".toList, access := some "public".toList } = .ok true ∧
      addressWorkspace.hasMember ⟨2⟩ { name := "STRASSE".toList, caseSensitive := true } = .ok false := by
  have hbuild : addressWorkspace.build ⟨2⟩ {} = .ok (.ofClass address) := rfl
  refine ⟨hbuild, ?_, ?_⟩
  · rw [hasMember_of_build hbuild trivial]
    exact congrArg _ (by decide +kernel)
  · rw [hasMember_of_build hbuild trivial]
    exact congrArg _ (by decide +kernel)

end CSharpDraft
