import CSharpDraft.Fragment.Grammar
import CSharpDraft.Proofs.Draft.FirstFault
import CSharpDraft.Proofs.Text.Lines

/-!
# Structures and classes

A draft of a structure has the settings of a draft of a class that is not static and has no base class (`asClass`). Both
are built by code of their own. What differs is that a structure must not have initial values or constructors without
parameters, and looks for these between and behind its other checks.

* `StructDraft.firstFault_checks`, `StructDraft.firstFault_checks_asClass` : the faults that both report come first in the
  checks of the structure, and they are all that the class reports;
* `StructDraft.Builds.asClass` : what the structure builds, the class builds as well;
* `StructDecl.render_keyword`, `StructDecl.render_asClass` : the texts are the same but for one keyword;
* `build_asClass` : both drafts in one workspace.
-/

set_option autoImplicit false

namespace CSharpDraft

/-- The draft of a class with the settings of a structure. -/
def StructDraft.asClass {τ φ π κ : Type} (d : StructDraft τ φ π κ) : ClassDraft τ φ π κ where
  name := d.name
  access := d.access
  summary := d.summary
  interfaces := d.interfaces
  fields := d.fields
  properties := d.properties
  constructors := d.constructors
  typeParameters := d.typeParameters

/-- The class with the parts of a structure. -/
def StructDecl.asClass (s : StructDecl) : ClassDecl where
  name := s.name
  access := s.access
  summary := s.summary
  interfaces := s.interfaces
  fields := s.fields
  properties := s.properties
  constructors := s.constructors
  typeParameters := s.typeParameters

/-! ## Faults -/

/-- Whether a fault is one that only structures have: a property with an initial value (CS0573), or a constructor without
parameters (CS0568). -/
def Fault.isOfStruct : Fault → Bool
  | violation (.structDefault _ _) => true
  | violation (.structParameterless _) => true
  | _ => false

namespace StructDraft

/-- The checks of the members that a structure shares with a class. -/
def memberChecks (d : Plan.Struct) : List Check :=
  d.typeParameters.flatMap TypeParameterDraft.checks ++ d.fields.flatMap FieldDraft.checks ++
    d.properties.flatMap (PropertyDraft.checks false)

/-- The checks that only a structure has. -/
def ownChecks (d : Plan.Struct) : List Check :=
  let name := d.name.getD []
  d.properties.map (fun p => ⟨p.defaultValue.isSome, .violation (.structDefault name (p.name.getD []))⟩) ++
    [⟨d.constructors.any (fun c => c.parameters.isEmpty), .violation (.structParameterless name)⟩]

variable {d : Plan.Struct} {f : Fault}

/-- A structure reports what it shares with a class before what is its own, although it asks for initial values before it
builds the constructors: those of an instance have no faults. -/
theorem firstFault_checks (hname : isMissing d.name = false) :
    firstFault (StructDraft.checks d) = (firstFault (memberChecks d)).or (firstFault (ownChecks d)) := by
  rw [StructDraft.checks, firstFault_cons_of_passes hname, ← firstFault_append, memberChecks, ownChecks]
  simp only [List.append_assoc]

theorem firstFault_checks_asClass (hname : isMissing d.name = false) :
    firstFault (ClassDraft.checks d.asClass) = firstFault (memberChecks d) := by
  have hstatic : (asClass d).isStatic = false := rfl
  rw [ClassDraft.checks, firstFault_cons_of_passes hname, firstFault_cons_of_passes (by rw [hstatic]; rfl), hstatic,
    memberChecks]
  simp [asClass]

theorem isOfStruct_of_memberChecks (h : firstFault (memberChecks d) = some f) : f.isOfStruct = false := by
  obtain ⟨c, hc, rfl⟩ := exists_of_firstFault h
  have hall : (memberChecks d).all (fun c => !c.fault.isOfStruct) = true := by
    simp [memberChecks, TypeParameterDraft.checks, FieldDraft.checks, PropertyDraft.checks, Fault.isOfStruct]
  simpa using List.all_eq_true.mp hall c hc

theorem isOfStruct_of_ownChecks (h : firstFault (ownChecks d) = some f) : f.isOfStruct = true := by
  obtain ⟨c, hc, rfl⟩ := exists_of_firstFault h
  have hall : (ownChecks d).all (fun c => c.fault.isOfStruct) = true := by simp [ownChecks, Fault.isOfStruct]
  exact List.all_eq_true.mp hall c hc

/-- A structure that does not build has the fault of the class, unless only structures have it: then the class builds. -/
theorem build_asClass_of_error (hname : isMissing d.name = false) (h : StructDraft.build d = .error f) :
    (f.isOfStruct = true → ∃ c, ClassDraft.build d.asClass = .ok c) ∧
      (f.isOfStruct = false → ClassDraft.build d.asClass = .error f) := by
  have hclass := ClassDraft.reports_build d.asClass
  rw [(StructDraft.reports_build d).error_iff, firstFault_checks hname] at h
  rw [hclass.ok_iff, hclass.error_iff, firstFault_checks_asClass hname]
  cases hmembers : firstFault (memberChecks d) with
  | some g =>
    rw [hmembers, Option.some_or] at h
    have hown : f.isOfStruct = false := isOfStruct_of_memberChecks (hmembers.trans h)
    exact ⟨fun htrue => absurd (hown.symm.trans htrue) Bool.false_ne_true, fun _ => h⟩
  | none =>
    rw [hmembers, Option.none_or] at h
    have hown : f.isOfStruct = true := isOfStruct_of_ownChecks h
    exact ⟨fun _ => rfl, fun hfalse => absurd (hfalse.symm.trans hown) Bool.false_ne_true⟩

theorem Builds.asClass {s : StructDecl} (h : StructDraft.Builds d s) : ClassDraft.Builds d.asClass s.asClass where
  name := h.name
  access := h.access
  summary := h.summary
  baseClass := rfl
  interfaces := h.interfaces
  isStatic := rfl
  typeParameters := h.typeParameters
  fields := h.fields
  properties := h.properties
  constructors := h.constructors
  staticConstructors := nofun

end StructDraft

/-! ## Texts -/

/-- What stands in front of the keyword of a type: its documentation and its access modifier. -/
def typeLead (summary : Option Text) (access : Access) : Text :=
  (summaryLines summary).flatMap (· ++ ['\n']) ++ if access.text.isEmpty then [] else access.text ++ [' ']

/-- What stands behind the keyword of a type. -/
def typeRest (name : Text) (parameters : List TypeParameterDecl) (bases : List Text) (members : List (List Text)) :
    Text :=
  let name := name ++ angleList parameters
  let header := (if name.isEmpty then [] else ' ' :: name) ++
    if bases.isEmpty then [] else " : ".toList ++ commaList bases
  renderType none header (constraintClauses parameters) members

theorem unlines_append_cons (ls : List Text) (l : Text) (ms : List Text) :
    Text.unlines (ls ++ l :: ms) = ls.flatMap (· ++ ['\n']) ++ Text.unlines (l :: ms) := by
  induction ls with
  | nil => rfl
  | cons k ls ih =>
    rw [List.cons_append, Text.unlines_cons (by simp), ih, List.flatMap_cons]
    simp

theorem phraseOf_keyword {keyword : Text} (hk : keyword ≠ []) (a n : Text) :
    phraseOf [a, keyword, n] =
      (if a.isEmpty then [] else a ++ [' ']) ++ (keyword ++ if n.isEmpty then [] else ' ' :: n) := by
  cases a <;> cases n <;> simp [phraseOf, Text.join_cons, hk]

theorem renderType_append (summary : Option Text) (front header constraints : Text) (members : List (List Text)) :
    renderType summary (front ++ header) constraints members =
      (summaryLines summary).flatMap (· ++ ['\n']) ++ (front ++ renderType none header constraints members) := by
  have hnone : summaryLines none = [] := rfl
  simp only [renderType, hnone, List.append_assoc, List.cons_append, List.nil_append]
  rw [unlines_append_cons, Text.unlines, Text.unlines, Text.join_cons, Text.join_cons, List.append_assoc]

theorem renderType_typeHeader {keyword : Text} (hk : keyword ≠ []) (summary : Option Text) (access : Access) (name : Text)
    (parameters : List TypeParameterDecl) (bases : List Text) (members : List (List Text)) :
    renderType summary (typeHeader access [keyword] name parameters bases) (constraintClauses parameters) members =
      typeLead summary access ++ keyword ++ typeRest name parameters bases members := by
  have hwords : [access.text] ++ [keyword] ++ [name ++ angleList parameters] =
      [access.text, keyword, name ++ angleList parameters] := rfl
  rw [typeHeader, hwords, phraseOf_keyword hk, List.append_assoc, List.append_assoc, renderType_append,
    renderType_append none keyword, typeLead, typeRest]
  simp only [List.append_assoc, summaryLines, List.flatMap_nil, List.nil_append]

/-- The text of a structure behind its keyword. -/
def StructDecl.rest [Fragment.Parser] (s : StructDecl) : Text :=
  typeRest s.name s.typeParameters s.interfaces
    (s.fields.map FieldDecl.lines ++ s.constructors.map ConstructorDecl.lines ++ s.properties.map PropertyDecl.lines)

theorem StructDecl.render_keyword [Fragment.Parser] (s : StructDecl) :
    s.render = typeLead s.summary s.access ++ "struct".toList ++ s.rest :=
  renderType_typeHeader (by decide) ..

/-- The place of a modifier that a type does not have leaves no trace. -/
theorem typeHeader_nil_cons (access : Access) (words : List Text) (name : Text) (parameters : List TypeParameterDecl)
    (bases : List Text) :
    typeHeader access ([] :: words) name parameters bases = typeHeader access words name parameters bases := by
  simp [typeHeader, phraseOf, List.filter_cons]

theorem StructDecl.render_asClass [Fragment.Parser] (s : StructDecl) :
    s.asClass.render = typeLead s.summary s.access ++ "class".toList ++ s.rest := by
  rw [StructDecl.rest, ← renderType_typeHeader (by decide), ← typeHeader_nil_cons]
  rfl

/-! ## In a workspace -/

namespace Workspace

variable {w : Workspace} {r r' : Ref} {d : StructDraft Ref Ref Ref Ref}

theorem name_of_struct? (hr : w.entry? r = some (.structType d)) {p : Plan.Struct} (hp : w.struct? r = some p) :
    p.name = d.name := by
  simp only [struct?, hr, Option.bind_eq_bind, Option.bind_eq_some_iff, Option.pure_def, Option.some.injEq] at hp
  obtain ⟨_, -, _, -, _, -, _, -, rfl⟩ := hp
  rfl

/-- Drafts with the same settings hold the same drafts. -/
theorem class?_asClass (hr : w.entry? r = some (.structType d)) (hr' : w.entry? r' = some (.classType d.asClass)) :
    w.class? r' = (w.struct? r).map StructDraft.asClass := by
  simp only [class?, struct?, hr, hr', StructDraft.asClass]
  cases d.typeParameters.mapM w.typeParameter? <;> cases d.fields.mapM w.field? <;>
    cases d.properties.mapM w.property? <;> cases d.constructors.mapM w.constructor? <;> rfl

end Workspace

/-- A draft of a structure and a draft of a class with the same settings. If the structure builds, the class builds with
the same parts, and their texts differ in the keyword alone. If the structure does not build, the class has the same
fault, unless the fault is one that only structures have: then the class builds. -/
theorem build_asClass [Fragment.Parser] {w : Workspace} {r r' : Ref} {d : StructDraft Ref Ref Ref Ref}
    (hr : w.entry? r = some (.structType d)) (hr' : w.entry? r' = some (.classType d.asClass))
    (hname : isMissing d.name = false) (purpose purpose' : Workspace.Purpose) :
    (∀ decl, w.build r purpose = .ok decl → ∃ s, decl = .ofStruct s ∧ w.build r' purpose' = .ok (.ofClass s.asClass) ∧
        w.render r purpose = .ok (typeLead s.summary s.access ++ "struct".toList ++ s.rest) ∧
        w.render r' purpose' = .ok (typeLead s.summary s.access ++ "class".toList ++ s.rest)) ∧
      ∀ f, w.build r purpose = .error f →
        (f.isOfStruct = true → ∃ c, w.build r' purpose' = .ok (.ofClass c)) ∧
        (f.isOfStruct = false → w.build r' purpose' = .error f) := by
  have hbuild : w.build r purpose = Workspace.buildPlan (w.struct? r) StructDraft.build .ofStruct := by
    rw [Workspace.build, hr]
    rfl
  have hbuild' : w.build r' purpose' =
      Workspace.buildPlan ((w.struct? r).map StructDraft.asClass) ClassDraft.build .ofClass := by
    rw [Workspace.build, hr', ← Workspace.class?_asClass hr hr']
    rfl
  cases hp : w.struct? r with
  | none =>
    rw [hp] at hbuild hbuild'
    rw [hbuild, hbuild']
    constructor
    · intro decl hdecl
      cases hdecl
    · intro f hf
      cases hf
      exact ⟨fun hown => absurd hown Bool.false_ne_true, fun _ => rfl⟩
  | some p =>
    rw [hp] at hbuild hbuild'
    constructor
    · intro decl hdecl
      obtain ⟨_, s, hsome, hs, rfl⟩ := Workspace.buildPlan_eq_ok.mp (hbuild.symm.trans hdecl)
      cases hsome
      have hclass := ClassDraft.build_eq_ok.mpr (StructDraft.build_eq_ok.mp hs).asClass
      have hok : w.build r' purpose' = .ok (.ofClass s.asClass) :=
        hbuild'.trans (Workspace.buildPlan_eq_ok.mpr ⟨_, _, rfl, hclass, rfl⟩)
      refine ⟨s, rfl, hok, ?_, ?_⟩
      · rw [Workspace.render, hdecl, ← s.render_keyword]
        rfl
      · rw [Workspace.render, hok, ← s.render_asClass]
        rfl
    · intro f hf
      have hmissing : isMissing p.name = false := by rw [Workspace.name_of_struct? hr hp, hname]
      rw [hbuild, Workspace.buildPlan_some_eq_error] at hf
      obtain ⟨hown, hshared⟩ := StructDraft.build_asClass_of_error hmissing hf
      rw [hbuild', Option.map_some]
      refine ⟨fun h => ?_, fun h => Workspace.buildPlan_some_eq_error.mpr (hshared h)⟩
      obtain ⟨c, hc⟩ := hown h
      exact ⟨c, Workspace.buildPlan_eq_ok.mpr ⟨_, _, rfl, hc, rfl⟩⟩

/-- The settings of a point with one coordinate and with this constructor. -/
def pointDraft (constructor : Ref) : StructDraft Ref Ref Ref Ref where
  name := some "Point".toList
  fields := [⟨0⟩]
  constructors := [constructor]

/-- Points as structures and as classes, with a constructor that takes the coordinate and with one that takes nothing. -/
def pointsWorkspace : Workspace where
  entries := [
    .fieldMember { name := some "x".toList, typeName := some "int".toList },
    .constructorMember {
      parameters := [{ name := "x".toList, typeName := "int".toList, receiver := some "this.x".toList }] },
    .constructorMember {},
    .structType (pointDraft ⟨1⟩),
    .classType (pointDraft ⟨1⟩).asClass,
    .structType (pointDraft ⟨2⟩),
    .classType (pointDraft ⟨2⟩).asClass]

/-- The structure that is built in `pointsWorkspace`. -/
def point : StructDecl where
  name := "Point".toList
  fields := [{ name := "x".toList, typeName := "int".toList }]
  constructors := [{
    className := "Point".toList
    parameters := [{ name := "x".toList, typeName := "int".toList, receiver := some "this.x".toList }] }]

theorem build_asClass_points :
    pointsWorkspace.build ⟨3⟩ {} = .ok (.ofStruct point) ∧ pointsWorkspace.build ⟨4⟩ {} = .ok (.ofClass point.asClass) ∧
      pointsWorkspace.build ⟨5⟩ {} = .error (.violation (.structParameterless "Point".toList)) ∧
      ∃ c, pointsWorkspace.build ⟨6⟩ {} = .ok (.ofClass c) := by
  have hentry : pointsWorkspace.entry? ⟨3⟩ = some (.structType (pointDraft ⟨1⟩)) := rfl
  have hentry' : pointsWorkspace.entry? ⟨4⟩ = some (.classType (pointDraft ⟨1⟩).asClass) := rfl
  have hok : pointsWorkspace.build ⟨3⟩ {} = .ok (.ofStruct point) := rfl
  obtain ⟨s, hs, hclass, -⟩ := (build_asClass hentry hentry' rfl {} {}).1 _ hok
  cases hs
  have hempty : pointsWorkspace.entry? ⟨5⟩ = some (.structType (pointDraft ⟨2⟩)) := rfl
  have hempty' : pointsWorkspace.entry? ⟨6⟩ = some (.classType (pointDraft ⟨2⟩).asClass) := rfl
  have herror : pointsWorkspace.build ⟨5⟩ {} = .error (.violation (.structParameterless "Point".toList)) := rfl
  exact ⟨hok, hclass, herror, ((build_asClass hempty hempty' rfl {} {}).2 _ herror).1 rfl⟩

end CSharpDraft
