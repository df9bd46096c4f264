import CSharpDraft.Proofs.Draft.Frame

/-!
# The answers of builds and questions

Work reads the drafts of a workspace one after the other, each when its turn comes. Where all references resolve this
comes to what is said of the workspace as a whole, with the drafts put together into plans first.

* `Workspace.entry_of_class?`, … : a plan, by the draft that it is of and the plans of the drafts in its lists;
* `Workspace.Resolves.leaves_build`, `Workspace.Resolves.leaves_hasMember`, `Workspace.leaves_inspect` : what is built and
  answered in a piece of work is what `Workspace.build`, `Workspace.hasMember` and `Workspace.inspect` say;
* `Session.step_ask_of_reachable` : so a script is answered with these.
-/

set_option autoImplicit false

namespace CSharpDraft

open List (Forall₂)

namespace Workspace

variable {w : Workspace} {r : Ref}

/-! ## Plans, by their parts -/

theorem forall₂_of_mapM {α β : Type} {f : α → Option β} {as : List α} {bs : List β} (h : as.mapM f = some bs) :
    Forall₂ (fun a b => f a = some b) as bs := by
  induction as generalizing bs with
  | nil =>
    cases h
    exact .nil
  | cons a as ih =>
    simp only [List.mapM_cons, Option.pure_def, Option.bind_eq_bind, Option.bind_eq_some_iff, Option.some.injEq] at h
    obtain ⟨b, hb, bs, hbs, rfl⟩ := h
    exact .cons hb (ih hbs)

theorem entry_of_typeParameter? {d : TypeParameterDraft} (h : w.typeParameter? r = some d) :
    w.entry? r = some (.typeParameter d) := by
  unfold typeParameter? at h
  split at h
  · next he =>
    cases h
    exact he
  · cases h

theorem entry_of_constructor? {d : ConstructorDraft} (h : w.constructor? r = some d) :
    w.entry? r = some (.constructorMember d) := by
  unfold constructor? at h
  split at h
  · next he =>
    cases h
    exact he
  · cases h

theorem entry_of_enumMember? {d : EnumMemberDraft} (h : w.enumMember? r = some d) :
    w.entry? r = some (.enumMember d) := by
  unfold enumMember? at h
  split at h
  · next he =>
    cases h
    exact he
  · cases h

theorem entry_of_field? {p : Plan.Field} (h : w.field? r = some p) :
    ∃ d ts, w.entry? r = some (.fieldMember d) ∧ Forall₂ (fun q t => w.typeParameter? q = some t) d.typeParameters ts ∧
      p = { d with typeParameters := ts } := by
  unfold field? at h
  split at h
  · next d he =>
    simp only [Option.pure_def, Option.bind_eq_bind, Option.bind_eq_some_iff, Option.some.injEq] at h
    obtain ⟨ts, hts, rfl⟩ := h
    exact ⟨d, ts, he, forall₂_of_mapM hts, rfl⟩
  · cases h

theorem entry_of_property? {p : Plan.Property} (h : w.property? r = some p) :
    ∃ d ts, w.entry? r = some (.propertyMember d) ∧
      Forall₂ (fun q t => w.typeParameter? q = some t) d.typeParameters ts ∧ p = { d with typeParameters := ts } := by
  unfold property? at h
  split at h
  · next d he =>
    simp only [Option.pure_def, Option.bind_eq_bind, Option.bind_eq_some_iff, Option.some.injEq] at h
    obtain ⟨ts, hts, rfl⟩ := h
    exact ⟨d, ts, he, forall₂_of_mapM hts, rfl⟩
  · cases h

theorem entry_of_class? {p : Plan.Class} (h : w.class? r = some p) :
    ∃ d ts fs ps cs, w.entry? r = some (.classType d) ∧
      Forall₂ (fun q t => w.typeParameter? q = some t) d.typeParameters ts ∧
      Forall₂ (fun q f => w.field? q = some f) d.fields fs ∧
      Forall₂ (fun q p => w.property? q = some p) d.properties ps ∧
      Forall₂ (fun q c => w.constructor? q = some c) d.constructors cs ∧
      p = { d with typeParameters := ts, fields := fs, properties := ps, constructors := cs } := by
  unfold class? at h
  split at h
  · next d he =>
    simp only [Option.pure_def, Option.bind_eq_bind, Option.bind_eq_some_iff, Option.some.injEq] at h
    obtain ⟨ts, hts, fs, hfs, ps, hps, cs, hcs, rfl⟩ := h
    exact ⟨d, ts, fs, ps, cs, he, forall₂_of_mapM hts, forall₂_of_mapM hfs, forall₂_of_mapM hps, forall₂_of_mapM hcs, rfl⟩
  · cases h

theorem entry_of_struct? {p : Plan.Struct} (h : w.struct? r = some p) :
    ∃ d ts fs ps cs, w.entry? r = some (.structType d) ∧
      Forall₂ (fun q t => w.typeParameter? q = some t) d.typeParameters ts ∧
      Forall₂ (fun q f => w.field? q = some f) d.fields fs ∧
      Forall₂ (fun q p => w.property? q = some p) d.properties ps ∧
      Forall₂ (fun q c => w.constructor? q = some c) d.constructors cs ∧
      p = { d with typeParameters := ts, fields := fs, properties := ps, constructors := cs } := by
  unfold struct? at h
  split at h
  · next d he =>
    simp only [Option.pure_def, Option.bind_eq_bind, Option.bind_eq_some_iff, Option.some.injEq] at h
    obtain ⟨ts, hts, fs, hfs, ps, hps, cs, hcs, rfl⟩ := h
    exact ⟨d, ts, fs, ps, cs, he, forall₂_of_mapM hts, forall₂_of_mapM hfs, forall₂_of_mapM hps, forall₂_of_mapM hcs, rfl⟩
  · cases h

theorem entry_of_interface? {p : Plan.Interface} (h : w.interface? r = some p) :
    ∃ d ts ps, w.entry? r = some (.interfaceType d) ∧
      Forall₂ (fun q t => w.typeParameter? q = some t) d.typeParameters ts ∧
      Forall₂ (fun q p => w.property? q = some p) d.properties ps ∧
      p = { d with typeParameters := ts, properties := ps } := by
  unfold interface? at h
  split at h
  · next d he =>
    simp only [Option.pure_def, Option.bind_eq_bind, Option.bind_eq_some_iff, Option.some.injEq] at h
    obtain ⟨ts, hts, ps, hps, rfl⟩ := h
    exact ⟨d, ts, ps, he, forall₂_of_mapM hts, forall₂_of_mapM hps, rfl⟩
  · cases h

theorem entry_of_enum? {p : Plan.Enum} (h : w.enum? r = some p) :
    ∃ d ms, w.entry? r = some (.enumType d) ∧ Forall₂ (fun q m => w.enumMember? q = some m) d.members ms ∧
      p = { d with members := ms } := by
  unfold enum? at h
  split at h
  · next d he =>
    simp only [Option.pure_def, Option.bind_eq_bind, Option.bind_eq_some_iff, Option.some.injEq] at h
    obtain ⟨ms, hms, rfl⟩ := h
    exact ⟨d, ms, he, forall₂_of_mapM hms, rfl⟩
  · cases h

theorem entry_of_namespace? {p : Plan.Namespace} (h : w.namespace? r = some p) :
    ∃ d gs ss is es, w.entry? r = some (.namespaceFile d) ∧
      Forall₂ (fun q c => w.class? q = some c) d.classes gs ∧ Forall₂ (fun q s => w.struct? q = some s) d.structs ss ∧
      Forall₂ (fun q i => w.interface? q = some i) d.interfaces is ∧
      Forall₂ (fun q e => w.enum? q = some e) d.enums es ∧
      p = { d with classes := gs, structs := ss, interfaces := is, enums := es } := by
  unfold namespace? at h
  split at h
  · next d he =>
    simp only [Option.pure_def, Option.bind_eq_bind, Option.bind_eq_some_iff, Option.some.injEq] at h
    obtain ⟨gs, hgs, ss, hss, is, his, es, hes, rfl⟩ := h
    exact ⟨d, gs, ss, is, es, he, forall₂_of_mapM hgs, forall₂_of_mapM hss, forall₂_of_mapM his, forall₂_of_mapM hes, rfl⟩
  · cases h

/-! ## Builds -/

theorem leaves_buildTypeParameter {d : TypeParameterDraft} (h : w.typeParameter? r = some d) :
    Leaves w (Work.buildTypeParameter r) d.build :=
  Work.leaves_entry_bind (entry_of_typeParameter? h) (Work.leaves_lift _)

theorem leaves_buildConstructor {d : ConstructorDraft} (h : w.constructor? r = some d) (t : Text) (b : Bool) :
    Leaves w (Work.buildConstructor r t b) (d.build t b) :=
  Work.leaves_entry_bind (entry_of_constructor? h) (Work.leaves_lift _)

theorem leaves_buildEnumMember {d : EnumMemberDraft} (h : w.enumMember? r = some d) :
    Leaves w (Work.buildEnumMember r) d.build :=
  Work.leaves_entry_bind (entry_of_enumMember? h) (Work.leaves_lift _)

theorem leaves_buildField {p : Plan.Field} (h : w.field? r = some p) :
    Leaves w (Work.buildField r) (FieldDraft.build p) := by
  obtain ⟨d, ts, he, hts, rfl⟩ := entry_of_field? h
  exact Work.leaves_entry_bind he (FieldDraft.leaves_buildWith (hts.imp (fun _ _ => leaves_buildTypeParameter)))

theorem leaves_buildProperty {p : Plan.Property} (h : w.property? r = some p) (b : Bool) :
    Leaves w (Work.buildProperty r b) (PropertyDraft.build p b) := by
  obtain ⟨d, ts, he, hts, rfl⟩ := entry_of_property? h
  exact Work.leaves_entry_bind he (PropertyDraft.leaves_buildWith b (hts.imp (fun _ _ => leaves_buildTypeParameter)))

theorem leaves_buildClass {p : Plan.Class} (h : w.class? r = some p) :
    Leaves w (Work.buildClass r) (ClassDraft.build p) := by
  obtain ⟨d, ts, fs, ps, cs, he, hts, hfs, hps, hcs, rfl⟩ := entry_of_class? h
  exact Work.leaves_entry_bind he (ClassDraft.leaves_buildWith (hts.imp (fun _ _ => leaves_buildTypeParameter))
    (hfs.imp (fun _ _ => leaves_buildField)) (hps.imp (fun _ _ => leaves_buildProperty))
    (hcs.imp (fun _ _ => leaves_buildConstructor)))

theorem leaves_buildStruct {p : Plan.Struct} (h : w.struct? r = some p) :
    Leaves w (Work.buildStruct r) (StructDraft.build p) := by
  obtain ⟨d, ts, fs, ps, cs, he, hts, hfs, hps, hcs, rfl⟩ := entry_of_struct? h
  exact Work.leaves_entry_bind he (StructDraft.leaves_buildWith (hts.imp (fun _ _ => leaves_buildTypeParameter))
    (hfs.imp (fun _ _ => leaves_buildField)) (hps.imp (fun _ _ => leaves_buildProperty))
    (hcs.imp (fun _ _ => leaves_buildConstructor)))

theorem leaves_buildInterface {p : Plan.Interface} (h : w.interface? r = some p) :
    Leaves w (Work.buildInterface r) (InterfaceDraft.build p) := by
  obtain ⟨d, ts, ps, he, hts, hps, rfl⟩ := entry_of_interface? h
  exact Work.leaves_entry_bind he (InterfaceDraft.leaves_buildWith (hts.imp (fun _ _ => leaves_buildTypeParameter))
    (hps.imp (fun _ _ => leaves_buildProperty)))

theorem leaves_buildEnum {p : Plan.Enum} (h : w.enum? r = some p) : Leaves w (Work.buildEnum r) (EnumDraft.build p) := by
  obtain ⟨d, ms, he, hms, rfl⟩ := entry_of_enum? h
  exact Work.leaves_entry_bind he (EnumDraft.leaves_buildWith (hms.imp (fun _ _ => leaves_buildEnumMember)))

theorem leaves_buildNamespace {p : Plan.Namespace} (h : w.namespace? r = some p) :
    Leaves w (Work.buildNamespace r) (NamespaceDraft.build p) := by
  obtain ⟨d, gs, ss, is, es, he, hgs, hss, his, hes, rfl⟩ := entry_of_namespace? h
  exact Work.leaves_entry_bind he (NamespaceDraft.leaves_buildWith (hgs.imp (fun _ _ => leaves_buildClass))
    (hss.imp (fun _ _ => leaves_buildStruct)) (his.imp (fun _ _ => leaves_buildInterface))
    (hes.imp (fun _ _ => leaves_buildEnum)))

theorem leaves_buildPlan {α β : Type} {plan : Option α} {build : α → Except Fault β} {work : Work β} (wrap : β → Decl)
    (hplan : plan.isSome = true) (h : ∀ {p}, plan = some p → Leaves w work (build p)) :
    Leaves w (do return wrap (← work)) (buildPlan plan build wrap) := by
  obtain ⟨p, hp⟩ := Option.isSome_iff_exists.mp hplan
  rw [hp]
  exact (h hp).map wrap

/-- Where references resolve, a build that reads the drafts one by one builds the plan that they make up. -/
theorem Resolves.leaves_build (hw : w.Resolves) (r : Ref) (purpose : Purpose) :
    Leaves w (Work.build r purpose) (w.build r purpose) := by
  cases he : w.entry? r with
  | none =>
    rw [build, he]
    exact Work.leaves_no_entry he _
  | some e =>
    have hholds : w.holds e.kind r = true := holds_eq_true.mpr ⟨e, he, rfl⟩
    rw [build, he, Option.map_some]
    refine Work.leaves_entry_bind he ?_
    cases hkind : e.kind with
    | typeParameter => exact leaves_buildPlan _ (isSome_typeParameter? (hkind ▸ hholds)) leaves_buildTypeParameter
    | fieldMember => exact leaves_buildPlan _ (hw.isSome_field? (hkind ▸ hholds)) leaves_buildField
    | propertyMember =>
      exact leaves_buildPlan _ (hw.isSome_property? (hkind ▸ hholds)) (fun h => leaves_buildProperty h purpose.inInterface)
    | constructorMember =>
      exact leaves_buildPlan _ (isSome_constructor? (hkind ▸ hholds))
        (fun h => leaves_buildConstructor h purpose.typeName purpose.isStatic)
    | enumMember => exact leaves_buildPlan _ (isSome_enumMember? (hkind ▸ hholds)) leaves_buildEnumMember
    | classType => exact leaves_buildPlan _ (hw.isSome_class? (hkind ▸ hholds)) leaves_buildClass
    | structType => exact leaves_buildPlan _ (hw.isSome_struct? (hkind ▸ hholds)) leaves_buildStruct
    | interfaceType => exact leaves_buildPlan _ (hw.isSome_interface? (hkind ▸ hholds)) leaves_buildInterface
    | enumType => exact leaves_buildPlan _ (hw.isSome_enum? (hkind ▸ hholds)) leaves_buildEnum
    | namespaceFile => exact leaves_buildPlan _ (hw.isSome_namespace? (hkind ▸ hholds)) leaves_buildNamespace

theorem Resolves.leaves_render [Fragment.Parser] (hw : w.Resolves) (r : Ref) (purpose : Purpose) :
    Leaves w (Work.render r purpose) (w.render r purpose) :=
  (hw.leaves_build r purpose).bind (fun d _ => Work.leaves_lift d.render)

/-! ## Questions -/

/-- The draft has the name and the access modifier of the plan. -/
def Shows (w : Workspace) (r : Ref) (name : Option Text) (access : Access) : Prop :=
  ∃ e, w.entry? r = some e ∧ e.name? = some name ∧ e.access? = some access

theorem Shows.leaves_isMeant {name : Option Text} {access : Access} (h : w.Shows r name access) (q : MemberQuery) :
    Leaves w (Work.isMeant q r) (pure (q.matches name access)) := by
  obtain ⟨e, he, hname, haccess⟩ := h
  refine Work.leaves_entry_bind he ?_
  rw [hname, haccess]
  exact leaves_pure _

theorem leaves_anyMeant {α : Type} {name : α → Option Text} {access : α → Access} {rs : List Ref} {ps : List α}
    (h : Forall₂ (fun r p => w.Shows r (name p) (access p)) rs ps) (q : MemberQuery) (kind : MemberKind) :
    Leaves w (Work.anyMeant q kind rs)
      (pure (q.asksFor kind && ps.any (fun p => q.matches (name p) (access p)))) := by
  unfold Work.anyMeant
  cases q.asksFor kind with
  | false => exact leaves_pure false
  | true =>
    have hany := Work.leaves_anyM (h.imp (fun r p hp => hp.leaves_isMeant q))
    rwa [List.anyM_pure] at hany

theorem shows_of_field? {p : Plan.Field} (h : w.field? r = some p) : w.Shows r p.name p.access := by
  obtain ⟨d, ts, he, -, rfl⟩ := entry_of_field? h
  exact ⟨_, he, rfl, rfl⟩

theorem shows_of_property? {p : Plan.Property} (h : w.property? r = some p) : w.Shows r p.name p.access := by
  obtain ⟨d, ts, he, -, rfl⟩ := entry_of_property? h
  exact ⟨_, he, rfl, rfl⟩

theorem shows_of_class? {p : Plan.Class} (h : w.class? r = some p) : w.Shows r p.name p.access := by
  obtain ⟨d, _, _, _, _, he, -, -, -, -, rfl⟩ := entry_of_class? h
  exact ⟨_, he, rfl, rfl⟩

theorem shows_of_struct? {p : Plan.Struct} (h : w.struct? r = some p) : w.Shows r p.name p.access := by
  obtain ⟨d, _, _, _, _, he, -, -, -, -, rfl⟩ := entry_of_struct? h
  exact ⟨_, he, rfl, rfl⟩

theorem shows_of_interface? {p : Plan.Interface} (h : w.interface? r = some p) : w.Shows r p.name p.access := by
  obtain ⟨d, _, _, he, -, -, rfl⟩ := entry_of_interface? h
  exact ⟨_, he, rfl, rfl⟩

theorem shows_of_enum? {p : Plan.Enum} (h : w.enum? r = some p) : w.Shows r p.name p.access := by
  obtain ⟨d, _, he, -, rfl⟩ := entry_of_enum? h
  exact ⟨_, he, rfl, rfl⟩

theorem leaves_isNamed {d : EnumMemberDraft} (h : w.enumMember? r = some d) (q : MemberQuery) :
    Leaves w (Work.isNamed q r) (pure (q.matchesName d.name)) :=
  Work.leaves_entry_bind (entry_of_enumMember? h) (leaves_pure _)

theorem leaves_or_pure {x z : Work Bool} {a b : Bool} (hx : Leaves w x (pure a)) (hz : Leaves w z (pure b)) :
    Leaves w (x <||> z) (pure (a || b)) := by
  have h := Work.leaves_or hx hz
  cases a <;> exact h

/-- A question for a member, asked of the drafts one by one, has the answer that the plan gives. -/
theorem Resolves.leaves_hasMember (hw : w.Resolves) (r : Ref) (q : MemberQuery) :
    Leaves w (Work.hasMember r q) (w.hasMember r q) := by
  cases he : w.entry? r with
  | none =>
    rw [hasMember, he]
    exact Work.leaves_no_entry he _
  | some e =>
    have hholds : w.holds e.kind r = true := holds_eq_true.mpr ⟨e, he, rfl⟩
    rw [hasMember, he, Option.map_some]
    refine Work.leaves_entry_bind he ?_
    cases e with
    | classType d =>
      obtain ⟨p, hp⟩ := Option.isSome_iff_exists.mp (hw.isSome_class? hholds)
      obtain ⟨d', ts, fs, ps, cs, he', -, hfs, hps, -, rfl⟩ := entry_of_class? hp
      cases he.symm.trans he'
      simp only [Entry.kind, hp]
      exact leaves_or_pure (leaves_anyMeant (hfs.imp (fun _ _ => shows_of_field?)) q .field)
        (leaves_anyMeant (hps.imp (fun _ _ => shows_of_property?)) q .property)
    | structType d =>
      obtain ⟨p, hp⟩ := Option.isSome_iff_exists.mp (hw.isSome_struct? hholds)
      obtain ⟨d', ts, fs, ps, cs, he', -, hfs, hps, -, rfl⟩ := entry_of_struct? hp
      cases he.symm.trans he'
      simp only [Entry.kind, hp]
      exact leaves_or_pure (leaves_anyMeant (hfs.imp (fun _ _ => shows_of_field?)) q .field)
        (leaves_anyMeant (hps.imp (fun _ _ => shows_of_property?)) q .property)
    | interfaceType d =>
      obtain ⟨p, hp⟩ := Option.isSome_iff_exists.mp (hw.isSome_interface? hholds)
      obtain ⟨d', ts, ps, he', -, hps, rfl⟩ := entry_of_interface? hp
      cases he.symm.trans he'
      simp only [Entry.kind, hp]
      exact leaves_anyMeant (hps.imp (fun _ _ => shows_of_property?)) q .property
    | enumType d =>
      obtain ⟨p, hp⟩ := Option.isSome_iff_exists.mp (hw.isSome_enum? hholds)
      obtain ⟨d', ms, he', hms, rfl⟩ := entry_of_enum? hp
      cases he.symm.trans he'
      simp only [Entry.kind, hp]
      have hany := Work.leaves_anyM (hms.imp (fun _ _ h => leaves_isNamed h q))
      rwa [List.anyM_pure] at hany
    | namespaceFile d =>
      obtain ⟨p, hp⟩ := Option.isSome_iff_exists.mp (hw.isSome_namespace? hholds)
      obtain ⟨d', gs, ss, is, es, he', hgs, hss, his, hes, rfl⟩ := entry_of_namespace? hp
      cases he.symm.trans he'
      simp only [Entry.kind, hp]
      have hclasses := leaves_anyMeant (hgs.imp (fun _ _ => shows_of_class?)) q .classType
      have hstructs := leaves_anyMeant (hss.imp (fun _ _ => shows_of_struct?)) q .structType
      have hinterfaces := leaves_anyMeant (his.imp (fun _ _ => shows_of_interface?)) q .interfaceType
      have henums := leaves_anyMeant (hes.imp (fun _ _ => shows_of_enum?)) q .enumType
      have hall := leaves_or_pure hclasses (leaves_or_pure hstructs (leaves_or_pure hinterfaces henums))
      rwa [← Bool.or_assoc, ← Bool.or_assoc] at hall
    | _ => exact leaves_throw _

theorem leaves_inspect (w : Workspace) (r : Ref) (setting : Readable) :
    Leaves w (Work.inspect r setting) (w.inspect r setting) := by
  cases he : w.entry? r with
  | none =>
    rw [inspect, he]
    exact Work.leaves_no_entry he _
  | some e =>
    rw [inspect, he, Option.bind_some]
    refine Work.leaves_entry_bind he ?_
    cases e.read? setting with
    | none => exact leaves_throw _
    | some t => exact leaves_pure t

/-! ## Answers -/

/-- What a workspace says to a question about one of its drafts. -/
def reply [Fragment.Parser] (w : Workspace) (r : Ref) : Query → Except Fault Answer
  | .build purpose => do return .decl (← w.build r purpose)
  | .render purpose => do return .text (← w.render r purpose)
  | .hasMember name kind access caseSensitive => do
    let name ← given "name" name
    return .truth (← w.hasMember r { name, kind, access, caseSensitive })
  | .inspect setting => do return .setting (← w.inspect r setting)

end Workspace

namespace Session

theorem leaves_answer [Fragment.Parser] {s : Session} (hw : s.workspace.Resolves) (r : Ref) (query : Query) :
    Leaves s (Play.answer r query) (s.workspace.reply r query) := by
  cases query with
  | build purpose =>
    exact (Play.leaves_work (hw.leaves_build r purpose)).bind (fun d _ => leaves_pure (Answer.decl d))
  | render purpose =>
    exact (Play.leaves_work (hw.leaves_render r purpose)).bind (fun t _ => leaves_pure (Answer.text t))
  | hasMember name kind access caseSensitive =>
    exact (Play.leaves_lift _).bind (fun name _ =>
      (Play.leaves_work (hw.leaves_hasMember r _)).bind (fun b _ => leaves_pure (Answer.truth b)))
  | inspect setting =>
    exact (Play.leaves_work (s.workspace.leaves_inspect r setting)).bind (fun t _ => leaves_pure (Answer.setting t))

/-- Wherever new drafts and calls have led, a question about a draft that a name stands for has the answer that the
workspace as a whole gives, and changes nothing. -/
theorem step_ask_of_reachable [Fragment.Parser] {s : Session} (hs : s.workspace.Reachable) {target : Text} {r : Ref}
    (h : s.find target = .ok r) (query : Query) :
    s.step (.ask target query) = result s (s.workspace.reply r query) := by
  have hget : (get : Play Session) s = .ok s s := rfl
  have hfind : (liftM (s.find target) : Play Ref) s = result s (.ok r) := by
    rw [← h]
    exact Play.leaves_lift _
  have hanswer : Play.answer r query s = _ := leaves_answer hs.resolves r query
  simp only [Session.step, Play.step, bind_apply, hget, hfind, result, hanswer]

end Session

end CSharpDraft
