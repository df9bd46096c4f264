import CSharpDraft.Proofs.Draft.Builds
import CSharpDraft.Proofs.Draft.Work
import CSharpDraft.Script

/-!
# Steps and runs of a script

* `Session.step_cases` : what a step does, by its three sorts; a step that fails has changed nothing;
* `Session.run_cons_ok`, `Session.run_cons_error`, `Session.run_append` : a run by its first step, and in two parts;
* `Workspace.Reachable` : the workspaces that new drafts and calls lead to from the empty one. A script never leaves them
  (`Session.run_reachable`), so what new drafts and calls preserve holds after every script.
-/

set_option autoImplicit false

namespace CSharpDraft

/-! ## Steps -/

namespace Play

variable {α β : Type} {s : Session}

theorem lift_apply (x : Work α) (s : Session) :
    (liftM x : Play α) s = match x s.workspace with
      | .ok a w => .ok a { s with workspace := w }
      | .error f w => .error f { s with workspace := w } := rfl

theorem leaves_work {x : Work α} {y : Except Fault α} (h : Leaves s.workspace x y) : Leaves s (liftM x : Play α) y := by
  unfold Leaves at h ⊢
  rw [lift_apply, h]
  cases y <;> rfl

theorem leaves_lift (y : Except Fault α) : Leaves s (liftM y : Play α) y := leaves_work (Work.leaves_lift y)

/-- No question changes the session. -/
theorem exists_leaves_answer [Fragment.Parser] (r : Ref) (query : Query) : ∃ y, Leaves s (answer r query) y := by
  cases query with
  | build purpose =>
    obtain ⟨y, hy⟩ := Work.exists_leaves_build (w := s.workspace) r purpose
    exact ⟨_, (leaves_work hy).map Answer.decl⟩
  | render purpose =>
    obtain ⟨y, hy⟩ := Work.exists_leaves_render (w := s.workspace) r purpose
    exact ⟨_, (leaves_work hy).map Answer.text⟩
  | hasMember name kind access caseSensitive =>
    obtain ⟨y, hy⟩ := Classical.skolem.mp (fun name =>
      Work.exists_leaves_hasMember (w := s.workspace) r { name, kind, access, caseSensitive })
    exact ⟨_, (leaves_lift _).bind (fun name _ => (leaves_work (hy name)).map Answer.truth)⟩
  | inspect setting =>
    obtain ⟨y, hy⟩ := Work.exists_leaves_inspect (w := s.workspace) r setting
    exact ⟨_, (leaves_work hy).map Answer.setting⟩

end Play

namespace Session

/-- A step fails and leaves the session as it was, or it adds the draft of a recipe under a name, or makes a call on a
draft, or answers a question and leaves the session as it was. -/
theorem step_cases [Fragment.Parser] (s : Session) (step : Step) :
    (∃ f, s.step step = .error f s) ∨
    (∃ recipe name e, step = .create recipe name ∧ recipe.entry = .ok e ∧ s.step step = .ok .created
      { workspace := (s.workspace.add e).1, names := (name, (s.workspace.add e).2) :: s.names }) ∨
    (∃ target call c r w, step = .call target call ∧ s.resolve call = .ok c ∧ s.find target = .ok r ∧
      s.workspace.call r c = .ok w ∧ s.step step = .ok .changed { s with workspace := w }) ∨
    (∃ target query a, step = .ask target query ∧ s.step step = .ok a s) := by
  have hget : (get : Play Session) s = .ok s s := rfl
  have hlift {α : Type} (y : Except Fault α) : (liftM y : Play α) s = result s y := Play.leaves_lift y
  cases step with
  | create recipe name =>
    simp only [Session.step, Play.step, bind_apply, Play.lift_apply, Work.run_create]
    cases he : recipe.entry with
    | error f => exact Or.inl ⟨f, rfl⟩
    | ok e => exact Or.inr (Or.inl ⟨recipe, name, e, rfl, he, rfl⟩)
  | call target call =>
    simp only [Session.step, Play.step, bind_apply, hget, hlift]
    cases hc : s.resolve call with
    | error f => exact Or.inl ⟨f, rfl⟩
    | ok c =>
      simp only [result, hlift]
      cases hr : s.find target with
      | error f => exact Or.inl ⟨f, rfl⟩
      | ok r =>
        simp only [Play.lift_apply, Work.run_call]
        cases hw : s.workspace.call r c with
        | error f => exact Or.inl ⟨f, rfl⟩
        | ok w => exact Or.inr (Or.inr (Or.inl ⟨target, call, c, r, w, rfl, hc, hr, hw, rfl⟩))
  | ask target query =>
    simp only [Session.step, Play.step, bind_apply, hget, hlift]
    cases hr : s.find target with
    | error f => exact Or.inl ⟨f, rfl⟩
    | ok r =>
      obtain ⟨y, hy⟩ := Play.exists_leaves_answer (s := s) r query
      have hanswer : Play.answer r query s = result s y := hy
      simp only [result, hanswer]
      cases y with
      | error f => exact Or.inl ⟨f, rfl⟩
      | ok a => exact Or.inr (Or.inr (Or.inr ⟨target, query, a, rfl, rfl⟩))

/-! ## Runs -/

theorem run_cons_ok [Fragment.Parser] {s t : Session} {step : Step} {a : Answer} (h : s.step step = .ok a t)
    (steps : List Step) :
    s.run (step :: steps) = ((t.run steps).1, .ok a :: (t.run steps).2) := by
  rw [run, h]

theorem run_cons_error [Fragment.Parser] {s t : Session} {step : Step} {f : Fault} (h : s.step step = .error f t)
    (steps : List Step) :
    s.run (step :: steps) = ((t.run steps).1, .error f :: (t.run steps).2) := by
  rw [run, h]

theorem run_append [Fragment.Parser] (s : Session) (steps more : List Step) :
    s.run (steps ++ more) = (((s.run steps).1.run more).1, (s.run steps).2 ++ ((s.run steps).1.run more).2) := by
  induction steps generalizing s with
  | nil => rfl
  | cons step steps ih =>
    rw [List.cons_append]
    cases h : s.step step with
    | error f t => rw [run_cons_error h, run_cons_error h, ih t, List.cons_append]
    | ok a t => rw [run_cons_ok h, run_cons_ok h, ih t, List.cons_append]

theorem length_run [Fragment.Parser] (s : Session) (steps : List Step) : (s.run steps).2.length = steps.length := by
  induction steps generalizing s with
  | nil => rfl
  | cons step steps ih =>
    cases h : s.step step with
    | error f t => rw [run_cons_error h, List.length_cons, List.length_cons, ih t]
    | ok a t => rw [run_cons_ok h, List.length_cons, List.length_cons, ih t]

end Session

/-! ## Workspaces that scripts lead to -/

/-- The workspaces that new drafts and calls lead to from the empty one. -/
inductive Workspace.Reachable : Workspace → Prop where
  | empty : Reachable {}
  | add {w : Workspace} {recipe : Recipe} {e : Entry} :
    Reachable w → recipe.entry = .ok e → Reachable (w.add e).1
  | call {w v : Workspace} {r : Ref} {c : Call Ref} : Reachable w → w.call r c = .ok v → Reachable v

/-- What a step leaves behind is reachable, whether it fails or not. -/
theorem Session.step_reachable [Fragment.Parser] {s : Session} (hs : s.workspace.Reachable) (step : Step) :
    (∃ f t, s.step step = .error f t ∧ t.workspace.Reachable) ∨ ∃ a t, s.step step = .ok a t ∧ t.workspace.Reachable := by
  obtain ⟨f, h⟩ | ⟨recipe, name, e, -, he, h⟩ | ⟨target, call, c, r, w, -, -, -, hw, h⟩ | ⟨target, query, a, -, h⟩ :=
    s.step_cases step
  · exact Or.inl ⟨f, s, h, hs⟩
  · exact Or.inr ⟨_, _, h, .add hs he⟩
  · exact Or.inr ⟨_, _, h, .call hs hw⟩
  · exact Or.inr ⟨a, s, h, hs⟩

theorem Session.run_reachable [Fragment.Parser] {s : Session} (hs : s.workspace.Reachable) (steps : List Step) :
    (s.run steps).1.workspace.Reachable := by
  induction steps generalizing s with
  | nil => exact hs
  | cons step steps ih =>
    obtain ⟨f, t, h, ht⟩ | ⟨a, t, h, ht⟩ := Session.step_reachable hs step
    · rw [Session.run_cons_error h]
      exact ih ht
    · rw [Session.run_cons_ok h]
      exact ih ht

end CSharpDraft
