import CSharpDraft.Fragment.Grammar
import CSharpDraft.Proofs.Draft.Bulk

/-!
# Questions and rejected steps are invisible

A script is run a second time without its questions and without the steps that were answered with a fault: the other
steps get the answers that they got before, and the session ends as it ended before.

* `leavesTrace`, `Session.traces` : the steps that count, with their answers;
* `Session.step_error`, `Session.step_ask` : steps that fail, and questions, leave the session as it was;
* `Session.run_traces` : the two runs end in the same session, by induction on the steps;
* `Call.Rejected` : calls with something wrong in an argument, which `Session.step_rejected` never accepts;
* `runScript_traces` : what follows for the answers.
-/

set_option autoImplicit false

namespace CSharpDraft

open List (Forall₂)

/-! ## Steps that leave a trace -/

/-- Whether a step with its answer has changed the session: a question has not, nor has a step that failed. -/
def leavesTrace : Step × Except Fault Answer → Bool
  | (.ask _ _, _) => false
  | (_, .error _) => false
  | (_, .ok _) => true

/-- The steps of a script that leave a trace, with their answers. -/
def Session.traces [Fragment.Parser] (s : Session) (steps : List Step) : List (Step × Except Fault Answer) :=
  (steps.zip (s.run steps).2).filter leavesTrace

namespace Session

theorem step_error [Fragment.Parser] {s t : Session} {step : Step} {f : Fault} (h : s.step step = .error f t) : t = s := by
  obtain ⟨g, hg⟩ | ⟨_, _, _, -, -, hok⟩ | ⟨_, _, _, _, _, -, -, -, -, hok⟩ | ⟨_, _, _, -, hok⟩ := s.step_cases step
  · rw [hg] at h
    cases h
    rfl
  · rw [hok] at h
    cases h
  · rw [hok] at h
    cases h
  · rw [hok] at h
    cases h

theorem step_ask [Fragment.Parser] {s t : Session} {target : Text} {query : Query} {a : Answer}
    (h : s.step (.ask target query) = .ok a t) : t = s := by
  obtain ⟨_, herror⟩ | ⟨_, _, _, hstep, -⟩ | ⟨_, _, _, _, _, hstep, -⟩ | ⟨_, _, b, -, hok⟩ :=
    s.step_cases (.ask target query)
  · rw [herror] at h
    cases h
  · cases hstep
  · cases hstep
  · rw [hok] at h
    cases h
    rfl

theorem traces_cons_error [Fragment.Parser] {s t : Session} {step : Step} {f : Fault} (h : s.step step = .error f t)
    (steps : List Step) : s.traces (step :: steps) = s.traces steps := by
  have hno : ¬ leavesTrace (step, .error f) = true := by cases step <;> simp [leavesTrace]
  rw [traces, run_cons_error h, List.zip_cons_cons, List.filter_cons_of_neg hno, step_error h, traces]

theorem traces_cons_ask [Fragment.Parser] {s t : Session} {target : Text} {query : Query} {a : Answer}
    (h : s.step (.ask target query) = .ok a t) (steps : List Step) :
    s.traces (.ask target query :: steps) = s.traces steps := by
  have hno : ¬ leavesTrace (.ask target query, .ok a) = true := by simp [leavesTrace]
  rw [traces, run_cons_ok h, List.zip_cons_cons, List.filter_cons_of_neg hno, step_ask h, traces]

theorem traces_cons_ok [Fragment.Parser] {s t : Session} {step : Step} {a : Answer} (h : s.step step = .ok a t)
    (htrace : leavesTrace (step, .ok a) = true) (steps : List Step) :
    s.traces (step :: steps) = (step, .ok a) :: t.traces steps := by
  rw [traces, run_cons_ok h, List.zip_cons_cons, List.filter_cons_of_pos htrace, traces]

/-- Only a question is answered without leaving a trace. -/
theorem exists_ask_of_not_leavesTrace {step : Step} {a : Answer} (h : ¬ leavesTrace (step, .ok a) = true) :
    ∃ target query, step = .ask target query := by
  cases step with
  | create recipe name => exact absurd rfl h
  | call target call => exact absurd rfl h
  | ask target query => exact ⟨target, query, rfl⟩

/-- The steps that leave a trace are answered as before, and lead to the same session. -/
theorem run_traces [Fragment.Parser] (s : Session) (steps : List Step) :
    s.run ((s.traces steps).map (·.1)) = ((s.run steps).1, (s.traces steps).map (·.2)) := by
  induction steps generalizing s with
  | nil => rfl
  | cons step steps ih =>
    cases h : s.step step with
    | error f t => rw [traces_cons_error h, run_cons_error h, step_error h, ih s]
    | ok a t =>
      by_cases htrace : leavesTrace (step, .ok a) = true
      · rw [traces_cons_ok h htrace, run_cons_ok h, List.map_cons, List.map_cons, run_cons_ok h, ih t]
      · obtain ⟨target, query, rfl⟩ := exists_ask_of_not_leavesTrace htrace
        rw [traces_cons_ask h, run_cons_ok h, step_ask h, ih s]

end Session

/-! ## Rejected calls -/

/-- Whether a name was left out or is blank. -/
def Value.isMissing : Value Text → Bool
  | nothing => true
  | item t => Text.isBlank t
  | other => false

/-- Calls with something wrong in an argument, however many good arguments come before it: a missing draft or name among
several, a blank name or argument, a blank receiver of a parameter, a value that is no integer. -/
inductive Call.Rejected {ρ : Type} : Call ρ → Prop where
  | addChildren (list : ChildList) {children : Bundle ρ} :
    .nothing ∈ children.items → Rejected (.addChildren list children)
  | addNames (list : NameList) {names : Bundle Text} {n : Value Text} :
    n ∈ names.items → n.isMissing = true → Rejected (.addNames list names)
  | setBaseCall {arguments : Bundle Text} {a : Value Text} :
    a ∈ arguments.items → a.isMissing = true → Rejected (.setBaseCall arguments)
  | addParameter (typeName name : Option Text) {receiver : Text} :
    Text.isBlank receiver = true → Rejected (.addParameter typeName name (some receiver))
  | setValue (typeName : Text) : Rejected (.setValue (.other typeName))

theorem Bundle.collectNames_given {argument : String} {b : Bundle Text} {ns : List Text}
    (h : b.collectNames argument = .ok ns) : ∀ v ∈ b.items, v.isMissing = false := by
  intro v hv
  obtain ⟨n, -, t, rfl, hn⟩ := forall₂_exists_left (Bundle.collectBy_eq_ok.mp h).flip v hv
  exact (nonBlank_eq_ok.mp hn).isMissing_eq

theorem Bundle.collectUsings_given {argument : String} {b : Bundle Text} {ns : List Text}
    (h : b.collectUsings argument = .ok ns) : ∀ v ∈ b.items, v.isMissing = false := by
  intro v hv
  obtain ⟨n, -, t, rfl, hn⟩ := forall₂_exists_left (Bundle.collectBy_eq_ok.mp h).flip v hv
  obtain ⟨u, hu, -⟩ := bind_eq_ok.mp hn
  exact (nonBlank_eq_ok.mp hu).isMissing_eq

theorem listedNames_given {list : NameList} {b : Bundle Text} {ns : List Text} (h : listedNames list b = .ok ns) :
    ∀ v ∈ b.items, v.isMissing = false := by
  cases list with
  | interfaces => exact Bundle.collectNames_given h
  | constraints => exact Bundle.collectNames_given h
  | usings => exact Bundle.collectUsings_given h

theorem Call.Rejected.change_ne_ok {c : Call Ref} (hc : c.Rejected) (x : Change) : c.change ≠ .ok x := by
  intro h
  cases hc with
  | addChildren list hnone =>
    simp only [Call.change, bind_eq_ok] at h
    obtain ⟨rs, hrs, -⟩ := h
    obtain ⟨vs, hvs, -⟩ := bind_eq_ok.mp hrs
    exact (Bundle.values_eq_ok.mp hvs).2 hnone
  | addNames list hn hmissing =>
    simp only [Call.change, bind_eq_ok] at h
    obtain ⟨ns, hns, -⟩ := h
    have hgiven := listedNames_given hns _ hn
    rw [hmissing] at hgiven
    cases hgiven
  | setBaseCall ha hmissing =>
    simp only [Call.change, bind_eq_ok] at h
    obtain ⟨as, has, -⟩ := h
    have hgiven := Bundle.collectNames_given has _ ha
    rw [hmissing] at hgiven
    cases hgiven
  | addParameter typeName name hblank =>
    simp only [Call.change, bind_eq_ok] at h
    obtain ⟨p, hp, -⟩ := h
    simp only [parameterOf, bind_eq_ok, nonBlank_eq_ok] at hp
    obtain ⟨_, -, _, -, r, hr, -⟩ := hp
    have hgiven := hr.isMissing_eq
    rw [CSharpDraft.isMissing, Option.all_some, hblank] at hgiven
    cases hgiven
  | setValue typeName => cases h

theorem Session.findPassed_cases {s : Session} {p : Passed Text} {q : Passed Ref} (h : s.findPassed p = .ok q) :
    s.findValue p.value = .ok q.value ∧
      ((∃ vs us, p = .several vs ∧ q = .several us ∧ Forall₂ (fun v u => s.findValue v = .ok u) vs us) ∨
        (∀ vs, p ≠ .several vs) ∧ ∀ us, q ≠ .several us) := by
  cases p with
  | one v =>
    rw [findPassed] at h
    cases hv : s.findValue v with
    | error f =>
      rw [hv] at h
      cases h
    | ok u =>
      rw [hv] at h
      cases h
      exact ⟨hv, Or.inr ⟨nofun, nofun⟩⟩
  | text name =>
    rw [findPassed] at h
    cases hr : s.find name with
    | error f =>
      rw [hr] at h
      cases h
    | ok r =>
      rw [hr] at h
      cases h
      refine ⟨?_, Or.inr ⟨nofun, nofun⟩⟩
      rw [Passed.value, findValue, hr]
      rfl
  | several vs =>
    rw [findPassed] at h
    cases hus : checkEach s.findValue vs with
    | error f =>
      rw [hus] at h
      cases h
    | ok us =>
      rw [hus] at h
      cases h
      exact ⟨rfl, Or.inl ⟨vs, us, rfl, rfl, checkEach_eq_ok.mp hus⟩⟩

/-- Things are looked up one by one, whichever way they are passed. -/
theorem Session.items_findPassed {s : Session} {ps : List (Passed Text)} {qs : List (Passed Ref)}
    (h : checkEach s.findPassed ps = .ok qs) :
    Forall₂ (fun v u => s.findValue v = .ok u) (Bundle.items ⟨ps⟩) (Bundle.items ⟨qs⟩) := by
  rw [checkEach_eq_ok] at h
  have hvalues : Forall₂ (fun v u => s.findValue v = .ok u) (ps.map Passed.value) (qs.map Passed.value) := by
    rw [List.forall₂_map_left_iff, List.forall₂_map_right_iff]
    exact h.imp (fun _ _ hpq => (findPassed_cases hpq).1)
  cases h with
  | nil => exact .nil
  | @cons p q ps qs hpq hrest =>
    cases hrest with
    | cons => cases p <;> cases q <;> exact hvalues
    | nil =>
      obtain ⟨-, ⟨vs, us, rfl, rfl, hus⟩ | ⟨hp, hq⟩⟩ := findPassed_cases hpq
      · exact hus
      · rw [Bundle.items_of_single (by simpa using hp), Bundle.items_of_single (by simpa using hq)]
        exact hvalues

/-- Names in the place of drafts do not make up for what is wrong. -/
theorem Call.Rejected.resolve {s : Session} {c : Call Text} {c' : Call Ref} (hc : c.Rejected)
    (h : s.resolve c = .ok c') : c'.Rejected := by
  cases hc with
  | addChildren list hnone =>
    simp only [Session.resolve, bind_eq_ok, pure_eq_ok] at h
    obtain ⟨refs, hrefs, rfl⟩ := h
    obtain ⟨u, hu, hfound⟩ := forall₂_exists_left (Session.items_findPassed hrefs).flip _ hnone
    cases hfound
    exact .addChildren list hu
  | addNames list hn hmissing =>
    cases h
    exact .addNames list hn hmissing
  | setBaseCall ha hmissing =>
    cases h
    exact .setBaseCall ha hmissing
  | addParameter typeName name hblank =>
    cases h
    exact .addParameter typeName name hblank
  | setValue typeName =>
    cases h
    exact .setValue typeName

theorem Session.step_rejected [Fragment.Parser] (s : Session) (target : Text) {c : Call Text} (hc : c.Rejected) :
    ∃ f, s.step (.call target c) = .error f s := by
  obtain herror | ⟨_, _, _, hstep, -⟩ | ⟨_, _, c', r, w, hstep, hresolve, -, hcall, -⟩ | ⟨_, _, _, hstep, -⟩ :=
    s.step_cases (.call target c)
  · exact herror
  · cases hstep
  · cases hstep
    obtain ⟨x, hx, -⟩ := bind_eq_ok.mp hcall
    exact absurd hx ((hc.resolve hresolve).change_ne_ok x)
  · cases hstep

/-! ## Scripts -/

/-- A question that is asked twice gets one answer, and keeps the session. -/
theorem Session.run_ask_twice [Fragment.Parser] (s : Session) (target : Text) (query : Query) :
    ∃ a, s.run [.ask target query, .ask target query] = (s, [a, a]) := by
  cases h : s.step (.ask target query) with
  | error f t =>
    obtain rfl : t = s := step_error h
    refine ⟨.error f, ?_⟩
    rw [run_cons_error h, run_cons_error h]
    rfl
  | ok a t =>
    obtain rfl : t = s := step_ask h
    refine ⟨.ok a, ?_⟩
    rw [run_cons_ok h, run_cons_ok h]
    rfl

theorem Session.run_rejected [Fragment.Parser] (s : Session) (target : Text) {c : Call Text} (hc : c.Rejected) :
    ∃ f, s.run [.call target c] = (s, [.error f]) := by
  obtain ⟨f, hf⟩ := s.step_rejected target hc
  refine ⟨f, ?_⟩
  rw [run_cons_error hf]
  rfl

/-- Questions and rejected steps of a script are invisible: without them the other steps are answered as before, and so
is everything that comes after. In particular a text that is asked for twice comes out the same, and a call with
something wrong in an argument leaves the session as it was. -/
theorem runScript_traces [Fragment.Parser] (steps : List Step) :
    let kept := Session.traces {} steps
    (runScript (kept.map (·.1)) = kept.map (·.2) ∧
      ∀ more, (runScript (kept.map (·.1) ++ more)).drop kept.length = (runScript (steps ++ more)).drop steps.length) ∧
    (∀ target purpose, ∃ a,
      runScript (steps ++ [.ask target (.render purpose), .ask target (.render purpose)]) = runScript steps ++ [a, a]) ∧
    ∀ target (c : Call Text), c.Rejected →
      (∃ f, runScript (steps ++ [.call target c]) = runScript steps ++ [.error f]) ∧
        (Session.run {} (steps ++ [.call target c])).1 = (Session.run {} steps).1 := by
  intro kept
  have hrun : Session.run {} (kept.map (·.1)) = ((Session.run {} steps).1, kept.map (·.2)) :=
    Session.run_traces {} steps
  refine ⟨⟨?_, fun more => ?_⟩, fun target purpose => ?_, fun target c hc => ?_⟩
  · rw [runScript, hrun]
  · have hkept : (kept.map (·.2)).length = kept.length := List.length_map _
    have hsteps : (Session.run {} steps).2.length = steps.length := Session.length_run {} steps
    rw [runScript, runScript, Session.run_append, Session.run_append, hrun]
    show ((kept.map (·.2)) ++ _).drop kept.length = ((Session.run {} steps).2 ++ _).drop steps.length
    rw [← hkept, ← hsteps, List.drop_left, List.drop_left]
  · obtain ⟨a, ha⟩ := (Session.run {} steps).1.run_ask_twice target (.render purpose)
    refine ⟨a, ?_⟩
    rw [runScript, Session.run_append, ha]
    rfl
  · obtain ⟨f, hf⟩ := (Session.run {} steps).1.run_rejected target hc
    have hall := Session.run_append {} steps [.call target c]
    rw [hf] at hall
    refine ⟨⟨f, ?_⟩, ?_⟩
    · rw [runScript, hall]
      rfl
    · rw [hall]

/-- A script in which a class is asked for its text, before and after calls that fail. -/
def rejectingScript : List Step := [
  .create (.classType (some (some "Account".toList)) none) "c".toList,
  .ask "c".toList (.render {}),
  .call "c".toList (.setName none),
  .call "c".toList (.addNames .interfaces (.separate [some "IAccount".toList, some "IShared".toList, none])),
  .call "missing".toList (.setName (some "Account".toList)),
  .call "c".toList (.addName .interfaces (some "IAccount".toList)),
  .ask "c".toList (.render {})]

theorem runScript_traces_rejecting :
    runScript [
        .create (.classType (some (some "Account".toList)) none) "c".toList,
        .call "c".toList (.addName .interfaces (some "IAccount".toList))] = [.ok .created, .ok .changed] ∧
      ∃ f, runScript (rejectingScript ++ [.call "c".toList (.setValue (.other "str".toList))]) =
        runScript rejectingScript ++ [.error f] := by
  obtain ⟨⟨hkept, -⟩, -, hrejected⟩ := runScript_traces rejectingScript
  exact ⟨hkept, (hrejected "c".toList _ (.setValue "str".toList)).1⟩

end CSharpDraft
