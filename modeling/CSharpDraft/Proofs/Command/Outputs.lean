import CSharpDraft.Proofs.Command.Process
import CSharpDraft.Proofs.DataClass.Mirror

/-!
# The outputs of a run

* `read?_render` : the text of data classes is no JSON, so an input that was overwritten with an output cannot be processed
  any more (`Saves.outcome_eq`);
* `Accepts` : a command line with which inputs are processed; `run_of_accepts` gives the run, and by `accepts_of_exitCode`
  no other run ends well, except for one that shows the help;
* `run_leaves_prefix` : a run leaves the outputs of the inputs before the first that fails, and nothing else;
* `exists_output_of_exitCode` : each output is that of the last input with its place. The outputs of others are lost
  (`output_lost`).
-/

set_option autoImplicit false

namespace CSharpDraft

/-! ## Source texts are no documents -/

theorem exists_unlines (l : Text) (ls : List Text) : ∃ r, Text.unlines (l :: ls) = l ++ r := by
  cases ls with
  | nil => exact ⟨[], rfl⟩
  | cons l' ls => exact ⟨_, rfl⟩

theorem NamespaceDecl.exists_render (n : NamespaceDecl) :
    ∃ t, n.render = "using ".toList ++ t ∨ n.render = "namespace ".toList ++ t := by
  obtain ⟨l, ls, hrender, t, hl⟩ : ∃ l ls, n.render = Text.unlines (l :: ls) ∧
      ∃ t, l = "using ".toList ++ t ∨ l = "namespace ".toList ++ t := by
    unfold NamespaceDecl.render
    cases n.usings with
    | nil => exact ⟨_, _, rfl, n.name, Or.inr rfl⟩
    | cons u us => exact ⟨_, _, rfl, u ++ [';'], Or.inl (List.append_assoc ..)⟩
  obtain ⟨r, hr⟩ := exists_unlines l ls
  rw [hrender, hr]
  refine ⟨t ++ r, hl.imp ?_ ?_⟩
  · rintro rfl
    rw [List.append_assoc]
  · rintro rfl
    rw [List.append_assoc]

/-- No JSON value starts with the word that a source text starts with. -/
theorem read?_render (n : NamespaceDecl) : JsonValue.read? n.render = none := by
  obtain ⟨t, h | h⟩ := n.exists_render
  · rw [h]
    rfl
  · rw [h]
    rfl

namespace Command

variable {env : Environment} {arguments : List Text} {job : Job} {inputs : List Path}

/-- What is written for an input is what would be written for it at the start of the run. Had it been overwritten with the
output of another input, it would not be JSON any more. -/
theorem Saves.outcome_eq {here : Place} {disk disk' : Disk} {front back : List (Path × Text)} {input : Path} {text : Text}
    (h : Saves job here disk (front ++ (input, text) :: back) disk') :
    outcome job here disk input = .ok text := by
  obtain ⟨between, hfront, hback⟩ := h.split
  cases hback with
  | cons houtcome _ _ =>
    rcases hfront.contents?_cases (input.resolve here) with hsame | ⟨w, hw, hread⟩
    · rw [← outcome_congr hsame, houtcome]
    · obtain ⟨d, hd⟩ := hfront.exists_outcome w hw
      obtain ⟨_, -, hgenerated, -⟩ := outcome_eq_ok.mp hd
      obtain ⟨_, _, n, -, -, -, hn⟩ := DataClass.generate_result hgenerated
      obtain ⟨contents, hcontents, hgenerated, -⟩ := outcome_eq_ok.mp houtcome
      obtain ⟨_, _, _, hobject, -⟩ := DataClass.generate_result hgenerated
      rw [inputContents, hread, Option.getD_some, hn] at hcontents
      cases hcontents
      rw [read?_render] at hobject
      cases hobject

/-! ## Runs with inputs -/

/-- The command line is in order, its configuration gives this job, and its inputs stand for these files, one at least. -/
def Accepts (env : Environment) (arguments : List Text) (job : Job) (inputs : List Path) : Prop :=
  ∃ i config lines, Invocation.parse arguments = .ok i ∧ i.wantsHelp = false ∧ checkSettings env i i.settings = .ok () ∧
    configure env i = .ok config ∧ Job.ofConfig config = .ok job ∧
    collect env.disk env.here i.inputs = (inputs, lines) ∧ inputs ≠ []

theorem run_of_accepts (h : Accepts env arguments job inputs) :
    ∃ start : Progress, start.disk = env.disk ∧
      processAll job env.here start inputs = ((run env arguments).toProgress, (run env arguments).ending) := by
  obtain ⟨i, config, lines, hparse, hhelp, hsettings, hconfig, hjob, hcollect, hne⟩ := h
  obtain ⟨input, inputs, rfl⟩ := List.exists_cons_of_ne_nil hne
  unfold run
  rw [hparse]
  dsimp only
  rw [hhelp, if_neg Bool.false_ne_true, hsettings]
  unfold execute
  rw [hconfig]
  dsimp only
  rw [hcollect]
  dsimp only
  rw [hjob]
  exact ⟨_, rfl, rfl⟩

theorem exitCode_of_readConfig {path : Text} {ending : Ending} (h : readConfig env path = .error ending) :
    ending.exitCode = 1 := by
  unfold readConfig at h
  split at h
  · cases h
    rfl
  · cases h
    rfl
  · split at h <;> cases h <;> rfl

theorem exitCode_of_configure {i : Invocation} {ending : Ending} (h : configure env i = .error ending) :
    ending.exitCode = 1 := by
  unfold configure at h
  cases hpath : i.value? .config with
  | none =>
    rw [hpath] at h
    cases h
  | some path =>
    rw [hpath] at h
    cases hread : readConfig env path with
    | error e =>
      dsimp only at h
      rw [hread] at h
      cases h
      exact exitCode_of_readConfig hread
    | ok config =>
      dsimp only at h
      rw [hread] at h
      cases h

theorem exists_inputs_of_execute {i : Invocation} {threshold : Level} (h : (execute env i threshold).ending.exitCode = 0) :
    ∃ config job inputs lines, configure env i = .ok config ∧ Job.ofConfig config = .ok job ∧
      collect env.disk env.here i.inputs = (inputs, lines) ∧ inputs ≠ [] := by
  unfold execute at h
  cases hconfig : configure env i with
  | error ending =>
    rw [hconfig] at h
    cases h.symm.trans (exitCode_of_configure hconfig)
  | ok config =>
    obtain ⟨inputs, lines, hcollect⟩ : ∃ inputs lines, collect env.disk env.here i.inputs = (inputs, lines) :=
      ⟨_, _, rfl⟩
    rw [hconfig] at h
    dsimp only at h
    rw [hcollect] at h
    cases inputs with
    | nil => cases h
    | cons input inputs =>
      cases hjob : Job.ofConfig config with
      | error defect =>
        dsimp only at h
        rw [hjob] at h
        cases h
      | ok job => exact ⟨config, job, _, lines, rfl, hjob, hcollect, List.cons_ne_nil _ _⟩

/-- A run that ends well has shown the help or processed inputs. -/
theorem accepts_of_exitCode (h : (run env arguments).ending.exitCode = 0) :
    ((run env arguments).ending = .helped ∧ (run env arguments).disk = env.disk) ∨
      ∃ job inputs, Accepts env arguments job inputs := by
  unfold run at h ⊢
  cases hparse : Invocation.parse arguments with
  | error misuse =>
    rw [hparse] at h
    cases h
  | ok i =>
    rw [hparse] at h
    dsimp only at h ⊢
    cases hhelp : i.wantsHelp with
    | true => exact Or.inl ⟨rfl, rfl⟩
    | false =>
      rw [hhelp, if_neg Bool.false_ne_true] at h
      cases hsettings : checkSettings env i i.settings with
      | error misuse =>
        rw [hsettings] at h
        cases h
      | ok u =>
        rw [hsettings] at h
        obtain ⟨config, job, inputs, lines, hconfig, hjob, hcollect, hne⟩ := exists_inputs_of_execute h
        exact Or.inr ⟨job, inputs, i, config, lines, hparse, hhelp, hsettings, hconfig, hjob, hcollect, hne⟩

theorem exitCode_ofFault (input : Path) (fault : Fault) : (Ending.ofFault input fault).exitCode = 1 := by
  cases fault <;> rfl

theorem exitCode_of_outcome {here : Place} {disk : Disk} {input : Path} {ending : Ending}
    (h : outcome job here disk input = .error ending) : ending.exitCode = 1 := by
  unfold outcome at h
  split at h
  · cases h
    rfl
  · split at h
    · cases h
      exact exitCode_ofFault ..
    · split at h
      · cases h
        rfl
      · cases h

/-- In a run that ends well the outputs of all inputs are saved, one after the other. -/
theorem saves_of_exitCode (haccepts : Accepts env arguments job inputs)
    (h : (run env arguments).ending.exitCode = 0) :
    ∃ written, inputs = written.map (·.1) ∧ Saves job env.here env.disk written (run env arguments).disk := by
  obtain ⟨start, hdisk, hrun⟩ := run_of_accepts haccepts
  obtain ⟨finish, written, rest, rfl, hgo, hsaves, hrest⟩ := processAll_split job env.here start inputs
  rw [hgo] at hrun
  rw [hdisk] at hsaves
  rcases hrest with rfl | ⟨bad, later, p, ending, rfl, hprocess⟩
  · have hfinish : finish = (run env arguments).toProgress := (Prod.mk.inj hrun).1
    rw [hfinish] at hsaves
    exact ⟨written, List.append_nil _, hsaves⟩
  · rw [processAll_of_some hprocess] at hrun
    rw [← (Prod.mk.inj hrun).2] at h
    rcases process_cases job env.here finish bad with
      ⟨_, fault, q, -, hq⟩ | ⟨fault, q, hfault, hq, -⟩ | ⟨text, q, -, -, hq⟩
    · cases hprocess.symm.trans hq
      cases h
    · cases hprocess.symm.trans hq
      cases h.symm.trans (exitCode_of_outcome hfault)
    · cases hprocess.symm.trans hq

/-! ## What a run leaves -/

theorem exists_split_of_map {written : List (Path × Text)} {before after : List Path} {input : Path}
    (h : written.map (·.1) = before ++ input :: after) :
    ∃ front text back, written = front ++ (input, text) :: back ∧ back.map (·.1) = after := by
  obtain ⟨front, rest, rfl, -, hrest⟩ := List.map_eq_append_iff.mp h
  obtain ⟨w, back, rfl, rfl, hback⟩ := List.map_eq_cons_iff.mp hrest
  exact ⟨front, w.2, back, rfl, hback⟩

/-- Each input of a run that ends well has data classes, and the target of the last input with that target holds them. -/
theorem exists_output_of_exitCode (h : (run env arguments).ending.exitCode = 0) :
    ((run env arguments).ending = .helped ∧ (run env arguments).disk = env.disk) ∨
      ∃ job inputs, Accepts env arguments job inputs ∧
        ∀ before input after, inputs = before ++ input :: after →
          ∃ text, outcome job env.here env.disk input = .ok text ∧
            ((∀ j ∈ after, target job env.here j ≠ target job env.here input) →
              (run env arguments).disk.read? (target job env.here input) = some text) := by
  rcases accepts_of_exitCode h with hhelp | ⟨job, inputs, haccepts⟩
  · exact Or.inl hhelp
  · refine Or.inr ⟨job, inputs, haccepts, fun before input after hsplit => ?_⟩
    obtain ⟨written, rfl, hsaves⟩ := saves_of_exitCode haccepts h
    obtain ⟨front, text, back, rfl, rfl⟩ := exists_split_of_map hsplit
    refine ⟨text, hsaves.outcome_eq, fun hlast => ?_⟩
    exact Disk.read?_of_contents? (hsaves.contents?_last (fun w hw => hlast w.1 (List.mem_map_of_mem hw)))

def sameNamesInputs : List Text := ["a/user.json".toList, "b/user.json".toList]

def sameNamesPaths : List Path := sameNamesInputs.map Path.ofText

/-- Two inputs with one name in two directories. -/
def sameNames : { env : Environment //
    collect env.disk env.here sameNamesInputs = (sameNamesPaths, []) ∧ (run env sameNamesInputs).ending = .done ∧
    (∀ i ∈ sameNamesPaths, target {} env.here i = ["output".toList, "User.cs".toList]) ∧
    (outcome {} env.here env.disk (Path.ofText "a/user.json".toList)).isOk = true ∧
    (run env sameNamesInputs).disk.read? ["output".toList, "User.cs".toList] ≠
      (outcome {} env.here env.disk (Path.ofText "a/user.json".toList)).toOption } :=
  ⟨{ here := []
     disk := { nodes := [
       (["a".toList], .directory), (["a".toList, "user.json".toList], .file (.text "\x7b\"x\": 1\x7d".toList)),
       (["b".toList], .directory), (["b".toList, "user.json".toList], .file (.text "\x7b\"y\": 2\x7d".toList))] } },
    by decide +kernel⟩

/-- The output of the second input of `sameNames` is there at the end. -/
theorem exists_output_of_exitCode_sameNames : (run sameNames.1 sameNamesInputs).ending.exitCode = 0 ∧
    ∃ text, outcome {} sameNames.1.here sameNames.1.disk (Path.ofText "b/user.json".toList) = .ok text ∧
      (run sameNames.1 sameNamesInputs).disk.read? ["output".toList, "User.cs".toList] = some text := by
  obtain ⟨hinputs, hending, htargets, -⟩ := sameNames.2
  have hcode : (run sameNames.1 sameNamesInputs).ending.exitCode = 0 := congrArg Ending.exitCode hending
  refine ⟨hcode, ?_⟩
  rcases exists_output_of_exitCode hcode with ⟨hhelp, -⟩ | ⟨job, inputs, haccepts, houtputs⟩
  · cases hending.symm.trans hhelp
  · obtain ⟨i, config, lines, hparse, -, -, hconfig, hjob, hcollect, -⟩ := haccepts
    have hparsed : Invocation.parse sameNamesInputs = .ok { inputs := sameNamesInputs } := rfl
    cases hparsed.symm.trans hparse
    have hdefaults : configure sameNames.1 { inputs := sameNamesInputs } = .ok {} := rfl
    cases hdefaults.symm.trans hconfig
    have hdefault : Job.ofConfig {} = .ok {} := rfl
    cases hdefault.symm.trans hjob
    cases hinputs.symm.trans hcollect
    have htarget := htargets _ (List.mem_cons_of_mem _ List.mem_cons_self)
    obtain ⟨text, htext, hread⟩ := houtputs [Path.ofText "a/user.json".toList] _ [] rfl
    rw [htarget] at hread
    exact ⟨text, htext, hread (fun j hj => absurd hj List.not_mem_nil)⟩

/-- The run of `sameNames` ends well although the target of its first input does not hold what the input gives. -/
theorem output_lost : (run sameNames.1 sameNamesInputs).ending.exitCode = 0 ∧
    Accepts sameNames.1 sameNamesInputs {} sameNamesPaths ∧
    ∃ text, outcome {} sameNames.1.here sameNames.1.disk (Path.ofText "a/user.json".toList) = .ok text ∧
      (run sameNames.1 sameNamesInputs).disk.read?
        (target {} sameNames.1.here (Path.ofText "a/user.json".toList)) ≠ some text := by
  obtain ⟨hinputs, hending, htargets, hok, hlost⟩ := sameNames.2
  refine ⟨congrArg Ending.exitCode hending,
    ⟨{ inputs := sameNamesInputs }, {}, [], rfl, rfl, rfl, rfl, rfl, hinputs, List.cons_ne_nil _ _⟩, ?_⟩
  rw [htargets _ List.mem_cons_self]
  cases houtcome : outcome {} sameNames.1.here sameNames.1.disk (Path.ofText "a/user.json".toList) with
  | error fault =>
    rw [houtcome] at hok
    cases hok
  | ok text =>
    rw [houtcome] at hlost
    exact ⟨text, rfl, hlost⟩

end Command

end CSharpDraft
