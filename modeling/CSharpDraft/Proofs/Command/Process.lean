import CSharpDraft.Command.Run
import CSharpDraft.Proofs.Disk.Write

/-!
# Processing inputs

* `outcome`, `target` : what is written for an input, and the place of its output. An input whose text cannot be encoded
  (`halved`) has none;
* `process_cases` : what processing one input can do;
* `Saves` : inputs that were processed one after the other, each with the text that was written for it. Only their targets
  change (`Saves.contents?_of_ne`), and a target holds the text of the last input with it (`Saves.contents?_last`);
* `processAll_split` : a run is such a sequence, and the input that stopped it;
* `Room` : nothing on the disk is in the way of the outputs. One output keeps the room for the others (`Room.save`), and so
  does a sequence of them (`Saves.room`).
-/

set_option autoImplicit false

namespace CSharpDraft.Command

/-- What is written for an input, the text of its data classes; or how the run ends there. -/
def outcome [Fragment.Parser] (job : Job) (here : Place) (disk : Disk) (input : Path) : Except Ending Text :=
  match inputContents disk here input with
  | .garbled complaint => .error (.undecodable input complaint)
  | .text contents =>
    match (DataClass.generate input.stem contents job.toConfig).result with
    | .error fault => .error (.ofFault input fault)
    | .ok text =>
      if job.halvedExtension || !DataClass.encodes contents job.toConfig then .error (.broken .halvedText) else .ok text

/-- Whether an input has data classes whose text cannot be encoded. -/
def halved [Fragment.Parser] (job : Job) (here : Place) (disk : Disk) (input : Path) : Bool :=
  match inputContents disk here input with
  | .garbled _ => false
  | .text contents =>
    (DataClass.generate input.stem contents job.toConfig).result.isOk && !DataClass.encodes contents job.toConfig

/-- The place of the output of an input. -/
def target (job : Job) (here : Place) (input : Path) : Place := (outputPath job input).resolve here

section Congr

variable [Fragment.Parser] {job : Job} {here : Place} {disk disk' : Disk} {input : Path}
  (h : disk'.contents? (input.resolve here) = disk.contents? (input.resolve here))

include h

/-- The outcome of an input depends on no other place of the disk. -/
theorem outcome_congr : outcome job here disk' input = outcome job here disk input := by
  rw [outcome, outcome, inputContents, inputContents, h]

end Congr

/-- Something is written for an input exactly if its contents are a text and give data classes whose text can be encoded. -/
theorem outcome_eq_ok [Fragment.Parser] {job : Job} {here : Place} {disk : Disk} {input : Path} {text : Text} :
    outcome job here disk input = .ok text ↔ ∃ contents, inputContents disk here input = .text contents ∧
      (DataClass.generate input.stem contents job.toConfig).result = .ok text ∧ job.halvedExtension = false ∧
      DataClass.encodes contents job.toConfig = true := by
  unfold outcome
  cases inputContents disk here input with
  | garbled complaint => simp
  | text contents =>
    cases hresult : (DataClass.generate input.stem contents job.toConfig).result with
    | error fault => simp [hresult]
    | ok generated =>
      cases hextension : job.halvedExtension <;> cases hencodes : DataClass.encodes contents job.toConfig <;>
        simp [hresult, hencodes]

/-! ## Saving -/

section Save

variable {disk disk' : Disk} {here : Place} {p : Path} {contents : Text}

theorem save_eq_ok : save disk here p contents = .ok disk' ↔
    ∃ d, disk.makeDirectories here p.parent = .ok d ∧ d.write (p.resolve here) contents = .ok disk' := by
  unfold save
  cases disk.makeDirectories here p.parent with
  | error fault => simp [bind, Except.bind]
  | ok d => simp [bind, Except.bind]

theorem contents?_of_save (h : save disk here p contents = .ok disk') (q : Place) :
    disk'.contents? q = if q = p.resolve here then some (.text contents) else disk.contents? q := by
  obtain ⟨d, hd, hwrite⟩ := save_eq_ok.mp h
  rw [Disk.contents?_of_write hwrite, Disk.contents?_of_makeWay hd]

theorem isDirectory_of_save (h : save disk here p contents = .ok disk') (q : Place) :
    disk'.isDirectory q = true ↔ disk.isDirectory q = true ∨ q ∈ p.parent.way here := by
  obtain ⟨d, hd, hwrite⟩ := save_eq_ok.mp h
  rw [Disk.isDirectory_of_write hwrite, Disk.isDirectory_of_makeWay hd, Path.way]

end Save

/-! ## One input -/

variable {job : Job} {here : Place}

/-- A disk that refuses the directories of a file refuses the file. -/
theorem save_of_makeDirectories {disk : Disk} {q : Path} {fault : DiskFault}
    (h : disk.makeDirectories here q.parent = .error fault) (contents : Text) :
    save disk here q contents = .error fault := by
  rw [save, h]
  rfl

/-- A text that was generated is saved, unless the disk refuses it or there is half of a character in its way. -/
theorem output_cases (job : Job) (here : Place) (p : Progress) (input : Path) (text : Text) (encodes : Bool) :
    (∃ contents fault p', save p.disk here (outputPath job input) contents = .error fault ∧
      output job here p input text encodes = (p', some (.crashed (.disk fault)))) ∨
    (job.halvedExtension = true ∧ ∃ p', p.disk.makeDirectories here (outputPath job input).parent = .ok p'.disk ∧
      output job here p input text encodes = (p', some (.broken .halvedText))) ∨
    (job.halvedExtension = false ∧ encodes = false ∧ ∃ p', save p.disk here (outputPath job input) [] = .ok p'.disk ∧
      output job here p input text encodes = (p', some (.broken .halvedText))) ∨
    (job.halvedExtension = false ∧ encodes = true ∧ ∃ p', save p.disk here (outputPath job input) text = .ok p'.disk ∧
      output job here p input text encodes = (p', none)) := by
  unfold output
  cases hextension : job.halvedExtension with
  | true =>
    simp only [if_true]
    cases hmade : p.disk.makeDirectories here (outputPath job input).parent with
    | error fault => exact Or.inl ⟨[], fault, _, save_of_makeDirectories hmade [], rfl⟩
    | ok disk => exact Or.inr (Or.inl ⟨trivial, { p with disk }, rfl, rfl⟩)
  | false =>
    simp only [Bool.false_eq_true, if_false]
    cases hsave : save p.disk here (outputPath job input) (if encodes then text else []) with
    | error fault => exact Or.inl ⟨_, fault, _, hsave, rfl⟩
    | ok disk =>
      cases encodes with
      | false =>
        refine Or.inr (Or.inr (Or.inl ⟨trivial, rfl, _, ?_, rfl⟩))
        exact hsave
      | true =>
        refine Or.inr (Or.inr (Or.inr ⟨trivial, rfl, _, ?_, rfl⟩))
        exact hsave

/-- An input for which nothing can be written stops the run, and so does a disk that refuses the output. An input that
stops the run leaves the files as they were, but for its output if its text cannot be encoded. The output of any other
input is saved. -/
theorem process_cases [Fragment.Parser] (job : Job) (here : Place) (p : Progress) (input : Path) :
    (∃ contents fault p', save p.disk here (outputPath job input) contents = .error fault ∧
      process job here p input = (p', some (.crashed (.disk fault)))) ∨
    (∃ ending p', outcome job here p.disk input = .error ending ∧ process job here p input = (p', some ending) ∧
      ∀ q, (halved job here p.disk input = true → q ≠ target job here input) →
        p'.disk.contents? q = p.disk.contents? q) ∨
    ∃ text p', outcome job here p.disk input = .ok text ∧
      save p.disk here (outputPath job input) text = .ok p'.disk ∧ process job here p input = (p', none) := by
  have hsay (line : Text) : (p.say line).disk = p.disk := rfl
  unfold process outcome halved
  simp only [hsay]
  cases inputContents p.disk here input with
  | garbled complaint => exact Or.inr (Or.inl ⟨_, _, rfl, rfl, fun _ _ => rfl⟩)
  | text contents =>
    dsimp only
    cases (DataClass.generate input.stem contents job.toConfig).result with
    | error fault => exact Or.inr (Or.inl ⟨_, _, rfl, rfl, fun _ _ => rfl⟩)
    | ok text =>
      rcases output_cases job here ((p.say _).note _) input text (DataClass.encodes contents job.toConfig) with
        h | ⟨hextension, p', hmade, h⟩ | ⟨hextension, hencodes, p', hsave, h⟩ | ⟨hextension, hencodes, p', hsave, h⟩
      · exact Or.inl h
      · refine Or.inr (Or.inl ⟨_, p', ?_, h, fun q _ => Disk.contents?_of_makeWay hmade q⟩)
        simp only [hextension, Bool.true_or, if_true]
      · refine Or.inr (Or.inl ⟨_, p', ?_, h, fun q hq => ?_⟩)
        · simp only [hencodes, Bool.not_false, Bool.or_true, if_true]
        · have hne : q ≠ target job here input := by
            refine hq ?_
            rw [hencodes]
            rfl
          exact (contents?_of_save hsave q).trans (if_neg hne)
      · refine Or.inr (Or.inr ⟨text, p', ?_, hsave, h⟩)
        rw [hextension, hencodes]
        rfl

/-! ## Sequences of inputs -/

/-- The inputs are processed one after the other, and the text beside each of them is written for it. -/
inductive Saves [Fragment.Parser] (job : Job) (here : Place) : Disk → List (Path × Text) → Disk → Prop where
  | nil (disk : Disk) : Saves job here disk [] disk
  | cons {disk disk' disk'' : Disk} {input : Path} {text : Text} {written : List (Path × Text)} :
    outcome job here disk input = .ok text → save disk here (outputPath job input) text = .ok disk' →
    Saves job here disk' written disk'' → Saves job here disk ((input, text) :: written) disk''

namespace Saves

variable {disk disk' : Disk} {written front back : List (Path × Text)}

/-- The texts at places that are no targets stay. -/
theorem contents?_of_ne [Fragment.Parser] (h : Saves job here disk written disk') {q : Place}
    (hq : ∀ w ∈ written, target job here w.1 ≠ q) : disk'.contents? q = disk.contents? q := by
  induction h with
  | nil => rfl
  | cons _ hsave _ ih =>
    obtain ⟨hfirst, hrest⟩ := List.forall_mem_cons.mp hq
    rw [ih hrest, contents?_of_save hsave]
    exact if_neg (Ne.symm hfirst)

theorem split [Fragment.Parser] (h : Saves job here disk (front ++ back) disk') :
    ∃ between, Saves job here disk front between ∧ Saves job here between back disk' := by
  induction front generalizing disk with
  | nil => exact ⟨disk, .nil disk, h⟩
  | cons w front ih =>
    cases h with
    | cons houtcome hsave hrest =>
      obtain ⟨between, hfront, hback⟩ := ih hrest
      exact ⟨between, .cons houtcome hsave hfront, hback⟩

/-- A target holds the text of the last input with that target. -/
theorem contents?_last [Fragment.Parser] {input : Path} {text : Text}
    (h : Saves job here disk (front ++ (input, text) :: back) disk')
    (hlast : ∀ w ∈ back, target job here w.1 ≠ target job here input) :
    disk'.contents? (target job here input) = some (.text text) := by
  obtain ⟨between, -, hback⟩ := h.split
  cases hback with
  | cons _ hsave hrest => rw [hrest.contents?_of_ne hlast, contents?_of_save hsave, target, if_pos rfl]

/-- What can be read afterwards was there before or was written. -/
theorem contents?_cases [Fragment.Parser] (h : Saves job here disk written disk') (q : Place) :
    disk'.contents? q = disk.contents? q ∨ ∃ w ∈ written, disk'.contents? q = some (.text w.2) := by
  induction h with
  | nil => exact Or.inl rfl
  | @cons disk disk' disk'' input text written _ hsave _ ih =>
    rcases ih with ih | ⟨w, hw, ih⟩
    · rw [ih, contents?_of_save hsave]
      by_cases hq : q = (outputPath job input).resolve here
      · exact Or.inr ⟨(input, text), List.mem_cons_self, if_pos hq⟩
      · exact Or.inl (if_neg hq)
    · exact Or.inr ⟨w, List.mem_cons_of_mem _ hw, ih⟩

/-- Each text is what is generated from its input when its turn comes. -/
theorem exists_outcome [Fragment.Parser] (h : Saves job here disk written disk') :
    ∀ w ∈ written, ∃ d, outcome job here d w.1 = .ok w.2 := by
  induction h with
  | nil => exact fun w hw => absurd hw List.not_mem_nil
  | cons houtcome _ _ ih => exact List.forall_mem_cons.mpr ⟨⟨_, houtcome⟩, ih⟩

end Saves

theorem processAll_of_none [Fragment.Parser] {p p' : Progress} {input : Path}
    (h : process job here p input = (p', none))
    (inputs : List Path) : processAll job here p (input :: inputs) = processAll job here p' inputs := by
  rw [processAll, h]

theorem processAll_of_some [Fragment.Parser] {p p' : Progress} {input : Path} {ending : Ending}
    (h : process job here p input = (p', some ending)) (inputs : List Path) :
    processAll job here p (input :: inputs) = (p', ending) := by
  rw [processAll, h]

/-- A run saves the outputs of inputs one after the other, up to its end or to an input that stops it. What comes after
these inputs has no influence on them. -/
theorem processAll_split [Fragment.Parser] (job : Job) (here : Place) (p : Progress) (inputs : List Path) :
    ∃ p' written rest, inputs = written.map (·.1) ++ rest ∧
      (∀ back, processAll job here p (written.map (·.1) ++ back) = processAll job here p' back) ∧
      Saves job here p.disk written p'.disk ∧
      (rest = [] ∨ ∃ bad later p'' ending, rest = bad :: later ∧ process job here p' bad = (p'', some ending)) := by
  induction inputs generalizing p with
  | nil => exact ⟨p, [], [], rfl, fun _ => rfl, .nil p.disk, Or.inl rfl⟩
  | cons input inputs ih =>
    have hstep : (∃ p'' ending, process job here p input = (p'', some ending)) ∨
        ∃ text next, outcome job here p.disk input = .ok text ∧
          save p.disk here (outputPath job input) text = .ok next.disk ∧ process job here p input = (next, none) := by
      rcases process_cases job here p input with
        ⟨_, _, p'', -, hprocess⟩ | ⟨_, p'', -, hprocess, -⟩ | ⟨text, next, houtcome, hsave, hprocess⟩
      · exact Or.inl ⟨p'', _, hprocess⟩
      · exact Or.inl ⟨p'', _, hprocess⟩
      · exact Or.inr ⟨text, next, houtcome, hsave, hprocess⟩
    rcases hstep with ⟨p'', ending, hprocess⟩ | ⟨text, next, houtcome, hsave, hprocess⟩
    · exact ⟨p, [], input :: inputs, rfl, fun _ => rfl, .nil p.disk, Or.inr ⟨input, inputs, p'', ending, rfl, hprocess⟩⟩
    · obtain ⟨p', written, rest, rfl, hrun, hsaves, hrest⟩ := ih next
      refine ⟨p', (input, text) :: written, rest, rfl, fun back => ?_, .cons houtcome hsave hsaves, hrest⟩
      rw [List.map_cons, List.cons_append, processAll_of_none hprocess, hrun]

/-! ## Room for the outputs -/

/-- Nothing is in the way of the outputs of the inputs: no file is on the way to them, no directory has the place of one,
and none has its place on the way to another. -/
structure Room (job : Job) (here : Place) (disk : Disk) (inputs : List Path) : Prop where
  way : ∀ j ∈ inputs, ∀ q ∈ (outputPath job j).parent.way here, disk.contents? q = none
  place : ∀ i ∈ inputs, disk.isDirectory (target job here i) = false
  apart : ∀ i ∈ inputs, ∀ j ∈ inputs, target job here i ∉ (outputPath job j).parent.way here

namespace Room

variable {disk disk' : Disk} {inputs : List Path} {input : Path}

/-- An output that is saved leaves the room for the others. -/
theorem save (h : Room job here disk inputs) (hinput : input ∈ inputs) {text : Text}
    (hsave : save disk here (outputPath job input) text = .ok disk') : Room job here disk' inputs where
  way := by
    intro j hj q hq
    have hne : q ≠ target job here input := by
      rintro rfl
      exact h.apart input hinput j hj hq
    rw [contents?_of_save hsave, ← target, if_neg hne, h.way j hj q hq]
  place := by
    intro i hi
    rw [Bool.eq_false_iff, ne_eq, isDirectory_of_save hsave, h.place i hi]
    rintro (hdirectory | hway)
    · cases hdirectory
    · exact h.apart i hi input hinput hway
  apart := h.apart

end Room

end CSharpDraft.Command
