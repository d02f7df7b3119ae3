import MacroFamilies.Generator
import MacroFamilies.Proofs.FileSystem.Kinds
import MacroFamilies.Proofs.Query
/-!
# What a run reads

A run that is answered has read the arity file, unless something else gives the maximum arity, and
the templates of all passes, in this order, and nothing else. So it has the same answer wherever
these texts are the same.
-/

namespace MacroFamilies

open Inquiry

variable {α : Type} {fs fs' : FileSystem}

/-! ## Reading one file -/

/-- An inquiry that is answered by what the text of one file stands for. -/
structure ParsesFile (x : Inquiry α) (path : String) (parse : String → Except Diagnostic α) :
    Prop where
  answer_eq_ok_iff : ∀ {fs : FileSystem} {a : α}, answer fs x = .ok a ↔
    ∃ text, fs.readText path = .ok text ∧ parse text = .ok a
  reads_eq : ∀ {fs : FileSystem} {a : α}, answer fs x = .ok a → reads fs x = [path]

theorem ParsesFile.of_bind {path : String} {parse : String → Except Diagnostic α}
    {f : Except SystemFault String → Inquiry α} (hok : ∀ text, f (.ok text) = ofExcept (parse text))
    (herror : ∀ fs fault, ∃ d, answer fs (f (.error fault)) = .error d) :
    ParsesFile (readText path >>= f) path parse := by
  have hanswer {fs : FileSystem} {a : α} : answer fs (readText path >>= f) = .ok a ↔
      ∃ text, fs.readText path = .ok text ∧ parse text = .ok a := by
    rw [answer_bind_eq_ok_iff]
    cases h : fs.readText path with
    | error fault =>
      obtain ⟨d, hd⟩ := herror fs fault
      simp [h, hd]
    | ok text => simp [h, hok]
  refine ⟨hanswer, fun h => ?_⟩
  obtain ⟨text, htext, -⟩ := hanswer.1 h
  rw [reads_bind (answer_readText _ path), htext, hok]
  simp

theorem ParsesFile.answer_of_keepsTexts {x : Inquiry α} {path : String}
    {parse : String → Except Diagnostic α} (h : ParsesFile x path parse)
    (hkeeps : fs.KeepsTexts fs' [path]) {a : α} (ha : answer fs x = .ok a) :
    answer fs' x = .ok a := by
  obtain ⟨text, hread, hparse⟩ := h.answer_eq_ok_iff.1 ha
  exact h.answer_eq_ok_iff.2 ⟨text, hkeeps path (by simp) text hread, hparse⟩

theorem ArityFile.parsesFile_read (path : String) :
    ParsesFile (ArityFile.read path) path (ArityFile.parse path) :=
  .of_bind (fun _ => rfl) fun _ _ => ⟨_, rfl⟩

theorem Configuration.parsesFile_read (path : String) :
    ParsesFile (Configuration.read path) path (Configuration.ofYaml path) :=
  .of_bind (fun _ => rfl) fun _ _ => ⟨_, rfl⟩

theorem TemplateStore.parsesFile_load (s : TemplateStore) (name : String) :
    ParsesFile (s.load name) (Path.join s.root name) (Template.parse name) := by
  unfold TemplateStore.load
  refine .of_bind (fun _ => rfl) fun fs fault => ?_
  simp only [answer_bind, answer_attempt, answer_throw]
  exact ⟨_, rfl⟩

/-! ## Reading all inputs -/

def Configuration.templates (c : Configuration) : List String :=
  c.arityPasses.map (·.template) ++ [c.dispatch.template, c.aliases.template, c.undef.template]

namespace Generator

variable {g : Generator}

def arityPaths (g : Generator) : List String :=
  match g.maxArityOverride.or g.configuration.maxArity with
  | some _ => []
  | none => [Path.join g.baseDir g.configuration.arityFile]

def inputPaths (g : Generator) : List String :=
  g.arityPaths ++ g.configuration.templates.map (Path.join g.store.root)

theorem reads_maxArity {max : Nat} (h : answer fs g.maxArity = .ok max) :
    reads fs g.maxArity = g.arityPaths := by
  unfold maxArity arityPaths at *
  cases hmax : g.maxArityOverride.or g.configuration.maxArity with
  | some _ => rfl
  | none =>
    rw [hmax] at h
    exact (ArityFile.parsesFile_read _).reads_eq h

theorem answer_maxArity_of_keepsTexts (hkeeps : fs.KeepsTexts fs' g.arityPaths) {max : Nat}
    (h : answer fs g.maxArity = .ok max) : answer fs' g.maxArity = .ok max := by
  unfold maxArity arityPaths at *
  cases hmax : g.maxArityOverride.or g.configuration.maxArity with
  | some _ => simpa [hmax] using h
  | none =>
    rw [hmax] at h hkeeps
    exact (ArityFile.parsesFile_read _).answer_of_keepsTexts hkeeps h

theorem answer_inputs_eq_ok_iff {inputs : Inputs} : answer fs g.inputs = .ok inputs ↔
    answer fs g.maxArity = .ok inputs.range.max ∧
      List.Forall₂ (fun pass template => answer fs (g.store.load pass.template) = .ok template)
        g.configuration.arityPasses inputs.arityTemplates ∧
      answer fs (g.store.load g.configuration.dispatch.template) = .ok inputs.dispatchTemplate ∧
      answer fs (g.store.load g.configuration.aliases.template) = .ok inputs.aliasTemplate ∧
      answer fs (g.store.load g.configuration.undef.template) = .ok inputs.undefTemplate := by
  unfold Generator.inputs
  simp only [answer_bind_eq_ok_iff, answer_mapM_eq_ok_iff, answer_pure, Except.ok.injEq]
  constructor
  · rintro ⟨max, hmax, templates, htemplates, dispatch, hdispatch, aliases, haliases, undef,
      hundef, rfl⟩
    exact ⟨hmax, htemplates, hdispatch, haliases, hundef⟩
  · rintro ⟨hmax, htemplates, hdispatch, haliases, hundef⟩
    exact ⟨_, hmax, _, htemplates, _, hdispatch, _, haliases, _, hundef, rfl⟩

theorem reads_inputs {inputs : Inputs} (h : answer fs g.inputs = .ok inputs) :
    reads fs g.inputs = g.inputPaths := by
  obtain ⟨hmax, htemplates, hdispatch, haliases, hundef⟩ := answer_inputs_eq_ok_iff.1 h
  have hload (name : String) {template : Template}
      (hname : answer fs (g.store.load name) = .ok template) :
      reads fs (g.store.load name) = [Path.join g.store.root name] :=
    (g.store.parsesFile_load name).reads_eq hname
  unfold Generator.inputs
  rw [reads_bind hmax, reads_bind (answer_mapM_eq_ok_iff.2 htemplates), reads_bind hdispatch,
    reads_bind haliases, reads_bind hundef, reads_maxArity hmax,
    reads_mapM htemplates fun pass _ hpass => hload pass.template hpass, hload _ hdispatch,
    hload _ haliases, hload _ hundef]
  simp [inputPaths, Configuration.templates]

theorem answer_inputs_of_keepsTexts (hkeeps : fs.KeepsTexts fs' g.inputPaths) {inputs : Inputs}
    (h : answer fs g.inputs = .ok inputs) : answer fs' g.inputs = .ok inputs := by
  have hload (name : String) (hname : name ∈ g.configuration.templates) {template : Template}
      (hanswer : answer fs (g.store.load name) = .ok template) :
      answer fs' (g.store.load name) = .ok template := by
    refine (g.store.parsesFile_load name).answer_of_keepsTexts ?_ hanswer
    intro path hpath
    rw [List.mem_singleton.1 hpath]
    exact hkeeps _ (List.mem_append_right _ (List.mem_map_of_mem hname))
  have hpasses : ∀ pass ∈ g.configuration.arityPasses,
      pass.template ∈ g.configuration.templates := by
    intro pass hpass
    exact List.mem_append_left _ (List.mem_map_of_mem hpass)
  rw [answer_inputs_eq_ok_iff] at h ⊢
  obtain ⟨hmax, htemplates, hdispatch, haliases, hundef⟩ := h
  refine ⟨?_, ?_, hload _ ?_ hdispatch, hload _ ?_ haliases, hload _ ?_ hundef⟩
  · apply answer_maxArity_of_keepsTexts ?_ hmax
    intro path hpath
    exact hkeeps path (List.mem_append_left _ hpath)
  · refine ((List.forall₂_and_left _ _).2 ⟨hpasses, htemplates⟩).imp ?_
    exact fun pass template h => hload _ h.1 h.2
  all_goals simp [Configuration.templates]

/-! ## Runs -/

theorem answer_run_eq_ok_iff {artifacts : List Artifact} :
    answer fs g.run = .ok artifacts ↔ ∃ inputs, answer fs g.inputs = .ok inputs ∧
      g.configuration.generate inputs = .ok artifacts := by
  unfold run
  rw [answer_bind_eq_ok_iff]
  rfl

/-- A run that is answered asks for the arity file and the templates, and for nothing else. -/
theorem reads_run {artifacts : List Artifact} (h : answer fs g.run = .ok artifacts) :
    reads fs g.run = g.inputPaths := by
  obtain ⟨inputs, hinputs, -⟩ := answer_run_eq_ok_iff.1 h
  unfold run
  rw [reads_bind hinputs, reads_inputs hinputs, reads_ofExcept, List.append_nil]

theorem answer_run_of_keepsTexts (hkeeps : fs.KeepsTexts fs' g.inputPaths)
    {artifacts : List Artifact} (h : answer fs g.run = .ok artifacts) :
    answer fs' g.run = .ok artifacts := by
  obtain ⟨inputs, hinputs, hgenerate⟩ := answer_run_eq_ok_iff.1 h
  exact answer_run_eq_ok_iff.2 ⟨inputs, answer_inputs_of_keepsTexts hkeeps hinputs, hgenerate⟩

end Generator

end MacroFamilies
