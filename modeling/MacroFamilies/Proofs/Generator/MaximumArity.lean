import MacroFamilies.Proofs.ArityFile
import MacroFamilies.Proofs.Generator.Inputs
/-!
# Where the maximum arity comes from

A run only learns a number from its arity file. So the file may be left out where the number is
given instead, and the run comes to the same result, be it artifacts or an error.
-/

namespace MacroFamilies

open Inquiry

variable {fs fs' : FileSystem}

/-- To a store, two file systems are the same if it finds the same texts under these names and the
same files below its root. -/
structure TemplateStore.SameFiles (s : TemplateStore) (names : List String)
    (fs fs' : FileSystem) : Prop where
  texts : ∀ name ∈ names,
    fs.readText (Path.join s.root name) = fs'.readText (Path.join s.root name)
  files : fs.listFiles s.root = fs'.listFiles s.root

namespace TemplateStore.SameFiles

variable {s : TemplateStore} {names : List String}

theorem answer_discover (h : s.SameFiles names fs fs') :
    answer fs s.discover = answer fs' s.discover := by
  unfold discover
  rw [answer_bind, answer_bind, answer_listFiles, answer_listFiles, h.files]
  cases fs'.listFiles s.root <;> rfl

theorem answer_load (h : s.SameFiles names fs fs') {name : String} (hname : name ∈ names) :
    answer fs (s.load name) = answer fs' (s.load name) := by
  unfold load
  rw [answer_bind, answer_bind, answer_readText, answer_readText, h.texts name hname]
  cases fs'.readText (Path.join s.root name) with
  | ok text => rfl
  | error fault =>
    -- the help line of the error says what the store holds
    simp only [Except.bind, answer_bind, answer_attempt, h.answer_discover, answer_throw]

end TemplateStore.SameFiles

namespace Generator

variable {g : Generator} {n : Nat}

@[simp]
theorem store_withMaxArity (g : Generator) (max : Option Nat) :
    (g.withMaxArity max).store = g.store := rfl

@[simp]
theorem configuration_withMaxArity (g : Generator) (max : Option Nat) :
    (g.withMaxArity max).configuration = g.configuration := rfl

theorem answer_maxArity_withMaxArity (g : Generator) (n : Nat) :
    answer fs (g.withMaxArity (some n)).maxArity = .ok n := rfl

theorem answer_run_withMaxArity (hmax : answer fs g.maxArity = .ok n)
    (hsame : g.store.SameFiles g.configuration.templates fs fs') :
    answer fs g.run = answer fs' (g.withMaxArity (some n)).run := by
  have hload (name : String) (hname : name ∈ g.configuration.templates) :
      answer fs (g.store.load name) = answer fs' (g.store.load name) := hsame.answer_load hname
  have hpasses : answer fs (g.configuration.arityPasses.mapM fun pass =>
        g.store.load pass.template) =
      answer fs' (g.configuration.arityPasses.mapM fun pass => g.store.load pass.template) := by
    apply answer_mapM_congr
    intro pass hpass
    exact hload pass.template (List.mem_append_left _ (List.mem_map_of_mem hpass))
  have hdispatch := hload g.configuration.dispatch.template (by simp [Configuration.templates])
  have haliases := hload g.configuration.aliases.template (by simp [Configuration.templates])
  have hundef := hload g.configuration.undef.template (by simp [Configuration.templates])
  have hinputs : answer fs g.inputs = answer fs' (g.withMaxArity (some n)).inputs := by
    unfold inputs
    simp only [answer_bind, hmax, answer_maxArity_withMaxArity, store_withMaxArity,
      configuration_withMaxArity, hpasses, hdispatch, haliases, hundef, answer_pure]
  unfold run
  rw [answer_bind, answer_bind, hinputs, configuration_withMaxArity]
  rfl

theorem answer_maxArity_of_arityFile {text : String} (hoverride : g.maxArityOverride = none)
    (hconfigured : g.configuration.maxArity = none)
    (hread : fs.readText (Path.join g.baseDir g.configuration.arityFile) = .ok text)
    (hparse : ArityFile.parse (Path.join g.baseDir g.configuration.arityFile) text = .ok n) :
    answer fs g.maxArity = .ok n := by
  rw [maxArity, hoverride, hconfigured]
  exact (ArityFile.parsesFile_read _).answer_eq_ok_iff.2 ⟨text, hread, hparse⟩

/-- An arity file is judged by its content alone: by whether that is a numeral, and of which number.
A run that has its maximum arity from the file comes to what it would come to without the file if
it were given the number. -/
theorem maximum_of_arityFile (text : String) :
    (∀ name : String,
      (∀ n : Nat, ArityFile.parse name text = .ok n ↔
        Numeral.Writes (Text.trim text.toList) n ∧ n < 2 ^ 63) ∧
      (∀ v : Int,
        ArityFile.Refuses name text ("max arity must not be negative, found " ++ toString v) ↔
          Numeral.Writes (Text.trim text.toList) v ∧ -2 ^ 63 ≤ v ∧ v < 0) ∧
      (ArityFile.Refuses name text ("max arity '" ++ Text.trimmed text ++ "' is not an integer") ↔
        ¬ ∃ v, Numeral.Writes (Text.trim text.toList) v ∧ -2 ^ 63 ≤ v ∧ v < 2 ^ 63) ∧
      ∀ d, ArityFile.parse name text = .error d → ArityFile.PointsAtContent name text d) ∧
    ∀ (g : Generator) (fs fs' : FileSystem) (n : Nat), n < 2 ^ 63 →
      Text.trimmed text = toString n →
      g.maxArityOverride = none → g.configuration.maxArity = none →
      fs.readText (Path.join g.baseDir g.configuration.arityFile) = .ok text →
      g.store.SameFiles g.configuration.templates fs fs' →
        answer fs g.run = answer fs' (g.withMaxArity (some n)).run := by
  refine ⟨fun name => ⟨fun n => ?_, fun v => ?_, ?_, ?_⟩, ?_⟩
  · rw [ArityFile.parse_eq_ok_iff, ArityFile.classify_eq_ok_iff]
  · rw [← ArityFile.classify_eq_negative_iff, ← ArityFile.refuses_iff]
    rfl
  · rw [← ArityFile.classify_eq_notAnInteger_iff, ← ArityFile.refuses_iff]
    rfl
  · exact fun d => ArityFile.pointsAtContent_of_parse
  · intro g fs fs' n hn htext hoverride hconfigured hread hsame
    apply answer_run_withMaxArity ?_ hsame
    apply answer_maxArity_of_arityFile hoverride hconfigured hread
    rw [ArityFile.parse_eq_ok_iff, ArityFile.classify_eq_ok_iff]
    have hcontent : Text.trim text.toList = (toString n).toList := by
      rw [← htext, Text.trimmed, String.toList_ofList]
    rw [hcontent]
    exact ⟨Numeral.writes_toString n, hn⟩

def messageProject (others : List (Location × Entry)) : FileSystem where
  entries := others ++ [
    (["t"], .directory),
    (["t", "d"], .file "MSG%\x7barity\x7d(n, %\x7bargs\x7d)\n".toUTF8),
    (["t", "s"], .file "MSG%\x7barity\x7d\n".toUTF8),
    (["t", "u"], .file "MSG_%\x7barity\x7d\n".toUTF8)]

def messageGenerator : Generator where
  configuration := {
    templateDir := "t"
    arityFile := "n"
    arityPasses := []
    dispatch := { template := "d", output := "d.ipp" }
    aliases := { template := "s", output := "s.ipp", rules := [], trailer := none }
    undef := { template := "u", output := "u.ipp" }
    umbrella := { output := none } }
  baseDir := "."

/-- A file with wide blanks, a number and a line break says the same as the number. -/
theorem maximum_of_arityFile_two :
    answer (messageProject [(["n"], .file "\u2003 2\r\n".toUTF8)]) messageGenerator.run =
        answer (messageProject []) (messageGenerator.withMaxArity (some 2)).run ∧
      (answer (messageProject []) (messageGenerator.withMaxArity (some 2)).run).map
          (·.map (·.lines.length)) = .ok [5, 5, 3] ∧
      answer (messageProject []) messageGenerator.run ≠
        answer (messageProject []) (messageGenerator.withMaxArity (some 2)).run := by
  refine ⟨?_, by decide +kernel, by decide +kernel⟩
  obtain ⟨-, hrun⟩ := maximum_of_arityFile "\u2003 2\r\n"
  apply hrun messageGenerator _ _ 2 (by decide) (by decide +kernel) rfl rfl (by decide +kernel)
  exact ⟨by decide +kernel, rfl⟩

end Generator

end MacroFamilies
