import MacroFamilies.Proofs.FileSystem.Changes
import MacroFamilies.Proofs.FileSystem.Trees
import MacroFamilies.Proofs.Query
import MacroFamilies.TemplateStore
/-!
# Found templates

A store finds each file below its directory once, and the names that it gives them are in order. A
name leads back to the file that it was made of if no part of it has a backslash: a slash stands for
that, and no path with a slash there leads to the file.
-/

namespace MacroFamilies

open Inquiry

namespace TemplateStore

variable {fs : FileSystem} {s : TemplateStore} {root names : Location}

/-! ## The name of a file -/

/-- Names that a store keeps as they are. -/
def IsPlain (names : Location) : Prop := ∀ name ∈ names, '\\' ∉ name.toList

instance (names : Location) : Decidable (IsPlain names) :=
  inferInstanceAs (Decidable (∀ name ∈ names, '\\' ∉ name.toList))

theorem IsPlain.templateName_eq (h : IsPlain names) :
    templateName names = "/".intercalate names := by
  have hplain : '\\' ∉ ("/".intercalate names).toList := by
    rw [String.toList_intercalate, Path.mem_intercalate_iff (by decide)]
    rintro ⟨piece, hpiece, hmem⟩
    obtain ⟨name, hname, rfl⟩ := List.mem_map.1 hpiece
    exact h name hname hmem
  have hkept : Text.replaceChar '\\' '/' ("/".intercalate names).toList =
      ("/".intercalate names).toList := by
    refine (List.map_congr_left fun c hc => ?_).trans (List.map_id _)
    have hother : c ≠ '\\' := fun heq => hplain (heq ▸ hc)
    exact if_neg hother
  rw [templateName, hkept, String.ofList_toList]

theorem backslash_not_mem_templateName (names : Location) :
    '\\' ∉ (templateName names).toList := by
  intro hmem
  rw [templateName, String.toList_ofList] at hmem
  obtain ⟨c, -, hc⟩ := List.mem_map.1 hmem
  split_ifs at hc with hback
  · cases hc
  · exact hback hc

/-! ## A store that can be searched -/

/-- The root of the store is a directory that its path leads to. -/
structure IsReadable (s : TemplateStore) (fs : FileSystem) (root : Location) : Prop where
  tree : fs.IsTree
  resolve_root : fs.resolve s.root = .ok root
  directory : fs.lookup? root = some .directory

def pathOf (s : TemplateStore) (names : Location) : String :=
  Path.join s.root (templateName names)

namespace IsReadable

/-- Only a path with all the names from the root to something below it leads there. -/
theorem subset_of_resolve (h : s.IsReadable fs root) {name : String}
    (hresolve : fs.resolve (Path.join s.root name) = .ok (root ++ names)) :
    names ⊆ Path.names name := by
  obtain ⟨-, hwalk, -⟩ := FileSystem.resolve_eq_ok_iff.1 hresolve
  obtain ⟨-, hroot, -⟩ := FileSystem.resolve_eq_ok_iff.1 h.resolve_root
  have hbehind : ∃ front added, front <+: root ∧ added ⊆ Path.names name ∧
      root ++ names = front ++ added := by
    cases habsolute : Path.isAbsolute name with
    | true =>
      rw [Path.join, if_pos habsolute, FileSystem.origin, if_pos habsolute] at hwalk
      obtain ⟨front, added, hfront, hadded, heq⟩ := FileSystem.exists_of_walk hwalk
      rw [List.prefix_nil.1 hfront] at heq
      exact ⟨[], added, List.nil_prefix, hadded, heq⟩
    | false =>
      rw [Path.names_join _ habsolute, FileSystem.origin, Path.isAbsolute_join _ habsolute,
        ← FileSystem.origin, FileSystem.walk_append_eq_ok_iff] at hwalk
      obtain ⟨middle, hmiddle, hwalk⟩ := hwalk
      obtain rfl : root = middle := Except.ok.inj (hroot.symm.trans hmiddle)
      exact FileSystem.exists_of_walk hwalk
  obtain ⟨front, added, hfront, hadded, heq⟩ := hbehind
  obtain ⟨rest, rfl⟩ := hfront
  rw [List.append_assoc, List.append_cancel_left_eq] at heq
  rw [← heq] at hadded
  exact List.Subset.trans (List.subset_append_right _ _) hadded

theorem isPlain_of_resolve (h : s.IsReadable fs root)
    (hresolve : fs.resolve (s.pathOf names) = .ok (root ++ names)) :
    IsPlain names := by
  intro name hname hmem
  refine backslash_not_mem_templateName names ((Path.mem_toList_iff (by decide)).2 ?_)
  exact ⟨name, h.subset_of_resolve hresolve hname, hmem⟩

theorem resolve_of_isPlain (h : s.IsReadable fs root) (hplain : IsPlain names)
    (hsize : (s.pathOf names).utf8ByteSize ≤ FileSystem.maxPathBytes)
    {contents : ByteArray} (hcontents : fs.contents? (root ++ names) = some contents) :
    fs.resolve (s.pathOf names) = .ok (root ++ names) := by
  have hlookup := FileSystem.contents?_eq_some_iff.1 hcontents
  have hnames : ∀ name ∈ names, FileSystem.IsName name :=
    fun name hname => h.tree.isName_of_lookup? hlookup name (List.mem_append_right _ hname)
  have hfiles : ∀ name ∈ names, Path.IsFileName name := fun name hname => (hnames name hname).1
  have hne : names ≠ [] := by
    rintro rfl
    rw [List.append_nil, h.directory] at hlookup
    cases hlookup
  obtain ⟨hcheck, hroot, -⟩ := FileSystem.resolve_eq_ok_iff.1 h.resolve_root
  rw [pathOf, hplain.templateName_eq] at hsize ⊢
  have hrelative := Path.isAbsolute_intercalate hfiles
  have hjoined : Path.names (Path.join s.root ("/".intercalate names)) =
      Path.names s.root ++ names := by
    rw [Path.names_join _ hrelative, Path.names_intercalate hfiles]
  rw [FileSystem.resolve_eq_ok_iff, FileSystem.checkPath_eq_ok_iff, FileSystem.origin,
    Path.isAbsolute_join _ hrelative, ← FileSystem.origin, hjoined,
    FileSystem.walk_append_eq_ok_iff]
  refine ⟨⟨?_, ?_, hsize⟩, ⟨root, hroot, h.tree.walk_down hlookup⟩, ?_⟩
  · rw [Path.mem_toList_iff (by decide), hjoined]
    rintro ⟨name, hname, hnul⟩
    rcases List.mem_append.1 hname with hname | hname
    · refine FileSystem.nul_not_mem_of_checkPath hcheck ?_
      exact (Path.mem_toList_iff (by decide)).2 ⟨name, hname, hnul⟩
    · exact (hnames name hname).no_nul hnul
  · intro hempty
    rw [hempty] at hjoined
    exact hne (List.append_eq_nil_iff.1 hjoined.symm).2
  · have hpath : "/".intercalate names ≠ "" := by
      intro hempty
      rw [← Path.names_intercalate hfiles, hempty] at hne
      exact hne rfl
    rw [Path.endsInSlash_join _ hpath, Path.endsInSlash_intercalate hfiles]
    simp

theorem answer_load (h : s.IsReadable fs root) (hplain : IsPlain names)
    (hsize : (s.pathOf names).utf8ByteSize ≤ FileSystem.maxPathBytes) {contents : ByteArray}
    (hcontents : fs.contents? (root ++ names) = some contents) :
    answer fs (s.load (templateName names)) =
      match String.fromUTF8? contents with
      | some text => Template.parse (templateName names) text
      | none => .error (.io "read template" (s.pathOf names)
          SystemFault.notText.text (s.inventory (answer fs s.discover))) := by
  have hread : fs.read (s.pathOf names) = .ok contents :=
    FileSystem.read_eq_ok_iff.2 ⟨_, h.resolve_of_isPlain hplain hsize hcontents, hcontents⟩
  have htext : fs.readText (s.pathOf names) =
      match String.fromUTF8? contents with
      | some text => .ok text
      | none => .error .notText := by
    rw [FileSystem.readText, hread]
    rfl
  unfold load
  rw [answer_bind, answer_readText, ← pathOf, htext]
  cases String.fromUTF8? contents with
  | some text => rfl
  | none =>
    simp only [Except.bind]
    rw [answer_bind, answer_attempt]
    rfl

end IsReadable

/-! ## What a store finds -/

theorem templateName_inj {other : Location} (h : ∀ name ∈ names, FileSystem.IsName name)
    (hother : ∀ name ∈ other, FileSystem.IsName name) (hplain : IsPlain names)
    (hplain' : IsPlain other) (heq : templateName names = templateName other) : names = other := by
  rw [hplain.templateName_eq, hplain'.templateName_eq] at heq
  have hnames := Path.names_intercalate fun name hname => (h name hname).isFileName
  rw [heq, Path.names_intercalate fun name hname => (hother name hname).isFileName] at hnames
  exact hnames.symm

theorem IsReadable.answer_discover (h : s.IsReadable fs root) :
    ∃ files : List Location, answer fs s.discover = .ok (files.map templateName).mergeSort ∧
      files.Nodup ∧
      ∀ names, names ∈ files ↔ ∃ contents, fs.contents? (root ++ names) = some contents := by
  obtain ⟨files, hfiles, hnodup, hmem⟩ := h.tree.exists_listFiles h.resolve_root h.directory
  refine ⟨files, ?_, hnodup, hmem⟩
  unfold discover
  rw [answer_bind, answer_listFiles, hfiles]
  rfl

/-- A store finds one name for each file below its root, in order. The name of a file leads back to
it exactly if it is plain and gives a path that is not too long; then only what the file holds can
keep its template from being loaded. -/
theorem discovered_names_load (h : s.IsReadable fs root) :
    ∃ files : List Location, files.Nodup ∧
      (∀ names, names ∈ files ↔ ∃ contents, fs.contents? (root ++ names) = some contents) ∧
    ∃ found, answer fs s.discover = .ok found ∧ found.Perm (files.map templateName) ∧
      found.Pairwise (· ≤ ·) ∧ ((∀ names ∈ files, IsPlain names) → found.Nodup) ∧
    ∀ names contents, fs.contents? (root ++ names) = some contents →
      (fs.resolve (s.pathOf names) = .ok (root ++ names) ↔
        IsPlain names ∧ (s.pathOf names).utf8ByteSize ≤ FileSystem.maxPathBytes) ∧
      (fs.resolve (s.pathOf names) = .ok (root ++ names) →
        answer fs (s.load (templateName names)) =
          match String.fromUTF8? contents with
          | some text => Template.parse (templateName names) text
          | none => .error (.io "read template" (s.pathOf names) SystemFault.notText.text
              (s.inventory (.ok found)))) := by
  obtain ⟨files, hdiscover, hnodup, hmem⟩ := h.answer_discover
  have hperm := List.mergeSort_perm (files.map templateName) fun a b => decide (a ≤ b)
  refine ⟨files, hnodup, hmem, _, hdiscover, hperm, ?_, ?_, ?_⟩
  · exact List.pairwise_mergeSort' (· ≤ ·) _
  · intro hplain
    rw [hperm.nodup_iff]
    refine List.Nodup.map_on (fun names hnames other hother heq => ?_) hnodup
    have hname (names : Location) (hfile : names ∈ files) :
        ∀ name ∈ names, FileSystem.IsName name := by
      obtain ⟨contents, hcontents⟩ := (hmem names).1 hfile
      have hlookup := FileSystem.contents?_eq_some_iff.1 hcontents
      exact fun name hname =>
        h.tree.isName_of_lookup? hlookup name (List.mem_append_right root hname)
    exact templateName_inj (hname names hnames) (hname other hother) (hplain names hnames)
      (hplain other hother) heq
  · intro names contents hcontents
    have hiff : fs.resolve (s.pathOf names) = .ok (root ++ names) ↔
        IsPlain names ∧ (s.pathOf names).utf8ByteSize ≤ FileSystem.maxPathBytes := by
      constructor
      · intro hresolve
        obtain ⟨hcheck, -, -⟩ := FileSystem.resolve_eq_ok_iff.1 hresolve
        exact ⟨h.isPlain_of_resolve hresolve, (FileSystem.checkPath_eq_ok_iff.1 hcheck).2.2⟩
      · rintro ⟨hplain, hsize⟩
        exact h.resolve_of_isPlain hplain hsize hcontents
    refine ⟨hiff, fun hresolve => ?_⟩
    obtain ⟨hplain, hsize⟩ := hiff.1 hresolve
    rw [h.answer_load hplain hsize hcontents, hdiscover]

def messageStore : FileSystem where
  workingDirectory := ["work"]
  entries := [
    (["work"], .directory),
    (["work", "store"], .directory),
    (["work", "store", "dispatch"], .file "MSG%\x7barity\x7d(n, %\x7bargs\x7d)\n".toUTF8),
    (["work", "store", "more"], .directory),
    (["work", "store", "more", "alias"], .file "MSG%\x7barity\x7d\n".toUTF8)]

theorem isReadable_messageStore : IsReadable ⟨"store"⟩ messageStore ["work", "store"] where
  tree := .of_kinds (by decide) (by decide +kernel) (by decide)
  resolve_root := by decide +kernel
  directory := rfl

theorem discovered_names_load_messageStore :
    IsReadable ⟨"store"⟩ messageStore ["work", "store"] ∧
      ∃ found, answer messageStore (discover ⟨"store"⟩) = .ok found ∧ "more/alias" ∈ found ∧
        answer messageStore (load ⟨"store"⟩ "more/alias") =
          Template.parse "more/alias" "MSG%\x7barity\x7d\n" := by
  obtain ⟨files, -, hmem, found, hfound, hperm, -, -, hload⟩ :=
    discovered_names_load isReadable_messageStore
  have hname : templateName ["more", "alias"] = "more/alias" := by decide +kernel
  have hcontents : messageStore.contents? (["work", "store"] ++ ["more", "alias"]) =
      some "MSG%\x7barity\x7d\n".toUTF8 := rfl
  obtain ⟨hresolve, hanswer⟩ := hload _ _ hcontents
  refine ⟨isReadable_messageStore, found, hfound, ?_, ?_⟩
  · rw [hperm.mem_iff, ← hname]
    exact List.mem_map_of_mem ((hmem _).2 ⟨_, hcontents⟩)
  · have htext (text : String) : String.fromUTF8? text.toUTF8 = some text :=
      dif_pos text.isValidUTF8
    rw [← hname, hanswer (hresolve.2 ⟨by decide +kernel, by decide +kernel⟩), htext]

/-- A store with one template, which has a backslash in its name. -/
def backslashStore : FileSystem where
  entries := [(["store"], .directory), (["store", "a\\b"], .file "MSG\n".toUTF8)]

theorem isReadable_backslashStore : IsReadable ⟨"store"⟩ backslashStore ["store"] where
  tree := .of_kinds (by decide) (by decide +kernel) (by decide)
  resolve_root := by decide +kernel
  directory := rfl

/-- The one name that this store finds is of no file. -/
theorem exists_discovered_name_not_loaded :
    IsReadable ⟨"store"⟩ backslashStore ["store"] ∧
      answer backslashStore (discover ⟨"store"⟩) = .ok ["a/b"] ∧
      answer backslashStore (load ⟨"store"⟩ "a/b") =
        .error (.io "read template" "store/a/b" SystemFault.notFound.text
          "templates found in 'store': a/b") := by
  have hdiscover : answer backslashStore (discover ⟨"store"⟩) = .ok ["a/b"] := by decide +kernel
  have hread : backslashStore.readText (Path.join "store" "a/b") = .error .notFound := by
    decide +kernel
  refine ⟨isReadable_backslashStore, hdiscover, ?_⟩
  unfold load
  rw [answer_bind, answer_readText, hread]
  simp only [Except.bind]
  rw [answer_bind, answer_attempt, hdiscover]
  rfl

end TemplateStore

end MacroFamilies
