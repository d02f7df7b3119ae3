import MacroFamilies.FileSystem.Basic
import Mathlib
/-!
# Names of temporary files

Numbered names keep away from any list of names, and from everything in a directory: there are more
candidates than entries and names to be avoided.
-/

namespace MacroFamilies.FileSystem.Naming

variable {fs : FileSystem}

theorem nodup_candidates (count : Nat) : (candidates count).Nodup := by
  -- the number can be read back from behind the first four characters
  let number (name : String) : Nat := Nat.ofDigitChars 10 (name.toList.drop 4) 0
  have hnumber (n : Nat) : number (".tmp" ++ toString n) = n := by
    simp [number, Nat.ofDigitChars_ten_toDigits]
  refine List.Nodup.map ?_ List.nodup_range
  intro i j hij
  have hread := congrArg number hij
  simp only [hnumber] at hread
  exact hread

theorem exists_candidate {taken : List String} {count : Nat} (h : taken.length < count) :
    ∃ name ∈ candidates count, name ∉ taken := by
  by_contra hnone
  have hsubset : candidates count ⊆ taken := by
    intro name hname
    by_contra hfree
    exact hnone ⟨name, hname, hfree⟩
  have hlength := ((nodup_candidates count).subperm hsubset).length_le
  rw [candidates, List.length_map, List.length_range] at hlength
  omega

/-- A name of something in a directory is the last name of an entry. -/
theorem mem_lastNames_of_lookup? {directory : Location} {name : String}
    (h : fs.lookup? (directory ++ [name]) ≠ none) :
    name ∈ fs.entries.filterMap (·.1.getLast?) := by
  rw [lookup?, if_neg (by simp)] at h
  obtain ⟨entry, hentry⟩ := Option.ne_none_iff_exists'.1 h
  obtain ⟨before, after, hentries, -⟩ := List.lookup_eq_some_iff.1 hentry
  rw [List.mem_filterMap]
  refine ⟨(directory ++ [name], entry), ?_, ?_⟩
  · simp [hentries]
  · simp

theorem numbered_spec (avoided : List String) (fs : FileSystem) (directory : Location) :
    numbered avoided fs directory ∉ avoided ∧
      fs.lookup? (directory ++ [numbered avoided fs directory]) = none := by
  have hcount : (avoided ++ fs.entries.filterMap (·.1.getLast?)).length <
      fs.entries.length + avoided.length + 1 := by
    have hentries := List.length_filterMap_le (fun e : Location × Entry => e.1.getLast?) fs.entries
    rw [List.length_append]
    omega
  obtain ⟨free, hmem, hfree⟩ := exists_candidate hcount
  rw [List.mem_append, not_or] at hfree
  have hlookup : fs.lookup? (directory ++ [free]) = none := by
    by_contra hthere
    exact hfree.2 (mem_lastNames_of_lookup? hthere)
  unfold numbered
  cases hfind : (candidates (fs.entries.length + avoided.length + 1)).find? fun name =>
      name ∉ avoided ∧ (fs.lookup? (directory ++ [name])).isNone with
  | none =>
    rw [List.find?_eq_none] at hfind
    exact absurd (by simp [hfree.1, hlookup]) (hfind free hmem)
  | some name =>
    have hname := List.find?_some hfind
    simpa using hname

theorem avoids_numbered (avoided : List String) : (numbered avoided).Avoids avoided :=
  fun fs directory => (numbered_spec avoided fs directory).1

theorem fresh_numbered (avoided : List String) : (numbered avoided).Fresh :=
  fun fs directory => (numbered_spec avoided fs directory).2

end MacroFamilies.FileSystem.Naming
