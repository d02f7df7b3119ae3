import MacroFamilies.Path
import Mathlib
/-!
# Joined paths

Joining appends the names of a relative path to those of the base. So different relative paths stay
different when they are joined to one base. File names with slashes between them are the names of
the path that they make.
-/

namespace MacroFamilies.Path

variable {base path other : String}

theorem names_append_slash (base path : String) :
    names (base ++ "/" ++ path) = names base ++ names path := by
  have hslash : "/".toList = ['/'] := rfl
  unfold names pieces
  rw [String.toList_append, String.toList_append, hslash, List.append_assoc, List.singleton_append,
    List.splitOn_append_cons_self, List.map_append, List.filter_append]

theorem exists_of_endsInSlash (h : endsInSlash base = true) : ∃ front, base = front ++ "/" := by
  have hlast : base.toList.getLast? = some '/' := by simpa [endsInSlash] using h
  obtain ⟨front, hfront⟩ := List.getLast?_eq_some_iff.1 hlast
  refine ⟨String.ofList front, String.toList_injective ?_⟩
  rw [hfront]
  simp

theorem names_join (base : String) (h : isAbsolute path = false) :
    names (join base path) = names base ++ names path := by
  unfold join
  rw [h, if_neg (by simp)]
  split_ifs with hbase
  · rcases hbase with rfl | hslash
    · rw [String.empty_append]
      rfl
    · obtain ⟨front, rfl⟩ := exists_of_endsInSlash hslash
      have hfront : names (front ++ "/") = names front := by
        rw [← String.append_empty (s := front ++ "/"), names_append_slash]
        exact List.append_nil _
      rw [names_append_slash, hfront]
  · exact names_append_slash base path

theorem isAbsolute_append (h : isAbsolute path = false) :
    isAbsolute (base ++ path) = isAbsolute base := by
  unfold isAbsolute at *
  rw [String.toList_append, List.head?_append]
  cases hbase : base.toList.head? with
  | none => simpa using h
  | some c => rfl

theorem isAbsolute_join (base : String) (h : isAbsolute path = false) :
    isAbsolute (join base path) = isAbsolute base := by
  unfold join
  rw [h, if_neg (by simp)]
  split_ifs with hbase
  · exact isAbsolute_append h
  · have hne : base ≠ "" := fun hempty => hbase (.inl hempty)
    unfold isAbsolute
    rw [String.append_assoc, String.toList_append,
      List.head?_append_of_ne_nil _ (by simpa using hne)]

/-- Paths that are alike in being absolute are different still when they are joined to a base. -/
theorem join_inj (base : String) (h : isAbsolute path = isAbsolute other) :
    join base path = join base other ↔ path = other := by
  refine ⟨fun heq => ?_, fun heq => heq ▸ rfl⟩
  unfold join at heq
  rw [← h] at heq
  split_ifs at heq
  · exact heq
  · exact String.append_right_inj base |>.1 heq
  · exact String.append_right_inj (base ++ "/") |>.1 heq

structure IsFileName (name : String) : Prop where
  ne_empty : name ≠ ""
  no_slash : '/' ∉ name.toList
  ne_dot : name ≠ "."
  ne_dots : name ≠ ".."

instance (name : String) : Decidable (IsFileName name) :=
  decidable_of_iff (name ≠ "" ∧ '/' ∉ name.toList ∧ name ≠ "." ∧ name ≠ "..")
    ⟨fun ⟨hempty, hslash, hdot, hdots⟩ => ⟨hempty, hslash, hdot, hdots⟩,
      fun h => ⟨h.ne_empty, h.no_slash, h.ne_dot, h.ne_dots⟩⟩

theorem IsFileName.names_eq (h : IsFileName path) : names path = [path] := by
  unfold names pieces
  rw [List.splitOn_eq_singleton h.no_slash]
  simp [h.ne_empty]

theorem IsFileName.isAbsolute_eq (h : IsFileName path) : isAbsolute path = false := by
  have hne : path.toList.head? ≠ some '/' := fun hhead => h.no_slash (List.mem_of_head? hhead)
  simpa [isAbsolute] using hne

/-! ## Names joined by slashes -/

theorem endsInSlash_append (base : String) (h : path ≠ "") :
    endsInSlash (base ++ path) = endsInSlash path := by
  unfold endsInSlash
  rw [String.toList_append, List.getLast?_append_of_ne_nil _ (by simpa using h)]

theorem endsInSlash_join (base : String) (h : path ≠ "") :
    endsInSlash (join base path) = endsInSlash path := by
  unfold join
  split_ifs
  · rfl
  · exact endsInSlash_append base h
  · exact endsInSlash_append (base ++ "/") h

theorem mem_intercalate_iff {sep : List Char} {pieces : List (List Char)} {c : Char}
    (hc : c ∉ sep) : c ∈ sep.intercalate pieces ↔ ∃ piece ∈ pieces, c ∈ piece := by
  induction pieces with
  | nil => simp
  | cons first pieces ih =>
    cases pieces with
    | nil => simp
    | cons next rest =>
      rw [List.intercalate_cons_cons, List.mem_append, List.mem_append, ih,
        List.exists_mem_cons_iff]
      simp [hc]

theorem mem_toList_iff {c : Char} (hc : c ≠ '/') :
    c ∈ path.toList ↔ ∃ name ∈ names path, c ∈ name.toList := by
  have hpieces : ['/'].intercalate (path.toList.splitOn '/') = path.toList :=
    List.intercalate_splitOn '/'
  rw [← hpieces, mem_intercalate_iff (by simpa using hc)]
  constructor
  · rintro ⟨piece, hpiece, hmem⟩
    refine ⟨String.ofList piece, List.mem_filter.2 ⟨List.mem_map_of_mem hpiece, ?_⟩, by simpa⟩
    have hne : piece ≠ [] := List.ne_nil_of_mem hmem
    simpa using hne
  · rintro ⟨name, hname, hmem⟩
    obtain ⟨piece, hpiece, rfl⟩ := List.mem_map.1 (List.mem_filter.1 hname).1
    exact ⟨piece, hpiece, by simpa using hmem⟩

section Intercalate

variable {names : List String}

theorem names_intercalate (h : ∀ name ∈ names, IsFileName name) :
    Path.names ("/".intercalate names) = names := by
  induction names with
  | nil => rfl
  | cons name names ih =>
    obtain ⟨hname, hnames⟩ := List.forall_mem_cons.1 h
    cases names with
    | nil => simpa using hname.names_eq
    | cons next rest =>
      rw [String.intercalate_cons_cons, names_append_slash, hname.names_eq, ih hnames]
      rfl

theorem isAbsolute_intercalate (h : ∀ name ∈ names, IsFileName name) :
    isAbsolute ("/".intercalate names) = false := by
  cases names with
  | nil => rfl
  | cons name names =>
    have hname := h name List.mem_cons_self
    cases names with
    | nil => simpa using hname.isAbsolute_eq
    | cons next rest =>
      have hne : name.toList ≠ [] := by simpa using hname.ne_empty
      rw [String.intercalate_cons_cons, isAbsolute, String.append_assoc, String.toList_append,
        List.head?_append_of_ne_nil _ hne]
      exact hname.isAbsolute_eq

theorem endsInSlash_intercalate (h : ∀ name ∈ names, IsFileName name) :
    endsInSlash ("/".intercalate names) = false := by
  induction names with
  | nil => rfl
  | cons name names ih =>
    obtain ⟨hname, hnames⟩ := List.forall_mem_cons.1 h
    cases names with
    | nil =>
      have hlast : name.toList.getLast? ≠ some '/' :=
        fun hlast => hname.no_slash (List.mem_of_getLast? hlast)
      simpa [endsInSlash] using hlast
    | cons next rest =>
      have hne : "/".intercalate (next :: rest) ≠ "" := by
        intro hempty
        have hnone := names_intercalate hnames
        rw [hempty] at hnone
        cases hnone
      rw [String.intercalate_cons_cons, endsInSlash_append _ hne, ih hnames]

end Intercalate

end MacroFamilies.Path
