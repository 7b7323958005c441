import Mathlib.Data.List.TakeWhile
import ProxyUpgrade.Files.Path
/-!
# Files beside a file

A path that has a name (`Path.split?`) is a directory part and that name, and its components are
those of the directory part and the name (`Path.components_of_split`). Another extension changes the
name and nothing else (`Path.split?_withExtension`), so the two paths lie in one directory, and they
are different paths unless the name had that extension already (`Path.name_ne`).

A path without a name is one that leads nowhere, to the place it starts from, or back up.
-/

namespace ProxyUpgrade.Path

/-! ### Pieces -/

/-- The names among the pieces of a text. -/
def names (text : List Char) : List String := ((pieces text).filter (!isIdle ·)).map String.ofList

theorem components_eq_names (path : Path) : components path = names path.toList := rfl

theorem pieces_ne_nil (text : List Char) : pieces text ≠ [] := by
  cases text with
  | nil => simp [pieces]
  | cons c rest =>
    rw [pieces]
    split
    · simp
    · split <;> simp

theorem pieces_append_slash (text rest : List Char) :
    pieces (text ++ '/' :: rest) = pieces text ++ pieces rest := by
  induction text with
  | nil => simp [pieces]
  | cons c text ih =>
    rw [List.cons_append, pieces, pieces, ih]
    split
    · rfl
    · obtain ⟨piece, more, hpieces⟩ := List.exists_cons_of_ne_nil (pieces_ne_nil text)
      rw [hpieces]
      rfl

theorem pieces_of_no_slash {name : List Char} (h : '/' ∉ name) : pieces name = [name] := by
  induction name with
  | nil => rfl
  | cons c name ih =>
    rw [List.mem_cons, not_or] at h
    rw [pieces, if_neg (Ne.symm h.1), ih h.2]

theorem names_append_slash (text rest : List Char) :
    names (text ++ '/' :: rest) = names text ++ names rest := by
  simp [names, pieces_append_slash]

@[simp] theorem names_slash (text : List Char) : names (text ++ ['/']) = names text := by
  rw [names_append_slash]
  exact List.append_nil _

/-- What follows the last component counts for nothing. -/
theorem names_trimmed (text : List Char) : names (trimmed text) = names text := by
  have hstrip (back : List Char) : names (trimmed.strip back).reverse = names back.reverse := by
    induction back using trimmed.strip.induct with
    | case1 rest ih => rw [trimmed.strip, ih, List.reverse_cons, names_slash]
    | case2 rest ih =>
      have hpoint := names_append_slash rest.reverse ['.']
      rw [trimmed.strip, ih, List.reverse_cons, names_slash, List.reverse_cons, List.reverse_cons,
        List.append_assoc, List.singleton_append, hpoint]
      exact (List.append_nil _).symm
    | case3 back hslash hpoint => rw [trimmed.strip] <;> assumption
  rw [trimmed, hstrip, List.reverse_reverse]

/-- A text that ends in a name has nothing to strip. -/
theorem strip_cons {c : Char} (hslash : c ≠ '/') (hpoint : c ≠ '.') (back : List Char) :
    trimmed.strip (c :: back) = c :: back := by
  rw [trimmed.strip] <;> simp [hslash, hpoint]

theorem strip_ne_slash (back rest : List Char) : trimmed.strip back ≠ '/' :: rest := by
  induction back using trimmed.strip.induct with
  | case1 back ih => rwa [trimmed.strip]
  | case2 back ih => rwa [trimmed.strip]
  | case3 back hslash hpoint =>
    rw [trimmed.strip]
    · rintro rfl
      exact hslash _ rfl
    · exact hslash
    · exact hpoint

theorem strip_ne_point (back rest : List Char) : trimmed.strip back ≠ '.' :: '/' :: rest := by
  induction back using trimmed.strip.induct with
  | case1 back ih => rwa [trimmed.strip]
  | case2 back ih => rwa [trimmed.strip]
  | case3 back hslash hpoint =>
    rw [trimmed.strip]
    · rintro rfl
      exact hpoint _ rfl
    · exact hslash
    · exact hpoint

/-- If what is left ends in no name, then nothing else is left. -/
theorem strip_of_idle {back : List Char}
    (h : isIdle ((trimmed.strip back).takeWhile (· != '/')) = true) :
    (trimmed.strip back).takeWhile (· != '/') = trimmed.strip back := by
  rcases hstrip : trimmed.strip back with - | ⟨c, rest⟩
  · rfl
  have hc : c ≠ '/' := by
    rintro rfl
    exact strip_ne_slash _ _ hstrip
  have hfirst : (c :: rest).takeWhile (· != '/') = c :: rest.takeWhile (· != '/') :=
    List.takeWhile_cons_of_pos (by simpa using hc)
  rw [hstrip, hfirst] at h
  obtain ⟨rfl, hrest⟩ : c = '.' ∧ rest.takeWhile (· != '/') = [] := by simpa [isIdle] using h
  cases rest with
  | nil => rfl
  | cons d rest =>
    have hd : d ≠ '/' := by
      rintro rfl
      exact strip_ne_point _ _ hstrip
    simp [hd] at hrest

/-! ### The directory part and the name -/

/-- A directory part is empty or ends in a slash. -/
def IsDirectoryPart (directory : List Char) : Prop :=
  directory = [] ∨ ∃ text, directory = text ++ ['/']

theorem cut_append (path : Path) : (cut path).1 ++ (cut path).2 = trimmed path.toList := by
  rw [cut, ← List.reverse_append, List.takeWhile_append_dropWhile, List.reverse_reverse]

theorem slash_notMem_cut (path : Path) : '/' ∉ (cut path).2 := by
  intro h
  have := List.mem_takeWhile_imp (List.mem_reverse.mp h)
  simp at this

theorem isDirectoryPart_cut (path : Path) : IsDirectoryPart (cut path).1 := by
  rcases hback : (trimmed path.toList).reverse.dropWhile (· != '/') with - | ⟨c, back⟩
  · exact .inl (by simp [cut, hback])
  · have hhead := List.head?_dropWhile_not (· != '/') (trimmed path.toList).reverse
    have hc : c = '/' := by simpa [hback] using hhead
    exact .inr ⟨back.reverse, by simp [cut, hback, hc]⟩

theorem names_append {directory name : List Char} (hdirectory : IsDirectoryPart directory)
    (hname : '/' ∉ name) :
    names (directory ++ name) =
      names directory ++ if isIdle name then [] else [String.ofList name] := by
  have hpiece : names name = if isIdle name then [] else [String.ofList name] := by
    rw [names, pieces_of_no_slash hname]
    by_cases hidle : isIdle name <;> simp [hidle]
  rcases hdirectory with rfl | ⟨text, rfl⟩
  · simpa [names, pieces, isIdle] using hpiece
  · rw [List.append_assoc, List.singleton_append, names_append_slash, names_slash, hpiece]

theorem components_eq (path : Path) :
    components path = names (cut path).1 ++
      if isIdle (cut path).2 then [] else [String.ofList (cut path).2] := by
  rw [← names_append (isDirectoryPart_cut path) (slash_notMem_cut path), cut_append, names_trimmed]
  rfl

variable {path : Path} {directory name : List Char}

theorem cut_of_split (h : split? path = some (directory, name)) :
    cut path = (directory, name) ∧ isName name = true := by
  rw [split?] at h
  split at h
  next hname =>
    rw [Option.some.injEq] at h
    exact ⟨h, by rwa [h] at hname⟩
  next => cases h

theorem isName_iff : isName name = true ↔ name ≠ [] ∧ name ≠ ['.'] ∧ name ≠ ['.', '.'] := by
  simp [isName, and_assoc]

/-- **The components of a path that has a name.** -/
theorem components_of_split (h : split? path = some (directory, name)) :
    components path = names directory ++ [String.ofList name] := by
  obtain ⟨hcut, hname⟩ := cut_of_split h
  obtain ⟨hempty, hpoint, -⟩ := isName_iff.mp hname
  have hidle : isIdle name = false := by simp [isIdle, hempty, hpoint]
  rw [components_eq, hcut, hidle]
  rfl

theorem name_ne_up (h : split? path = some (directory, name)) : String.ofList name ≠ ".." := by
  intro heq
  exact (isName_iff.mp (cut_of_split h).2).2.2 (by simpa using congrArg String.toList heq)

theorem ne_empty_of_split (h : split? path = some (directory, name)) : path ≠ "" := by
  rintro rfl
  cases h

/-- **A path without a name** leads to the place it starts from, or back up. -/
theorem components_of_no_split (h : split? path = none) :
    components path = [] ∨ ∃ rest, components path = rest ++ [".."] := by
  by_cases hup : (cut path).2 = ['.', '.']
  · refine .inr ⟨names (cut path).1, ?_⟩
    rw [components_eq, hup]
    rfl
  · have hidle : isIdle (cut path).2 = true := by
      rw [split?] at h
      split at h
      · cases h
      next hname =>
        rw [isName_iff, not_and_or, not_and_or, not_not, not_not] at hname
        rcases hname with hempty | hpoint | hne
        · simp [isIdle, hempty]
        · simp [isIdle, hpoint]
        · exact absurd hup hne
    have hback : (cut path).2 =
        ((trimmed.strip path.toList.reverse).takeWhile (· != '/')).reverse := by
      simp [cut, trimmed]
    have hwhole : (cut path).2 = trimmed path.toList := by
      rw [hback, strip_of_idle, trimmed]
      rw [hback] at hidle
      simpa [isIdle, List.reverse_eq_iff] using hidle
    left
    rw [components_eq_names, ← names_trimmed, ← hwhole, names,
      pieces_of_no_slash (slash_notMem_cut path)]
    simp [hidle]

/-! ### Extensions -/

/-- What can be given to a name as its extension. -/
def IsExtension (extension : String) : Prop :=
  extension.toList ≠ [] ∧ ∀ c ∈ extension.toList, c ≠ '/' ∧ c ≠ '.'

/-- A name with another extension. -/
def renamed (extension : String) (name : List Char) : List Char :=
  stem name ++ '.' :: extension.toList

theorem mem_of_mem_stem {c : Char} (h : c ∈ stem name) : c ∈ name := by
  rw [stem] at h
  split at h
  next rest hrest =>
    split at h
    · exact h
    · have hmem : c ∈ name.reverse.dropWhile (· != '.') := by
        rw [hrest]
        exact List.mem_cons_of_mem _ (List.mem_reverse.mp h)
      exact List.mem_reverse.mp ((List.dropWhile_suffix _).subset hmem)
  next => exact h

/-- The path that is a directory part and a name has that name. -/
theorem split?_ofList {c : Char} (hdirectory : IsDirectoryPart directory) (hname : '/' ∉ name)
    (hlast : name.getLast? = some c) (hpoint : c ≠ '.') :
    split? (String.ofList (directory ++ name)) = some (directory, name) ∧
      isForDirectory (String.ofList (directory ++ name)) = false := by
  obtain ⟨start, rfl⟩ := List.getLast?_eq_some_iff.mp hlast
  have hslash : c ≠ '/' := by
    rintro rfl
    exact hname (by simp)
  have htrimmed : trimmed (directory ++ (start ++ [c])) = directory ++ (start ++ [c]) := by
    have hback : (directory ++ (start ++ [c])).reverse =
        c :: (start.reverse ++ directory.reverse) := by
      simp
    rw [trimmed, hback, strip_cons hslash hpoint, ← hback, List.reverse_reverse]
  have hdrop : directory.reverse.dropWhile (· != '/') = directory.reverse ∧
      directory.reverse.takeWhile (· != '/') = [] := by
    rcases hdirectory with rfl | ⟨text, rfl⟩ <;> simp
  have hkeep : ∀ d ∈ (start ++ [c]).reverse, (d != '/') = true := by
    intro d hd
    have : d ≠ '/' := by
      rintro rfl
      exact hname (List.mem_reverse.mp hd)
    simpa using this
  have hcut : cut (String.ofList (directory ++ (start ++ [c]))) = (directory, start ++ [c]) := by
    rw [cut, String.toList_ofList, htrimmed, List.reverse_append,
      List.dropWhile_append_of_pos hkeep, List.takeWhile_append_of_pos hkeep, hdrop.1, hdrop.2]
    simp
  have hisName : isName (start ++ [c]) = true := by
    refine isName_iff.mpr ⟨by simp, fun heq => hpoint ?_, fun heq => hpoint ?_⟩
    · simpa using congrArg List.getLast? heq
    · simpa using congrArg List.getLast? heq
  constructor
  · rw [split?, hcut, if_pos hisName]
  · simp [isForDirectory, htrimmed]

/-- **Another extension changes the name and nothing else.** -/
theorem split?_withExtension {extension : String} (hextension : IsExtension extension)
    (h : split? path = some (directory, name)) :
    split? (path.withExtension extension) = some (directory, renamed extension name) ∧
      isForDirectory (path.withExtension extension) = false := by
  obtain ⟨hcut, -⟩ := cut_of_split h
  have hdirectory := isDirectoryPart_cut path
  have hslash := slash_notMem_cut path
  rw [hcut] at hdirectory hslash
  have hlast : (renamed extension name).getLast? =
      some (extension.toList.getLast hextension.1) := by
    rw [renamed, List.getLast?_append, List.getLast?_cons,
      List.getLast?_eq_some_getLast hextension.1]
    rfl
  have hno : '/' ∉ renamed extension name := by
    rw [renamed, List.mem_append, List.mem_cons, not_or, not_or]
    exact ⟨fun hmem => hslash (mem_of_mem_stem hmem), by decide,
      fun hmem => (hextension.2 _ hmem).1 rfl⟩
  have hsplit := split?_ofList hdirectory hno hlast
    (hextension.2 _ (List.getLast_mem hextension.1)).2
  simpa only [withExtension, h, renamed, List.append_assoc] using hsplit

/-- A path without a name stays as it is. -/
theorem withExtension_of_no_split (h : split? path = none) (extension : String) :
    path.withExtension extension = path := by
  rw [withExtension, h]

/-- **A name without an extension is another name with it.** -/
theorem name_ne {extension : String} (h : split? path = some (directory, name))
    (hextension : extension? path ≠ some extension) : renamed extension name ≠ name := by
  intro heq
  have hlength : name.length = (stem name).length + (extension.toList.length + 1) := by
    have := congrArg List.length heq
    simp only [renamed, List.length_append, List.length_cons] at this
    omega
  have hdrop : name.drop ((stem name).length + 1) = extension.toList := by
    have := congrArg (List.drop ((stem name).length + 1)) heq
    rw [renamed, List.drop_append, List.drop_of_length_le (by omega)] at this
    simpa using this.symm
  apply hextension
  rw [extension?, h]
  simp [hlength, hdrop]

/-! ### The directory that a path lies in -/

theorem parent?_of_split (h : split? path = some (directory, name)) :
    ∃ parent, parent? path = some parent ∧ components parent = names directory := by
  obtain ⟨hcut, hname⟩ := cut_of_split h
  have hempty : name.isEmpty = false := by simpa using (isName_iff.mp hname).1
  rw [parent?, hcut]
  simp only [hempty, Bool.false_eq_true, if_false]
  refine ⟨_, rfl, ?_⟩
  split
  next hroot =>
    have hbare : trimmed directory = [] := List.isEmpty_iff.mp hroot.1
    rw [← names_trimmed directory, hbare]
    rfl
  next => rw [components_eq_names, String.toList_ofList, names_trimmed]

/-- The files beside a file lie in the same directory. -/
theorem parent?_withExtension {extension : String} (hextension : IsExtension extension)
    (path : Path) : parent? (path.withExtension extension) = parent? path := by
  rcases h : split? path with - | ⟨directory, name⟩
  · rw [withExtension_of_no_split h]
  · obtain ⟨hcut, hname⟩ := cut_of_split h
    obtain ⟨hcut', hname'⟩ := cut_of_split (split?_withExtension hextension h).1
    have hempty : name.isEmpty = false := by simpa using (isName_iff.mp hname).1
    have hempty' : (renamed extension name).isEmpty = false := by
      simpa using (isName_iff.mp hname').1
    simp [parent?, hcut, hcut', hempty, hempty']

end ProxyUpgrade.Path
