import BuildScript.Files.Name
import BuildScript.Proofs.Text

/-!
# Names with another extension

A name that has an extension is its stem, a dot and the extension.  Putting another extension in
its place keeps the stem, so different names stay different, and acts on the last name of a path
alone.
-/

namespace BuildScript.FileName

/-! ## The last name of a path -/

/-- What follows the last separator. -/
theorem takeWhile_reverse_append {separator : Char} {t : List Char} (h : separator ∉ t)
    (s : List Char) :
    ((s ++ separator :: t).reverse.takeWhile (· != separator)).reverse = t := by
  have plain : ∀ c ∈ t.reverse, (c != separator) = true := by
    intro c member
    rw [List.mem_reverse] at member
    simpa using fun same : c = separator => h (same ▸ member)
  rw [List.reverse_append, List.reverse_cons, List.append_assoc,
    List.takeWhile_append_of_pos plain]
  simp

/-- The path of a directory with the slash that a name follows. -/
def front (directory : String) : List Char :=
  if directory.toList.getLast? == some '/' then directory.toList else directory.toList ++ ['/']

theorem toList_inDirectory (directory name : String) :
    (inDirectory directory name).toList = front directory ++ name.toList := by
  unfold inDirectory front
  split <;> simp

theorem front_eq_append (directory : String) : ∃ before, front directory = before ++ ['/'] := by
  unfold front
  split
  · rename_i slash
    rw [beq_iff_eq, List.getLast?_eq_some_iff] at slash
    exact slash
  · exact ⟨directory.toList, rfl⟩

theorem withExtension_inDirectory (directory extension : String) {name : String}
    (single : '/' ∉ name.toList) :
    withExtension (inDirectory directory name) extension =
      inDirectory directory (String.ofList (renamed extension.toList name.toList)) := by
  obtain ⟨before, slash⟩ := front_eq_append directory
  have last : ((inDirectory directory name).toList.reverse.takeWhile (· != '/')).reverse =
      name.toList := by
    rw [toList_inDirectory, slash, List.append_assoc]
    exact takeWhile_reverse_append single before
  apply String.toList_injective
  rw [toList_inDirectory, String.toList_ofList]
  unfold withExtension
  simp only [last, String.toList_ofList]
  rw [toList_inDirectory, List.length_append, Nat.add_sub_cancel, List.take_left]

theorem inDirectory_injective (directory : String) {name other : String}
    (h : inDirectory directory name = inDirectory directory other) : name = other := by
  have same := congrArg String.toList h
  rw [toList_inDirectory, toList_inDirectory] at same
  exact String.toList_injective (List.append_cancel_left same)

/-! ## Extensions -/

/-- A name with an extension is its stem, a dot and the extension. -/
theorem eq_append_of_splitExtension {name stem extension : List Char}
    (h : splitExtension name = (stem, some extension)) :
    stem ≠ [] ∧ name = stem ++ '.' :: extension := by
  unfold splitExtension at h
  split at h
  · simp at h
  · split at h
    · simp at h
    · rename_i before found
      simp only [Prod.mk.injEq, Option.some.injEq] at h
      obtain ⟨rfl, rfl⟩ := h
      refine ⟨found, ?_⟩
      have parts := List.takeWhile_append_dropWhile (p := (· != '.')) (l := name.reverse)
      cases rest : name.reverse.dropWhile (· != '.') with
      | nil => simp [rest] at found
      | cons c r =>
        have dot : c = '.' := by
          have := List.head?_dropWhile_not (· != '.') name.reverse
          simpa [rest] using this
        rw [rest, dot] at parts
        have whole := congrArg List.reverse parts
        simpa using whole.symm

/-- The stem of a name is not changed by another extension. -/
theorem renamed_eq {name stem old : List Char} (h : splitExtension name = (stem, some old))
    (extension : List Char) :
    renamed extension name =
      if stem = ['.'] then ['.', '.'] else stem ++ '.' :: extension := by
  have here : name ≠ ['.'] := by
    rintro rfl
    exact absurd h (by simp [splitExtension])
  have above : name ≠ ['.', '.'] := by
    rintro rfl
    exact absurd h (by simp [splitExtension])
  simp [renamed, here, above, h]

/-- Another extension brings in a dot and its own characters only. -/
theorem mem_renamed {name stem old extension : List Char} {c : Char}
    (h : splitExtension name = (stem, some old)) (member : c ∈ renamed extension name) :
    c ∈ name ∨ c = '.' ∨ c ∈ extension := by
  rw [renamed_eq h] at member
  rw [(eq_append_of_splitExtension h).2]
  split at member
  · exact .inr (.inl (by simpa using member))
  · rcases List.mem_append.mp member with stem | added
    · exact .inl (List.mem_append_left _ stem)
    · exact .inr (List.mem_cons.mp added)

theorem renamed_ne_nil (extension name : List Char) : renamed extension name ≠ [] := by
  unfold renamed
  simp only
  split
  · rintro rfl
    contradiction
  · split <;> simp

/-- A stem and an extension are not the name of the directory above. -/
theorem append_ne_dots {stem extension : List Char} (dot : stem ≠ ['.'])
    (plain : '.' ∉ extension) : stem ++ '.' :: extension ≠ ['.', '.'] := by
  intro same
  match stem with
  | [] => simp_all
  | [c] => simp_all
  | c :: d :: r => simp at same

/-- Different names with the same extension have different names with another one. -/
theorem renamed_injective {name other stem stem' old extension : List Char}
    (h : splitExtension name = (stem, some old)) (h' : splitExtension other = (stem', some old))
    (plain : '.' ∉ extension) (same : renamed extension name = renamed extension other) :
    name = other := by
  rw [renamed_eq h, renamed_eq h'] at same
  have stems : stem = stem' := by
    split at same
    · rename_i dot
      split at same
      · rename_i dot'
        rw [dot, dot']
      · rename_i dot'
        exact absurd same.symm (append_ne_dots dot' plain)
    · rename_i dot
      split at same
      · exact absurd same (append_ne_dots dot plain)
      · exact List.append_cancel_right same
  rw [(eq_append_of_splitExtension h).2, (eq_append_of_splitExtension h').2, stems]

/-- No name with another extension has the old one. -/
theorem renamed_ne {name other stem stem' old extension : List Char}
    (h : splitExtension name = (stem, some old)) (h' : splitExtension other = (stem', some old))
    (plain : '.' ∉ extension) (plain' : '.' ∉ old) (changed : extension ≠ old) :
    renamed extension name ≠ other := by
  rw [renamed_eq h, (eq_append_of_splitExtension h').2]
  intro same
  split at same
  · have dots : other = ['.', '.'] := by rw [(eq_append_of_splitExtension h').2, ← same]
    rw [dots] at h'
    simp [splitExtension] at h'
  · have last := congrArg (fun s => (s.reverse.takeWhile (· != '.')).reverse) same
    simp only [takeWhile_reverse_append plain, takeWhile_reverse_append plain'] at last
    exact changed last

/-! ## Components -/

/-- The path of an entry leads through the directory to the name. -/
theorem components_inDirectory (directory : String) {name : String} (single : '/' ∉ name.toList) :
    ∃ before, components (inDirectory directory name) = before ++ [name] ∧
      (components directory = before ∨ components directory = before ++ [""]) := by
  have last : Text.splitOn '/' name.toList = [name.toList] := splitOn_eq_singleton single
  unfold components
  rw [toList_inDirectory]
  unfold front
  split
  · rename_i slash
    rw [beq_iff_eq, List.getLast?_eq_some_iff] at slash
    obtain ⟨before, slash⟩ := slash
    refine ⟨(Text.splitOn '/' before).map String.ofList, ?_, .inr ?_⟩
    · rw [slash, List.append_assoc, List.singleton_append, splitOn_append, last]
      simp
    · rw [slash, splitOn_append]
      simp [Text.splitOn]
  · refine ⟨(Text.splitOn '/' directory.toList).map String.ofList, ?_, .inl rfl⟩
    rw [List.append_assoc, List.singleton_append, splitOn_append, last]
    simp

theorem head?_inDirectory {directory : String} (nonempty : directory ≠ "") (name : String) :
    (inDirectory directory name).toList.head? = directory.toList.head? := by
  have full : directory.toList ≠ [] := by simpa using nonempty
  obtain ⟨c, r, split⟩ := List.exists_cons_of_ne_nil full
  rw [toList_inDirectory, front]
  split <;> simp [split]

end BuildScript.FileName
