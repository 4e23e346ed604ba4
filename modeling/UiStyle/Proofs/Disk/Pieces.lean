import UiStyle.Proofs.Disk.Following

/-!
# Files in a directory

A path is that of a file in a directory if it has the components of the directory and behind them
one more, the name of the file (`Path.IsFileIn`).  Joining a directory and a name gives such a path
exactly if the name can be that of a file: it holds no slash, is not empty and is neither of the
names that stand for a directory (`isFileIn_join_iff`).

Whatever slashes the directory ends in, the pieces of the joined path are those of the directory
without empty ones at its end, and then the name (`pieces_join`).
-/

namespace UiStyle.Path

/-! ### Splitting at slashes -/

theorem splitSlashes_ne_nil (cs : List Char) : splitSlashes cs ≠ [] := by
  cases cs with
  | nil => exact List.cons_ne_nil _ _
  | cons c rest =>
      unfold splitSlashes
      split
      · exact List.cons_ne_nil _ _
      · split <;> exact List.cons_ne_nil _ _

theorem pieces_ne_nil (path : String) : pieces path ≠ [] := by
  rw [pieces, ne_eq, List.map_eq_nil_iff]
  exact splitSlashes_ne_nil _

theorem slash_notMem_of_mem {cs piece : List Char} (h : piece ∈ splitSlashes cs) : '/' ∉ piece := by
  induction cs generalizing piece with
  | nil =>
      rw [List.mem_singleton.mp h]
      exact List.not_mem_nil
  | cons c rest ih =>
      unfold splitSlashes at h
      split at h
      · rcases List.mem_cons.mp h with rfl | h
        · exact List.not_mem_nil
        · exact ih h
      · rename_i hc
        have hslash : '/' ≠ c := Ne.symm hc
        split at h
        · rw [List.mem_singleton.mp h]
          simp [hslash]
        · rename_i first others hsplit
          rcases List.mem_cons.mp h with rfl | h
          · have hfirst := ih (hsplit ▸ List.mem_cons_self ..)
            simp [hslash, hfirst]
          · exact ih (hsplit ▸ List.mem_cons_of_mem _ h)

theorem splitSlashes_of_notMem {cs : List Char} (h : '/' ∉ cs) : splitSlashes cs = [cs] := by
  induction cs with
  | nil => rfl
  | cons c rest ih =>
      rw [List.mem_cons, not_or] at h
      rw [splitSlashes, if_neg (Ne.symm h.1), ih h.2]

/-- A slash separates the pieces in front of it from those behind it. -/
theorem splitSlashes_append (cs rest : List Char) :
    splitSlashes (cs ++ '/' :: rest) = splitSlashes cs ++ splitSlashes rest := by
  induction cs with
  | nil => rfl
  | cons c cs ih =>
      by_cases hc : c = '/'
      · simp [splitSlashes, hc, ih]
      · obtain ⟨first, others, hsplit⟩ := List.exists_cons_of_ne_nil (splitSlashes_ne_nil cs)
        simp [splitSlashes, hc, ih, hsplit]

/-! ### Joining -/

theorem isAbsolute_eq_false_of_notMem {name : String} (h : '/' ∉ name.toList) :
    isAbsolute name = false := by
  rw [isAbsolute, beq_eq_false_iff_ne]
  intro hhead
  exact h (List.mem_of_mem_head? hhead)

/-- What is put behind a path is put behind the characters that its pieces come from. -/
theorem pieces_append {path : String} (hpath : path ≠ "") :
    ∃ cs, ∀ rest, isAbsolute (path ++ rest) = isAbsolute path ∧
      pieces (path ++ rest) = (splitSlashes (cs ++ rest.toList)).map .ofList := by
  obtain ⟨c, cs, hcs⟩ : ∃ c cs, path.toList = c :: cs := by
    apply List.exists_cons_of_ne_nil
    intro hnil
    exact hpath (String.toList_eq_nil_iff.mp hnil)
  have habsolute : ∀ rest, isAbsolute (path ++ rest) = isAbsolute path := by
    intro rest
    simp [isAbsolute, String.toList_append, hcs]
  refine ⟨if isAbsolute path then cs else c :: cs, fun rest => ⟨habsolute rest, ?_⟩⟩
  rw [pieces, habsolute, String.toList_append, hcs]
  split <;> rfl

theorem splitSlashes_name {name : String} (hname : '/' ∉ name.toList) (cs : List Char) :
    (splitSlashes (cs ++ ("/" ++ name).toList)).map String.ofList =
      (splitSlashes cs).map String.ofList ++ [name] := by
  have hslash : ("/" ++ name).toList = '/' :: name.toList := String.toList_append
  rw [hslash, splitSlashes_append, splitSlashes_of_notMem hname, List.map_append,
    List.map_singleton, String.ofList_toList]

theorem pieces_join {name : String} (hname : '/' ∉ name.toList) (directory : String) :
    isAbsolute (join directory name) = isAbsolute directory ∧
      ∃ front trailing, pieces directory = front ++ trailing ∧ (∀ piece ∈ trailing, piece = "") ∧
        pieces (join directory name) = front ++ [name] := by
  have hrelative := isAbsolute_eq_false_of_notMem hname
  have hpieces : pieces name = [name] := by
    rw [pieces, hrelative, if_neg Bool.false_ne_true, splitSlashes_of_notMem hname,
      List.map_singleton, String.ofList_toList]
  by_cases hempty : directory = ""
  · subst hempty
    have hjoin : join "" name = name := by simp [join, hrelative]
    rw [hjoin, hpieces]
    exact ⟨hrelative, [], [""], rfl, by simp, rfl⟩
  by_cases hlast : directory.toList.getLast? = some '/'
  · have hjoin : join directory name = directory ++ name := by simp [join, hrelative, hlast]
    obtain ⟨cs, hcs⟩ := List.getLast?_eq_some_iff.mp hlast
    obtain ⟨start, hstart⟩ : ∃ start, directory = start ++ "/" :=
      ⟨.ofList cs, by rw [← String.ofList_toList (s := directory), hcs, String.ofList_append]⟩
    rw [hjoin, hstart]
    by_cases hroot : start = ""
    · subst hroot
      refine ⟨by simp [isAbsolute, String.toList_append], [], [""], by decide, by simp, ?_⟩
      simp [pieces, isAbsolute, String.toList_append, splitSlashes_of_notMem hname]
    · obtain ⟨cs, hpieces⟩ := pieces_append hroot
      obtain ⟨habsolute, hdirectory⟩ := hpieces "/"
      obtain ⟨habsolute', hpath⟩ := hpieces ("/" ++ name)
      rw [String.append_assoc, habsolute', habsolute, hpath, hdirectory]
      refine ⟨rfl, (splitSlashes cs).map .ofList, [""], ?_, by simp, ?_⟩
      · have hempty : '/' ∉ ("" : String).toList := List.not_mem_nil
        exact splitSlashes_name hempty cs
      · exact splitSlashes_name hname cs
  · have hjoin : join directory name = directory ++ "/" ++ name := by
      simp [join, hrelative, hlast, hempty]
    obtain ⟨cs, hpieces⟩ := pieces_append hempty
    obtain ⟨habsolute, hpath⟩ := hpieces ("/" ++ name)
    obtain ⟨-, hdirectory⟩ := hpieces ""
    rw [hjoin, String.append_assoc, habsolute, hpath]
    refine ⟨rfl, (splitSlashes cs).map .ofList, [], ?_, nofun, splitSlashes_name hname cs⟩
    simpa using hdirectory

/-! ### Components -/

/-- A path is that of a file of this name in a directory. -/
structure IsFileIn (directory name path : String) : Prop where
  absolute : isAbsolute path = isAbsolute directory
  components : components path = Path.components directory ++ [name]
  name : IsName name

/-- Whether a name can be that of a file. -/
structure IsFileName (name : String) : Prop where
  isName : IsName name
  slash_notMem : '/' ∉ name.toList

theorem mem_pieces_of_mem_components {path piece : String} (h : piece ∈ components path) :
    piece ∈ pieces path := by
  unfold components at h
  split at h
  · rename_i rest _ hpieces
    rw [hpieces]
    rcases List.mem_cons.mp h with rfl | h
    · exact List.mem_cons_self ..
    · exact List.mem_cons_of_mem _ ((List.mem_filter.mp h).1)
  · exact (List.mem_filter.mp h).1

theorem slash_notMem_of_mem_components {path piece : String} (h : piece ∈ components path) :
    '/' ∉ piece.toList := by
  obtain ⟨cs, hcs, rfl⟩ := List.mem_map.mp (mem_pieces_of_mem_components h)
  rw [String.toList_ofList]
  exact slash_notMem_of_mem hcs

/-- A single dot counts only at the start of a path that is not absolute. -/
theorem components_eq (path : String) :
    components path =
      (if isAbsolute path = false ∧ (pieces path).head? = some "." then ["."] else []) ++
        (pieces path).filter fun p => p != "" && p != "." := by
  unfold components
  split
  · rename_i rest habsolute hpieces
    simp [habsolute, hpieces]
  · rename_i hdot
    rw [if_neg, List.nil_append]
    rintro ⟨habsolute, hhead⟩
    obtain ⟨rest, hpieces⟩ := List.head?_eq_some_iff.mp hhead
    exact hdot rest habsolute hpieces

theorem head?_append_eq_dot_iff {front behind : List String} (hbehind : behind.head? ≠ some ".") :
    (front ++ behind).head? = some "." ↔ front.head? = some "." := by
  cases front with
  | nil => simp [hbehind]
  | cons piece front => rfl

theorem components_join {name : String} (hname : IsFileName name) (directory : String) :
    components (join directory name) = components directory ++ [name] := by
  obtain ⟨habsolute, front, trailing, hdirectory, htrailing, hpath⟩ :=
    pieces_join hname.slash_notMem directory
  have hhead : trailing.head? ≠ some "." := by
    intro h
    exact absurd (htrailing "." (List.mem_of_mem_head? h)) (by decide)
  have hhead' : [name].head? ≠ some "." := by simp [hname.isName.not_here]
  have hempty : trailing.filter (fun p => p != "" && p != ".") = [] := by
    rw [List.filter_eq_nil_iff]
    intro piece hpiece
    simp [htrailing piece hpiece]
  have hkept : [name].filter (fun p => p != "" && p != ".") = [name] := by
    simp [hname.isName.nonempty, hname.isName.not_here]
  rw [components_eq, components_eq, habsolute, hdirectory, hpath]
  simp only [head?_append_eq_dot_iff hhead, head?_append_eq_dot_iff hhead', List.filter_append,
    hempty, hkept, List.append_nil, List.append_assoc]

theorem isFileIn_join_iff {directory name : String} :
    IsFileIn directory name (join directory name) ↔ IsFileName name := by
  constructor
  · intro h
    have hmem : name ∈ components (join directory name) := by
      rw [h.components]
      exact List.mem_append_right _ (List.mem_singleton_self name)
    exact ⟨h.name, slash_notMem_of_mem_components hmem⟩
  · intro h
    exact ⟨(pieces_join h.slash_notMem directory).1, components_join h directory, h.isName⟩

end UiStyle.Path
