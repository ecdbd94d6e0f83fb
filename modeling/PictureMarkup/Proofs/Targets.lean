import PictureMarkup.CommandLine.Run
import PictureMarkup.Proofs.Locating

/-!
# Which inputs share a target

The document of one of several inputs goes beside the input or into the output directory,
under the input's name with another extension. So two inputs share a target if their names
agree up to their extensions and, where there is no output directory, they are in the same
directory (`Disk.Sharing`). These are the only ones (`Disk.locate_target_eq_iff`), and no
other document goes to the place of an input (`Disk.sharing_of_target_at_input`).
-/

namespace PictureMarkup

namespace FileName

/-! ## Stems and extensions -/

theorem stem_begins (name : List Char) : stem name <+: name := by
  unfold stem
  split
  · rename_i c before found
    have rest := found ▸ List.dropWhile_suffix (l := name.reverse) fun x => decide (x ≠ '.')
    simpa using List.reverse_prefix.mpr ((List.suffix_cons _ _).trans rest)
  · exact List.prefix_refl name

theorem stem_append {name extension : List Char} (some : name ≠ []) (plain : '.' ∉ extension) :
    stem (name ++ '.' :: extension) = name := by
  have others : ∀ c ∈ extension.reverse, decide (c ≠ '.') = true := by
    grind
  obtain ⟨c, before, reversed⟩ := List.exists_cons_of_ne_nil (List.reverse_ne_nil_iff.mpr some)
  rw [stem, List.reverse_append, List.reverse_cons, List.append_assoc,
    List.dropWhile_append_of_pos others, reversed]
  simpa using (congrArg List.reverse reversed).symm

theorem stem_ne_nil {name : List Char} (some : name ≠ []) : stem name ≠ [] := by
  unfold stem
  split
  · simp
  · exact some

/-- The last name of a path with another extension. -/
def renamed (name extension : List Char) : List Char :=
  if stem name = ['.'] then parent else stem name ++ '.' :: extension

theorem withExtension_eq (path extension : String) :
    (withExtension path extension).toList =
      directory path.toList ++ renamed (last path.toList) extension.toList := by
  simp [withExtension, renamed]

theorem renamed_plain {name extension : List Char} (plain : '/' ∉ name)
    (plainExtension : '/' ∉ extension) : '/' ∉ renamed name extension := by
  have start : '/' ∉ stem name := fun member => plain (List.IsPrefix.mem member (stem_begins name))
  unfold renamed
  split
  · decide
  · simp [start, plainExtension]

/-- A name in a directory stands behind a slash, and what is before it is the directory's. -/
theorem exists_join_eq (dir : String) :
    ∃ before, ∀ name, (join dir name).toList = before ++ '/' :: name.toList := by
  by_cases ended : dir.toList.getLast? = some '/'
  · obtain ⟨before, same⟩ := List.getLast?_eq_some_iff.mp ended
    exact ⟨before, fun name => by simp [join, same]⟩
  · exact ⟨dir.toList, fun name => by simp [join, ended]⟩

end FileName

namespace CommandLine

open FileName

/-- The name at the end of a path, without its extension. -/
def stemOf (path : String) : List Char := stem (ofPath path).toList

namespace Disk

/-- The documents of the inputs go to the same place: their names agree up to the extensions,
and they are in one directory or their documents are. -/
structure Sharing (d : Disk) (output : Option String) (x y : String) : Prop where
  stem : stemOf x = stemOf y
  folder : output = none → (d.locate x).map List.dropLast = (d.locate y).map List.dropLast

instance (d : Disk) (output : Option String) (x y : String) :
    Decidable (d.Sharing output x y) :=
  decidable_of_iff
    (stemOf x = stemOf y ∧
      (output = none → (d.locate x).map List.dropLast = (d.locate y).map List.dropLast))
    ⟨fun h => ⟨h.1, h.2⟩, fun h => ⟨h.stem, h.folder⟩⟩

/-- The directory of the documents, given the location of the input. -/
def targetFolder (d : Disk) (l : Location) : Option String → Option Location
  | none => some l.dropLast
  | some directory => d.folder (FileName.directory (join directory "").toList)

variable {d : Disk} {output : Option String} {x y : String} {l k t u : Location}

/-- The place of a document: a directory, and a name that has its stem from the input. -/
theorem Leads.target (input : d.Leads x l) (written : d.Leads (target output x) t) :
    ∃ f, d.targetFolder l output = some f ∧
      t = f ++ [String.ofList (stemOf x ++ '.' :: outputExtension.toList)] := by
  obtain ⟨name, f, inside, rfl⟩ := input.place
  obtain ⟨shown, g, targetInside, rfl⟩ := written.place
  have ends : '/' ∉ outputExtension.toList := by decide
  have isLast : ofPath x = String.ofList (last x.toList) := ofPath_of_name name
  have stems : stemOf x = stem (last x.toList) := by rw [stemOf, isLast, String.toList_ofList]
  -- the path before it is renamed
  obtain ⟨p, whole, sameLast, sameFolder⟩ : ∃ p : String,
      target output x = withExtension p outputExtension ∧ last p.toList = last x.toList ∧
        d.folder (directory p.toList) = d.targetFolder (f ++ [ofPath x]) output := by
    cases output with
    | none => exact ⟨x, rfl, rfl, by simpa [targetFolder] using inside⟩
    | some dir =>
        obtain ⟨before, joined⟩ := exists_join_eq dir
        refine ⟨join dir (ofPath x), rfl, ?_, ?_⟩
        · rw [joined, isLast, String.toList_ofList, last_append_slash (last_plain _)]
        · rw [targetFolder, joined, joined, isLast, String.toList_ofList,
            directory_append_slash (last_plain _), String.toList_empty,
            directory_append_slash List.not_mem_nil]
  have plain : '/' ∉ renamed (last p.toList) outputExtension.toList :=
    renamed_plain (last_plain _) ends
  rw [whole, withExtension_eq, last_directory_append plain] at shown ⊢
  rw [whole, withExtension_eq, directory_directory_append plain, sameFolder] at targetInside
  have kept : renamed (last p.toList) outputExtension.toList =
      stemOf x ++ '.' :: outputExtension.toList := by
    unfold renamed at shown ⊢
    split
    · rename_i lone
      exact absurd (if_pos lone) shown.rises
    · rw [sameLast, stems]
  rw [kept, ← isLast]
  exact ⟨g, targetInside, rfl⟩

theorem child_eq_iff {f g : Location} {a b : List Char} :
    f ++ [String.ofList a] = g ++ [String.ofList b] ↔ f = g ∧ a = b := by
  constructor
  · intro same
    obtain ⟨folders, names⟩ := List.append_inj' same rfl
    exact ⟨folders, String.ofList_injective (List.cons.inj names).1⟩
  · rintro ⟨rfl, rfl⟩
    rfl

/-- Documents go to one place exactly if their inputs share it. -/
theorem locate_target_eq_iff (inputX : d.Leads x l) (inputY : d.Leads y k)
    (writtenX : d.Leads (target output x) t) (writtenY : d.Leads (target output y) u) :
    d.locate (target output x) = d.locate (target output y) ↔ d.Sharing output x y := by
  obtain ⟨f, folderX, rfl⟩ := inputX.target writtenX
  obtain ⟨g, folderY, rfl⟩ := inputY.target writtenY
  rw [writtenX.located, writtenY.located]
  have names : f ++ [String.ofList (stemOf x ++ '.' :: outputExtension.toList)] =
      g ++ [String.ofList (stemOf y ++ '.' :: outputExtension.toList)] ↔
        f = g ∧ stemOf x = stemOf y := by
    rw [child_eq_iff, List.append_left_inj]
  rw [Option.some.injEq, names]
  constructor
  · rintro ⟨rfl, stems⟩
    refine ⟨stems, ?_⟩
    rintro rfl
    rw [inputX.located, inputY.located, Option.map_some, Option.map_some]
    exact folderX.trans folderY.symm
  · rintro ⟨stems, folders⟩
    refine ⟨Option.some.inj ?_, stems⟩
    rw [← folderX, ← folderY]
    cases output with
    | none => simpa [inputX.located, inputY.located, targetFolder] using folders rfl
    | some directory => rfl

/-- If a document goes to the place of an input, then the input's own document does too. -/
theorem sharing_of_target_at_input (inputX : d.Leads x l) (inputY : d.Leads y k)
    (writtenY : d.Leads (target output y) l) : d.Sharing output x y := by
  obtain ⟨g, folderY, place⟩ := inputY.target writtenY
  obtain ⟨name, f, -, rfl⟩ := inputX.place
  obtain ⟨nameY, -⟩ := inputY.place
  have same := child_eq_iff.mp place
  refine ⟨?_, ?_⟩
  · have some : stemOf y ≠ [] := by
      rw [stemOf, ofPath_of_name nameY, String.toList_ofList]
      exact stem_ne_nil nameY.ne_nil
    rw [stemOf, ofPath_of_name name, String.toList_ofList, same.2]
    exact stem_append some (by decide)
  · rintro rfl
    rw [inputX.located, inputY.located, Option.map_some, Option.map_some, List.dropLast_concat,
      same.1]
    exact folderY.symm

end Disk

end CommandLine

end PictureMarkup
