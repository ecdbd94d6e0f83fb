import PictureMarkup.CommandLine.FileSystem

/-!
# Where paths lead

A path is the way to a directory, up to the last slash, and a name in it. So a path that
leads to a file leads to a place in the directory in which its name stands, and another name
after the same slashes leads to another place there (`Disk.Leads`).

Where paths lead depends on the directories only. A file can only be written where there is
a directory for it, so writing files never changes the directories, and whatever is written
can only be read again by a path that leads to the same place (`Disk.read_of_write`).
-/

namespace PictureMarkup

namespace FileName

/-! ## Names and the slashes before them -/

theorem segments_ne_nil (p : List Char) : segments p ≠ [] := by
  induction p using segments.induct <;> simp_all [segments]

theorem segments_append_slash (p q : List Char) :
    segments (p ++ '/' :: q) = segments p ++ segments q := by
  induction p using segments.induct with
  | case1 => rfl
  | case2 r ih => simp [segments, ih]
  | case3 c r other none => exact absurd none (segments_ne_nil r)
  | case4 c r other s ss some ih => simp_all [segments]

theorem segments_of_plain {name : List Char} (plain : '/' ∉ name) : segments name = [name] := by
  induction name with
  | nil => rfl
  | cons c r ih =>
      rw [List.mem_cons, not_or] at plain
      rw [segments.eq_3 c r (fun same => plain.1 same.symm), ih plain.2]

theorem others_of_plain {name : List Char} (plain : '/' ∉ name) :
    ∀ c ∈ name.reverse, decide (c ≠ '/') = true := by
  grind

theorem last_of_plain {name : List Char} (plain : '/' ∉ name) : last name = name := by
  rw [last, ← List.append_nil name.reverse, List.takeWhile_append_of_pos (others_of_plain plain)]
  simp

theorem directory_of_plain {name : List Char} (plain : '/' ∉ name) : directory name = [] := by
  rw [directory, ← List.append_nil name.reverse,
    List.dropWhile_append_of_pos (others_of_plain plain)]
  rfl

theorem last_append_slash {name : List Char} (plain : '/' ∉ name) (p : List Char) :
    last (p ++ '/' :: name) = name := by
  rw [last, List.reverse_append, List.reverse_cons, List.append_assoc,
    List.takeWhile_append_of_pos (others_of_plain plain)]
  simp

theorem directory_append_slash {name : List Char} (plain : '/' ∉ name) (p : List Char) :
    directory (p ++ '/' :: name) = p ++ ['/'] := by
  rw [directory, List.reverse_append, List.reverse_cons, List.append_assoc,
    List.dropWhile_append_of_pos (others_of_plain plain)]
  simp

/-- A path is a name, or it has a last slash. -/
theorem plain_or_slash (p : List Char) :
    '/' ∉ p ∨ ∃ before name, p = before ++ '/' :: name ∧ '/' ∉ name := by
  by_cases member : '/' ∈ p
  · obtain ⟨after, before, split, plain⟩ :=
      List.eq_append_cons_of_mem (List.mem_reverse.mpr member)
    refine .inr ⟨before.reverse, after.reverse, ?_, by simpa using plain⟩
    simpa using congrArg List.reverse split
  · exact .inl member

/-- The slashes before a name, and the names before them, do not depend on the name. -/
theorem segments_directory_append {name : List Char} (plain : '/' ∉ name) (p : List Char) :
    segments (directory p ++ name) = (segments (directory p)).dropLast ++ [name] := by
  obtain noSlash | ⟨before, old, rfl, oldPlain⟩ := plain_or_slash p
  · rw [directory_of_plain noSlash, List.nil_append, segments_of_plain plain]
    rfl
  · rw [directory_append_slash oldPlain, List.append_assoc, List.singleton_append,
      segments_append_slash, segments_append_slash, segments_of_plain plain,
      segments_of_plain List.not_mem_nil, List.dropLast_concat]

theorem segments_directory (p : List Char) :
    segments (directory p) = (segments (directory p)).dropLast ++ [[]] := by
  simpa using segments_directory_append List.not_mem_nil p

theorem last_directory_append {name : List Char} (plain : '/' ∉ name) (p : List Char) :
    last (directory p ++ name) = name := by
  obtain noSlash | ⟨before, old, rfl, oldPlain⟩ := plain_or_slash p
  · rw [directory_of_plain noSlash, List.nil_append, last_of_plain plain]
  · rw [directory_append_slash oldPlain, List.append_assoc, List.singleton_append,
      last_append_slash plain]

theorem directory_directory_append {name : List Char} (plain : '/' ∉ name) (p : List Char) :
    directory (directory p ++ name) = directory p := by
  obtain noSlash | ⟨before, old, rfl, oldPlain⟩ := plain_or_slash p
  · rw [directory_of_plain noSlash, List.nil_append, directory_of_plain plain]
  · rw [directory_append_slash oldPlain, List.append_assoc, List.singleton_append,
      directory_append_slash plain]

theorem last_plain (p : List Char) : '/' ∉ last p := by
  obtain plain | ⟨before, name, rfl, plain⟩ := plain_or_slash p
  · rwa [last_of_plain plain]
  · rwa [last_append_slash plain]

theorem directory_append_last (p : List Char) : directory p ++ last p = p := by
  rw [directory, last, ← List.reverse_append, List.takeWhile_append_dropWhile,
    List.reverse_reverse]

/-- A path is absolute if its directory is. -/
theorem slash_first_iff (p : List Char) :
    p.head? = some '/' ↔ (directory p).head? = some '/' := by
  obtain plain | ⟨before, name, rfl, plain⟩ := plain_or_slash p
  · rw [directory_of_plain plain]
    exact iff_of_false (fun first => plain (List.mem_of_head? first)) (by simp)
  · rw [directory_append_slash plain]
    cases before <;> simp

/-- A segment that is a name: the way goes down by it. -/
structure IsName (segment : List Char) : Prop where
  stays : isIdle segment = false
  rises : segment ≠ parent

theorem IsName.ne_nil {name : List Char} (h : IsName name) : name ≠ [] := by
  rintro rfl
  exact absurd h.stays (by decide)

theorem ofPath_of_name {path : String} (h : IsName (last path.toList)) :
    ofPath path = String.ofList (last path.toList) := by
  have parts : segments path.toList =
      (segments (directory path.toList)).dropLast ++ [last path.toList] := by
    rw [← segments_directory_append (last_plain _), directory_append_last]
  have shown : (segments path.toList).filter (!isIdle ·) =
      (segments (directory path.toList)).dropLast.filter (!isIdle ·) ++ [last path.toList] := by
    rw [parts, List.filter_append, List.filter_cons_of_pos (by simp [h.stays]), List.filter_nil]
  rw [ofPath, shown, List.getLast?_concat]
  exact if_neg h.rises

end FileName

namespace CommandLine.Disk

open FileName

/-! ## Places in directories -/

/-- Where the names before a slash lead. -/
def folder (d : Disk) (names : List Char) : Option Location :=
  d.follow (if names.head? = some '/' then [] else d.start) (segments names)

/-- The location and all on the way to it are directories. -/
def Open (d : Disk) (l : Location) : Prop := ∀ k, k <+: l → d.isDirectory k = true

variable {d : Disk} {l f : Location}

theorem open_start : d.Open d.start := by
  intro k before
  simp [isDirectory, before]

theorem open_top : d.Open [] := by
  intro k before
  simp [isDirectory, List.prefix_nil.mp before]

/-- Entering goes one name further down. -/
theorem eq_of_enter {name : List Char} {next : Location} (h : enter l name = some next) :
    next = l ++ [String.ofList name] := by
  simp only [enter] at h
  split at h
  · exact (Option.some.inj h).symm
  · exact absurd h (by simp)

/-- Only the last part of a path may lead to something other than a directory. -/
theorem follow_append (d : Disk) (s : List Char) (ss : List (List Char)) (l : Location) :
    d.follow l (ss ++ [s]) = (d.follow l (ss ++ [[]])).bind fun f => d.follow f [s] := by
  induction ss generalizing l with
  | nil => rfl
  | cons t ss ih =>
      simp only [List.cons_append, follow]
      split
      · exact ih l
      · split
        · exact ih l.dropLast
        · split
          · rfl
          · rename_i next entered
            have more : ∀ u : List Char, (ss ++ [u]).isEmpty = false := by simp
            simp only [more, Bool.false_or]
            split
            · exact ih next
            · rfl

/-- Following a path stays among the folders that are there. -/
theorem Open.follow {ss : List (List Char)} (opened : d.Open l)
    (found : d.follow l (ss ++ [[]]) = some f) : d.Open f := by
  induction ss generalizing l with
  | nil =>
      cases found
      exact opened
  | cons t ss ih =>
      simp only [List.cons_append, Disk.follow] at found
      split at found
      · exact ih opened found
      · split at found
        · exact ih (fun k before => opened k (before.trans (List.dropLast_prefix l))) found
        · split at found
          · exact absurd found (by simp)
          · rename_i next entered
            have more : (ss ++ [[]]).isEmpty = false := by simp
            rw [more, Bool.false_or] at found
            split at found
            · rename_i directory
              refine ih (fun k before => ?_) found
              cases eq_of_enter entered
              obtain rfl | above := List.prefix_concat_iff.mp before
              · exact directory
              · exact opened k above
            · exact absurd found (by simp)

theorem open_of_folder {p : List Char} (found : d.folder (directory p) = some f) : d.Open f := by
  rw [folder, segments_directory] at found
  refine Open.follow ?_ found
  split
  · exact open_top
  · exact open_start

/-- A path leads to a file, or to where there could be one. -/
structure Leads (d : Disk) (path : String) (l : Location) : Prop where
  located : d.locate path = some l
  vacant : d.isDirectory l = false

/-- A path that leads to a file ends in the name of the file, and what stands before the name
leads to a directory. -/
theorem Leads.place {path : String} (leads : d.Leads path l) :
    IsName (last path.toList) ∧ ∃ f, d.folder (directory path.toList) = some f ∧
      l = f ++ [String.ofList (last path.toList)] := by
  obtain ⟨parts, split, found⟩ := Option.bind_eq_some_iff.mp leads.located
  have same : parts = (segments (directory path.toList)).dropLast ++ [last path.toList] := by
    rw [← segments_directory_append (last_plain _), directory_append_last]
    unfold partsOf at split
    split at split
    · exact absurd split (by simp)
    · exact (Option.some.inj split).symm
  have start : d.origin path =
      if (directory path.toList).head? = some '/' then [] else d.start := by
    rw [origin]
    simp only [← slash_first_iff]
  rw [same, follow_append, start, ← segments_directory] at found
  obtain ⟨f, inside, named⟩ := Option.bind_eq_some_iff.mp found
  have opened : d.Open f := open_of_folder inside
  -- a file is not one of the folders on the way to it
  have closed : ∀ k, k <+: f → l ≠ k := by
    rintro k before rfl
    exact absurd (opened l before) (by simp [leads.vacant])
  simp only [follow] at named
  split at named
  · exact absurd (Option.some.inj named).symm (closed f (List.prefix_refl f))
  · rename_i stays
    split at named
    · exact absurd (Option.some.inj named).symm (closed _ (List.dropLast_prefix f))
    · rename_i rises
      split at named
      · exact absurd named (by simp)
      · rename_i next entered
        refine ⟨⟨eq_false_of_ne_true stays, rises⟩, f, inside, ?_⟩
        rw [← eq_of_enter entered]
        simpa using named.symm

/-! ## Writing -/

/-- A disk on which nothing but files has changed. -/
structure Alike (d e : Disk) : Prop where
  start : e.start = d.start
  directories : ∀ l, e.isDirectory l = d.isDirectory l

variable {e : Disk} {path text : String}

theorem Alike.refl (d : Disk) : d.Alike d := ⟨rfl, fun _ => rfl⟩

theorem Alike.trans {c : Disk} (first : d.Alike e) (later : e.Alike c) : d.Alike c :=
  ⟨later.start.trans first.start, fun l => (later.directories l).trans (first.directories l)⟩

theorem Alike.follow (alike : d.Alike e) (l : Location) (ss : List (List Char)) :
    e.follow l ss = d.follow l ss := by
  induction ss generalizing l with
  | nil => rfl
  | cons s ss ih => simp only [Disk.follow, ih, alike.directories]

theorem Alike.locate (alike : d.Alike e) (path : String) : e.locate path = d.locate path := by
  simp only [Disk.locate, origin, alike.start, funext (alike.follow _)]

theorem Alike.leads (alike : d.Alike e) (leads : d.Leads path l) : e.Leads path l :=
  ⟨(alike.locate path).trans leads.located, (alike.directories l).trans leads.vacant⟩

theorem any_putFile (files : List (Location × String)) (l : Location) (text : String)
    (q : Location → Bool) :
    ((putFile files l text).any fun file => q file.1) =
      (q l || files.any fun file => q file.1) := by
  induction files with
  | nil => rfl
  | cons file files ih =>
      unfold putFile
      split
      · rename_i same
        simp [← same]
      · simp only [List.any_cons, ih]
        exact Bool.or_left_comm _ _ _

theorem lookup_cons (there : Location) (text : String) (files : List (Location × String)) :
    List.lookup l ((there, text) :: files) = if l = there then some text else files.lookup l := by
  rw [List.lookup_cons]
  by_cases here : l = there
  · rw [if_pos here, beq_iff_eq.mpr here]
  · rw [if_neg here, beq_eq_false_iff_ne.mpr here]

/-- A file that is put somewhere changes what is found there and nowhere else. -/
theorem lookup_putFile (files : List (Location × String)) (l k : Location) (text : String) :
    (putFile files l text).lookup k = if k = l then some text else files.lookup k := by
  induction files with
  | nil => exact lookup_cons l text []
  | cons file files ih =>
      obtain ⟨there, old⟩ := file
      simp only [putFile]
      split
      · rename_i same
        subst same
        rw [lookup_cons, lookup_cons]
        split <;> rfl
      · rename_i other
        rw [lookup_cons, lookup_cons, ih]
        split
        · rename_i here
          rw [if_neg fun same => other (here.symm.trans same)]
        · rfl

/-- Writing succeeds if the path leads to a place for a file, and puts it there. -/
theorem write_eq_some_iff :
    d.write path text = some e ↔
      ∃ l, d.Leads path l ∧ e = { d with files := putFile d.files l text } := by
  constructor
  · intro written
    obtain ⟨l, located, written⟩ := Option.bind_eq_some_iff.mp written
    split at written
    · exact absurd written (by simp)
    · rename_i vacant
      exact ⟨l, ⟨located, eq_false_of_ne_true vacant⟩, (Option.some.inj written).symm⟩
  · rintro ⟨l, leads, rfl⟩
    simp [write, leads.located, leads.vacant]

/-- Writing leaves the directories as they are: the directory of the file was there. -/
theorem alike_of_write (written : d.write path text = some e) : d.Alike e := by
  obtain ⟨l, leads, rfl⟩ := write_eq_some_iff.mp written
  obtain ⟨-, f, inside, place⟩ := leads.place
  refine ⟨rfl, fun k => ?_⟩
  simp only [isDirectory]
  rw [any_putFile d.files l text fun file => k.isPrefixOf file && decide (k.length < file.length)]
  cases above : k.isPrefixOf l && decide (k.length < l.length) with
  | false => rw [Bool.false_or]
  | true =>
      have known : d.isDirectory k = true := by
        refine open_of_folder inside k ?_
        rw [Bool.and_eq_true, List.isPrefixOf_iff_prefix, decide_eq_true_iff, place] at above
        obtain rfl | before := List.prefix_concat_iff.mp above.1
        · exact absurd above.2 (Nat.lt_irrefl _)
        · exact before
      simpa [isDirectory] using known

/-- What is written is read wherever the written path leads, and nowhere else. -/
theorem read_of_write (written : d.write path text = some e) (other : String) :
    e.read other = if d.locate other = d.locate path then some text else d.read other := by
  have alike := alike_of_write written
  obtain ⟨l, leads, rfl⟩ := write_eq_some_iff.mp written
  rw [read, alike.locate, leads.located, read]
  cases d.locate other with
  | none => simp
  | some k =>
      simp only [Option.bind_some, Option.some.injEq]
      exact lookup_putFile d.files l k text

end CommandLine.Disk

end PictureMarkup
