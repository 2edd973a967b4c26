import Recurrence.Proofs.Reading
import Recurrence.Proofs.Storage.FileSystem
import Recurrence.Storage.FileTree

/-!
# A tree of files keeps the laws

The place to which a path leads depends on the directories alone (`FileTree.Leads`,
`FileTree.locate_eq_ok_iff`), which stay as they are when a file is put in its place.  So a tree can be
relied on as any file system can (`FileTree.lawful_fileSystem`), also when it is full.
-/

namespace Recurrence.FileTree

variable {tree : FileTree} {creating : Bool} {around place other : Location} {part : List Char}
  {parts rest : List (List Char)} {path : String} {contents : Bytes}

/-! ### Paths -/

/-- A part of a path that is the name of a file or directory. -/
structure IsName (part : List Char) : Prop where
  onward : ¬ staysPut part
  down : ¬ leadsUp part
  bytes_le : (Text.utf8 part).length ≤ maxNameBytes

/-- Some parts lead from a directory to the place of a file, through directories that there are. -/
inductive LeadsFrom (tree : FileTree) : Location → List (List Char) → Location → Prop
  | stay {around place : Location} {part : List Char} {rest : List (List Char)} (stays : staysPut part)
      (onward : LeadsFrom tree around rest place) : LeadsFrom tree around (part :: rest) place
  | up {around place : Location} {part : List Char} {rest : List (List Char)} (up : leadsUp part)
      (onward : LeadsFrom tree around.tail rest place) : LeadsFrom tree around (part :: rest) place
  | enter {around place : Location} {part : List Char} {rest : List (List Char)} (named : IsName part)
      (directory : tree.hasDirectory (String.ofList part :: around))
      (onward : LeadsFrom tree (String.ofList part :: around) rest place) :
      LeadsFrom tree around (part :: rest) place
  | file {around : Location} {part : List Char} (named : IsName part)
      (free : ¬ tree.hasDirectory (String.ofList part :: around)) :
      LeadsFrom tree around [part] (String.ofList part :: around)

/-- Slashes at the end lead to no file. -/
theorem not_leadsFrom_of_all_isEmpty (h : parts.all List.isEmpty) : ¬ tree.LeadsFrom around parts place := by
  induction parts with
  | nil => rintro ⟨⟩
  | cons part rest ih =>
    rw [List.all_cons, Bool.and_eq_true, List.isEmpty_iff] at h
    obtain ⟨rfl, hrest⟩ := h
    intro hleads
    cases hleads with
    | stay _ onward => exact ih hrest onward
    | up up => exact absurd up (by decide)
    | enter named => exact named.onward rfl
    | file named => exact named.onward rfl

theorem leadsFrom_of_staysPut (h : staysPut part) :
    tree.LeadsFrom around (part :: rest) place ↔ tree.LeadsFrom around rest place := by
  refine ⟨fun hleads => ?_, .stay h⟩
  cases hleads with
  | stay _ onward => exact onward
  | up up =>
    cases of_decide_eq_true up
    exact absurd h (by decide)
  | enter named => exact absurd h named.onward
  | file named => exact absurd h named.onward

theorem leadsFrom_of_leadsUp (h : leadsUp part) :
    tree.LeadsFrom around (part :: rest) place ↔ tree.LeadsFrom around.tail rest place := by
  refine ⟨fun hleads => ?_, .up h⟩
  cases hleads with
  | stay stays =>
    cases of_decide_eq_true h
    exact absurd stays (by decide)
  | up _ onward => exact onward
  | enter named => exact absurd h named.down
  | file named => exact absurd h named.down

theorem leadsFrom_of_isName (h : IsName part) : tree.LeadsFrom around (part :: rest) place ↔
    tree.hasDirectory (String.ofList part :: around) ∧
        tree.LeadsFrom (String.ofList part :: around) rest place ∨
      ¬ tree.hasDirectory (String.ofList part :: around) ∧ rest = [] ∧
        String.ofList part :: around = place := by
  constructor
  · intro hleads
    cases hleads with
    | stay stays => exact absurd stays h.onward
    | up up => exact absurd up h.down
    | enter _ directory onward => exact .inl ⟨directory, onward⟩
    | file _ free => exact .inr ⟨free, rfl, rfl⟩
  · rintro (⟨directory, onward⟩ | ⟨free, rfl, rfl⟩)
    · exact .enter h directory onward
    · exact .file h free

theorem follow_eq_ok_iff :
    tree.follow creating around parts = .ok place ↔ tree.LeadsFrom around parts place := by
  induction parts generalizing around with
  | nil =>
    rw [follow]
    exact ⟨nofun, nofun⟩
  | cons part rest ih =>
    rw [follow]
    split_ifs with hstays hup hslash hbytes hdirectory hlast
    · rw [ih, leadsFrom_of_staysPut hstays]
    · rw [ih, leadsFrom_of_leadsUp hup]
    · -- slashes behind the last name ask for a directory, not for a file
      refine iff_of_false nofun fun hleads => ?_
      cases hleads with
      | stay stays => exact hstays stays
      | up up => exact hup up
      | enter _ _ onward => exact not_leadsFrom_of_all_isEmpty hslash.2.2 onward
      | file => exact hslash.2.1 rfl
    · refine iff_of_false nofun fun hleads => ?_
      have hlong : ¬ IsName part := fun h => Nat.not_lt.mpr h.bytes_le hbytes
      cases hleads with
      | stay stays => exact hstays stays
      | up up => exact hup up
      | enter named => exact hlong named
      | file named => exact hlong named
    -- what is left is a name, of a directory or of nothing but a file
    all_goals
      have hname : IsName part := ⟨hstays, hup, Nat.le_of_not_lt hbytes⟩
      rw [leadsFrom_of_isName hname]
    · simp [hdirectory, ih]
    · simp [hdirectory, hlast]
    · simp [hdirectory, hlast]

/-- A path leads to the place of a file. -/
structure Leads (tree : FileTree) (path : String) (place : Location) : Prop where
  noZero : '\x00' ∉ path.toList
  pathBytes_le : (Text.utf8 path.toList).length ≤ maxPathBytes
  parts : tree.LeadsFrom (if path.toList.head? = some '/' then [] else tree.here)
    (path.toList.splitOn '/') place

theorem pathFault?_eq_none_iff : pathFault? path = none ↔
    '\x00' ∉ path.toList ∧ (Text.utf8 path.toList).length ≤ maxPathBytes := by
  rw [pathFault?]
  split_ifs with hzero hbytes
  · simp [hzero]
  · simp [Nat.not_le.mpr hbytes]
  · simp [hzero, Nat.le_of_not_lt hbytes]

theorem locate_eq_ok_iff (creating : Bool) : tree.locate creating path = .ok place ↔ tree.Leads path place := by
  rw [locate]
  cases hfault : pathFault? path with
  | some fault =>
    refine iff_of_false nofun fun h => ?_
    rw [pathFault?_eq_none_iff.mpr ⟨h.noZero, h.pathBytes_le⟩] at hfault
    cases hfault
  | none =>
    obtain ⟨hzero, hbytes⟩ := pathFault?_eq_none_iff.mp hfault
    exact follow_eq_ok_iff.trans ⟨fun h => ⟨hzero, hbytes, h⟩, Leads.parts⟩

theorem Leads.unique (h : tree.Leads path place) (h' : tree.Leads path other) : place = other :=
  Except.ok.inj (((locate_eq_ok_iff true).mpr h).symm.trans ((locate_eq_ok_iff true).mpr h'))

/-! ### Contents -/

theorem lookup_filter_ne (h : other ≠ place) (files : List (Location × Bytes)) :
    (files.filter fun file => file.1 ≠ place).lookup other = files.lookup other := by
  induction files with
  | nil => rfl
  | cons file files ih =>
    obtain ⟨key, contents⟩ := file
    by_cases hkey : key = place
    · subst hkey
      rw [List.filter_cons_of_neg (by simp), ih, List.lookup_cons, beq_eq_false_iff_ne.mpr h]
    · rw [List.filter_cons_of_pos (by simpa using hkey), List.lookup_cons, List.lookup_cons, ih]

theorem contents?_put_self (tree : FileTree) (place : Location) (contents : Bytes) :
    (tree.put place contents).contents? place = some contents := by
  rw [put, contents?, List.lookup_cons, beq_self_eq_true]

theorem contents?_put_of_ne (h : other ≠ place) (tree : FileTree) (contents : Bytes) :
    (tree.put place contents).contents? other = tree.contents? other := by
  rw [put, contents?, contents?, List.lookup_cons, beq_eq_false_iff_ne.mpr h]
  exact lookup_filter_ne h tree.files

theorem leadsFrom_put (h : tree.LeadsFrom around parts place) :
    (tree.put other contents).LeadsFrom around parts place := by
  induction h with
  | stay stays _ ih => exact .stay stays ih
  | up up _ ih => exact .up up ih
  | enter named directory _ ih => exact .enter named directory ih
  | file named free => exact .file named free

/-- Paths lead where they led before a file was written. -/
theorem leads_put (h : tree.Leads path place) : (tree.put other contents).Leads path place :=
  ⟨h.noZero, h.pathBytes_le, leadsFrom_put h.parts⟩

/-! ### Reading and writing -/

theorem read_eq_ok_iff : tree.read path = .ok contents ↔
    ∃ place, tree.Leads path place ∧ tree.contents? place = some contents := by
  simp only [← locate_eq_ok_iff false, read]
  cases tree.locate false path with
  | error fault => simp
  | ok place => cases hfound : tree.contents? place <;> simp [hfound]

/-- A file is written as a whole, or as far as there is room, or not at all. -/
theorem write_cases (tree : FileTree) (path : String) (contents : Bytes) :
    (∃ place, tree.Leads path place ∧ tree.write path contents = (.ok (), tree.put place contents)) ∨
    (∃ place filled, tree.Leads path place ∧ filled <+: contents ∧
      tree.write path contents = (.error ⟨.transfer, .noSpace⟩, tree.put place filled)) ∨
    ∃ fault, (∀ place, ¬ tree.Leads path place) ∧
      tree.write path contents = (.error ⟨.opening, fault⟩, tree) := by
  rw [write]
  cases hlocate : tree.locate true path with
  | error fault =>
    refine .inr (.inr ⟨fault, fun place hleads => ?_, rfl⟩)
    rw [(locate_eq_ok_iff true).mpr hleads] at hlocate
    cases hlocate
  | ok place =>
    have hleads := (locate_eq_ok_iff true).mp hlocate
    dsimp only
    rw [fill]
    split
    next capacity _ =>
      split_ifs
      · exact .inl ⟨place, hleads, rfl⟩
      · exact .inr (.inl ⟨place, _, hleads, List.take_prefix _ _, rfl⟩)
    next => exact .inl ⟨place, hleads, rfl⟩

theorem contents?_write_of_not_leads (h : ¬ tree.Leads path other) :
    (tree.write path contents).2.contents? other = tree.contents? other := by
  have hne {place : Location} (hleads : tree.Leads path place) : other ≠ place := by
    rintro rfl
    exact h hleads
  obtain ⟨place, hleads, heq⟩ | ⟨place, filled, hleads, _, heq⟩ | ⟨fault, _, heq⟩ :=
    write_cases tree path contents
  · rw [heq, contents?_put_of_ne (hne hleads)]
  · rw [heq, contents?_put_of_ne (hne hleads)]
  · rw [heq]

/-- Nothing was done if the file could not be opened. -/
theorem write_snd_of_opening {fault : FileFault}
    (h : (tree.write path contents).1 = .error ⟨.opening, fault⟩) :
    (tree.write path contents).2 = tree := by
  obtain ⟨place, _, heq⟩ | ⟨place, filled, _, _, heq⟩ | ⟨fault, _, heq⟩ := write_cases tree path contents
  · simp [heq] at h
  · simp [heq] at h
  · rw [heq]

theorem exists_of_write_eq_ok (h : (tree.write path contents).1 = .ok ()) :
    ∃ place, tree.Leads path place ∧ (tree.write path contents).2 = tree.put place contents := by
  obtain ⟨place, hleads, heq⟩ | ⟨place, filled, _, _, heq⟩ | ⟨fault, _, heq⟩ :=
    write_cases tree path contents
  · exact ⟨place, hleads, by rw [heq]⟩
  · simp [heq] at h
  · simp [heq] at h

/-! ### The laws -/

/-- What is seen of a tree: its files, by their places. -/
def view : FileView (StateM FileTree) where
  World := FileTree
  File := Location
  run action tree := action.run tree
  contents? := contents?
  file? tree path := (tree.locate false path).toOption
  run_pure _ _ := rfl
  run_bind _ _ _ := rfl

theorem file?_view_eq_some_iff : view.file? tree path = some place ↔ tree.Leads path place :=
  toOption_eq_some_iff.trans (locate_eq_ok_iff false)

/-- The paths that can be written are those that lead to a file, as long as there is room for the bytes. -/
theorem canWrite_iff : fileSystem.CanWrite view tree path contents ↔ ∃ place, tree.Leads path place ∧
    ∀ capacity ∈ tree.capacity, (tree.put place []).size + contents.length ≤ capacity := by
  change (tree.write path contents).1 = .ok () ↔ _
  simp only [← locate_eq_ok_iff true, write]
  cases tree.locate true path with
  | error fault => simp
  | ok place =>
    dsimp only
    rw [fill]
    cases tree.capacity with
    | none => simp
    | some capacity =>
      dsimp only
      split_ifs with hroom <;> simp [hroom]

/-- A tree can be relied on. -/
theorem lawful_fileSystem : fileSystem.Lawful view where
  unchanged_read _ _ _ := rfl
  contents?_read tree path place contents hplace hread := by
    obtain ⟨other, hleads, hcontents⟩ := read_eq_ok_iff.mp hread
    rw [file?_view_eq_some_iff.mpr hleads] at hplace
    cases hplace
    exact hcontents
  unchangedBut_write _ _ _ _ hother :=
    contents?_write_of_not_leads (mt file?_view_eq_some_iff.mpr hother)
  unchanged_write _ _ _ _ hfault place :=
    congrArg (contents? · place) (write_snd_of_opening hfault)
  contents?_write tree path contents hok := by
    obtain ⟨place, hleads, heq⟩ := exists_of_write_eq_ok hok
    exact ⟨place, file?_view_eq_some_iff.mpr hleads,
      (congrArg (contents? · place) heq).trans (contents?_put_self tree place contents)⟩
  read_write tree path contents hok := by
    obtain ⟨place, hleads, heq⟩ := exists_of_write_eq_ok hok
    have hread : (tree.put place contents).read path = .ok contents :=
      read_eq_ok_iff.mpr ⟨place, leads_put hleads, contents?_put_self tree place contents⟩
    exact (congrArg (read · path) heq).trans hread

/-- What was written is in the place to which the path leads. -/
theorem run_write_snd (hleads : tree.Leads path place) (h : fileSystem.CanWrite view tree path contents) :
    (view.run (fileSystem.write path contents) tree).2 = tree.put place contents := by
  obtain ⟨other, hother, heq⟩ := exists_of_write_eq_ok h
  rw [hleads.unique hother]
  exact heq

end Recurrence.FileTree
