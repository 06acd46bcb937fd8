import PocketCalculator.Host.Disk

/-!
# Writing to a disk

Writing and removing files leaves the folders as they are, so a path leads where it led before. A
place where a file has been written stays one where it can be read, written and removed (`Ready`).
-/

namespace PocketCalculator

namespace Disk

variable {d d' d'' : Disk} {loc other : Location} {names : List Text} {p folder : Path}
  {content : ByteArray}

theorem ne_nil_of_node?_ne (h : d.node? loc ≠ some .folder) : loc ≠ [] := by
  rintro rfl
  exact h rfl

theorem node?_erase_self (h : loc ≠ []) : (d.erase loc).node? loc = none := by
  have hlookup : (d.erase loc).nodes.lookup loc = none := by
    rw [List.lookup_eq_none_iff]
    intro e he
    have hne := (List.mem_filter.1 he).2
    rwa [bne_comm] at hne
  simp [node?, h, hlookup]

theorem node?_erase_of_ne (h : other ≠ loc) : (d.erase loc).node? other = d.node? other := by
  simp [node?, erase, lookup_filter_of_ne h]

theorem put_put (d : Disk) (loc : Location) (n n' : Node) :
    (d.put loc n).put loc n' = d.put loc n' := by
  simp [put, erase]

/-! ### Folders stay folders -/

/-- Whether the folders of a disk are folders of another one, and relative paths start at the same
place. -/
structure Keeps (d d' : Disk) : Prop where
  workingFolder_eq : d'.workingFolder = d.workingFolder
  node?_eq : ∀ loc, d.node? loc = some .folder → d'.node? loc = some .folder

theorem Keeps.refl (d : Disk) : Keeps d d := ⟨rfl, fun _ h => h⟩

theorem Keeps.trans (h : Keeps d d') (h' : Keeps d' d'') : Keeps d d'' :=
  ⟨h'.workingFolder_eq.trans h.workingFolder_eq, fun loc hloc =>
    h'.node?_eq loc (h.node?_eq loc hloc)⟩

theorem keeps_put (h : d.node? loc ≠ some .folder) (n : Node) : Keeps d (d.put loc n) := by
  refine ⟨rfl, fun other hother => ?_⟩
  have hne : other ≠ loc := by
    rintro rfl
    exact h hother
  rw [node?_put_of_ne d hne, hother]

theorem keeps_erase (h : d.node? loc ≠ some .folder) : Keeps d (d.erase loc) := by
  refine ⟨rfl, fun other hother => ?_⟩
  have hne : other ≠ loc := by
    rintro rfl
    exact h hother
  rw [node?_erase_of_ne hne, hother]

theorem Keeps.follow_eq (h : Keeps d d') (hfollow : d.follow loc names = .ok other) :
    d'.follow loc names = .ok other := by
  induction names generalizing loc with
  | nil => exact hfollow
  | cons name rest ih =>
    unfold follow at hfollow ⊢
    split at hfollow
    · rename_i hnode
      rw [h.node?_eq loc hnode]
      exact ih hfollow
    · cases hfollow
    · cases hfollow

theorem Keeps.origin_eq (h : Keeps d d') (p : Path) : d'.origin p = d.origin p := by
  rw [origin, origin, h.workingFolder_eq]

/-- A path leads where it led before. -/
theorem Keeps.locate_eq (h : Keeps d d') (hlocate : d.locate p = .ok loc) :
    d'.locate p = .ok loc := by
  unfold locate at hlocate ⊢
  split at hlocate
  · cases hlocate
  · rename_i hempty
    split at hlocate
    · cases hlocate
    · rename_i hzero
      rw [if_neg hempty, if_neg hzero, h.origin_eq]
      exact h.follow_eq hlocate

/-! ### Making folders -/

/-- Whether there are folders all along some names. -/
def FoldersAlong (d : Disk) : Location → List Text → Prop
  | _, [] => True
  | loc, name :: rest =>
    d.node? (enter loc name) = some .folder ∧ d.FoldersAlong (enter loc name) rest

theorem FoldersAlong.keeps (hfolders : d.FoldersAlong loc names) (h : Keeps d d') :
    d'.FoldersAlong loc names := by
  induction names generalizing loc with
  | nil => trivial
  | cons name rest ih => exact ⟨h.node?_eq _ hfolders.1, ih hfolders.2⟩

theorem makeFoldersAlong_eq_some (h : d.makeFoldersAlong loc names = some d') :
    Keeps d d' ∧ d'.FoldersAlong loc names := by
  induction names generalizing d loc with
  | nil =>
    obtain rfl := Option.some.inj h
    exact ⟨.refl d, trivial⟩
  | cons name rest ih =>
    unfold makeFoldersAlong at h
    dsimp only at h
    split at h
    · rename_i hnode
      obtain ⟨hkeeps, hfolders⟩ := ih h
      exact ⟨hkeeps, hkeeps.node?_eq _ hnode, hfolders⟩
    · cases h
    · rename_i hnode
      obtain ⟨hkeeps, hfolders⟩ := ih h
      have hne : d.node? (enter loc name) ≠ some .folder := by
        rw [hnode]
        exact nofun
      have hput := node?_put_self d (ne_nil_of_node?_ne hne) .folder
      exact ⟨(keeps_put hne .folder).trans hkeeps, hkeeps.node?_eq _ hput, hfolders⟩

/-- Making folders changes nothing that is there. -/
theorem node?_makeFoldersAlong {n : Node} (h : d.makeFoldersAlong loc names = some d')
    (hnode : d.node? other = some n) : d'.node? other = some n := by
  induction names generalizing d loc with
  | nil =>
    obtain rfl := Option.some.inj h
    exact hnode
  | cons name rest ih =>
    unfold makeFoldersAlong at h
    dsimp only at h
    split at h
    · exact ih h hnode
    · cases h
    · rename_i hnone
      have hne : other ≠ enter loc name := by
        rintro rfl
        rw [hnone] at hnode
        cases hnode
      exact ih h ((node?_put_of_ne d hne _).trans hnode)

theorem FoldersAlong.makeFoldersAlong_eq (h : d.FoldersAlong loc names) :
    d.makeFoldersAlong loc names = some d := by
  induction names generalizing loc with
  | nil => rfl
  | cons name rest ih =>
    unfold makeFoldersAlong
    dsimp only
    rw [h.1]
    exact ih h.2

theorem keeps_makeFolders (h : d.makeFolders folder = some d') : Keeps d d' := by
  unfold makeFolders at h
  split at h
  · cases h
  · exact (makeFoldersAlong_eq_some h).1

/-- Folders that have been made are there as long as folders are kept. -/
theorem makeFolders_eq_self (h : d.makeFolders folder = some d') (hkeeps : Keeps d' d'') :
    d''.makeFolders folder = some d'' := by
  unfold makeFolders at h ⊢
  split at h
  · cases h
  · rename_i hzero
    obtain ⟨hmade, hfolders⟩ := makeFoldersAlong_eq_some h
    rw [if_neg hzero, (hmade.trans hkeeps).origin_eq]
    exact (hfolders.keeps hkeeps).makeFoldersAlong_eq

/-! ### Places for files -/

/-- Whether a path leads to a place where a file is or can be written, in folders that are there. -/
structure Ready (d : Disk) (p : Path) (loc : Location) : Prop where
  locate_eq : d.locate p = .ok loc
  node?_ne : d.node? loc ≠ some .folder
  isFolderPath_eq : p.isFolderPath = false
  makeFolders_eq : ∀ folder, p.parent? = some folder → d.makeFolders folder = some d

theorem Ready.keeps (h : d.Ready p loc) (hkeeps : Keeps d d')
    (hnode : d'.node? loc ≠ some .folder) : d'.Ready p loc :=
  ⟨hkeeps.locate_eq h.locate_eq, hnode, h.isFolderPath_eq, fun folder hfolder =>
    makeFolders_eq_self (h.makeFolders_eq folder hfolder) hkeeps⟩

theorem Ready.put (h : d.Ready p loc) (content : ByteArray) :
    (d.put loc (.file content)).Ready p loc := by
  refine h.keeps (keeps_put h.node?_ne _) ?_
  rw [node?_put_self d (ne_nil_of_node?_ne h.node?_ne)]
  exact nofun

theorem Ready.erase (h : d.Ready p loc) : (d.erase loc).Ready p loc := by
  refine h.keeps (keeps_erase h.node?_ne) ?_
  rw [node?_erase_self (ne_nil_of_node?_ne h.node?_ne)]
  exact nofun

theorem Ready.read_eq_ok (h : d.Ready p loc) (hnode : d.node? loc = some (.file content)) :
    d.read p = .ok content := by
  unfold read
  rw [h.locate_eq]
  dsimp only
  rw [hnode, h.isFolderPath_eq]
  rfl

theorem Ready.read_eq_missing (h : d.Ready p loc) (hnode : d.node? loc = none) :
    d.read p = .error .missing := by
  unfold read
  rw [h.locate_eq]
  dsimp only
  rw [hnode]

theorem Ready.remove_eq (h : d.Ready p loc) (hnode : d.node? loc = some (.file content)) :
    d.remove p = .ok (d.erase loc) := by
  unfold remove
  rw [h.read_eq_ok hnode, h.locate_eq]

theorem Ready.write_eq (h : d.Ready p loc) (content : ByteArray) :
    d.write p content = some (d.put loc (.file content)) := by
  unfold write
  rw [h.locate_eq]
  dsimp only
  rw [h.isFolderPath_eq]
  split
  · rename_i hnode
    exact absurd hnode h.node?_ne
  · rfl

/-- What is written at a path is written at a place for a file, if the folders are there. -/
theorem exists_ready_of_write (h : d.write p content = some d')
    (hfolders : ∀ folder, p.parent? = some folder → d.makeFolders folder = some d) :
    ∃ loc, d.Ready p loc ∧ d' = d.put loc (.file content) := by
  unfold write at h
  split at h
  · cases h
  · rename_i loc hlocate
    split at h
    · cases h
    · rename_i hnode
      split at h
      · cases h
      · rename_i hpath
        exact ⟨loc, ⟨hlocate, hnode, by simpa using hpath, hfolders⟩, (Option.some.inj h).symm⟩

/-! ### Saving a file with its folders -/

/-- The disk with the folders that a path is to be in, if they can be made. -/
def withFolders (d : Disk) (p : Path) : Option Disk :=
  match p.parent? with
  | some folder => d.makeFolders folder
  | none => some d

/-- Makes the folders that a file is in and writes the file. -/
def save (d : Disk) (p : Path) (content : ByteArray) : Option Disk :=
  (d.withFolders p).bind (·.write p content)

theorem withFolders_eq_some (h : d.withFolders p = some d') :
    Keeps d d' ∧ ∀ folder, p.parent? = some folder → d'.makeFolders folder = some d' := by
  unfold withFolders at h
  split at h
  · rename_i folder hparent
    refine ⟨keeps_makeFolders h, fun other hother => ?_⟩
    obtain rfl := Option.some.inj (hparent.symm.trans hother)
    exact makeFolders_eq_self h (.refl d')
  · rename_i hparent
    obtain rfl := Option.some.inj h
    refine ⟨.refl d, fun other hother => ?_⟩
    rw [hparent] at hother
    cases hother

theorem node?_withFolders {n : Node} (h : d.withFolders p = some d')
    (hnode : d.node? loc = some n) : d'.node? loc = some n := by
  unfold withFolders at h
  split at h
  · unfold makeFolders at h
    split at h
    · cases h
    · exact node?_makeFoldersAlong h hnode
  · obtain rfl := Option.some.inj h
    exact hnode

theorem Ready.withFolders_eq (h : d.Ready p loc) : d.withFolders p = some d := by
  unfold withFolders
  split
  · rename_i folder hparent
    exact h.makeFolders_eq folder hparent
  · rfl

/-- At a place for a file, saving only writes there. -/
theorem Ready.save_eq (h : d.Ready p loc) (content : ByteArray) :
    d.save p content = some (d.put loc (.file content)) := by
  rw [save, h.withFolders_eq, Option.bind_some, h.write_eq]

/-- Saving makes the folders, which do not depend on the content, and writes at a place for a
file. -/
theorem exists_ready_of_save (h : d.save p content = some d') :
    ∃ made loc, d.withFolders p = some made ∧ Keeps d made ∧ made.Ready p loc ∧
      d' = made.put loc (.file content) := by
  obtain ⟨made, hmade, hwrite⟩ := Option.bind_eq_some_iff.1 h
  obtain ⟨hkeeps, hfolders⟩ := withFolders_eq_some hmade
  obtain ⟨loc, hready, rfl⟩ := exists_ready_of_write hwrite hfolders
  exact ⟨made, loc, hmade, hkeeps, hready, rfl⟩

/-- What has been saved is read. -/
theorem read_of_save (h : d.save p content = some d') : d'.read p = .ok content := by
  obtain ⟨made, loc, -, -, hready, rfl⟩ := exists_ready_of_save h
  exact (hready.put content).read_eq_ok (node?_put_self made (ne_nil_of_node?_ne hready.node?_ne) _)

/-- Of two files that are saved at one path one after the other, only the second one is left. -/
theorem save_save (h : d.save p content = some d') (other : ByteArray) :
    d'.save p other = d.save p other := by
  obtain ⟨made, loc, hmade, -, hready, rfl⟩ := exists_ready_of_save h
  rw [(hready.put content).save_eq, put_put, save, hmade, Option.bind_some, hready.write_eq]

/-- Whether a file can be saved at a path. -/
def Savable (d : Disk) (p : Path) : Prop := ∀ content, (d.save p content).isSome

theorem Ready.savable (h : d.Ready p loc) : d.Savable p := fun content => by
  rw [h.save_eq]
  rfl

/-- Where one content can be saved, every other can, and again afterwards. -/
theorem savable_of_save (h : d.save p content = some d') : d.Savable p ∧ d'.Savable p := by
  obtain ⟨made, loc, hmade, -, hready, rfl⟩ := exists_ready_of_save h
  refine ⟨fun other => ?_, (hready.put content).savable⟩
  rw [save, hmade, Option.bind_some, hready.write_eq]
  rfl

/-! ### Saving that fails -/

theorem read_eq_ok_iff : d.read p = .ok content ↔
    ∃ loc, d.locate p = .ok loc ∧ d.node? loc = some (.file content) ∧ p.isFolderPath = false := by
  constructor
  · intro h
    unfold read at h
    split at h
    · cases h
    · rename_i loc hlocate
      split at h
      · cases h
      · cases h
      · rename_i hnode
        split at h
        · cases h
        · rename_i hpath
          obtain rfl := Except.ok.inj h
          exact ⟨loc, hlocate, hnode, by simpa using hpath⟩
  · rintro ⟨loc, hlocate, hnode, hpath⟩
    unfold read
    rw [hlocate]
    dsimp only
    rw [hnode, hpath]
    rfl

/-- Where a file is read, it can be written again. -/
theorem write_ne_none_of_read (h : d.read p = .ok content) (other : ByteArray) :
    d.write p other ≠ none := by
  obtain ⟨loc, hlocate, hnode, hpath⟩ := read_eq_ok_iff.1 h
  unfold write
  rw [hlocate]
  dsimp only
  rw [hnode, hpath]
  exact nofun

theorem read_withFolders (h : d.withFolders p = some d') (hread : d.read p = .ok content) :
    d'.read p = .ok content := by
  obtain ⟨loc, hlocate, hnode, hpath⟩ := read_eq_ok_iff.1 hread
  exact read_eq_ok_iff.2
    ⟨loc, (withFolders_eq_some h).1.locate_eq hlocate, node?_withFolders h hnode, hpath⟩

/-- Whether two disks have the same files. -/
def SameFiles (d d' : Disk) : Prop :=
  ∀ loc content, d'.node? loc = some (.file content) ↔ d.node? loc = some (.file content)

theorem SameFiles.refl (d : Disk) : SameFiles d d := fun _ _ => Iff.rfl

theorem SameFiles.trans (h : SameFiles d d') (h' : SameFiles d' d'') : SameFiles d d'' :=
  fun loc content => (h' loc content).trans (h loc content)

theorem sameFiles_put_folder (h : d.node? loc = none) : SameFiles d (d.put loc .folder) := by
  intro other content
  have hloc : loc ≠ [] := by
    rintro rfl
    cases h
  by_cases heq : other = loc
  · rw [heq, node?_put_self d hloc, h]
    exact ⟨nofun, nofun⟩
  · rw [node?_put_of_ne d heq]

theorem sameFiles_makeFoldersAlong (h : d.makeFoldersAlong loc names = some d') :
    SameFiles d d' := by
  induction names generalizing d loc with
  | nil =>
    obtain rfl := Option.some.inj h
    exact .refl d
  | cons name rest ih =>
    unfold makeFoldersAlong at h
    dsimp only at h
    split at h
    · exact ih h
    · cases h
    · rename_i hnone
      exact (sameFiles_put_folder hnone).trans (ih h)

/-- Making folders makes and changes no files. -/
theorem sameFiles_withFolders (h : d.withFolders p = some d') : SameFiles d d' := by
  unfold withFolders at h
  split at h
  · unfold makeFolders at h
    split at h
    · cases h
    · exact sameFiles_makeFoldersAlong h
  · obtain rfl := Option.some.inj h
    exact .refl d

/-- Whether two disks have the same files, up to what is at one place. -/
def SameFilesBut (d : Disk) (loc : Location) (d' : Disk) : Prop :=
  ∀ other ≠ loc, ∀ content,
    d'.node? other = some (.file content) ↔ d.node? other = some (.file content)

/-- Saving a file changes no other one. -/
theorem sameFilesBut_of_save (h : d.save p content = some d') :
    ∃ loc, d'.locate p = .ok loc ∧ SameFilesBut d loc d' := by
  obtain ⟨made, loc, hmade, -, hready, rfl⟩ := exists_ready_of_save h
  refine ⟨loc, (hready.put content).locate_eq, fun other hother other' => ?_⟩
  rw [node?_put_of_ne made hother, sameFiles_withFolders hmade]

end Disk

end PocketCalculator
