import PocketCalculator.Proofs.Host.Disk

/-!
# Two files that are saved again and again

Two paths at which files can be saved one after the other, at different places, keep their files
apart for ever: each is read as it was saved last, and no other file changes (`Stage`).
-/

namespace PocketCalculator

namespace Disk

variable {d d' d'' : Disk} {places : List Location} {loc loc₁ loc₂ : Location}
  {names : List Text} {p q : Path} {c c₁ c₂ : ByteArray}

/-! ### Disks that differ in some files -/

/-- Whether two disks differ at most in the contents of files at some places. -/
structure SameBut (places : List Location) (d d' : Disk) : Prop where
  workingFolder_eq : d'.workingFolder = d.workingFolder
  node?_eq : ∀ loc ∉ places, d'.node? loc = d.node? loc
  files : ∀ loc ∈ places, (∃ c, d.node? loc = some (.file c)) ∧ ∃ c, d'.node? loc = some (.file c)

theorem SameBut.put (h : d.SameBut places d') (hloc : loc ∈ places) (c : ByteArray) :
    d.SameBut places (d'.put loc (.file c)) := by
  obtain ⟨c', hc'⟩ := (h.files loc hloc).2
  have hne : d'.node? loc ≠ some .folder := by
    rw [hc']
    exact nofun
  refine ⟨h.workingFolder_eq, fun place hplace => ?_, fun place hplace =>
    ⟨(h.files place hplace).1, ?_⟩⟩
  · have hother : place ≠ loc := by
      rintro rfl
      exact hplace hloc
    rw [node?_put_of_ne d' hother, h.node?_eq place hplace]
  · by_cases heq : place = loc
    · rw [heq]
      exact ⟨c, node?_put_self d' (ne_nil_of_node?_ne hne) _⟩
    · rw [node?_put_of_ne d' heq]
      exact (h.files place hplace).2

theorem SameBut.keeps (h : d.SameBut places d') : Keeps d d' := by
  refine ⟨h.workingFolder_eq, fun loc hloc => ?_⟩
  by_cases hmem : loc ∈ places
  · obtain ⟨c, hc⟩ := (h.files loc hmem).1
    rw [hc] at hloc
    cases hloc
  · rw [h.node?_eq loc hmem, hloc]

theorem SameBut.follow_eq (h : d.SameBut places d') (loc : Location) (names : List Text) :
    d'.follow loc names = d.follow loc names := by
  induction names generalizing loc with
  | nil => rfl
  | cons name rest ih =>
    unfold follow
    by_cases hmem : loc ∈ places
    · obtain ⟨⟨c, hc⟩, c', hc'⟩ := h.files loc hmem
      rw [hc, hc']
    · rw [h.node?_eq loc hmem, ih]

theorem SameBut.locate_eq (h : d.SameBut places d') (p : Path) : d'.locate p = d.locate p := by
  unfold locate
  rw [h.follow_eq, h.keeps.origin_eq]

/-- A path that leads elsewhere is read as before. -/
theorem SameBut.read_eq (h : d.SameBut places d') (hp : ∀ loc ∈ places, d.locate p ≠ .ok loc) :
    d'.read p = d.read p := by
  unfold read
  rw [h.locate_eq]
  cases hlocate : d.locate p with
  | error e => rfl
  | ok loc =>
    have hmem : loc ∉ places := fun hmem => hp loc hmem hlocate
    dsimp only
    rw [h.node?_eq loc hmem]

/-! ### Saving at two paths -/

/-- Whether a content can be saved at `p`, which makes no file at `q`, and then another at `q`,
which is a different file; the file at a third path, if there is one to be looked at, is neither of
the two and stays as it is. -/
structure SavedApart (d : Disk) (third : Option Path) (p q : Path) (c₁ c₂ : ByteArray)
    (d₁ d₂ : Disk) : Prop where
  save_first : d.save p c₁ = some d₁
  missing : d₁.read q = .error .missing
  save_second : d₁.save q c₂ = some d₂
  locate_ne : d₂.locate p ≠ d₂.locate q
  reads : ∀ path, third = some path → d₁.read path = d.read path ∧ d₂.read path = d.read path
  elsewhere : ∀ path, third = some path →
    d₂.locate path ≠ d₂.locate p ∧ d₂.locate path ≠ d₂.locate q

/-- Whether files can be saved at two paths of a disk, whatever their contents. -/
def Apart (d : Disk) (third : Option Path) (p q : Path) : Prop :=
  ∀ c₁ c₂, ∃ d₁ d₂, d.SavedApart third p q c₁ c₂ d₁ d₂

/-- Whether there are two files at two paths of a disk `d'`, and a third path is read as on a disk
`d` and leads elsewhere. -/
structure TwoFiles (d : Disk) (third : Option Path) (p q : Path) (loc₁ loc₂ : Location)
    (c₁ c₂ : ByteArray) (d' : Disk) : Prop where
  first : d'.Ready p loc₁
  second : d'.Ready q loc₂
  ne : loc₁ ≠ loc₂
  node?_first : d'.node? loc₁ = some (.file c₁)
  node?_second : d'.node? loc₂ = some (.file c₂)
  read_eq : ∀ path, third = some path → d'.read path = d.read path
  elsewhere : ∀ path, third = some path → ∀ loc ∈ [loc₁, loc₂], d'.locate path ≠ .ok loc

variable {content : Option ByteArray} {third : Option Path}

theorem TwoFiles.swap (h : d.TwoFiles third p q loc₁ loc₂ c₁ c₂ d') :
    d.TwoFiles third q p loc₂ loc₁ c₂ c₁ d' where
  first := h.second
  second := h.first
  ne := h.ne.symm
  node?_first := h.node?_second
  node?_second := h.node?_first
  read_eq := h.read_eq
  elsewhere := fun path hpath loc hloc => h.elsewhere path hpath loc (by simp_all [or_comm])

theorem TwoFiles.sameBut (h : d.TwoFiles third p q loc₁ loc₂ c₁ c₂ d') :
    d'.SameBut [loc₁, loc₂] d' := by
  refine ⟨rfl, fun _ _ => rfl, fun loc hloc => ?_⟩
  obtain rfl | rfl : loc = loc₁ ∨ loc = loc₂ := by simpa using hloc
  · exact ⟨⟨c₁, h.node?_first⟩, c₁, h.node?_first⟩
  · exact ⟨⟨c₂, h.node?_second⟩, c₂, h.node?_second⟩

/-- Saving one of two files leaves the other one alone, and the third. -/
theorem TwoFiles.save (h : d.TwoFiles third p q loc₁ loc₂ c₁ c₂ d') (c : ByteArray) :
    d'.save p c = some (d'.put loc₁ (.file c)) ∧
      d.TwoFiles third p q loc₁ loc₂ c c₂ (d'.put loc₁ (.file c)) := by
  have hsame : d'.SameBut [loc₁, loc₂] (d'.put loc₁ (.file c)) :=
    h.sameBut.put List.mem_cons_self c
  have hnode : (d'.put loc₁ (.file c)).node? loc₂ = some (.file c₂) := by
    rw [node?_put_of_ne d' h.ne.symm, h.node?_second]
  refine ⟨h.first.save_eq c, h.first.put c, h.second.keeps hsame.keeps ?_, h.ne,
    node?_put_self d' (ne_nil_of_node?_ne h.first.node?_ne) _, hnode, fun path hpath => ?_,
    fun path hpath => ?_⟩
  · rw [hnode]
    exact nofun
  · rw [hsame.read_eq (h.elsewhere path hpath), h.read_eq path hpath]
  · rw [hsame.locate_eq]
    exact h.elsewhere path hpath

theorem SavedApart.twoFiles {d₁ d₂ : Disk} (h : d.SavedApart third p q c₁ c₂ d₁ d₂) :
    ∃ loc₁ loc₂, d.TwoFiles third p q loc₁ loc₂ c₁ c₂ d₂ := by
  obtain ⟨made, loc₁, -, -, hready, rfl⟩ := exists_ready_of_save h.save_first
  obtain ⟨made', loc₂, hmade', hkeeps, hready', rfl⟩ := exists_ready_of_save h.save_second
  have hput : Keeps made' (made'.put loc₂ (.file c₂)) := keeps_put hready'.node?_ne _
  have hsecond := hready'.put c₂
  have hlocate := ((hready.put c₁).locate_eq : _ = Except.ok loc₁)
  have hne : loc₁ ≠ loc₂ := by
    rintro rfl
    exact h.locate_ne (((hkeeps.trans hput).locate_eq hlocate).trans hsecond.locate_eq.symm)
  have hnode : (made'.put loc₂ (.file c₂)).node? loc₁ = some (.file c₁) := by
    rw [node?_put_of_ne made' hne]
    exact node?_withFolders hmade'
      (node?_put_self made (ne_nil_of_node?_ne hready.node?_ne) _)
  have hfirst : (made'.put loc₂ (.file c₂)).Ready p loc₁ := by
    refine (hready.put c₁).keeps (hkeeps.trans hput) ?_
    rw [hnode]
    exact nofun
  refine ⟨loc₁, loc₂, hfirst, hsecond, hne, hnode,
    node?_put_self made' (ne_nil_of_node?_ne hready'.node?_ne) _,
    fun path hpath => (h.reads path hpath).2, fun path hpath loc hloc heq => ?_⟩
  obtain ⟨hp, hq⟩ := h.elsewhere path hpath
  obtain rfl | rfl : loc = loc₁ ∨ loc = loc₂ := by simpa using hloc
  · exact hp (heq.trans hfirst.locate_eq.symm)
  · exact hq (heq.trans hsecond.locate_eq.symm)

/-- What becomes of a disk when files are saved at two paths, first at `p`: there is the file that
was saved last at `p`, and the one at `q` if there was one. -/
inductive Stage (d : Disk) (third : Option Path) (p q : Path) (c : ByteArray) :
    Option ByteArray → Disk → Prop
  | first {d' : Disk} : d.save p c = some d' → Stage d third p q c none d'
  | both {d' : Disk} {loc₁ loc₂ : Location} {c' : ByteArray} :
      d.TwoFiles third p q loc₁ loc₂ c c' d' → Stage d third p q c (some c') d'

theorem Stage.read_first (h : d.Stage third p q c content d') : d'.read p = .ok c := by
  cases h with
  | first hsave => exact read_of_save hsave
  | both hfiles => exact hfiles.first.read_eq_ok hfiles.node?_first

/-- What is found where there is a file with some content, or none. -/
def found : Option ByteArray → Except FileError ByteArray
  | none => .error .missing
  | some content => .ok content

theorem Stage.read_second (h : d.Stage third p q c content d') (hapart : d.Apart third p q) :
    d'.read q = found content := by
  cases h with
  | first hsave =>
    obtain ⟨d₁, d₂, htrial⟩ := hapart c .empty
    obtain rfl := Option.some.inj (hsave.symm.trans htrial.save_first)
    exact htrial.missing
  | both hfiles => exact hfiles.second.read_eq_ok hfiles.node?_second

theorem Stage.read_third (h : d.Stage third p q c content d') (hapart : d.Apart third p q)
    {path : Path} (hpath : third = some path) : d'.read path = d.read path := by
  cases h with
  | first hsave =>
    obtain ⟨d₁, d₂, htrial⟩ := hapart c .empty
    obtain rfl := Option.some.inj (hsave.symm.trans htrial.save_first)
    exact (htrial.reads path hpath).1
  | both hfiles => exact hfiles.read_eq path hpath

/-- Files stay apart when the first is saved again. -/
theorem Stage.save_first (h : d.Stage third p q c content d') (c₁ : ByteArray) :
    ∃ d'', d'.save p c₁ = some d'' ∧ d.Stage third p q c₁ content d'' := by
  cases h with
  | first hsave =>
    obtain ⟨d'', hsave'⟩ := Option.isSome_iff_exists.1 ((savable_of_save hsave).2 c₁)
    exact ⟨d'', hsave', .first (save_save hsave c₁ ▸ hsave')⟩
  | both hfiles =>
    obtain ⟨hsave, hfiles⟩ := hfiles.save c₁
    exact ⟨_, hsave, .both hfiles⟩

/-- Files stay apart when the second is saved, be it for the first time. -/
theorem Stage.save_second (h : d.Stage third p q c content d') (hapart : d.Apart third p q)
    (c₂ : ByteArray) :
    ∃ d'', d'.save q c₂ = some d'' ∧ d.Stage third p q c (some c₂) d'' := by
  cases h with
  | first hsave =>
    obtain ⟨d₁, d₂, htrial⟩ := hapart c c₂
    obtain rfl := Option.some.inj (hsave.symm.trans htrial.save_first)
    obtain ⟨loc₁, loc₂, hfiles⟩ := htrial.twoFiles
    exact ⟨d₂, htrial.save_second, .both hfiles⟩
  | both hfiles =>
    obtain ⟨hsave, hfiles⟩ := hfiles.swap.save c₂
    exact ⟨_, hsave, .both hfiles.swap⟩

/-! ### Paths that leave each other alone -/

/-- Whether a file can be saved at `q`, and what is read at `p` stays the same then. -/
def Spares (d : Disk) (p q : Path) : Prop :=
  d.Savable q ∧ ∀ c d', d.save q c = some d' → d'.read p = d.read p

/-- Whether two files can be saved at `p` and at `q`, be it one of them alone or the one at `p`
first, and neither changes what is read at the other path. -/
structure Separate (d : Disk) (p q : Path) : Prop where
  spares_first : d.Spares p q
  spares_second : d.Spares q p
  spares_saved : ∀ c d', d.save p c = some d' → d'.Spares p q

theorem Ready.spares (hp : d.Ready p loc₁) (hq : d.Ready q loc₂) (hne : loc₁ ≠ loc₂) :
    d.Spares p q := by
  refine ⟨hq.savable, fun c d' hsave => ?_⟩
  rw [hq.save_eq] at hsave
  obtain rfl := Option.some.inj hsave
  have hlocate := (keeps_put hq.node?_ne (.file c)).locate_eq hp.locate_eq
  rw [read, read, hlocate, hp.locate_eq]
  dsimp only
  rw [node?_put_of_ne d hne]

/-- Two places for files are enough if they are not the same. -/
theorem Ready.separate (hp : d.Ready p loc₁) (hq : d.Ready q loc₂) (hne : loc₁ ≠ loc₂) :
    d.Separate p q := by
  refine ⟨hp.spares hq hne, hq.spares hp hne.symm, fun c d' hsave => ?_⟩
  rw [hp.save_eq] at hsave
  obtain rfl := Option.some.inj hsave
  have hnode : (d.put loc₁ (.file c)).node? loc₂ ≠ some .folder := by
    rw [node?_put_of_ne d hne.symm]
    exact hq.node?_ne
  exact (hp.put c).spares (hq.keeps (keeps_put hp.node?_ne _) hnode) hne

end Disk

end PocketCalculator
