import ChangeImpact.Disk.Conduct
import ChangeImpact.Proofs.Disk.Following
import ChangeImpact.Proofs.Path.Collapsing
import ChangeImpact.Proofs.Steps

/-!
# Directories that are there, and directories that are made

Where a path leads to something, the parent of the path leads to the directory that it stands in
(`Disk.isDirectory_parent`).  The parent is a tidy text, while a path is followed through all of its segments.  The
empty and the `.` segments that a tidy text leaves out lead nowhere, but a directory has to be there for them, so
leaving them out only makes it easier to follow a path (`Disk.follow_filter`).

A directory is made with all that are missing above it, one after another.  What making a single directory keeps
(`Disk.KeptByMaking`) is kept however this ends and whatever is refused on the way, and the path leads to a directory
if it has come through (`DiskConduct.makeDirectories_ends`).  All files are kept in this way
(`Disk.keptByMaking_sameFiles`).
-/

namespace ChangeImpact

namespace Disk

variable {disk after made : Disk} {tree : FileTree} {walked place : List String} {path : String}
  {segments names : List Path.Segment} {rel : Disk → Disk → Prop}

/-! ## Following segments -/

/-- Segments that lead nowhere may be left out. -/
theorem follow_filter (h : follow tree walked segments = .ok place) : follow tree walked
    (segments.filter fun segment => segment ≠ [] ∧ segment ≠ Path.here) = .ok place := by
  induction segments generalizing walked with
  | nil => exact h
  | cons segment rest ih =>
      have hdirectory := hasDirectory_of_follow_cons h
      rw [follow_cons hdirectory] at h
      rw [List.filter_cons]
      by_cases hidle : segment = [] ∨ segment = Path.here
      · rw [turn_idle hidle] at h
        rw [if_neg (by simpa [or_iff_not_imp_left] using hidle)]
        exact ih h
      · rw [if_pos (by simpa using hidle), follow_cons hdirectory]
        exact ih h

/-- Where there is a directory they may be put in. -/
theorem follow_idle (hdirectory : tree.hasDirectory walked.reverse = true)
    (hidle : ∀ segment ∈ segments, Path.Idle segment) :
    follow tree walked (segments ++ names) = follow tree walked names := by
  induction segments with
  | nil => rfl
  | cons segment rest ih =>
      rw [List.cons_append, follow_cons hdirectory, turn_idle (hidle segment List.mem_cons_self)]
      exact ih fun other hother => hidle other (List.mem_cons_of_mem _ hother)

/-! ## Spelling a path -/

/-- A path that leads somewhere starts at a directory, and from there one may also follow names out of it. -/
theorem exists_start {path : List Char} (h : disk.locate (String.ofList path) = .ok place) :
    ∃ start, disk.tree.hasDirectory start.reverse = true ∧
      follow disk.tree start (Path.tidySegments path) = .ok place.reverse ∧
      ∀ names above, (∀ name ∈ names, name ∈ Path.tidySegments path) →
        follow disk.tree start names = .ok above →
        disk.locate (String.ofList (Path.spell path names)) = .ok above.reverse := by
  obtain ⟨hnull, -, hfollow⟩ := locate_eq_ok_iff.mp h
  obtain ⟨base, hbase⟩ := Path.exists_splitOn_join disk.workingDirectory.toList (Path.isAbsolute path)
  rw [hbase path rfl] at hfollow
  obtain ⟨start, hstart, hrest⟩ := follow_append_eq_ok_iff.mp hfollow
  have hdirectory : disk.tree.hasDirectory start.reverse = true := by
    obtain ⟨first, others, hsplit⟩ := List.exists_cons_of_ne_nil (List.splitOn_ne_nil '/' path)
    rw [hsplit] at hrest
    exact hasDirectory_of_follow_cons hrest
  refine ⟨start, hdirectory, follow_filter hrest, fun names above hnames habove => ?_⟩
  have hnamed : ∀ name ∈ names, Path.Named name := fun name hname =>
    Path.named_of_mem_tidySegments (hnames name hname)
  obtain ⟨idle, hidle, hsplit⟩ := Path.splitOn_spell path hnamed
  refine locate_eq_ok_iff.mpr ⟨Path.not_mem_spell hnull hnames, Path.spell_ne_nil path names, ?_⟩
  rw [hbase _ (Path.isAbsolute_spell hnamed), hsplit, List.reverse_reverse]
  refine follow_append_eq_ok_iff.mpr ⟨start, hstart, ?_⟩
  rw [follow_idle hdirectory hidle, habove]

theorem isDirectory_iff : disk.isDirectory path = true ↔
    ∃ place, disk.locate path = .ok place ∧ disk.tree.hasDirectory place = true := by
  rw [isDirectory, find]
  cases disk.locate path with
  | error fault => simp [bind, Except.bind, Except.toOption]
  | ok place =>
      simp only [Except.ok.injEq, exists_eq_left', FileTree.hasDirectory]
      cases hfound : disk.tree.at? place with
      | none => simp [bind, Except.bind, hfound, throw, throwThe, MonadExceptOf.throw, Except.toOption]
      | some found => simp [bind, Except.bind, hfound, pure, Except.pure, Except.toOption]

/-- What a path leads to stands in a directory, to which the parent of the path leads. -/
theorem isDirectory_parent (h : disk.locate path = .ok place) :
    disk.isDirectory (String.ofList (Path.parent path.toList)) = true := by
  rw [← String.ofList_toList (s := path)] at h
  obtain ⟨start, hdirectory, hfollow, hspell⟩ := exists_start h
  suffices habove : ∃ above, disk.tree.hasDirectory above.reverse = true ∧
      follow disk.tree start (Path.tidySegments path.toList).dropLast = .ok above by
    obtain ⟨above, habove, hparent⟩ := habove
    exact isDirectory_iff.mpr ⟨_, hspell _ above (fun name hname => List.dropLast_subset _ hname) hparent, habove⟩
  rcases List.eq_nil_or_concat (Path.tidySegments path.toList) with hnone | ⟨names, last, hnames⟩
  · rw [hnone]
    exact ⟨start, hdirectory, rfl⟩
  · rw [hnames, List.concat_eq_append] at hfollow ⊢
    obtain ⟨above, habove, hlast⟩ := follow_append_eq_ok_iff.mp hfollow
    rw [List.dropLast_concat]
    exact ⟨above, hasDirectory_of_follow_cons hlast, habove⟩

/-- The tidy path leads to the same directory. -/
theorem isDirectory_tidy (h : disk.isDirectory path = true) :
    disk.isDirectory (String.ofList (Path.tidy path.toList)) = true := by
  obtain ⟨place, hplace, hdirectory⟩ := isDirectory_iff.mp h
  rw [← String.ofList_toList (s := path)] at hplace
  obtain ⟨start, -, hfollow, hspell⟩ := exists_start hplace
  have htidy := hspell _ _ (fun name hname => hname) hfollow
  rw [List.reverse_reverse] at htidy
  exact isDirectory_iff.mpr ⟨place, htidy, hdirectory⟩

/-! ## Making one directory -/

/-- A directory is made where nothing is, in a directory; otherwise nothing changes. -/
theorem makeDirectory_cases (path : String) (disk : Disk) :
    (∃ place, disk.locate path = .ok place ∧ disk.tree.at? place = none ∧
      makeDirectory path disk = .ok () { disk with tree := disk.tree.plant place .empty }) ∨
    ∃ fault, makeDirectory path disk = .error fault disk := by
  unfold makeDirectory
  rw [get_bind_eq]
  cases hplace : disk.locate path with
  | error fault => exact .inr ⟨fault, rfl⟩
  | ok place =>
      cases hat : disk.tree.at? place with
      | none =>
          simp only [hat, Option.isSome_none, Bool.false_eq_true, if_false]
          exact .inl ⟨place, rfl, hat, rfl⟩
      | some found =>
          simp only [hat, Option.isSome_some, if_true]
          exact .inr ⟨_, rfl⟩

theorem makeDirectory_of_isDirectory (h : disk.isDirectory path = true) :
    makeDirectory path disk = .error (.refused .alreadyThere path) disk := by
  obtain ⟨place, hplace, hdirectory⟩ := isDirectory_iff.mp h
  obtain ⟨entries, hentries⟩ := FileTree.hasDirectory_iff.mp hdirectory
  unfold makeDirectory
  rw [get_bind_eq]
  simp only [hplace, hentries, Option.isSome_some, if_true]
  rfl

/-- What holds of two disks if one comes from the other by making directories, one at a time. -/
structure KeptByMaking (rel : Disk → Disk → Prop) : Prop where
  refl : ∀ disk, rel disk disk
  trans : ∀ {first second third}, rel first second → rel second third → rel first third
  make : ∀ {disk : Disk} {place : List String}, disk.tree.at? place = none →
    disk.tree.sight? place.dropLast = some .directory → rel disk { disk with tree := disk.tree.plant place .empty }

theorem KeptByMaking.makeDirectory (hrel : KeptByMaking rel) (path : String) (disk : Disk) :
    Ends (makeDirectory path) disk (fun _ after => rel disk after) fun _ after => rel disk after := by
  rcases makeDirectory_cases path disk with ⟨place, hplace, hvacant, hmade⟩ | ⟨fault, hfault⟩
  · exact .of_eq_ok hmade (hrel.make hvacant (sight?_dropLast_of_locate hplace))
  · exact .of_eq_error hfault (hrel.refl disk)

/-- The working directory and all files are the same, and no directory is gone. -/
structure SameFiles (disk after : Disk) : Prop where
  workingDirectory : after.workingDirectory = disk.workingDirectory
  file_iff : ∀ place bytes,
    after.tree.sight? place = some (.file bytes) ↔ disk.tree.sight? place = some (.file bytes)
  directory : ∀ place, disk.tree.hasDirectory place = true → after.tree.hasDirectory place = true

theorem keptByMaking_sameFiles : KeptByMaking SameFiles where
  refl disk := ⟨rfl, fun _ _ => Iff.rfl, fun _ => id⟩
  trans hfirst hsecond :=
    ⟨hsecond.workingDirectory.trans hfirst.workingDirectory,
      fun place bytes => (hsecond.file_iff place bytes).trans (hfirst.file_iff place bytes),
      fun place => hsecond.directory place ∘ hfirst.directory place⟩
  make {disk place} hvacant habove := by
    have hnone : disk.tree.sight? place = none := FileTree.sight?_eq_none.mpr hvacant
    have hsight : (disk.tree.plant place .empty).sight? = Function.update disk.tree.sight? place (some .directory) :=
      FileTree.sight?_plant rfl habove (by rw [hnone]; nofun)
    refine ⟨rfl, fun other bytes => ?_, fun other hother => ?_⟩
    · rw [hsight, Function.update_apply]
      -- there was nothing at the place, and what is there now is no file
      by_cases heq : other = place
      · rw [if_pos heq, heq, hnone]
        exact iff_of_false nofun nofun
      · rw [if_neg heq]
    · rw [← FileTree.sight?_eq_directory] at hother ⊢
      rw [hsight, Function.update_apply]
      split
      · rfl
      · exact hother

/-- A file is found under every path that has led to it. -/
theorem SameFiles.held? {bytes : List UInt8} (h : SameFiles disk after) (hheld : disk.held? path = some bytes) :
    after.held? path = some bytes := by
  obtain ⟨place, hplace, hsight⟩ := held?_eq_some_iff.mp hheld
  exact held?_eq_some_iff.mpr
    ⟨place, locate_of_hasDirectory h.directory h.workingDirectory hplace, (h.file_iff place bytes).mpr hsight⟩

/-- A directory that has been made is there. -/
theorem isDirectory_of_makeDirectory (h : makeDirectory path disk = .ok () made) : made.isDirectory path = true := by
  have hsame := (keptByMaking_sameFiles.makeDirectory path disk).of_ok h
  rcases makeDirectory_cases path disk with ⟨place, hplace, -, hmade⟩ | ⟨fault, hfault⟩
  · rw [hmade] at h
    cases h
    refine isDirectory_iff.mpr ⟨place, locate_of_hasDirectory hsame.directory rfl hplace, ?_⟩
    exact FileTree.hasDirectory_iff.mpr ⟨[], FileTree.at?_plant place disk.tree .empty⟩
  · rw [hfault] at h
    cases h

end Disk

/-! ## Making a directory and those above it -/

namespace DiskConduct

variable {conduct : DiskConduct} {disk after made : Disk} {path : String} {again : Bool} {rel : Disk → Disk → Prop}

variable (conduct) in
/-- A disk that has taken a call to make a directory holds it. -/
theorem makeDirectory_ends (hrel : Disk.KeptByMaking rel) (path : String) (again : Bool) (disk : Disk) :
    Ends (conduct.makeDirectory path again) disk (fun _ after => rel disk after ∧ after.isDirectory path = true)
      fun _ after => rel disk after := by
  unfold makeDirectory
  cases conduct.refusal? (.makeDirectory path again) with
  | some cause => exact .of_eq_error rfl (hrel.refl disk)
  | none =>
      have hmake := hrel.makeDirectory path disk
      cases hmade : Disk.makeDirectory path disk with
      | ok value after => exact .of_eq_ok hmade ⟨hmake.of_ok hmade, Disk.isDirectory_of_makeDirectory hmade⟩
      | error fault after => exact .of_eq_error hmade (hmake.of_error hmade)

/-- Looking changes nothing, and only a directory is taken for one. -/
theorem lookAt_ends (path : String) (disk : Disk) :
    Ends (conduct.lookAt path) disk (fun answer after => after = disk ∧ (answer = true → disk.isDirectory path = true))
      fun _ after => after = disk := by
  unfold lookAt
  split
  · exact .of_eq_ok rfl ⟨rfl, id⟩
  · exact .of_eq_ok (rfl : _ = EStateM.Result.ok false disk) ⟨rfl, nofun⟩
  · exact .of_eq_ok (rfl : _ = EStateM.Result.ok false disk) ⟨rfl, nofun⟩
  · exact .of_eq_error rfl rfl

theorem excuse_ends (cause : DiskCause) (path : String) (disk : Disk) :
    Ends (conduct.excuse cause path) disk (fun _ after => after = disk ∧ disk.isDirectory path = true)
      fun _ after => after = disk := by
  refine (lookAt_ends path disk).bind fun answer after ⟨hafter, hthere⟩ => ?_
  cases answer with
  | true => exact .of_eq_ok rfl ⟨hafter, hthere rfl⟩
  | false => exact .of_eq_error rfl hafter

theorem ensureDirectory_ends (hrel : Disk.KeptByMaking rel) (path : String) (again : Bool) (disk : Disk) :
    Ends (conduct.ensureDirectory path again) disk (fun _ after => rel disk after ∧ after.isDirectory path = true)
      fun _ after => rel disk after := by
  have hmake := makeDirectory_ends conduct hrel path again disk
  cases hmade : conduct.makeDirectory path again disk with
  | ok value made => exact .of_eq_ok (by rw [ensureDirectory, hmade]) (hmake.of_ok hmade)
  | error fault made =>
      have hkept := hmake.of_error hmade
      cases fault with
      | nullCharacter => exact .of_eq_error (by rw [ensureDirectory, hmade]) hkept
      | refused cause place =>
          -- a missing directory above is an error of its own, any other refusal is excused if the directory is there
          by_cases hmissing : cause = .missing
          · exact .of_eq_error (by rw [ensureDirectory, hmade]; exact if_pos hmissing) hkept
          · have hensure : conduct.ensureDirectory path again disk = conduct.excuse cause path made := by
              rw [ensureDirectory, hmade]
              exact if_neg hmissing
            refine .of_eq hensure ((excuse_ends cause path made).mono ?_ ?_)
            · rintro _ _ ⟨rfl, hthere⟩
              exact ⟨hkept, hthere⟩
            · rintro _ _ rfl
              exact hkept

/-- The directories above are made only if they are missing. -/
theorem ensureAll_cases (path next : String) (above : List String) (disk : Disk) :
    conduct.ensureAll (path :: next :: above) disk = conduct.ensureDirectory path false disk ∨
      ∃ place made, conduct.makeDirectory path false disk = .error (.refused .missing place) made ∧
        conduct.ensureAll (path :: next :: above) disk =
          (conduct.ensureAll (next :: above) >>= fun _ => conduct.ensureDirectory path true) made := by
  rw [ensureAll]
  dsimp only
  split
  · rename_i hmade
    exact .inr ⟨_, _, hmade, rfl⟩
  · exact .inl rfl

/-- Whatever is refused, a directory is there if it could be made with those above it. -/
theorem ensureAll_ends (hrel : Disk.KeptByMaking rel) (path : String) (above : List String) (disk : Disk) :
    Ends (conduct.ensureAll (path :: above)) disk (fun _ after => rel disk after ∧ after.isDirectory path = true)
      fun _ after => rel disk after := by
  induction above generalizing path disk with
  | nil => exact ensureDirectory_ends hrel path false disk
  | cons next above ih =>
      rcases ensureAll_cases path next above disk with hsame | ⟨place, made, hmade, hrest⟩
      · exact .of_eq hsame (ensureDirectory_ends hrel path false disk)
      · have hkept := (makeDirectory_ends conduct hrel path false disk).of_error hmade
        refine .of_eq hrest (((ih next made).mono (fun _ _ h => hrel.trans hkept h.1)
          fun _ _ h => hrel.trans hkept h).bind fun _ after hafter => ?_)
        exact (ensureDirectory_ends hrel path true after).mono
          (fun _ _ h => ⟨hrel.trans hafter h.1, h.2⟩) fun _ _ h => hrel.trans hafter h

variable (conduct) in
/-- Whatever is refused, a directory is there if it could be made, and what making a single directory keeps is kept
in any case. -/
theorem makeDirectories_ends (hrel : Disk.KeptByMaking rel) (path : String) (disk : Disk) :
    Ends (conduct.makeDirectories path) disk
      (fun _ after => rel disk after ∧ after.isDirectory (String.ofList (Path.tidy path.toList)) = true)
      fun _ after => rel disk after := by
  obtain ⟨above, habove⟩ := Path.exists_ancestry path.toList
  unfold makeDirectories
  rw [habove]
  exact ensureAll_ends hrel _ _ disk

/-- Nothing is made where there is a directory, unless the calls are refused that would show that it is there. -/
theorem makeDirectories_of_isDirectory
    (hmake : conduct.refusal? (.makeDirectory (String.ofList (Path.tidy path.toList)) false) ≠ some .missing)
    (hlook : conduct.refusal? (.lookAt (String.ofList (Path.tidy path.toList))) = none)
    (h : disk.isDirectory path = true) : conduct.makeDirectories path disk = .ok () disk := by
  have htidy := Disk.isDirectory_tidy h
  obtain ⟨above, habove⟩ := Path.exists_ancestry path.toList
  unfold makeDirectories
  rw [habove]
  generalize String.ofList (Path.tidy path.toList) = tidied at *
  have hnull : ¬ tidied.toList.contains '\x00' = true := by
    obtain ⟨place, hplace, -⟩ := Disk.isDirectory_iff.mp htidy
    rw [← String.ofList_toList (s := tidied)] at hplace
    simpa using (Disk.locate_eq_ok_iff.mp hplace).1
  obtain ⟨cause, hcause, hmade⟩ : ∃ cause, cause ≠ .missing ∧
      conduct.makeDirectory tidied false disk = .error (.refused cause tidied) disk := by
    unfold makeDirectory
    cases hrefusal : conduct.refusal? (.makeDirectory tidied false) with
    | some cause =>
        refine ⟨cause, fun hmissing => hmake (hmissing ▸ hrefusal), ?_⟩
        simp only [if_neg hnull]
        rfl
    | none => exact ⟨.alreadyThere, nofun, Disk.makeDirectory_of_isDirectory htidy⟩
  have hensure : conduct.ensureDirectory tidied false disk = .ok () disk := by
    have hthere : conduct.lookAt tidied disk = .ok true disk := by rw [lookAt, hlook, htidy]
    simp only [ensureDirectory, hmade, if_neg hcause]
    rw [excuse, bind_of_eq_ok hthere]
    rfl
  cases above with
  | nil => exact hensure
  | cons next above =>
      rcases ensureAll_cases tidied next above disk with hsame | ⟨place, made, hmissing, -⟩
      · rw [hsame, hensure]
      · rw [hmade] at hmissing
        cases hmissing
        exact absurd rfl hcause

/-! ## A disk that refuses nothing -/

theorem ensureDirectory_willing (path : String) (again : Bool) :
    willing.ensureDirectory path again = Disk.ensureDirectory path := by
  funext disk
  have hmake : willing.makeDirectory path again = Disk.makeDirectory path := rfl
  have hexcuse : ∀ cause made, willing.excuse cause path made =
      if made.isDirectory path then .ok () made else .error (.refused cause path) made := by
    intro cause made
    show (if made.isDirectory path then (pure () : DiskStep Unit) else throw _) made = _
    split
    · rfl
    · rfl
  rw [ensureDirectory, Disk.ensureDirectory, hmake]
  cases Disk.makeDirectory path disk with
  | ok _ made => rfl
  | error fault made =>
      cases fault with
      | nullCharacter => rfl
      | refused cause place =>
          dsimp only
          rw [hexcuse]
          by_cases hmissing : cause = .missing
          · simp [hmissing]
          · simp [hmissing]

theorem ensureAll_willing (paths : List String) : willing.ensureAll paths = Disk.ensureAll paths := by
  induction paths with
  | nil => rfl
  | cons path above ih =>
      funext disk
      cases above with
      | nil =>
          rw [ensureAll, ensureDirectory_willing, Disk.ensureAll]
          dsimp only
          split
          · contradiction
          · rfl
      | cons next above =>
          have hmake : willing.makeDirectory path false = Disk.makeDirectory path := rfl
          rw [ensureAll, ih, hmake, ensureDirectory_willing, ensureDirectory_willing]
          conv_rhs => rw [Disk.ensureAll]
          dsimp only
          split
          · rename_i hmade
            rw [hmade]
          · rename_i hother
            split
            · rename_i hmade _
              exact (hother _ _ hmade).elim
            · rfl

/-- Such a disk makes directories as it does for whoever asks. -/
theorem makeDirectories_willing (path : String) : willing.makeDirectories path = Disk.makeDirectories path :=
  ensureAll_willing _

end DiskConduct

/-- Nothing is made where there is a directory. -/
theorem Disk.makeDirectories_of_isDirectory {disk : Disk} {path : String} (h : disk.isDirectory path = true) :
    makeDirectories path disk = .ok () disk := by
  rw [← DiskConduct.makeDirectories_willing]
  exact DiskConduct.makeDirectories_of_isDirectory nofun rfl h

end ChangeImpact
