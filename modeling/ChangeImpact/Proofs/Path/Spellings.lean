import ChangeImpact.Proofs.Path.Settling
import Mathlib.Data.List.Infix

/-!
# Absolute and relative spellings

A file below the root may be spelled from there, or absolutely, by joining its relative path to that of the root.
Both spellings have the same key, however the root and the path are spelled (`key_join_root`).

What leads out of its start leads elsewhere when it is joined to the root.  A path that goes on from its start
(`GoesOn`) never leaves more directories than it has entered, so only names are left of it, one for each directory
that it has not left again (`foldl_enter_of_goesOn`).  Joined to the root it has the names of the root and then its
own.

Then the text of the root stands in front of it, except that the top has no text at all, and one slash less is cut
off.  That the slash is there is due to the root, which starts with a single slash as far as collapsing goes:
joining keeps the slashes at the start (`rootSlashes_join`), and of three or more only one is left.
-/

namespace ChangeImpact.Path

variable {path inner outer : List Char} {parts : List Segment} {root : Root}

/-! ## Paths that go on from their start -/

/-- However far the path is followed, it has not gone up more often than down. -/
def GoesOn (path : List Char) : Prop :=
  ∀ walked, walked <+: path.splitOn '/' → walked.count above ≤ walked.countP fun segment => Plain segment

instance : DecidablePred GoesOn := fun path =>
  decidable_of_iff (∀ walked ∈ (path.splitOn '/').inits, walked.count above ≤ walked.countP fun segment => Plain segment)
    (forall_congr' fun walked => by rw [List.mem_inits])

/-- As many names are left as have been entered and not been left again. -/
theorem foldl_enter_of_goesOn {absolute : Bool}
    (h : ∀ walked, walked <+: parts → walked.count above ≤ walked.countP fun segment => Plain segment) :
    (∀ name ∈ parts.foldl (enter absolute) [], Plain name) ∧
      (parts.foldl (enter absolute) []).length + parts.count above = parts.countP fun segment => Plain segment := by
  induction parts using List.reverseRecOn with
  | nil => exact ⟨by simp, rfl⟩
  | append_singleton parts part ih =>
      obtain ⟨hplain, hlength⟩ := ih fun walked hwalked => h walked (hwalked.trans (List.prefix_append _ _))
      have hall := h (parts ++ [part]) (List.prefix_refl _)
      rw [List.count_append, List.countP_append] at hall ⊢
      rw [List.foldl_append, List.foldl_cons, List.foldl_nil]
      generalize parts.foldl (enter absolute) [] = entered at hplain hlength
      by_cases hidle : part = [] ∨ part = here
      · have hsteps : [part].count above = 0 ∧ ([part].countP fun segment => Plain segment) = 0 := by
          rcases hidle with rfl | rfl
          · decide
          · decide
        rw [enter_idle hidle, hsteps.1, hsteps.2]
        exact ⟨hplain, hlength⟩
      · rw [not_or] at hidle
        by_cases habove : part = above
        · subst habove
          have hsteps : [above].count above = 1 ∧ ([above].countP fun segment => Plain segment) = 0 := by decide
          rw [hsteps.1, hsteps.2] at hall ⊢
          -- the path has gone down more often than up before, so there is a name to be left
          cases entered with
          | nil =>
              rw [List.length_nil] at hlength
              omega
          | cons last rest =>
              rw [enter_above_cons (hplain last List.mem_cons_self).2.2]
              rw [List.length_cons] at hlength
              exact ⟨fun name hname => hplain name (List.mem_cons_of_mem _ hname), by omega⟩
        · have hpart : Plain part := ⟨hidle.1, hidle.2, habove⟩
          have hsteps : [part].count above = 0 ∧ ([part].countP fun segment => Plain segment) = 1 := by
            simp [habove, hpart]
          rw [enter_plain hpart, hsteps.1, hsteps.2, List.length_cons]
          exact ⟨List.forall_mem_cons.mpr ⟨hpart, hplain⟩, by omega⟩

theorem GoesOn.plain (h : GoesOn path) {name : Segment} (hname : name ∈ segments path) : Plain name :=
  (foldl_enter_of_goesOn h).1 name (List.mem_reverse.mp hname)

theorem GoesOn.segments_join (h : GoesOn path) (houter : isAbsolute outer = true) (hpath : isAbsolute path = false) :
    segments (join outer path) = segments outer ++ segments path :=
  (route_of_relative houter hpath fun hhead => (h.plain (List.mem_of_mem_head? hhead)).2.2 rfl).1

theorem GoesOn.collapseKey_eq (h : GoesOn path) (hpath : isAbsolute path = false) :
    collapseKey path = ['/'].intercalate (segments path) := by
  by_cases hnone : segments path = []
  · rw [collapseKey, collapse, rootSlashes_eq_zero hpath, hnone]
    rfl
  · exact (collapseKey_eq_iff hpath (fun name hname => ⟨named_of_mem_segments hname, h.plain hname⟩) hnone).mpr rfl

/-! ## Joining to the root -/

theorem rootSlashes_eq_one (habsolute : isAbsolute path = true)
    (htwo : (path.takeWhile (· == '/')).length ≠ 2) : rootSlashes path = 1 := by
  have hpos := rootSlashes_pos habsolute
  rw [rootSlashes_eq] at hpos ⊢
  split
  · rename_i hfew
    rw [if_pos hfew] at hpos
    omega
  · rfl

theorem rootSlashes_join (houter : isAbsolute outer = true) (hinner : isAbsolute inner = false) :
    rootSlashes (join outer inner) = rootSlashes outer := by
  rw [join_of_relative hinner]
  by_cases hall : ∀ c ∈ outer, c = '/'
  · -- all slashes are at the start, and the path adds none to them
    have hlast : outer.getLast? = some '/' := by
      obtain ⟨rest, rfl⟩ := isAbsolute_iff.mp houter
      obtain ⟨last, hlast⟩ := Option.isSome_iff_exists.mp (List.getLast?_isSome.mpr (List.cons_ne_nil '/' rest))
      rw [hlast, hall last (List.mem_of_getLast? hlast)]
    have hstart : (outer ++ inner).takeWhile (· == '/') = outer.takeWhile (· == '/') := by
      rw [List.takeWhile_append_of_pos (by simpa using hall), takeWhile_slash_eq_nil, List.append_nil,
        List.takeWhile_eq_self_iff.mpr (by simpa using hall)]
      rintro rest rfl
      cases hinner
    rw [if_pos (by simp [hlast]), rootSlashes_eq, rootSlashes_eq, hstart]
  · rw [not_forall] at hall
    obtain ⟨c, hc⟩ := hall
    rw [Classical.not_imp] at hc
    split
    · exact rootSlashes_append ⟨c, hc⟩ _
    · exact rootSlashes_append ⟨c, hc⟩ _

theorem collapse_join_of_goesOn (h : GoesOn path) (houter : isAbsolute outer = true)
    (hpath : isAbsolute path = false) : collapse (join outer path) =
      List.replicate (rootSlashes outer) '/' ++ ['/'].intercalate (segments outer ++ segments path) := by
  rw [collapse_of_isAbsolute (isAbsolute_join houter), rootSlashes_join houter hpath, h.segments_join houter hpath]

/-- What goes on from a root with one slash at its start has its own names as its key. -/
theorem keyBelow_join (h : GoesOn path) (hpath : isAbsolute path = false)
    (hroot : isAbsolute (rootPath root) = true) (hslashes : '\\' ∉ rootPath root)
    (hone : rootSlashes (rootPath root) = 1) :
    keyBelow (rootText root) (join (rootPath root) path) = ['/'].intercalate (segments path) := by
  have hcollapse := collapse_join_of_goesOn h hroot hpath
  rw [hone] at hcollapse
  have hjoined : isAbsolute (join (rootPath root) path) = true := isAbsolute_join hroot
  -- a path that comes back to where it started has the empty key
  by_cases hnone : segments path = []
  · have htext := rootText_eq hroot hslashes
    rw [hnone, List.append_nil] at hcollapse
    rw [hone] at htext
    rw [hnone, keyBelow, hcollapse]
    by_cases htop : rootRoute root = []
    · rw [htext, if_pos htop, show segments (rootPath root) = [] from htop]
      rfl
    · rw [htext, if_neg htop]
      exact if_pos rfl
  · have hnamed : ∀ name ∈ segments path, Named name := fun name hname => named_of_mem_segments hname
    rw [keyBelow_eq_iff hjoined (intercalate_ne_nil hnamed hnone) (isAbsolute_intercalate hnamed),
      rootText_append hroot hslashes hnone, hone, ite_self]
    exact hcollapse

/-! ## Spelled with backslashes -/

theorem isAbsolute_of_withSlashes (h : isAbsolute (withSlashes path) = false) : isAbsolute path = false := by
  rw [← Bool.not_eq_true] at h ⊢
  intro habsolute
  obtain ⟨rest, rfl⟩ := isAbsolute_iff.mp habsolute
  exact h rfl

theorem withSlashes_join (houter : '\\' ∉ outer) (hinner : isAbsolute (withSlashes inner) = false) :
    withSlashes (join outer inner) = join outer (withSlashes inner) := by
  rw [join_of_relative hinner, join_of_relative (isAbsolute_of_withSlashes hinner)]
  split
  · rw [withSlashes_append, withSlashes_eq_self houter]
  · rw [withSlashes_append, withSlashes_eq_self houter]
    rfl

theorem strip_join (houter : isAbsolute outer = true) (hinner : isAbsolute inner = false)
    (htrimmed : Text.strip inner = inner) : Text.strip (join outer inner) = join outer inner := by
  have hslash : Text.isBlank '/' = false := by decide
  have hjoined : isAbsolute (join outer inner) = true := isAbsolute_join houter
  obtain ⟨rest, hjoined⟩ := isAbsolute_iff.mp hjoined
  refine Text.strip_eq_self_iff.mpr ⟨fun c hc => ?_, fun c hc => ?_⟩
  · rw [hjoined] at hc
    cases hc
    exact hslash
  · by_cases hnone : inner = []
    · -- there is a slash at the end, of the root or put there
      subst hnone
      have hlast : (join outer []).getLast? = some '/' := by
        rw [join_of_relative rfl]
        split
        · rename_i hend
          obtain ⟨others, rfl⟩ := isAbsolute_iff.mp houter
          simpa using hend
        · simp
      rw [hlast] at hc
      cases hc
      exact hslash
    · have hlast : (join outer inner).getLast? = inner.getLast? := by
        rw [join_of_relative hinner]
        split
        · exact List.getLast?_append_of_ne_nil _ hnone
        · rw [List.append_cons]
          exact List.getLast?_append_of_ne_nil _ hnone
      exact (Text.strip_eq_self_iff.mp htrimmed).2 c (hlast ▸ hc)

/-! ## The key of a joined path -/

/-- Below an absolute root that does not start with exactly two slashes, a path that goes on from where it starts
has one key: it does not matter whether it is spelled relative to the root or joined to it, and the key is what is
left of the path itself. -/
theorem key_join_root (root : Root) (path : String) (hroot : isAbsolute root.directory.toList = true)
    (hslashes : '\\' ∉ root.directory.toList)
    (htwo : (root.directory.toList.takeWhile (· == '/')).length ≠ 2) (htrimmed : Text.stripString path = path)
    (hrelative : isAbsolute (withSlashes path.toList) = false) (hgoesOn : GoesOn (withSlashes path.toList)) :
    key (some root) (String.ofList (join root.directory.toList path.toList)) = key (some root) path ∧
      key (some root) path = String.ofList (['/'].intercalate (segments (withSlashes path.toList))) := by
  have hpath : rootPath root = root.directory.toList := if_pos hroot
  rw [← hpath] at hroot hslashes htwo ⊢
  have hone := rootSlashes_eq_one hroot htwo
  have hstrip : Text.strip path.toList = path.toList := by
    rw [← String.ofList_inj, String.ofList_toList]
    exact htrimmed
  have hspelled : withSlashes (Text.strip path.toList) = withSlashes path.toList := by rw [hstrip]
  have hjoined : withSlashes (Text.strip (join (rootPath root) path.toList)) =
      join (rootPath root) (withSlashes path.toList) := by
    rw [strip_join hroot (isAbsolute_of_withSlashes hrelative) hstrip, withSlashes_join hslashes hrelative]
  have hbelow : keyChars (some root) (join (rootPath root) path.toList) =
      ['/'].intercalate (segments (withSlashes path.toList)) := by
    rw [keyChars_eq_keyBelow (hjoined ▸ isAbsolute_join hroot), hjoined]
    exact keyBelow_join hgoesOn hrelative hroot hslashes hone
  have hkey : keyChars (some root) path.toList = ['/'].intercalate (segments (withSlashes path.toList)) := by
    rw [keyChars_eq_collapseKey _ (hspelled ▸ hrelative), hspelled]
    exact hgoesOn.collapseKey_eq hrelative
  rw [key, key, String.toList_ofList, hbelow, hkey]
  exact ⟨rfl, rfl⟩

/-- The top spelled with three slashes and steps up, and a path with backslashes that leaves a directory again; and
the root itself, below another root. -/
theorem key_join_root_of_two_spellings :
    key (some ⟨"///../", "/"⟩) "///../src\\./lib\\..//a b.ts" = key (some ⟨"///../", "/"⟩) "src\\./lib\\..//a b.ts" ∧
      key (some ⟨"/w/./ x/", "/"⟩) "/w/./ x/src/.." = key (some ⟨"/w/./ x/", "/"⟩) "src/.." := by
  have htop := key_join_root ⟨"///../", "/"⟩ "src\\./lib\\..//a b.ts" (by decide) (by decide) (by decide) (by decide)
    (by decide) (by decide)
  have hroot := key_join_root ⟨"/w/./ x/", "/"⟩ "src/.." (by decide) (by decide) (by decide) (by decide) (by decide)
    (by decide)
  exact ⟨htop.1, hroot.1⟩

end ChangeImpact.Path
