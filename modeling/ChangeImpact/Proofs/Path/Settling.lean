import ChangeImpact.Proofs.Path.Collapsing

/-!
# The key of a key

Keys are made into keys again by whoever is given one, so a key should be its own key.  Not every key is.  The
blanks around a path are dropped before it is collapsed, and collapsing may bring others to its ends: the key of
`./ a.css` starts with a blank, which goes when its key is made.  And if the root is the top, only one slash is cut
off a path that starts with two, so its key is absolute, and relative the next time.

There is nothing else that keeps a key from being its own (`key_of_key`).  The three ways in which a key is made are
told apart once (`KeyOf`), with the comparisons that have been made on the way, and what follows is read off them:

* a key is collapsed (`KeyOf.collapseKey_eq`) and has no backslashes (`not_mem_keyChars`), so without blanks at its
  ends it goes into the comparison with the root as it is;
* it is on the same side of the root as its path (`KeyOf.outside_of_isAbsolute`), except below the top
  (`KeyOf.isAbsolute_iff`);
* whatever is changed makes it shorter (`length_keyChars_lt`), so no key comes back after it has been lost.
-/

namespace ChangeImpact

namespace Path

variable {path text made rest : List Char} {names : List Segment} {root : Option Root}

/-! ## How a key is made -/

/-- A text is the key of a spelled path, below the root or outside of it. -/
inductive KeyOf (root : Option Root) (text : List Char) : List Char → Prop where
  /-- Nothing is left, or the path is the root itself. -/
  | top (hnone : text = [] ∨ isAbsolute text = true ∧ ∃ top ∈ root, collapse text = rootText top) :
      KeyOf root text []
  /-- The path is relative, or absolute and outside of the root. -/
  | outside (hout : isAbsolute text = true → ∀ top ∈ root, collapse text ≠ rootText top ∧
      ¬ rootText top ++ ['/'] <+: collapse text) : KeyOf root text (collapseKey text)
  /-- The path goes on from the root. -/
  | below {top : Root} {rest : List Char} (htop : top ∈ root) (habsolute : isAbsolute text = true)
      (hbelow : collapse text = rootText top ++ '/' :: rest) : KeyOf root text (collapseKey rest)

/-- The text of which a key is made. -/
def spelling (path : List Char) : List Char := withSlashes (Text.strip path)

theorem keyOf_keyBelow (top : Root) (habsolute : isAbsolute text = true) :
    KeyOf (some top) text (keyBelow (rootText top) text) := by
  unfold keyBelow
  dsimp only
  split
  · rename_i htop
    exact .top (.inr ⟨habsolute, top, rfl, htop⟩)
  · rename_i htop
    split
    · rename_i hprefix
      obtain ⟨rest, hrest⟩ := List.isPrefixOf_iff_prefix.mp hprefix
      rw [List.append_assoc, List.singleton_append] at hrest
      rw [← hrest, List.drop_length_add_append, List.drop_one, List.tail_cons]
      exact .below rfl habsolute hrest.symm
    · rename_i hprefix
      rw [List.isPrefixOf_iff_prefix] at hprefix
      apply KeyOf.outside
      intro _ other hother
      rw [← Option.some.inj hother]
      exact ⟨htop, hprefix⟩

theorem keyOf_keyChars (root : Option Root) (path : List Char) :
    KeyOf root (spelling path) (keyChars root path) := by
  unfold keyChars
  change KeyOf root (spelling path) (if (spelling path).isEmpty then [] else _)
  split
  · rename_i hempty
    exact .top (.inl (List.isEmpty_iff.mp hempty))
  · cases root with
    | none => exact .outside fun _ => nofun
    | some top =>
        dsimp only
        split
        · rename_i habsolute
          exact keyOf_keyBelow top habsolute
        · rename_i hrelative
          exact .outside fun habsolute => absurd habsolute hrelative

theorem KeyOf.collapseKey_eq (h : KeyOf root text made) : collapseKey made = made := by
  cases h with
  | top hnone => rfl
  | outside hout => exact collapseKey_collapseKey text
  | below htop habsolute hbelow => exact collapseKey_collapseKey _

theorem KeyOf.length_le (h : KeyOf root text made) : made.length ≤ text.length := by
  cases h with
  | top hnone => exact Nat.zero_le _
  | outside hout => exact length_collapseKey_le text
  | @below top rest htop habsolute hbelow =>
      have hsome : text ≠ [] := by
        rintro rfl
        cases habsolute
      have hrest := length_collapseKey_le rest
      have hcollapse := length_collapse_le hsome
      rw [hbelow, List.length_append, List.length_cons] at hcollapse
      omega

/-! ## The characters of a key -/

theorem mem_splitOn_collapse {segment : Segment} (h : segment ∈ (collapse path).splitOn '/') :
    Idle segment ∨ segment ∈ path.splitOn '/' := by
  obtain ⟨idle, hidle, hsplit⟩ :=
    splitOn_spell path fun name (hname : name ∈ segments path) => named_of_mem_segments hname
  have hspelled : (collapse path).splitOn '/' = idle ++ segments path := hsplit
  rw [hspelled] at h
  exact (List.mem_append.mp h).imp (hidle segment) mem_splitOn_of_mem_segments

theorem mem_splitOn_collapseKey {segment : Segment} (h : segment ∈ (collapseKey path).splitOn '/') :
    Idle segment ∨ segment ∈ path.splitOn '/' := by
  rw [collapseKey] at h
  split at h
  · rw [List.splitOn_nil, List.mem_singleton] at h
    exact .inl (.inl h)
  · exact mem_splitOn_collapse h

/-- A key has no segments that its path does not have, except such as lead nowhere. -/
theorem KeyOf.mem_splitOn (h : KeyOf root text made) {segment : Segment} (hsegment : segment ∈ made.splitOn '/') :
    Idle segment ∨ segment ∈ text.splitOn '/' := by
  cases h with
  | top hnone =>
      rw [List.splitOn_nil, List.mem_singleton] at hsegment
      exact .inl (.inl hsegment)
  | outside hout => exact mem_splitOn_collapseKey hsegment
  | @below top rest htop habsolute hbelow =>
      refine (mem_splitOn_collapseKey hsegment).elim .inl fun hrest => mem_splitOn_collapse ?_
      rw [hbelow, List.splitOn_append_cons_self]
      exact List.mem_append_right _ hrest

theorem not_mem_spelling (path : List Char) : '\\' ∉ spelling path := by
  intro hmem
  obtain ⟨c, -, hc⟩ := List.mem_map.mp hmem
  split at hc
  · cases hc
  · rename_i hne
    exact hne hc

theorem not_mem_keyChars (root : Option Root) (path : List Char) : '\\' ∉ keyChars root path := by
  have hjoined : ['/'].intercalate ((keyChars root path).splitOn '/') = keyChars root path :=
    List.intercalate_splitOn '/'
  intro hmem
  rw [← hjoined] at hmem
  rcases mem_intercalate hmem with hslash | ⟨segment, hsegment, hc⟩
  · cases hslash
  · rcases (keyOf_keyChars root path).mem_splitOn hsegment with (rfl | rfl) | hsegment
    · cases hc
    · exact absurd hc (by decide)
    · exact not_mem_spelling path (mem_of_mem_splitOn hsegment hc)

/-! ## Keys that are kept -/

theorem getLast?_dropTrailingSlashes_ne (path : List Char) : (dropTrailingSlashes path).getLast? ≠ some '/' := by
  rw [dropTrailingSlashes, List.getLast?_reverse]
  intro hfirst
  have hkept := List.head?_dropWhile_not (· == '/') path.reverse
  rw [hfirst] at hkept
  cases hkept

/-- Only at its start has a collapsed path two slashes in a row. -/
theorem isAbsolute_of_below {front : List Char} (habsolute : isAbsolute path = true)
    (hfront : front ≠ []) (hlast : front.getLast? ≠ some '/') (hbelow : collapse path = front ++ '/' :: rest) :
    isAbsolute rest = false := by
  rw [← Bool.not_eq_true]
  intro hrest
  obtain ⟨others, rfl⟩ := isAbsolute_iff.mp hrest
  -- there is a name in front of the two slashes, and after a name there are only names
  obtain ⟨name, hname, hsome⟩ : ∃ name ∈ front.splitOn '/', name ≠ [] := by
    have hmem : front.getLast hfront ∈ ['/'].intercalate (front.splitOn '/') := by
      rw [List.intercalate_splitOn]
      exact List.getLast_mem hfront
    rcases mem_intercalate hmem with hslash | ⟨name, hname, hc⟩
    · rw [List.getLast?_eq_some_getLast hfront, hslash] at hlast
      exact absurd rfl hlast
    · exact ⟨name, hname, List.ne_nil_of_mem hc⟩
  obtain ⟨slashes, names, hsplit, hplain⟩ := splitOn_collapse habsolute
  rw [hbelow, List.splitOn_append_cons_self, splitOn_cons_slash] at hsplit
  rcases List.append_eq_append_iff.mp hsplit with ⟨more, hslashes, -⟩ | ⟨more, -, hnames⟩
  · have hslash : name ∈ List.replicate slashes ([] : Segment) := by
      rw [hslashes]
      exact List.mem_append_left _ hname
    exact hsome (List.eq_of_mem_replicate hslash)
  · have hmem : [] ∈ names := by
      rw [hnames]
      exact List.mem_append_right _ List.mem_cons_self
    exact (hplain [] hmem).1 rfl

/-- The root is the top of all paths. -/
def AtTop (root : Option Root) : Prop := ∃ top ∈ root, rootText top = []

instance : DecidablePred AtTop
  | none => .isFalse (by simp [AtTop])
  | some top => decidable_of_iff (rootText top = []) (by simp [AtTop])

/-- Every absolute path goes on from the top. -/
theorem AtTop.exists_prefix (h : AtTop root) (habsolute : isAbsolute text = true) :
    ∃ top ∈ root, rootText top ++ ['/'] <+: collapse text := by
  obtain ⟨top, htop, hempty⟩ := h
  obtain ⟨rest, hrest⟩ := isAbsolute_iff.mp (isAbsolute_collapse habsolute)
  exact ⟨top, htop, rest, by rw [hempty, hrest]; rfl⟩

theorem KeyOf.collapse_eq (h : KeyOf root text made) (habsolute : isAbsolute made = true) : collapse made = made := by
  have hkey := h.collapseKey_eq
  rw [collapseKey] at hkey
  split at hkey
  · rw [← hkey] at habsolute
    cases habsolute
  · exact hkey

/-- What stands below the top is absolute after two slashes only: of one slash nothing is left, and more are never
kept. -/
theorem isAbsolute_collapseKey_iff_of_top (habsolute : isAbsolute text = true) (hbelow : collapse text = '/' :: rest) :
    isAbsolute (collapseKey rest) = true ↔ rootSlashes text = 2 := by
  rw [collapse_of_isAbsolute habsolute] at hbelow
  rw [isAbsolute_collapseKey_eq]
  have hpos := rootSlashes_pos habsolute
  have hlt := rootSlashes_lt text
  obtain hone | htwo : rootSlashes text = 1 ∨ rootSlashes text = 2 := by omega
  · rw [hone] at hbelow ⊢
    have hrest : ['/'].intercalate (segments text) = rest := (List.cons.inj hbelow).2
    rw [← hrest, isAbsolute_intercalate fun name hname => named_of_mem_segments hname]
    decide
  · rw [htwo] at hbelow ⊢
    have hrest : '/' :: ['/'].intercalate (segments text) = rest := (List.cons.inj hbelow).2
    rw [← hrest]
    exact iff_of_true rfl rfl

/-- Below the top there are absolute keys, those of paths that start with two slashes. -/
theorem KeyOf.isAbsolute_iff (h : KeyOf root text made) (htop : AtTop root) :
    isAbsolute made = true ↔ rootSlashes text = 2 := by
  obtain ⟨top, htop, hempty⟩ := htop
  have hrelative : isAbsolute text = false → ¬ rootSlashes text = 2 := by
    intro hrelative
    rw [rootSlashes_eq_zero hrelative]
    decide
  cases h with
  | top hnone =>
      -- an absolute path is never collapsed to the empty text that stands for the top
      refine iff_of_false (by decide) (hrelative ?_)
      rcases hnone with rfl | ⟨habsolute, other, hother, hcollapse⟩
      · rfl
      · obtain rfl := Option.mem_unique htop hother
        rw [hempty] at hcollapse
        have hcollapsed := isAbsolute_collapse habsolute
        rw [hcollapse] at hcollapsed
        cases hcollapsed
  | outside hout =>
      have hnot : isAbsolute text = false := by
        rw [← Bool.not_eq_true]
        intro habsolute
        obtain ⟨other, hother, hprefix⟩ := AtTop.exists_prefix ⟨top, htop, hempty⟩ habsolute
        exact (hout habsolute other hother).2 hprefix
      rw [isAbsolute_collapseKey_eq, hnot]
      exact iff_of_false Bool.false_ne_true (hrelative hnot)
  | @below other rest hother habsolute hbelow =>
      obtain rfl := Option.mem_unique htop hother
      rw [hempty, List.nil_append] at hbelow
      exact isAbsolute_collapseKey_iff_of_top habsolute hbelow

/-- Unless the root is the top, an absolute key is outside of it. -/
theorem KeyOf.outside_of_isAbsolute (h : KeyOf root text made) (habsolute : isAbsolute made = true)
    (hplaced : ¬ AtTop root) :
    ∀ top ∈ root, collapse made ≠ rootText top ∧ ¬ rootText top ++ ['/'] <+: collapse made := by
  intro top htop
  rw [h.collapse_eq habsolute]
  cases h with
  | top hnone => cases habsolute
  | outside hout =>
      have htext := (isAbsolute_collapseKey_eq text).symm.trans habsolute
      have hkey : collapseKey text = collapse text := by
        rw [collapseKey, if_neg]
        intro hhere
        have hcollapse := isAbsolute_collapse htext
        rw [hhere] at hcollapse
        cases hcollapse
      rw [hkey]
      exact hout htext top htop
  | @below other rest hother htext hbelow =>
      have hrest := (isAbsolute_collapseKey_eq rest).symm.trans habsolute
      have hsome : rootText other ≠ [] := fun hempty => hplaced ⟨other, hother, hempty⟩
      have hrelative := isAbsolute_of_below htext hsome (getLast?_dropTrailingSlashes_ne _) hbelow
      rw [hrest] at hrelative
      cases hrelative

theorem spelling_keyChars (htrimmed : Text.strip (keyChars root path) = keyChars root path) :
    spelling (keyChars root path) = keyChars root path := by
  rw [spelling, htrimmed, withSlashes_eq_self (not_mem_keyChars root path)]

/-- A key without blanks at its ends is kept, unless it is absolute below the top. -/
theorem keyChars_keyChars_of_kept (htrimmed : Text.strip (keyChars root path) = keyChars root path)
    (hplaced : isAbsolute (keyChars root path) = true → ¬ AtTop root) :
    keyChars root (keyChars root path) = keyChars root path := by
  have hfirst := keyOf_keyChars root path
  have hagain := keyOf_keyChars root (keyChars root path)
  rw [spelling_keyChars htrimmed] at hagain
  generalize keyChars root path = made at *
  generalize keyChars root made = again at *
  cases hagain with
  | top hnone =>
      rcases hnone with rfl | ⟨habsolute, top, htop, hcollapse⟩
      · rfl
      · exact absurd hcollapse (hfirst.outside_of_isAbsolute habsolute (hplaced habsolute) top htop).1
  | outside hout => exact hfirst.collapseKey_eq
  | @below top rest htop habsolute hbelow =>
      have hprefix : rootText top ++ ['/'] <+: collapse made := ⟨rest, by rw [hbelow]; simp⟩
      exact absurd hprefix (hfirst.outside_of_isAbsolute habsolute (hplaced habsolute) top htop).2

theorem length_keyChars_le (root : Option Root) (path : List Char) :
    (keyChars root path).length ≤ (Text.strip path).length := by
  have hle := (keyOf_keyChars root path).length_le
  rwa [spelling, withSlashes, List.length_map] at hle

theorem KeyOf.length_lt (h : KeyOf root text made) (habsolute : isAbsolute text = true) (htop : AtTop root) :
    made.length < text.length := by
  have hsome : text ≠ [] := by
    rintro rfl
    cases habsolute
  cases h with
  | top hnone => exact List.length_pos_iff.mpr hsome
  | outside hout =>
      obtain ⟨top, htop, hprefix⟩ := htop.exists_prefix habsolute
      exact absurd hprefix (hout habsolute top htop).2
  | @below top rest hother _ hbelow =>
      have hcollapse := length_collapse_le hsome
      have hrest := length_collapseKey_le rest
      rw [hbelow, List.length_append, List.length_cons] at hcollapse
      omega

/-- A key that is not kept becomes shorter. -/
theorem length_keyChars_lt (hnot : ¬ (Text.strip (keyChars root path) = keyChars root path ∧
    (isAbsolute (keyChars root path) = true → ¬ AtTop root))) :
    (keyChars root (keyChars root path)).length < (keyChars root path).length := by
  by_cases htrimmed : Text.strip (keyChars root path) = keyChars root path
  · have hplaced := not_and.mp hnot htrimmed
    rw [Classical.not_imp, Decidable.not_not] at hplaced
    have hagain := keyOf_keyChars root (keyChars root path)
    rw [spelling_keyChars htrimmed] at hagain
    exact hagain.length_lt hplaced.1 hplaced.2
  · have hsub := Text.strip_sublist (keyChars root path)
    calc (keyChars root (keyChars root path)).length
        ≤ (Text.strip (keyChars root path)).length := length_keyChars_le root (keyChars root path)
      _ < (keyChars root path).length :=
          lt_of_le_of_ne hsub.length_le fun heq => htrimmed (hsub.eq_of_length heq)

/-! ## The key of a key -/

theorem tame_keyChars (hnames : ∀ name ∈ (spelling path).splitOn '/', Tame name) : Tame (keyChars root path) := by
  apply tame_of_splitOn
  intro segment hsegment
  rcases (keyOf_keyChars root path).mem_splitOn hsegment with (rfl | rfl) | hname
  · exact tame_nil
  · decide
  · exact hnames segment hname

/-- For every root and every path:

* the key of its key is its key if and only if that has no blanks at its ends, and not both is the root the top and
  does the path start with two slashes;
* if the key of its key is another one, that is shorter;
* its key has no blanks at its ends if none of the names in the path has. -/
theorem key_of_key (root : Option Root) (path : String) :
    (key root (key root path) = key root path ↔ Text.stripString (key root path) = key root path ∧
      ¬ (AtTop root ∧ rootSlashes (spelling path.toList) = 2)) ∧
    (key root (key root path) ≠ key root path → (key root (key root path)).length < (key root path).length) ∧
    ((∀ name ∈ (spelling path.toList).splitOn '/', Tame name) →
      Text.stripString (key root path) = key root path) := by
  have htwice : key root (key root path) = String.ofList (keyChars root (keyChars root path.toList)) := by
    rw [key, key, String.toList_ofList]
  have hstrip : Text.stripString (key root path) = key root path ↔
      Text.strip (keyChars root path.toList) = keyChars root path.toList := by
    rw [Text.stripString, key, String.toList_ofList, String.ofList_inj]
  have hplaced : (isAbsolute (keyChars root path.toList) = true → ¬ AtTop root) ↔
      ¬ (AtTop root ∧ rootSlashes (spelling path.toList) = 2) := by
    rw [not_and]
    constructor
    · intro hkey htop htwo
      exact hkey (((keyOf_keyChars root path.toList).isAbsolute_iff htop).mpr htwo) htop
    · intro hpath habsolute htop
      exact hpath htop (((keyOf_keyChars root path.toList).isAbsolute_iff htop).mp habsolute)
  rw [htwice, hstrip, ← hplaced, key, String.length_ofList, String.length_ofList, Ne, String.ofList_inj]
  refine ⟨⟨?_, ?_⟩, ?_, ?_⟩
  · intro hkept
    by_contra hnot
    exact absurd (congrArg List.length hkept) (Nat.ne_of_lt (length_keyChars_lt hnot))
  · intro hsettled
    exact keyChars_keyChars_of_kept hsettled.1 hsettled.2
  · intro hchanged
    apply length_keyChars_lt
    intro hsettled
    exact hchanged (keyChars_keyChars_of_kept hsettled.1 hsettled.2)
  · intro hnames
    exact (tame_keyChars hnames).strip

/-- The key of a source file is kept, and that of a style sheet with a blank in its name is not. -/
theorem key_of_key_of_two_files :
    key (some ⟨"/w", "/"⟩) (key (some ⟨"/w", "/"⟩) " /w/src//a.ts") =
        key (some ⟨"/w", "/"⟩) " /w/src//a.ts" ∧
      (key none (key none "./ a.css")).length < (key none "./ a.css").length := by
  obtain ⟨hkept, -, htrimmed⟩ := key_of_key (some ⟨"/w", "/"⟩) " /w/src//a.ts"
  obtain ⟨-, hshorter, -⟩ := key_of_key none "./ a.css"
  refine ⟨hkept.mpr ⟨htrimmed ?_, ?_⟩, hshorter ?_⟩
  · decide
  · decide
  · decide

/-- The key of a key may be another one, without a root and with one. -/
theorem key_of_key_differs :
    key none (key none "./ a.css") ≠ key none "./ a.css" ∧
      key (some ⟨"/", "/"⟩) (key (some ⟨"/", "/"⟩) "//a.css") ≠ key (some ⟨"/", "/"⟩) "//a.css" := by
  decide

end Path
end ChangeImpact
