import ChangeImpact.Proofs.Resolver.Outcomes

/-!
# Resolving as the first match in a plain list

A module name means a key (`Means`), in one of three ways: by a path from the importing file, by a path
from the root, or by the alias that stands for a directory.  Of several aliases it is the longest that the
name starts with, and the directory is the one that a look-up of that alias gives.  The resolver has its
aliases sorted for this, and as sorting is stable, a look-up gives the same before and after it
(`lookup_longestFirst`).

With plain aliases, a name of the project means exactly one key, and it resolves to the first known file
in the list of candidates for that key; which directories there are is not asked.
-/

namespace ChangeImpact.Resolver

variable {files extensions : List String} {aliases : Aliases} {importer start target : String}
  {text rest key other : List Char}

/-! ## The longest alias -/

/-- The order in which aliases are sorted. -/
private def noShorter (first second : String × String) : Bool :=
  second.1.length ≤ first.1.length

private theorem noShorter_trans (first second third : String × String) :
    noShorter first second = true → noShorter second third = true → noShorter first third = true := by
  simp only [noShorter, decide_eq_true_eq]
  omega

private theorem noShorter_total (first second : String × String) :
    (noShorter first second || noShorter second first) = true := by
  simp only [noShorter, Bool.or_eq_true, decide_eq_true_eq]
  omega

theorem longestFirst_perm (aliases : Aliases) : (longestFirst aliases).Perm aliases :=
  List.mergeSort_perm ..

/-- Whatever is longer than an alias stands before it. -/
theorem mem_or_length_le_of_longestFirst {before after : Aliases} {found entry : String × String}
    (hsplit : longestFirst aliases = before ++ found :: after) (hentry : entry ∈ aliases) :
    entry ∈ before ∨ entry.1.length ≤ found.1.length := by
  have hsorted : (longestFirst aliases).Pairwise fun first second => noShorter first second = true :=
    List.pairwise_mergeSort noShorter_trans noShorter_total aliases
  rw [hsplit, List.pairwise_append, List.pairwise_cons] at hsorted
  rw [← (longestFirst_perm aliases).mem_iff, hsplit, List.mem_append, List.mem_cons] at hentry
  obtain hbefore | hfound | hafter := hentry
  · exact .inl hbefore
  · exact .inr (hfound ▸ le_rfl)
  · exact .inr (of_decide_eq_true (hsorted.2.1.1 entry hafter))

/-- The entries for one alias keep their order when the aliases are sorted. -/
theorem filter_longestFirst (aliases : Aliases) (start : String) :
    (longestFirst aliases).filter (start == ·.1) = aliases.filter (start == ·.1) := by
  have hsame : (aliases.filter (start == ·.1)).Pairwise fun first second =>
      noShorter first second = true := by
    apply List.pairwise_of_forall_mem_list
    intro first hfirst second hsecond
    have hstart : start = first.1 := beq_iff_eq.mp (List.mem_filter.mp hfirst).2
    have hstart' : start = second.1 := beq_iff_eq.mp (List.mem_filter.mp hsecond).2
    rw [noShorter, ← hstart, ← hstart']
    exact decide_eq_true le_rfl
  have hsub : (aliases.filter (start == ·.1)).Sublist (longestFirst aliases) :=
    List.sublist_mergeSort noShorter_trans noShorter_total hsame List.filter_sublist
  have hkept := hsub.filter (start == ·.1)
  rw [List.filter_filter] at hkept
  simp only [Bool.and_self] at hkept
  exact (hkept.eq_of_length ((longestFirst_perm aliases).filter _).length_eq.symm).symm

theorem lookup_eq_find? (aliases : Aliases) (start : String) :
    aliases.lookup start = (aliases.find? (start == ·.1)).map (·.2) := by
  induction aliases with
  | nil => rfl
  | cons entry rest ih =>
      rw [List.lookup_cons, List.find?_cons, ih]
      split <;> rfl

theorem lookup_longestFirst (aliases : Aliases) (start : String) :
    (longestFirst aliases).lookup start = aliases.lookup start := by
  rw [lookup_eq_find?, lookup_eq_find?, ← List.head?_filter, ← List.head?_filter, filter_longestFirst]

/-- The alias that is chosen is one that the name starts with, no other one that it starts with is longer,
and the directory is the one that is looked up for it. -/
theorem of_aliasOf?_eq_some
    (h : (ofFiles files extensions aliases).aliasOf? text = some (target, rest)) :
    ∃ start, aliases.lookup start = some target ∧ text = start.toList ++ rest ∧
      ∀ entry ∈ aliases, entry.1.toList <+: text → entry.1.length ≤ start.length := by
  obtain ⟨⟨start, directory⟩, hfind, heq⟩ := Option.map_eq_some_iff.mp h
  obtain ⟨rfl, rfl⟩ := Prod.mk.inj heq
  obtain ⟨hstarts, before, after, hsplit, hbefore⟩ := List.find?_eq_some_iff_append.mp hfind
  have hsorted : longestFirst aliases = before ++ (start, directory) :: after := hsplit
  have hnot : ∀ entry ∈ before, ¬ entry.1.toList <+: text := by
    intro entry hentry hstarts
    have hmiss := hbefore entry hentry
    rw [List.isPrefixOf_iff_prefix.mpr hstarts] at hmiss
    cases hmiss
  rw [List.isPrefixOf_iff_prefix] at hstarts
  refine ⟨start, ?_, ?_, ?_⟩
  · -- an entry for the same alias further ahead would have been found
    rw [← lookup_longestFirst, hsorted, List.lookup_eq_some_iff]
    refine ⟨before, after, rfl, ?_⟩
    intro entry hentry
    rw [bne_iff_ne]
    intro hsame
    exact hnot entry hentry (hsame ▸ hstarts)
  · obtain ⟨rest, rfl⟩ := hstarts
    rw [← String.length_toList, List.drop_left]
  · intro entry hentry hentryStarts
    exact (mem_or_length_le_of_longestFirst hsorted hentry).resolve_left fun hahead =>
      hnot entry hahead hentryStarts

/-! ## What a name means -/

/-- The key that a name without its query means in a file. -/
inductive Means (aliases : Aliases) (importer : String) : List Char → List Char → Prop where
  /-- The path starts from the directory of the importing file. -/
  | relative (rest : List Char) :
      Means aliases importer ('.' :: rest) (Path.keyChars none
        (Path.join (Path.directory (Path.keyChars none importer.toList)) ('.' :: rest)))
  /-- The path starts from the root. -/
  | rooted (rest : List Char) :
      Means aliases importer ('/' :: rest)
        (Path.keyChars none (('/' :: rest).dropWhile (· == '/')))
  /-- The path starts from the directory that the longest alias stands for. -/
  | aliased {start target : String} {rest : List Char} (hbare : Bare (start.toList ++ rest))
      (hlookup : aliases.lookup start = some target)
      (hlongest : ∀ entry ∈ aliases, entry.1.toList <+: start.toList ++ rest →
        entry.1.length ≤ start.length) :
      Means aliases importer (start.toList ++ rest)
        (Path.keyChars none (Path.join target.toList rest))

/-- Two starts of one name that have the same length are the same, and so is what comes after them. -/
private theorem start_unique {first second : String} {others : List Char}
    (htext : first.toList ++ rest = second.toList ++ others) (hlength : first.length = second.length) :
    first = second ∧ rest = others := by
  rw [← String.length_toList, ← String.length_toList] at hlength
  obtain ⟨hstart, hrest⟩ := List.append_inj htext hlength
  exact ⟨String.toList_inj.mp hstart, hrest⟩

/-- The longest alias is the one that is chosen. -/
theorem aliasOf?_of_longest (hlookup : aliases.lookup start = some target)
    (hlongest : ∀ entry ∈ aliases, entry.1.toList <+: start.toList ++ rest →
      entry.1.length ≤ start.length) :
    (ofFiles files extensions aliases).aliasOf? (start.toList ++ rest) = some (target, rest) := by
  have hmem : ∀ {start target}, aliases.lookup start = some target → (start, target) ∈ aliases := by
    intro start target hlookup
    obtain ⟨before, after, hsplit, -⟩ := List.lookup_eq_some_iff.mp hlookup
    rw [hsplit]
    exact List.mem_append_right before (List.mem_cons_self ..)
  cases halias : (ofFiles files extensions aliases).aliasOf? (start.toList ++ rest) with
  | none =>
      have happlies : aliases.Apply (start.toList ++ rest) :=
        ⟨(start, target), hmem hlookup, List.prefix_append ..⟩
      exact absurd happlies (aliasOf?_eq_none_iff.mp halias)
  | some found =>
      obtain ⟨chosen, hchosen, htext, hlonger⟩ := of_aliasOf?_eq_some halias
      have hle : start.length ≤ chosen.length :=
        hlonger (start, target) (hmem hlookup) (List.prefix_append ..)
      have hge : chosen.length ≤ start.length :=
        hlongest (chosen, found.1) (hmem hchosen) ⟨found.2, htext.symm⟩
      obtain ⟨rfl, rfl⟩ := start_unique htext (Nat.le_antisymm hle hge)
      rw [hlookup] at hchosen
      rw [Option.some.inj hchosen]

/-- What a name means is the key of the path that is made of it. -/
theorem means_iff_joined (files extensions : List String) : Means aliases importer text key ↔
    ∃ path, (ofFiles files extensions aliases).joined text importer = .ok path ∧
      Path.keyChars none path = key := by
  constructor
  · intro hmeans
    cases hmeans with
    | relative rest => exact ⟨_, rfl, rfl⟩
    | rooted rest => exact ⟨_, rfl, rfl⟩
    | aliased hbare hlookup hlongest =>
        refine ⟨_, ?_, rfl⟩
        rw [joined_of_bare hbare, aliasOf?_of_longest hlookup hlongest]
  · intro hjoined
    obtain ⟨path, hpath, rfl⟩ := hjoined
    rcases cases_of_start text with ⟨rest, rfl⟩ | ⟨rest, rfl⟩ | hbare
    · obtain rfl := Except.ok.inj hpath
      exact .relative rest
    · obtain rfl := Except.ok.inj hpath
      exact .rooted rest
    · rw [joined_of_bare hbare] at hpath
      cases halias : (ofFiles files extensions aliases).aliasOf? text with
      | none =>
          rw [halias] at hpath
          cases hpath
      | some found =>
          rw [halias] at hpath
          cases hpath
          obtain ⟨start, hlookup, rfl, hlongest⟩ := of_aliasOf?_eq_some halias
          exact .aliased hbare hlookup hlongest

/-- A name means one key at most. -/
theorem Means.unique (hkey : Means aliases importer text key)
    (hother : Means aliases importer text other) : other = key := by
  obtain ⟨path, hpath, rfl⟩ := (means_iff_joined [] []).mp hkey
  obtain ⟨path', hpath', rfl⟩ := (means_iff_joined [] []).mp hother
  rw [hpath] at hpath'
  rw [Except.ok.inj hpath']

theorem Means.closed (hkey : Means aliases importer text key) : Path.Closed key := by
  cases hkey with
  | relative rest => exact Path.closed_keyChars _
  | rooted rest => exact Path.closed_keyChars _
  | aliased hbare hlookup hlongest => exact Path.closed_keyChars _

/-! ## The first known file -/

theorem leadsOut_iff : leadsOut key = true ↔ key = Path.above ∨ Path.above ++ ['/'] <+: key := by
  rw [leadsOut, Bool.or_eq_true, beq_iff_eq, List.isPrefixOf_iff_prefix]

/-- With plain aliases, for all files, extensions, and every name in every file:

* an empty name and that of a package outside resolve to nothing;
* any other name means exactly one key, and it resolves to nothing if the key leads out of the project,
  and else to the first known file in the plain list of candidates;
* the set of directories leaves that choice as it is. -/
theorem resolve_is_first_match (files extensions : List String) {aliases : Aliases}
    (hplain : aliases.Plain) (specifier importer : String) :
    let resolver := ofFiles files extensions aliases
    (specifier = "" ∨ resolver.isExternal specifier = true →
      resolver.resolve specifier importer = .ok none) ∧
    (specifier ≠ "" → resolver.isExternal specifier = false →
      ∃ key, Means aliases importer (withoutQuery specifier.toList) key ∧
        (∀ other, Means aliases importer (withoutQuery specifier.toList) other → other = key) ∧
        resolver.resolve specifier importer =
          .ok (if key = Path.above ∨ Path.above ++ ['/'] <+: key then none
            else (plainCandidates extensions key).find? fun path => decide (path ∈ files))) ∧
    ∀ key, Means aliases importer (withoutQuery specifier.toList) key →
      (resolver.candidates key).find? resolver.known.contains =
        (plainCandidates extensions key).find? fun path => decide (path ∈ files) := by
  intro resolver
  refine ⟨resolve_of_outside, ?_, ?_⟩
  · intro hne hinside
    have hbase : (ofFiles [] extensions aliases).base? specifier importer =
        ((ofFiles [] extensions aliases).joined (withoutQuery specifier.toList) importer).map _ :=
      base?_of_inside hne hinside
    cases hjoined : (ofFiles [] extensions aliases).joined (withoutQuery specifier.toList) importer with
    | error fault =>
        have hfails : resolver.resolve specifier importer = .error fault := by
          rw [resolve_ofFiles, hbase, hjoined]
          rfl
        exact absurd (resolve_eq_error_iff.mp hfails) (not_lost_of_plain hplain)
    | ok path =>
        have hmeans : Means aliases importer (withoutQuery specifier.toList) (Path.keyChars none path) :=
          (means_iff_joined [] extensions).mpr ⟨path, hjoined, rfl⟩
        refine ⟨Path.keyChars none path, hmeans, fun other hother => hmeans.unique hother, ?_⟩
        rw [resolve_ofFiles, hbase, hjoined]
        simp only [← leadsOut_iff, Except.map]
        by_cases hout : leadsOut (Path.keyChars none path) = true
        · rw [if_pos hout, if_pos hout]
          rfl
        · rw [if_neg hout, if_neg hout]
          rfl
  · intro key hkey
    exact find?_candidates hkey.closed

/-- A name with an alias and a query: the longer alias is taken, the query is dropped, and the extension
is found. -/
theorem resolve_is_first_match_of_longer_alias :
    (ofFiles ["src/a.ts", "lib/a.ts"] defaultExtensions [("@/", "src/"), ("@/lib/", "lib/")]).resolve
      "@/lib/a?raw" "b.ts" = .ok (some "lib/a.ts") := by
  let aliases : Aliases := [("@/", "src/"), ("@/lib/", "lib/")]
  have hplain : aliases.Plain := by decide
  obtain ⟨-, hinside, -⟩ := resolve_is_first_match ["src/a.ts", "lib/a.ts"] defaultExtensions hplain
    "@/lib/a?raw" "b.ts"
  have hproject : (ofFiles ["src/a.ts", "lib/a.ts"] defaultExtensions aliases).isExternal
      "@/lib/a?raw" = false := by
    rw [← Bool.not_eq_true, isExternal_iff]
    decide
  obtain ⟨key, -, honly, hresolve⟩ := hinside (by decide) hproject
  have hmeans : Means aliases "b.ts" ("@/lib/".toList ++ ['a'])
      (Path.keyChars none (Path.join "lib/".toList ['a'])) :=
    .aliased (by decide) (by decide) (by decide)
  have htext : withoutQuery "@/lib/a?raw".toList = "@/lib/".toList ++ ['a'] := by decide
  rw [hresolve, ← honly _ (htext ▸ hmeans)]
  decide +kernel

end ChangeImpact.Resolver
