import ChangeImpact.Proofs.Resolver.Candidates
import ChangeImpact.Settings.Basic

/-!
# What can come of a module name

Resolving a name gives a file, or nothing, or it fails.  The last of these is the odd one.  A bare name,
one that is not written as a path, belongs to the project if it starts with an alias, and this is asked of
the whole name.  Which alias it is, however, is asked of what the name is without its query.  The two
answers agree as long as one of the aliases that the name starts with has no mark in it, for then that
alias comes before the query.  Otherwise the alias is lost with the query, and there is no path to go on
with.

So the names that fail are known exactly (`Lost`, `resolve_eq_error_iff`), and all other names get an
answer.  With plain aliases no name fails (`exists_resolve`).
-/

namespace ChangeImpact

/-- Aliases without the marks that begin a query or a fragment. -/
def Aliases.Plain (aliases : Aliases) : Prop :=
  ∀ entry ∈ aliases, '?' ∉ entry.1.toList ∧ '#' ∉ entry.1.toList

instance {aliases : Aliases} : Decidable aliases.Plain :=
  inferInstanceAs (Decidable (∀ entry ∈ aliases, _))

/-- Some alias is what a name starts with. -/
def Aliases.Apply (aliases : Aliases) (text : List Char) : Prop :=
  ∃ entry ∈ aliases, entry.1.toList <+: text

instance {aliases : Aliases} {text : List Char} : Decidable (aliases.Apply text) :=
  inferInstanceAs (Decidable (∃ entry ∈ aliases, _))

namespace Resolver

variable {resolver : Resolver} {files extensions : List String} {aliases : Aliases}
  {specifier importer : String} {text : List Char} {fault : Fault}

/-- A name that is not written as a path, neither from the importing file nor from the root. -/
def Bare (text : List Char) : Prop :=
  text.head? ≠ some '.' ∧ text.head? ≠ some '/'

instance : Decidable (Bare text) :=
  inferInstanceAs (Decidable (_ ∧ _))

/-- A bare name that starts with an alias, but only with aliases in which a query or a fragment seems to
begin. -/
structure Lost (aliases : Aliases) (text : List Char) : Prop where
  bare : Bare text
  applies : aliases.Apply text
  marked : ∀ entry ∈ aliases, entry.1.toList <+: text →
    '?' ∈ entry.1.toList ∨ '#' ∈ entry.1.toList

/-! ## Bare names -/

theorem cases_of_start (text : List Char) :
    (∃ rest, text = '.' :: rest) ∨ (∃ rest, text = '/' :: rest) ∨ Bare text := by
  cases text with
  | nil => exact .inr (.inr ⟨nofun, nofun⟩)
  | cons c rest =>
      by_cases hdot : c = '.'
      · exact .inl ⟨rest, by rw [hdot]⟩
      · by_cases hslash : c = '/'
        · exact .inr (.inl ⟨rest, by rw [hslash]⟩)
        · exact .inr (.inr ⟨fun h => hdot (Option.some.inj h), fun h => hslash (Option.some.inj h)⟩)

/-- A name without its query is written as a path if the name itself is. -/
theorem bare_withoutQuery_iff : Bare (withoutQuery text) ↔ Bare text := by
  cases text with
  | nil => rfl
  | cons c rest =>
      rw [withoutQuery, List.takeWhile_cons]
      split
      · rfl
      · rename_i hmark
        -- nothing is left of a name that starts with a mark, and a mark is neither a dot nor a slash
        refine iff_of_true ⟨nofun, nofun⟩ ⟨?_, ?_⟩
        · intro hdot
          rw [Option.some.inj hdot] at hmark
          exact hmark (by decide)
        · intro hslash
          rw [Option.some.inj hslash] at hmark
          exact hmark (by decide)

theorem isExternal_of_bare (h : Bare specifier.toList) :
    resolver.isExternal specifier = (resolver.aliasOf? specifier.toList).isNone := by
  unfold isExternal
  split
  · rename_i heq
    rw [heq] at h
    exact absurd rfl h.1
  · rename_i heq
    rw [heq] at h
    exact absurd rfl h.2
  · rfl

theorem joined_of_bare (h : Bare text) : resolver.joined text importer =
    match resolver.aliasOf? text with
    | some (target, rest) => .ok (Path.join target.toList rest)
    | none => .error .lostAlias := by
  unfold joined
  split
  · exact absurd rfl h.1
  · exact absurd rfl h.2
  · rfl

theorem aliasOf?_eq_none_iff :
    (ofFiles files extensions aliases).aliasOf? text = none ↔ ¬ aliases.Apply text := by
  rw [aliasOf?, Option.map_eq_none_iff, List.find?_eq_none]
  simp only [ofFiles, longestFirst, List.mem_mergeSort, List.isPrefixOf_iff_prefix, Aliases.Apply,
    not_exists, not_and]

/-- The names of packages outside are the bare ones without an alias. -/
theorem isExternal_iff : (ofFiles files extensions aliases).isExternal specifier = true ↔
    Bare specifier.toList ∧ ¬ aliases.Apply specifier.toList := by
  rcases cases_of_start specifier.toList with ⟨rest, heq⟩ | ⟨rest, heq⟩ | hbare
  · simp [isExternal, heq, Bare]
  · simp [isExternal, heq, Bare]
  · rw [isExternal_of_bare hbare, Option.isNone_iff_eq_none, aliasOf?_eq_none_iff,
      and_iff_right hbare]

theorem joined_eq_error_iff : (ofFiles files extensions aliases).joined text importer = .error fault ↔
    Bare text ∧ ¬ aliases.Apply text := by
  rcases cases_of_start text with ⟨rest, rfl⟩ | ⟨rest, rfl⟩ | hbare
  · simp [joined, Bare]
  · simp [joined, Bare]
  · rw [joined_of_bare hbare, ← aliasOf?_eq_none_iff, and_iff_right hbare]
    cases fault
    cases (ofFiles files extensions aliases).aliasOf? text with
    | none => simp
    | some found => simp

/-! ## Lost names -/

/-- A name starts without its query with what it starts with anyway, as long as that has no mark. -/
theorem prefix_withoutQuery_iff {start text : List Char} :
    start <+: withoutQuery text ↔ start <+: text ∧ '?' ∉ start ∧ '#' ∉ start := by
  constructor
  · intro h
    rw [withoutQuery] at h
    refine ⟨h.trans (List.takeWhile_prefix _), ?_, ?_⟩
    · intro hquery
      exact absurd (List.mem_takeWhile_imp (h.subset hquery)) (by decide)
    · intro hfragment
      exact absurd (List.mem_takeWhile_imp (h.subset hfragment)) (by decide)
  · intro h
    obtain ⟨⟨rest, rfl⟩, hquery, hfragment⟩ := h
    have hunmarked : ∀ c ∈ start, (c != '?' && c != '#') = true := by
      intro c hc
      have hne : c ≠ '?' := fun heq => hquery (heq ▸ hc)
      have hne' : c ≠ '#' := fun heq => hfragment (heq ▸ hc)
      simp [hne, hne']
    rw [withoutQuery, List.takeWhile_append_of_pos hunmarked]
    exact List.prefix_append ..

theorem apply_withoutQuery_iff : aliases.Apply (withoutQuery text) ↔
    ∃ entry ∈ aliases, entry.1.toList <+: text ∧ '?' ∉ entry.1.toList ∧ '#' ∉ entry.1.toList := by
  simp only [Aliases.Apply, prefix_withoutQuery_iff]

/-- A name is lost if it has an alias with its query and none without. -/
theorem lost_iff : Lost aliases text ↔
    (Bare text ∧ aliases.Apply text) ∧ ¬ aliases.Apply (withoutQuery text) := by
  rw [apply_withoutQuery_iff]
  constructor
  · intro hlost
    refine ⟨⟨hlost.bare, hlost.applies⟩, ?_⟩
    intro hunmarked
    obtain ⟨entry, hentry, hstarts, hquery, hfragment⟩ := hunmarked
    exact (hlost.marked entry hentry hstarts).elim hquery hfragment
  · intro h
    obtain ⟨⟨hbare, happlies⟩, hunmarked⟩ := h
    refine ⟨hbare, happlies, ?_⟩
    intro entry hentry hstarts
    by_contra hnot
    exact hunmarked ⟨entry, hentry, hstarts, not_or.mp hnot⟩

theorem Lost.specifier_ne_empty (h : Lost aliases specifier.toList) : specifier ≠ "" := by
  intro hempty
  obtain ⟨⟨-, happlies⟩, hnot⟩ := lost_iff.mp h
  rw [hempty] at happlies hnot
  exact hnot happlies

/-- Aliases without marks lose no name. -/
theorem not_lost_of_plain (hplain : aliases.Plain) : ¬ Lost aliases text := by
  intro hlost
  obtain ⟨entry, hentry, hstarts⟩ := hlost.applies
  obtain ⟨hquery, hfragment⟩ := hplain entry hentry
  exact (hlost.marked entry hentry hstarts).elim hquery hfragment

/-! ## Answers -/

/-- Nothing is looked for in the project. -/
theorem base?_of_outside (h : specifier = "" ∨ resolver.isExternal specifier = true) :
    resolver.base? specifier importer = .ok none := by
  rw [base?, if_pos]
  rwa [Bool.or_eq_true, String.isEmpty_iff]

theorem base?_of_inside (hne : specifier ≠ "") (hinside : resolver.isExternal specifier = false) :
    resolver.base? specifier importer =
      (resolver.joined (withoutQuery specifier.toList) importer).map fun path =>
        if leadsOut (Path.keyChars none path) then none else some (Path.keyChars none path) := by
  rw [base?, if_neg]
  · rfl
  · rw [hinside, Bool.or_false, String.isEmpty_iff]
    exact hne

theorem resolve_of_outside
    (h : specifier = "" ∨ (ofFiles files extensions aliases).isExternal specifier = true) :
    (ofFiles files extensions aliases).resolve specifier importer = .ok none := by
  rw [resolve, base?_of_outside h]
  rfl

private theorem map_eq_error_iff {ε α β : Type} {f : α → β} {result : Except ε α} {fault : ε} :
    result.map f = .error fault ↔ result = .error fault := by
  cases result with
  | ok value => exact iff_of_false nofun nofun
  | error cause => rw [Except.map, Except.error.injEq, Except.error.injEq]

/-- The names that fail are the lost ones. -/
theorem resolve_eq_error_iff :
    (ofFiles files extensions aliases).resolve specifier importer = .error fault ↔
      Lost aliases specifier.toList := by
  by_cases houtside : specifier = "" ∨ (ofFiles files extensions aliases).isExternal specifier = true
  · rw [resolve_of_outside houtside]
    refine iff_of_false nofun ?_
    intro hlost
    have hexternal := houtside.resolve_left hlost.specifier_ne_empty
    exact (isExternal_iff.mp hexternal).2 hlost.applies
  · obtain ⟨hne, hinside⟩ := not_or.mp houtside
    rw [Bool.not_eq_true] at hinside
    have hbase : (ofFiles [] extensions aliases).base? specifier importer =
        ((ofFiles [] extensions aliases).joined (withoutQuery specifier.toList) importer).map _ :=
      base?_of_inside hne hinside
    -- a bare name that is not external has an alias that applies
    have hstart : Bare specifier.toList → aliases.Apply specifier.toList := by
      intro hbare
      by_contra happlies
      rw [isExternal_iff.mpr ⟨hbare, happlies⟩] at hinside
      cases hinside
    calc (ofFiles files extensions aliases).resolve specifier importer = .error fault
        ↔ (ofFiles [] extensions aliases).base? specifier importer = .error fault := by
          rw [resolve_ofFiles, map_eq_error_iff]
      _ ↔ (ofFiles [] extensions aliases).joined (withoutQuery specifier.toList) importer = .error fault := by
          rw [hbase, map_eq_error_iff]
      _ ↔ Lost aliases specifier.toList := by
          rw [joined_eq_error_iff, bare_withoutQuery_iff, lost_iff, and_iff_left_of_imp hstart]

theorem exists_resolve (hplain : aliases.Plain) :
    ∃ target?, (ofFiles files extensions aliases).resolve specifier importer = .ok target? := by
  cases hresolve : (ofFiles files extensions aliases).resolve specifier importer with
  | error fault => exact absurd (resolve_eq_error_iff.mp hresolve) (not_lost_of_plain hplain)
  | ok target? => exact ⟨target?, rfl⟩

/-- For all files, extensions and aliases, and every name in every file:

* the name of a package outside resolves to nothing;
* a lost name fails, and for that there is an alias with a query or fragment mark in it;
* every other name gets an answer, and if the answer is a file, that is one of the known files. -/
theorem resolve_answers_unless_lost (files extensions : List String) (aliases : Aliases)
    (specifier importer : String) :
    ((ofFiles files extensions aliases).isExternal specifier = true →
      (ofFiles files extensions aliases).resolve specifier importer = .ok none) ∧
    (Lost aliases specifier.toList →
      (ofFiles files extensions aliases).resolve specifier importer = .error .lostAlias ∧
        ∃ entry ∈ aliases, '?' ∈ entry.1.toList ∨ '#' ∈ entry.1.toList) ∧
    (¬ Lost aliases specifier.toList →
      ∃ target?, (ofFiles files extensions aliases).resolve specifier importer = .ok target? ∧
        ∀ target, target? = some target → target ∈ files) := by
  refine ⟨?_, ?_, ?_⟩
  · intro hexternal
    exact resolve_of_outside (.inr hexternal)
  · intro hlost
    obtain ⟨entry, hentry, hstarts⟩ := hlost.applies
    exact ⟨resolve_eq_error_iff.mpr hlost, entry, hentry, hlost.marked entry hentry hstarts⟩
  · intro hkept
    cases hresolve : (ofFiles files extensions aliases).resolve specifier importer with
    | error fault => exact absurd (resolve_eq_error_iff.mp hresolve) hkept
    | ok target? =>
        refine ⟨target?, rfl, ?_⟩
        intro target htarget
        rw [htarget] at hresolve
        exact mem_of_resolve hresolve

/-- An alias without a mark answers for a name with a query. -/
theorem resolve_answers_unless_lost_with_query :
    ∃ target?, (ofFiles ["src/a.ts"] defaultExtensions [("@/", "src/")]).resolve "@/a?raw" "b.ts" =
        .ok target? ∧ ∀ target, target? = some target → target ∈ ["src/a.ts"] := by
  have hplain : Aliases.Plain [("@/", "src/")] := by decide
  obtain ⟨-, -, hanswer⟩ := resolve_answers_unless_lost ["src/a.ts"] defaultExtensions
    [("@/", "src/")] "@/a?raw" "b.ts"
  exact hanswer (not_lost_of_plain hplain)

/-- The settings may well have an alias with a mark, and then every name that starts with it fails,
though it is not that of a package outside. -/
theorem resolve_fails_at_alias_with_mark :
    let resolver := ofFiles ["packages/lib/x.ts"] defaultExtensions
      (Settings.parseAliases "#lib=packages/lib")
    resolver.isExternal "#lib/x" = false ∧ resolver.resolve "#lib/x" "a.ts" = .error .lostAlias := by
  intro resolver
  have haliases : Settings.parseAliases "#lib=packages/lib" = [("#lib", "packages/lib")] := by
    decide +kernel
  have hlost : Lost (Settings.parseAliases "#lib=packages/lib") "#lib/x".toList := by
    rw [haliases]
    refine ⟨by decide, by decide, ?_⟩
    intro entry hentry _
    rw [List.mem_singleton.mp hentry]
    decide
  refine ⟨?_, resolve_eq_error_iff.mpr hlost⟩
  rw [← Bool.not_eq_true, isExternal_iff]
  exact fun hexternal => hexternal.2 hlost.applies

end Resolver
end ChangeImpact
