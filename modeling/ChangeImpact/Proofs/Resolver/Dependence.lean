import ChangeImpact.Proofs.Collections.Table
import ChangeImpact.Proofs.Resolver.FirstMatch
import ChangeImpact.Proofs.Settings.Aliases

/-!
# What the meaning of a name depends on

Nobody chooses the order of the aliases: some are read from the settings, others are added to them or
replace them.  A resolver has the longer ones first, but those of one length stay as they come.  This is
harmless, for two aliases of one length that a name starts with are the same alias, and no alias occurs
twice (`Aliases.Distinct`, which settings always are by `Settings.distinct_parseAliases`).  So the order does
not matter, and a name means under all aliases what it means under the longest that it starts with alone
(`resolve_of_reordered`).  The name is taken without its query there, as it is when the resolver goes on with
one of the aliases.

Of the known files, only those matter that a name means before or after they come or go.  Their directories
decide which candidates are offered, but not which one is found, and so a new directory diverts no name by
itself (`resolve_diverted_only_by_change`).
-/

namespace ChangeImpact

/-- No alias occurs twice. -/
def Aliases.Distinct (aliases : Aliases) : Prop :=
  (aliases.map (·.1)).Nodup

instance {aliases : Aliases} : Decidable aliases.Distinct :=
  inferInstanceAs (Decidable (aliases.map (·.1)).Nodup)

theorem Aliases.Distinct.perm {aliases others : Aliases} (h : aliases.Distinct) (hperm : aliases.Perm others) :
    others.Distinct :=
  (hperm.map Prod.fst).nodup_iff.mp h

/-! ## Aliases of settings -/

theorem Settings.distinct_parseAliases (value : String) : (parseAliases value).Distinct := by
  rw [parseAliases_eq]
  exact Table.distinct _

namespace Resolver

variable {files extensions : List String} {aliases others : Aliases} {specifier importer : String}
  {text : List Char} {entry : String × String}

/-! ## One alias -/

/-- The aliases come in at two places only: whether a name is that of a package outside, and which path is
made of it. -/
theorem resolve_congr_joined
    (hexternal : (ofFiles files extensions aliases).isExternal specifier =
      (ofFiles files extensions others).isExternal specifier)
    (hjoined : (ofFiles files extensions aliases).joined (withoutQuery specifier.toList) importer =
      (ofFiles files extensions others).joined (withoutQuery specifier.toList) importer) :
    (ofFiles files extensions aliases).resolve specifier importer =
      (ofFiles files extensions others).resolve specifier importer := by
  have hbase : (ofFiles files extensions aliases).base? specifier importer =
      (ofFiles files extensions others).base? specifier importer := by
    rw [base?, base?, hexternal, hjoined]
  rw [resolve, resolve, hbase]
  rfl

theorem joined_congr_alias (h : (ofFiles files extensions aliases).aliasOf? text =
      (ofFiles files extensions others).aliasOf? text) :
    (ofFiles files extensions aliases).joined text importer =
      (ofFiles files extensions others).joined text importer := by
  rcases cases_of_start text with ⟨rest, rfl⟩ | ⟨rest, rfl⟩ | hbare
  · rfl
  · rfl
  · rw [joined_of_bare hbare, joined_of_bare hbare, h]

/-- The longest alias that a text starts with is the one that is chosen. -/
theorem aliasOf?_of_mem (hdistinct : aliases.Distinct) (hentry : entry ∈ aliases)
    (hstarts : entry.1.toList <+: text)
    (hlongest : ∀ other ∈ aliases, other.1.toList <+: text → other.1.length ≤ entry.1.length) :
    (ofFiles files extensions aliases).aliasOf? text = some (entry.2, text.drop entry.1.length) := by
  obtain ⟨rest, rfl⟩ := hstarts
  have hlookup : aliases.lookup entry.1 = some entry.2 :=
    (Table.lookup_eq_some_iff_of_nodup hdistinct).mpr hentry
  rw [aliasOf?_of_longest hlookup hlongest, ← String.length_toList, List.drop_left]

/-! ## The order of the aliases -/

theorem apply_perm (hperm : aliases.Perm others) : aliases.Apply text ↔ others.Apply text := by
  simp only [Aliases.Apply, hperm.mem_iff]

/-- Two aliases of one length that a text starts with are the same, so it does not matter which comes first. -/
theorem aliasOf?_perm (hperm : aliases.Perm others) (hdistinct : aliases.Distinct) :
    (ofFiles files extensions aliases).aliasOf? text = (ofFiles files extensions others).aliasOf? text := by
  cases hchosen : (ofFiles files extensions aliases).aliasOf? text with
  | none =>
      rw [aliasOf?_eq_none_iff, apply_perm hperm] at hchosen
      exact (aliasOf?_eq_none_iff.mpr hchosen).symm
  | some found =>
      obtain ⟨start, hlookup, rfl, hlongest⟩ := of_aliasOf?_eq_some hchosen
      have hmem : (start, found.1) ∈ others :=
        hperm.mem_iff.mp ((Table.lookup_eq_some_iff_of_nodup hdistinct).mp hlookup)
      exact (aliasOf?_of_longest ((Table.lookup_eq_some_iff_of_nodup (hdistinct.perm hperm)).mpr hmem)
        fun entry hentry => hlongest entry (hperm.mem_iff.mpr hentry)).symm

/-- For all files and extensions, all aliases in any two orders, and every name in every file:

* the name is that of a package outside under both or under neither;
* it resolves to the same, or fails in the same way, under both;
* of the aliases that the name without its query starts with, the longest decides: the name resolves to what
  it does where there is no other alias. -/
theorem resolve_of_reordered (files extensions : List String) {aliases others : Aliases}
    (hperm : aliases.Perm others) (hdistinct : aliases.Distinct) (specifier importer : String) :
    (ofFiles files extensions aliases).isExternal specifier =
      (ofFiles files extensions others).isExternal specifier ∧
    (ofFiles files extensions aliases).resolve specifier importer =
      (ofFiles files extensions others).resolve specifier importer ∧
    ∀ entry ∈ aliases, entry.1.toList <+: withoutQuery specifier.toList →
      (∀ other ∈ aliases, other.1.toList <+: withoutQuery specifier.toList →
        other.1.length ≤ entry.1.length) →
      (ofFiles files extensions aliases).resolve specifier importer =
        (ofFiles files extensions [entry]).resolve specifier importer := by
  have hexternal : (ofFiles files extensions aliases).isExternal specifier =
      (ofFiles files extensions others).isExternal specifier := by
    rw [Bool.eq_iff_iff, isExternal_iff, isExternal_iff, apply_perm hperm]
  refine ⟨hexternal, resolve_congr_joined hexternal (joined_congr_alias (aliasOf?_perm hperm hdistinct)), ?_⟩
  intro entry hentry hstarts hlongest
  have hwhole : entry.1.toList <+: specifier.toList := (prefix_withoutQuery_iff.mp hstarts).1
  have hsingle : Aliases.Distinct [entry] := by simp [Aliases.Distinct]
  apply resolve_congr_joined
  · -- the name starts with the alias, so it is not that of a package outside in either case
    rw [Bool.eq_iff_iff, isExternal_iff, isExternal_iff]
    apply iff_of_false
    · exact fun houtside => houtside.2 ⟨entry, hentry, hwhole⟩
    · exact fun houtside => houtside.2 ⟨entry, List.mem_singleton_self entry, hwhole⟩
  · apply joined_congr_alias
    rw [aliasOf?_of_mem hdistinct hentry hstarts hlongest,
      aliasOf?_of_mem hsingle (List.mem_singleton_self entry) hstarts]
    intro other hother _
    rw [List.mem_singleton.mp hother]

/-- Two aliases, one of which the other starts with, are given in either order. -/
theorem resolve_of_reordered_settings :
    let resolverFor := fun aliases => ofFiles ["src/lib/a.ts", "lib/a.ts"] defaultExtensions aliases
    let resolver := resolverFor (Settings.parseAliases "@/=src,@/lib=lib")
    resolver.resolve "@/lib/a?raw" "b.ts" =
        (resolverFor (Settings.parseAliases "@/lib=lib,@/=src")).resolve "@/lib/a?raw" "b.ts" ∧
      resolver.resolve "@/lib/a?raw" "b.ts" =
        (resolverFor [("@/lib", "lib")]).resolve "@/lib/a?raw" "b.ts" := by
  intro resolverFor resolver
  have haliases : Settings.parseAliases "@/=src,@/lib=lib" = [("@/", "src"), ("@/lib", "lib")] := by
    decide +kernel
  have hperm : (Settings.parseAliases "@/=src,@/lib=lib").Perm (Settings.parseAliases "@/lib=lib,@/=src") := by
    decide +kernel
  obtain ⟨-, hsame, hlongest⟩ := resolve_of_reordered ["src/lib/a.ts", "lib/a.ts"] defaultExtensions hperm
    (Settings.distinct_parseAliases _) "@/lib/a?raw" "b.ts"
  refine ⟨hsame, hlongest ("@/lib", "lib") ?_ (by decide) ?_⟩
  · rw [haliases]
    decide
  · rw [haliases]
    decide

/-! ## Other known files -/

/-- Two answers are the same unless one of them is a file that is known for that one only. -/
theorem answers_eq {others : List String} {before after : Option String}
    (hbefore : (ofFiles files extensions aliases).resolve specifier importer = .ok before)
    (hafter : (ofFiles others extensions aliases).resolve specifier importer = .ok after)
    (hgone : ¬ ∃ path ∈ before, path ∈ files ∧ path ∉ others)
    (hcome : ¬ ∃ path ∈ after, path ∈ others ∧ path ∉ files) : before = after := by
  apply Except.ok.inj
  rw [← hbefore, ← hafter]
  apply resolve_eq_of_known_in_both
  · intro path hpath
    by_contra hout
    exact hgone ⟨path, Except.ok.inj (hbefore.symm.trans hpath), mem_of_resolve hpath, hout⟩
  · intro path hpath
    by_contra hout
    exact hcome ⟨path, Except.ok.inj (hafter.symm.trans hpath), mem_of_resolve hpath, hout⟩

/-- With plain aliases, for any two sets of known files, the same extensions and aliases, and every name in
every file, the name resolves under both, and:

* it resolves to the same unless it meant a file that is known before only, or means one that is known after
  only;
* where files have only gone, a name that is diverted meant one that has gone;
* where files have only come, a name that is diverted means one that has come. -/
theorem resolve_diverted_only_by_change (files others extensions : List String) {aliases : Aliases}
    (hplain : aliases.Plain) (specifier importer : String) :
    ∃ before after,
      (ofFiles files extensions aliases).resolve specifier importer = .ok before ∧
      (ofFiles others extensions aliases).resolve specifier importer = .ok after ∧
      ((¬ ∃ path ∈ before, path ∈ files ∧ path ∉ others) →
        (¬ ∃ path ∈ after, path ∈ others ∧ path ∉ files) → before = after) ∧
      (others ⊆ files → before ≠ after → ∃ path ∈ before, path ∈ files ∧ path ∉ others) ∧
      (files ⊆ others → before ≠ after → ∃ path ∈ after, path ∈ others ∧ path ∉ files) := by
  have hanswer : ∃ before, (ofFiles files extensions aliases).resolve specifier importer = .ok before :=
    exists_resolve hplain
  have hanswer' : ∃ after, (ofFiles others extensions aliases).resolve specifier importer = .ok after :=
    exists_resolve hplain
  obtain ⟨before, hbefore⟩ := hanswer
  obtain ⟨after, hafter⟩ := hanswer'
  refine ⟨before, after, hbefore, hafter, answers_eq hbefore hafter, ?_, ?_⟩
  · intro hfewer hne
    by_contra hgone
    refine hne (answers_eq hbefore hafter hgone ?_)
    rintro ⟨path, -, hpath, hout⟩
    exact hout (hfewer hpath)
  · intro hmore hne
    by_contra hcome
    refine hne (answers_eq hbefore hafter ?_ hcome)
    rintro ⟨path, -, hpath, hout⟩
    exact hout (hmore hpath)

/-- A file comes beside a directory of its name, and the name of the directory's index file is diverted to
it. -/
theorem resolve_diverted_only_by_change_beside_directory :
    let files := ["a.ts", "lib/index.ts"]
    ∃ path, (ofFiles ("lib.ts" :: files) defaultExtensions []).resolve "./lib" "a.ts" = .ok (some path) ∧
      path ∉ files := by
  intro files
  have hplain : Aliases.Plain [] := by decide
  obtain ⟨before, after, hbefore, hafter, -, -, hcome⟩ :=
    resolve_diverted_only_by_change files ("lib.ts" :: files) defaultExtensions hplain "./lib" "a.ts"
  have hdiverted : before ≠ after := by
    rintro rfl
    rw [← hafter, resolve_ofFiles, resolve_ofFiles] at hbefore
    exact absurd hbefore (by decide +kernel)
  obtain ⟨path, hpath, -, hnew⟩ := hcome (by decide) hdiverted
  exact ⟨path, by rw [hafter, Option.mem_def.mp hpath], hnew⟩

end Resolver
end ChangeImpact
