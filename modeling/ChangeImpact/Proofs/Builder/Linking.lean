import ChangeImpact.Proofs.Builder.Record
import ChangeImpact.Proofs.Graph.Equality
import ChangeImpact.Proofs.Resolver.Outcomes

/-!
# Linking

A file is linked if its edges, and what linking has said about it, are what its names lead to among the
files of the graph (`LinkedAt`), and it is resolved if besides every name in it has an answer
(`ResolvedAt`).  Linking a file makes this true of it and leaves all other files as they are.  It fails
only at a name that has no answer (`Unanswered`), which takes an alias that is not plain (`LosesAlias`);
every answer is a file of the graph, so the edges are never refused.  Whether or not it comes through, linking
touches neither the nodes nor what scanning has said (`Relinked`).

A linked graph is determined by its record (`Recorded.same_eq_true`, `Recorded.diagnostics_perm`), in
whichever order its files came and whatever has been done to it before.  Every comparison of two
histories of a graph is therefore one of two records.
-/

namespace ChangeImpact.Builder

open Diagnostic (said)

variable {builder : Builder} {record : Record} {g h : Graph} {path : String} {paths : List String}

/-! ## What names lead to -/

section Links

variable {resolver other : Resolver} {specifiers : List String}

theorem links_congr (hresolve : ∀ name, resolver.resolve name path = other.resolve name path)
    (hexternal : ∀ name, resolver.isExternal name = other.isExternal name) :
    links resolver path specifiers = links other path specifiers := by
  induction specifiers with
  | nil => rfl
  | cons name rest ih => rw [links, links, hresolve, hexternal, ih]

/-- Linking stops early exactly if a name has no answer. -/
theorem fault_links_eq_none_iff : (links resolver path specifiers).fault = none ↔
    ∀ name ∈ specifiers, ∃ target?, resolver.resolve name path = .ok target? := by
  induction specifiers with
  | nil => simp [links]
  | cons name rest ih =>
      rw [links, List.forall_mem_cons, ← ih]
      cases resolver.resolve name path with
      | error fault => simp
      | ok target? =>
          cases target? with
          | some target => simp
          | none =>
              dsimp only
              split
              · simp
              · simp

/-- Every target is the answer of a name. -/
theorem exists_name_of_mem_targets_links {target : String}
    (h : target ∈ (links resolver path specifiers).targets) :
    ∃ name ∈ specifiers, resolver.resolve name path = .ok (some target) := by
  induction specifiers with
  | nil => cases h
  | cons name rest ih =>
      rw [List.exists_mem_cons_iff]
      rw [links] at h
      split at h
      · cases h
      · rename_i found hfound
        refine (List.mem_cons.mp h).imp (fun heq => ?_) ih
        rw [hfound, heq]
      · dsimp only at h
        split at h
        · exact .inr (ih h)
        · exact .inr (ih h)

theorem mem_targets_links (h : ∀ name ∈ specifiers, ∃ target?, resolver.resolve name path = .ok target?)
    {target : String} : target ∈ (links resolver path specifiers).targets ↔
      ∃ name ∈ specifiers, resolver.resolve name path = .ok (some target) := by
  refine ⟨exists_name_of_mem_targets_links, ?_⟩
  rintro ⟨name, hname, hresolve⟩
  induction specifiers with
  | nil => cases hname
  | cons first rest ih =>
      rw [List.forall_mem_cons] at h
      obtain ⟨⟨target?, hfirst⟩, hrest⟩ := h
      rw [links, hfirst]
      rcases List.mem_cons.mp hname with rfl | hname
      · rw [hresolve] at hfirst
        cases hfirst
        exact List.mem_cons_self ..
      · -- no name is without an answer, so the names after this one are gone through in any case
        cases target? with
        | some found => exact List.mem_cons_of_mem _ (ih hrest hname)
        | none =>
            dsimp only
            split
            · exact ih hrest hname
            · exact ih hrest hname

theorem of_mem_unresolved_links {d : Diagnostic}
    (h : d ∈ (links resolver path specifiers).unresolved) :
    d.path = path ∧ d.isLinking = true := by
  induction specifiers with
  | nil => cases h
  | cons name rest ih =>
      rw [links] at h
      split at h
      · cases h
      · exact ih h
      · dsimp only at h
        split at h
        · exact ih h
        · rcases List.mem_cons.mp h with rfl | h
          · exact ⟨rfl, rfl⟩
          · exact ih h

end Links

/-! ## Linked files -/

/-- The names that the node of a file tells; there are none without a node. -/
def namesIn (g : Graph) (path : String) : List String :=
  ((g.nodes.get? path).map (·.specifiers)).getD []

/-- What the names in a file lead to in a graph. -/
def linksIn (builder : Builder) (g : Graph) (path : String) : Links :=
  links (builder.resolverFor g) path (namesIn g path)

/-- The edges from a file, and what linking has said about it, are what its names lead to. -/
structure LinkedAt (builder : Builder) (g : Graph) (path : String) : Prop where
  mem_targets : ∀ target, target ∈ g.targets path ↔ target ∈ (builder.linksIn g path).targets
  unresolved : said true path g.diagnostics = (builder.linksIn g path).unresolved

/-- All files of a graph are linked. -/
def Linked (builder : Builder) (g : Graph) : Prop := ∀ path, LinkedAt builder g path

/-- A file is linked, and every name in it has an answer. -/
structure ResolvedAt (builder : Builder) (g : Graph) (path : String) : Prop
    extends LinkedAt builder g path where
  answered : (builder.linksIn g path).fault = none

/-- All files of a graph are resolved. -/
def Resolved (builder : Builder) (g : Graph) : Prop := ∀ path, ResolvedAt builder g path

theorem Resolved.linked (h : Resolved builder g) : Linked builder g := fun path =>
  (h path).toLinkedAt

/-- With plain aliases every name has an answer. -/
theorem Linked.resolved (h : Linked builder g) (hplain : builder.aliases.Plain) :
    Resolved builder g := fun path =>
  ⟨h path, fault_links_eq_none_iff.mpr fun _ _ => Resolver.exists_resolve hplain⟩

/-- Linking has come to a name without an answer.  This takes an alias that is not plain. -/
def LosesAlias (builder : Builder) (fault : BuildError) : Prop :=
  fault = .resolver .lostAlias ∧ ¬ builder.aliases.Plain

theorem LosesAlias.elim {fault : BuildError} (h : LosesAlias builder fault)
    (hplain : builder.aliases.Plain) : False :=
  h.2 hplain

/-- Linking has come to a name without an answer, and there is such a name in one of the files that were to be
linked. -/
structure Unanswered (builder : Builder) (g : Graph) (linked : String → Prop) (fault : BuildError) : Prop where
  losesAlias : LosesAlias builder fault
  exists_fault : ∃ path, linked path ∧ (builder.linksIn g path).fault ≠ none

/-- The resolver of a graph sees its files alone. -/
theorem linksIn_congr (hkeys : ∀ path, path ∈ g.nodes ↔ path ∈ h.nodes)
    (hnames : namesIn g path = namesIn h path) :
    builder.linksIn g path = builder.linksIn h path := by
  rw [linksIn, linksIn, hnames]
  exact links_congr (fun _ => Resolver.resolve_congr hkeys) fun _ => rfl

theorem Unanswered.of_nodes {fault : BuildError} {linked : String → Prop}
    (hfault : Unanswered builder h linked fault) (hnodes : h.nodes = g.nodes) :
    Unanswered builder g linked fault := by
  obtain ⟨hloses, path, hlinked, hpath⟩ := hfault
  refine ⟨hloses, path, hlinked, ?_⟩
  rwa [linksIn, namesIn, resolverFor, hnodes] at hpath

theorem Unanswered.mono {fault : BuildError} {linked others : String → Prop}
    (hfault : Unanswered builder g linked fault) (hsub : ∀ path, linked path → others path) :
    Unanswered builder g others fault := by
  obtain ⟨hloses, path, hlinked, hpath⟩ := hfault
  exact ⟨hloses, path, hsub path hlinked, hpath⟩

/-- Being linked depends on the builder only by what the names lead to. -/
theorem LinkedAt.congr {other : Builder} (hlinked : LinkedAt builder g path)
    (hlinks : other.linksIn h path = builder.linksIn g path)
    (htargets : h.targets path = g.targets path)
    (hsaid : said true path h.diagnostics = said true path g.diagnostics) :
    LinkedAt other h path where
  mem_targets target := by rw [htargets, hlinked.mem_targets, hlinks]
  unresolved := by rw [hsaid, hlinked.unresolved, hlinks]

theorem ResolvedAt.congr {other : Builder} (hresolved : ResolvedAt builder g path)
    (hlinks : other.linksIn h path = builder.linksIn g path)
    (htargets : h.targets path = g.targets path)
    (hsaid : said true path h.diagnostics = said true path g.diagnostics) :
    ResolvedAt other h path where
  toLinkedAt := hresolved.toLinkedAt.congr hlinks htargets hsaid
  answered := by rw [hlinks, hresolved.answered]

theorem Recorded.namesIn_eq (hg : Recorded record g) (path : String) :
    namesIn g path = ((record path).map (·.specifiers)).getD [] := by
  rw [namesIn, hg.nodes, Option.map_map]
  rfl

/-! ## Linking one file -/

/-- Only edges, and what linking has said, have changed. -/
structure Relinked (before after : Graph) : Prop where
  balanced : after.Balanced
  nodes : after.nodes = before.nodes
  scanning : Diagnostic.scanning after.diagnostics = Diagnostic.scanning before.diagnostics

theorem Relinked.problems {after : Graph} (h : Relinked g after) (path : String) :
    said false path after.diagnostics = said false path g.diagnostics := by
  rw [← Diagnostic.said_scanning, h.scanning, Diagnostic.said_scanning]

theorem Relinked.refl (hg : g.Balanced) : Relinked g g := ⟨hg, rfl, rfl⟩

theorem Relinked.trans {after last : Graph} (hfirst : Relinked g after)
    (hsecond : Relinked after last) : Relinked g last where
  balanced := hsecond.balanced
  nodes := hsecond.nodes.trans hfirst.nodes
  scanning := hsecond.scanning.trans hfirst.scanning

theorem Recorded.relinked (hg : Recorded record g) {after : Graph} (h : Relinked g after) :
    Recorded record after where
  balanced := h.balanced
  nodes path := by rw [h.nodes, hg.nodes]
  problems path := by rw [h.problems, hg.problems]

/-- Noting what linking says leaves what scanning has said. -/
theorem relinked_append (hg : g.Balanced) {noted : List Diagnostic}
    (hnoted : ∀ d ∈ noted, d.isLinking = true) :
    Relinked g { g with diagnostics := g.diagnostics ++ noted } where
  balanced := { hg with }
  nodes := rfl
  scanning := by
    show Diagnostic.scanning (g.diagnostics ++ noted) = _
    rw [Diagnostic.scanning_append, Diagnostic.scanning_eq_nil hnoted, List.append_nil]

/-- Dropping what linking has said leaves what scanning has said. -/
theorem relinked_filter (hg : g.Balanced) {keep : Diagnostic → Bool}
    (hkeep : ∀ d, d.isLinking = false → keep d = true) :
    Relinked g { g with diagnostics := g.diagnostics.filter keep } where
  balanced := { hg with }
  nodes := rfl
  scanning := Diagnostic.scanning_filter_of_kept hkeep

/-- What the names in a file lead to are files of the graph. -/
theorem mem_nodes_of_mem_linksIn {target : String} (h : target ∈ (builder.linksIn g path).targets) :
    target ∈ g.nodes := by
  obtain ⟨name, -, hname⟩ := exists_name_of_mem_targets_links h
  exact Resolver.mem_of_resolve hname

/-- One file has been linked, the others are as before. -/
structure FileLinked (builder : Builder) (before : Graph) (path : String) (after : Graph) : Prop
    extends Relinked before after where
  resolved : ResolvedAt builder after path
  targets : ∀ other, other ≠ path → after.targets other = before.targets other
  unresolved : ∀ other, other ≠ path →
    said true other after.diagnostics = said true other before.diagnostics

theorem FileLinked.resolvedAt_of_ne {after : Graph} (hstep : FileLinked builder g path after)
    {other : String} (hne : other ≠ path) (hresolved : ResolvedAt builder g other) :
    ResolvedAt builder after other :=
  hresolved.congr (by rw [linksIn, linksIn, resolverFor, resolverFor, namesIn, namesIn, hstep.nodes])
    (hstep.targets other hne) (hstep.unresolved other hne)

theorem linking_of_mem_linksIn {d : Diagnostic} (h : d ∈ (builder.linksIn g path).unresolved) :
    d.path = path ∧ d.isLinking = true :=
  of_mem_unresolved_links h

/-- Replacing the edges from a file by those that its names lead to links it. -/
theorem fileLinked_of_rowReplaced {after : Graph} (hg : g.Balanced)
    (hsaid : said true path g.diagnostics = []) (hfault : (builder.linksIn g path).fault = none)
    (hrow : Graph.RowReplaced
      { g with diagnostics := g.diagnostics ++ (builder.linksIn g path).unresolved } path
      (builder.linksIn g path).targets after) : FileLinked builder g path after := by
  -- edges and diagnostics do not matter to what names lead to
  have hlinks : builder.linksIn after path = builder.linksIn g path := by
    rw [linksIn, linksIn, namesIn, namesIn, resolverFor, resolverFor, hrow.nodes]
  have hnoted := relinked_append hg
    fun d (hd : d ∈ (builder.linksIn g path).unresolved) => (linking_of_mem_linksIn hd).2
  refine ⟨hnoted.trans ⟨hrow.balanced, hrow.nodes, by rw [hrow.diagnostics]⟩,
    ⟨⟨fun target => ?_, ?_⟩, hlinks ▸ hfault⟩, fun other hne => ?_, fun other hne => ?_⟩
  · rw [hrow.mem_targets, if_pos rfl, hlinks]
  · rw [hrow.diagnostics, Diagnostic.said_append, hsaid, hlinks, List.nil_append]
    exact Diagnostic.said_eq_self fun _ => linking_of_mem_linksIn
  · refine PathSet.ext fun target => ?_
    rw [hrow.mem_targets, if_neg hne]
    exact Iff.rfl
  · have helsewhere : said true other (builder.linksIn g path).unresolved = [] := by
      refine Diagnostic.said_eq_nil ?_
      rintro d hd ⟨hother, -⟩
      exact hne (hother.symm.trans (linking_of_mem_linksIn hd).1)
    rw [hrow.diagnostics, Diagnostic.said_append, helsewhere, List.append_nil]

/-- Linking a file of which nothing has been said by linking fails only at a name without an answer. -/
theorem ends_link (builder : Builder) (hg : g.Balanced) (hpath : path ∈ g.nodes)
    (hsaid : said true path g.diagnostics = []) :
    Ends (link (builder.resolverFor g) path) g (fun _ after => FileLinked builder g path after)
      (fun fault after => Relinked g after ∧ Unanswered builder g (· = path) fault) := by
  unfold link
  refine ((ends_demandNode g path).mono (fun _ _ hgood => hgood)
    fun _ _ hbad => absurd hpath hbad.2.1).bind ?_
  rintro node after ⟨hnode, rfl⟩
  have hnames : links (builder.resolverFor after) path node.specifiers =
      builder.linksIn after path := by
    rw [linksIn, namesIn, hnode]
    rfl
  have hnoted := relinked_append hg
    fun d (hd : d ∈ (builder.linksIn after path).unresolved) => (linking_of_mem_linksIn hd).2
  rw [hnames]
  refine .modified_bind ?_
  cases hfault : (builder.linksIn after path).fault with
  | some fault =>
      refine .of_eq_error rfl ⟨hnoted, ⟨rfl, fun hplain => ?_⟩, path, rfl, by simp [hfault]⟩
      have hnone : (builder.linksIn after path).fault = none :=
        fault_links_eq_none_iff.mpr fun _ _ => Resolver.exists_resolve hplain
      rw [hfault] at hnone
      cases hnone
  | none =>
      refine ends_perform ((hnoted.balanced.ends_setDependencies hpath).imp
        fun _ _ hrow => fileLinked_of_rowReplaced hg hsaid hfault hrow) ?_
      rintro _ _ ⟨done, target, rest, htargets, hnot, -⟩
      have htarget : target ∈ (builder.linksIn after path).targets := by simp [htargets]
      exact absurd (mem_nodes_of_mem_linksIn htarget) hnot

/-! ## Linking many files -/

theorem resolvedAt_of_not_mem (hg : g.Balanced) (hpath : path ∉ g.nodes)
    (hsaid : said true path g.diagnostics = []) : ResolvedAt builder g path := by
  have hnames : builder.linksIn g path = {} := by
    rw [linksIn, namesIn, Table.get?_eq_none_iff.mpr hpath]
    rfl
  refine ⟨⟨fun target => ?_, ?_⟩, ?_⟩
  · rw [hnames, hg.targets_eq_empty hpath]
    simp
  · rw [hnames, hsaid]
  · rw [hnames]

/-- Some files are still to be linked, and nothing has been said about their names.  The others are resolved, also those
that have no node. -/
structure LinkingLeft (builder : Builder) (before : Graph) (rest : List String) (state : Graph) : Prop where
  relinked : Relinked before state
  distinct : rest.Nodup
  silent : ∀ path ∈ rest, path ∈ before.nodes ∧ said true path state.diagnostics = []
  resolved : ∀ path, path ∉ rest → ResolvedAt builder state path

theorem LinkingLeft.ends_link {rest : List String} {state : Graph}
    (h : LinkingLeft builder g (path :: rest) state) :
    Ends (link (builder.resolverFor state) path) state (fun _ after => LinkingLeft builder g rest after)
      (fun fault after => Relinked g after ∧ Unanswered builder g (fun _ => True) fault) := by
  obtain ⟨hnew, hdistinct⟩ := List.nodup_cons.mp h.distinct
  obtain ⟨hpath, hsaid⟩ := h.silent path (List.mem_cons_self ..)
  refine (Builder.ends_link builder h.relinked.balanced (h.relinked.nodes ▸ hpath) hsaid).mono ?_
    fun _ _ hbad => ⟨h.relinked.trans hbad.1, (hbad.2.of_nodes h.relinked.nodes).mono fun _ _ => trivial⟩
  intro _ after hstep
  refine ⟨h.relinked.trans hstep.toRelinked, hdistinct, fun other hother => ?_, fun other hother => ?_⟩
  · have hne : other ≠ path := fun heq => hnew (heq ▸ hother)
    rw [hstep.unresolved other hne]
    exact h.silent other (List.mem_cons_of_mem _ hother)
  · by_cases heq : other = path
    · rw [heq]
      exact hstep.resolved
    · exact hstep.resolvedAt_of_ne heq (h.resolved other (by simp [heq, hother]))

/-- Linking all files needs nothing of the edges that are there. -/
theorem ends_linkAll (builder : Builder) (hg : g.Balanced) :
    Ends builder.linkAll g (fun _ after => Relinked g after ∧ Resolved builder after)
      (fun fault after => Relinked g after ∧ Unanswered builder g (fun _ => True) fault) := by
  let cleared : Graph := { g with diagnostics := g.diagnostics.filter (·.kind != .unresolved) }
  have hcleared : Relinked g cleared := relinked_filter hg fun d hscanning => by
    rwa [bne, Bool.not_eq_true']
  have hsilent : ∀ path, said true path cleared.diagnostics = [] := fun path => by
    refine Diagnostic.said_filter_of_dropped fun d _ hlinking => ?_
    rwa [bne, Bool.not_eq_false']
  have hkeys : ∀ path, path ∈ cleared.nodes.keys.mergeSort (· ≤ ·) ↔ path ∈ g.nodes := fun path =>
    (List.mergeSort_perm _ _).mem_iff
  have hstart : LinkingLeft builder g (cleared.nodes.keys.mergeSort (· ≤ ·)) cleared := by
    refine ⟨hcleared, ?_, fun path hpath => ⟨(hkeys path).mp hpath, hsilent path⟩, fun path hpath => ?_⟩
    · exact (List.mergeSort_perm _ _).nodup_iff.mpr g.nodes.nodup_keys
    · exact resolvedAt_of_not_mem hcleared.balanced (fun hmem => hpath ((hkeys path).mpr hmem)) (hsilent path)
  refine .modified_bind (.get_bind ?_)
  refine (Ends.forM (LinkingLeft builder g) (fun path rest state hstate => ?_) hstart).imp ?_
  · have hresolver : builder.resolverFor cleared = builder.resolverFor state := by
      rw [resolverFor, resolverFor, hstate.relinked.nodes]
    rw [hresolver]
    exact hstate.ends_link
  · exact fun _ after hafter => ⟨hafter.relinked, fun path => hafter.resolved path List.not_mem_nil⟩

theorem relinked_forgetUnresolved (hg : g.Balanced) (path : String) :
    Relinked g (forgetUnresolved path g) :=
  relinked_filter hg fun d hscanning => by
    show (!(d.path == path && d.isLinking)) = true
    rw [hscanning, Bool.and_false]
    rfl

theorem said_forgetUnresolved_self (g : Graph) (path : String) :
    said true path (forgetUnresolved path g).diagnostics = [] := by
  refine Diagnostic.said_filter_of_dropped fun d hpath hlinking => ?_
  show (!(d.path == path && d.isLinking)) = false
  rw [hpath, hlinking, beq_self_eq_true]
  rfl

theorem said_forgetUnresolved_of_ne {other : String} (hne : other ≠ path) :
    said true other (forgetUnresolved path g).diagnostics = said true other g.diagnostics := by
  refine Diagnostic.said_filter_of_kept fun d hpath _ => ?_
  show (!(d.path == path && d.isLinking)) = true
  rw [hpath, beq_false_of_ne hne]
  rfl

/-- What linking does to files when it goes over some of them: these are resolved, and the others are as
before. -/
structure RowsLinked (builder : Builder) (before : Graph) (paths : List String) (after : Graph) :
    Prop where
  resolved : ∀ path ∈ paths, ResolvedAt builder after path
  targets : ∀ path, path ∉ paths → after.targets path = before.targets path
  unresolved : ∀ path, path ∉ paths →
    said true path after.diagnostics = said true path before.diagnostics

/-- Linking some files leaves the others as they are. -/
theorem ends_linkSome (builder : Builder) (hg : g.Balanced)
    (hpaths : ∀ path ∈ paths, path ∈ g.nodes) :
    Ends (builder.linkSome paths) g
      (fun _ after => Relinked g after ∧ RowsLinked builder g paths after)
      (fun fault after => Relinked g after ∧ Unanswered builder g (· ∈ paths) fault) := by
  refine .get_bind ?_
  refine .forM_done (fun done state => Relinked g state ∧ RowsLinked builder g done state) ?_
    ⟨.refl hg, nofun, fun _ _ => rfl, fun _ _ => rfl⟩
  rintro done path rest state hitems ⟨hrelinked, hdone⟩
  have hforgotten := relinked_forgetUnresolved hrelinked.balanced path
  -- nothing that is forgotten or linked on the way changes the files, so there is one resolver for all of them
  have hresolver : builder.resolverFor g = builder.resolverFor (forgetUnresolved path state) := by
    rw [resolverFor, resolverFor, ← hrelinked.nodes]
    rfl
  have hpath : path ∈ (forgetUnresolved path state).nodes :=
    hrelinked.nodes ▸ hpaths path (by simp [hitems])
  rw [hresolver]
  refine .modified_bind ?_
  refine (ends_link builder hforgotten.balanced hpath (said_forgetUnresolved_self state path)).mono
    ?_ fun _ _ hbad => ⟨hrelinked.trans (hforgotten.trans hbad.1),
      (hbad.2.of_nodes hrelinked.nodes).mono fun _ heq => by simp [hitems, heq]⟩
  intro _ after hstep
  -- what has been linked before keeps its row and what is said about it
  refine ⟨hrelinked.trans (hforgotten.trans hstep.toRelinked), ?_, ?_, ?_⟩
  · intro other hother
    by_cases heq : other = path
    · rw [heq]
      exact hstep.resolved
    · have hresolved := hdone.resolved other (by simpa [heq] using hother)
      exact hstep.resolvedAt_of_ne heq
        (hresolved.congr rfl rfl (said_forgetUnresolved_of_ne heq))
  · intro other hother
    simp only [List.mem_append, List.mem_singleton, not_or] at hother
    exact (hstep.targets other hother.2).trans (hdone.targets other hother.1)
  · intro other hother
    simp only [List.mem_append, List.mem_singleton, not_or] at hother
    rw [hstep.unresolved other hother.2, said_forgetUnresolved_of_ne hother.2,
      hdone.unresolved other hother.1]

/-- Relinking resolves all files if it is told to link all, and otherwise those that have been scanned. -/
theorem ends_relink (builder : Builder) (hg : g.Balanced) (all : Bool)
    (hpaths : ∀ path ∈ paths, path ∈ g.nodes) :
    Ends (builder.relink all paths) g
      (fun _ after => Relinked g after ∧ (all = true → Resolved builder after) ∧
        (all = false → RowsLinked builder g paths after))
      (fun fault after => Relinked g after ∧
        Unanswered builder g (fun path => all = true ∨ path ∈ paths) fault) := by
  cases all with
  | true =>
      exact (ends_linkAll builder hg).mono (fun _ _ hgood => ⟨hgood.1, fun _ => hgood.2, nofun⟩)
        fun _ _ hbad => ⟨hbad.1, hbad.2.mono fun _ _ => .inl rfl⟩
  | false =>
      exact (ends_linkSome builder hg hpaths).mono (fun _ _ hgood => ⟨hgood.1, nofun, fun _ => hgood.2⟩)
        fun _ _ hbad => ⟨hbad.1, hbad.2.mono fun _ hpath => .inr hpath⟩

theorem ends_check (hg : g.Balanced) {good : Unit → Graph → Prop}
    {bad : BuildError → Graph → Prop} (hgood : good () g) : Ends check g good bad := by
  have hchecked : Ends Graph.checkStep g good fun _ _ => False := by
    refine Ends.get_bind ?_
    rw [hg.check_eq_ok]
    exact .pure hgood
  exact ends_perform hchecked fun _ _ => False.elim

/-! ## A linked graph is determined by its record -/

/-- Two scans leave the same behind in a graph. -/
structure Scan.Alike (first second : Scan) : Prop where
  specifiers : first.specifiers = second.specifiers
  changed : (timeJson first.changed).same (timeJson second.changed) = true
  problem : first.problem = second.problem

/-- Two records know the same files and have alike scans of them. -/
def Record.Alike (first second : Record) : Prop :=
  ∀ path, Option.Rel Scan.Alike (first path) (second path)

theorem same_timeJson_self (time : Option Timestamp) :
    (timeJson time).same (timeJson time) = true := by
  cases time with
  | none => rfl
  | some time => exact Binary64.same_self time.seconds

theorem Scan.Alike.refl (scan : Scan) : scan.Alike scan := ⟨rfl, same_timeJson_self _, rfl⟩

theorem Record.Alike.refl (record : Record) : record.Alike record := fun path => by
  cases record path with
  | none => exact .none
  | some scan => exact .some (.refl scan)

section Determined

variable {other : Record}

theorem Recorded.mem_nodes_iff (hg : Recorded record g) (hh : Recorded other h)
    (halike : record.Alike other) : path ∈ g.nodes ↔ path ∈ h.nodes := by
  rw [hg.mem_nodes, hh.mem_nodes]
  have hrel := halike path
  generalize record path = first, other path = second at hrel
  cases hrel with
  | none => simp
  | some hscans => simp

theorem Recorded.linksIn_eq (hg : Recorded record g) (hh : Recorded other h)
    (halike : record.Alike other) (path : String) :
    builder.linksIn g path = builder.linksIn h path := by
  refine linksIn_congr (fun _ => hg.mem_nodes_iff hh halike) ?_
  rw [hg.namesIn_eq, hh.namesIn_eq]
  have hrel := halike path
  generalize record path = first, other path = second at hrel
  cases hrel with
  | none => rfl
  | some hscans => simp [hscans.specifiers]

/-- Linked graphs with alike records are the same. -/
theorem Recorded.same_eq_true (hg : Recorded record g) (hh : Recorded other h)
    (halike : record.Alike other) (hglinked : Linked builder g) (hhlinked : Linked builder h) :
    g.same h = true := by
  refine hg.balanced.same_eq_true hh.balanced (fun _ => hg.mem_nodes_iff hh halike) ?_ ?_
  · intro path first second hfirst hsecond
    rw [hg.nodes] at hfirst
    rw [hh.nodes] at hsecond
    obtain ⟨scan, hscan, rfl⟩ := Option.map_eq_some_iff.mp hfirst
    obtain ⟨scan', hscan', rfl⟩ := Option.map_eq_some_iff.mp hsecond
    have hscans := halike path
    rw [hscan, hscan'] at hscans
    cases hscans with
    | some hscans => exact ⟨rfl, hscans.changed, hscans.specifiers⟩
  · intro path
    refine PathSet.ext fun target => ?_
    rw [(hglinked path).mem_targets, (hhlinked path).mem_targets, hg.linksIn_eq hh halike]

/-- Linked graphs with alike records have the same diagnostics up to their order. -/
theorem Recorded.diagnostics_perm (hg : Recorded record g) (hh : Recorded other h)
    (halike : record.Alike other) (hglinked : Linked builder g) (hhlinked : Linked builder h) :
    g.diagnostics.Perm h.diagnostics := by
  refine Diagnostic.perm_of_said_eq fun linking path => ?_
  cases linking with
  | true =>
      rw [(hglinked path).unresolved, (hhlinked path).unresolved, hg.linksIn_eq hh halike]
  | false =>
      rw [hg.problems, hh.problems]
      have hrel := halike path
      generalize record path = first, other path = second at hrel
      cases hrel with
      | none => rfl
      | some hscans => simp [hscans.problem]

end Determined

end ChangeImpact.Builder
