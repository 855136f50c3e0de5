import ChangeImpact.Proofs.FileKind
import ChangeImpact.Proofs.Impact.Exactness
import ChangeImpact.Proofs.Path.Keys

/-!
# Tests that stand beside their source

The test of a source is looked for under its name with a mark and one of a few extensions.  A file is recognized as a
test by the same marks, but by more extensions and in any case.  So of the files that are recognized by their names,
those that have one of the few extensions go with their source, and the others do not, unless they import it
(`mem_testsFor_beside_iff`).
-/

namespace ChangeImpact

/-- A name that marks a test does so in every directory. -/
theorem FileKind.ofPath_join_of_isTestName {place name : List Char} (hname : '/' ∉ name)
    (htest : isTestName (Path.fileName (Path.withSlashes name)) = true) :
    ofPath (String.ofList (Path.join place name)) = .test := by
  obtain ⟨stem, hstem, hjoin, -⟩ := Path.exists_stem place
  have hslashes : Path.withSlashes stem = [] ∨ (Path.withSlashes stem).getLast? = some '/' := by
    refine hstem.imp (fun hnone => by rw [hnone]; rfl) fun hlast => ?_
    rw [Path.withSlashes, List.getLast?_map, hlast]
    rfl
  have hmarked : isTestChars (Path.withSlashes (Path.join place name)) = true := by
    rw [hjoin name (Path.isAbsolute_of_not_mem hname), Path.withSlashes_append, isTestChars,
      Path.fileName_append hslashes, htest, Bool.true_or]
  rw [ofPath, String.toList_ofList]
  exact if_pos hmarked

namespace Analyzer

variable {analyzer : Analyzer} {g : Graph} {source : String} {mark : String} {base extension place rest : List Char}

theorem not_mem_marked (hsource : Path.splitExtension (Path.fileName source.toList) = (base, extension))
    (hmark : mark ∈ testMarks) (hrest : '/' ∉ rest) : '/' ∉ base ++ mark.toList ++ rest := by
  have hbase : '/' ∉ base := fun h =>
    Path.not_mem_fileName source.toList (Path.mem_of_mem_splitExtension (hsource ▸ h))
  have hmarks : ∀ mark ∈ testMarks, '/' ∉ mark.toList := by decide
  simp [hbase, hmarks mark hmark, hrest]

/-- Of the names with a mark, those with an extension that is looked for are found in every searched directory. -/
theorem mem_companionPaths_iff (hslash : ∀ extension ∈ analyzer.testExtensions, '/' ∉ extension.toList)
    (hsource : Path.splitExtension (Path.fileName source.toList) = (base, extension))
    (hplace : place ∈ analyzer.searchedDirectories (Path.directory source.toList)) (hmark : mark ∈ testMarks)
    (hrest : '/' ∉ rest) : String.ofList (Path.join place (base ++ mark.toList ++ rest)) ∈
      analyzer.companionPaths source ↔ String.ofList rest ∈ analyzer.testExtensions := by
  have hlength : ∀ mark ∈ testMarks, mark.toList.length = 5 := by decide
  rw [companionPaths, hsource]
  simp only [List.mem_flatMap, List.mem_map]
  constructor
  · rintro ⟨other, -, mark', hmark', extension', hextension', heq⟩
    have hsame := congrArg Path.fileName (String.ofList_injective heq)
    rw [Path.fileName_join (not_mem_marked hsource hmark' (hslash _ hextension')),
      Path.fileName_join (not_mem_marked hsource hmark hrest)] at hsame
    have hmarked : mark'.toList.length = mark.toList.length := by rw [hlength mark' hmark', hlength mark hmark]
    have htail := (List.append_inj hsame (by simp [hmarked])).2
    rwa [← htail, String.ofList_toList]
  · intro hextension
    exact ⟨place, hplace, mark, hmark, _, hextension, by rw [String.toList_ofList]⟩

/-- A file beside a source, or in a directory for tests there, that is recognized as a test by its name goes with the
source exactly if its extension is one of the listed ones or it imports the source.  It is recognized if the extension
is spelled like that of a script, in whatever case, with or without a line feed after it. -/
theorem mem_testsFor_beside_iff (root : Option Root) (g : Graph) (test source mark : String)
    (base extension place rest name : List Char)
    (hsource : Path.splitExtension (Path.fileName source.toList) = (base, extension))
    (hplace : place ∈ Path.directory source.toList ::
      ["__tests__", "test", "tests"].map fun name => Path.join (Path.directory source.toList) name.toList)
    (hmark : mark ∈ [".test", ".spec"]) (hrest : '/' ∉ rest) (hname : name = base ++ mark.toList ++ rest)
    (htest : test = String.ofList (Path.join place name)) :
    (FileKind.isTestName (Path.fileName (Path.withSlashes name)) = true →
      g.kindOf? test = some (FileKind.ofPath test) →
      (test ∈ testsFor { root } g source ↔
        String.ofList rest ∈ [".ts", ".tsx", ".js", ".jsx", ".mts", ".cts", ".mjs", ".cjs"] ∨
          test ∈ g.importers source)) ∧
    ∀ letters, rest = '.' :: letters → '.' ∉ letters → '\\' ∉ base ++ rest →
      (FileKind.isTestName (Path.fileName (Path.withSlashes name)) = true ↔ '\n' ∉ base ∧
        ∃ script ∈ FileKind.scriptExtensions, ∃ form ∈ FileKind.lineForms rest,
          FileKind.Spelled script.toList form) := by
  subst hname htest
  have hslash : ∀ extension ∈ FileKind.testExtensions, '/' ∉ extension.toList := by decide
  have hfile : '/' ∉ base ++ mark.toList ++ rest := not_mem_marked hsource hmark hrest
  constructor
  · intro hrecognized htyped
    rw [FileKind.ofPath_join_of_isTestName hfile hrecognized] at htyped
    rw [mem_testsFor, mem_companionPaths_iff hslash hsource hplace hmark hrest, isTestOf, htyped]
    exact and_iff_left rfl
  · rintro letters rfl hletters hback
    have hname : '\\' ∉ base ++ mark.toList ++ '.' :: letters := by
      have hmarks : ∀ mark ∈ [".test", ".spec"], '\\' ∉ mark.toList := by decide
      simp only [List.mem_append, not_or] at hback ⊢
      exact ⟨⟨hback.1, hmarks mark hmark⟩, hback.2⟩
    rw [Path.withSlashes_eq_self hname, Path.fileName_of_not_mem hfile, FileKind.isTestName_iff hmark hletters]

/-- Two files in a directory for tests: one has a listed extension, the other is recognized only. -/
theorem mem_testsFor_beside_iff_of_two_tests :
    let g := Graph.history [.addNode "src/a.ts" .source .null, .addNode "src/tests/a.spec.mts" .test .null,
      .addNode "src/tests/a.spec.mTSx" .test .null]
    "src/tests/a.spec.mts" ∈ testsFor {} g "src/a.ts" ∧ "src/tests/a.spec.mTSx" ∉ testsFor {} g "src/a.ts" := by
  intro g
  have hlisted := (mem_testsFor_beside_iff none g "src/tests/a.spec.mts" "src/a.ts" ".spec" ['a'] ".ts".toList
    "src/tests".toList ".mts".toList "a.spec.mts".toList (by decide) (by decide) (by decide) (by decide) rfl rfl).1
    (by decide +kernel) (by decide +kernel)
  have hother := (mem_testsFor_beside_iff none g "src/tests/a.spec.mTSx" "src/a.ts" ".spec" ['a'] ".ts".toList
    "src/tests".toList ".mTSx".toList "a.spec.mTSx".toList (by decide) (by decide) (by decide) (by decide) rfl rfl).1
    (by decide +kernel) (by decide +kernel)
  exact ⟨hlisted.mpr (.inl (by decide)), fun h => absurd (hother.mp h) (by decide +kernel)⟩

/-- Files beside a source that are recognized as tests by their names, and do not go with it: one with an extension
that is not listed, one with a listed extension in capitals and one with a line feed at its end. -/
theorem companions_miss_recognized_tests : ∃ g : Graph, g.Balanced ∧
    ∀ test ∈ ["a.test.mtsx", "a.test.TS", "a.test.ts\n"], FileKind.isTestName test.toList = true ∧
      g.kindOf? test = some (FileKind.ofPath test) ∧ test ∉ testsFor {} g "a.ts" :=
  ⟨Graph.history [.addNode "a.ts" .source .null, .addNode "a.test.mtsx" .test .null,
      .addNode "a.test.TS" .test .null, .addNode "a.test.ts\n" .test .null],
    Graph.balanced_history _, by decide +kernel⟩

end Analyzer
end ChangeImpact
