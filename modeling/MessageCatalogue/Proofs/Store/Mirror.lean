import Mathlib
import MessageCatalogue.Proofs.Resource.Mirror
import MessageCatalogue.Proofs.Resource.Naming
import MessageCatalogue.Proofs.Store.Counterparts

/-! A store over root directories cannot be told from one over memory that holds the files below them. -/

namespace MessageCatalogue

open Loading

namespace Setup

/-- A setup whose loader looks for resources in another collection. -/
def searching (setup : Setup) (collection : Collection) : Setup :=
  { setup with loader := setup.loader.searching collection }

/-- The locales that are candidates for support when some files are listed. -/
def candidatesAmong (setup : Setup) (files : List String) : List Locale :=
  setup.configured.getD (setup.loader.localesOfFiles setup.source files)

/-- The paths that a setup asks about when its resources are in memory: its directory and its resource names. -/
def pathsIn (setup : Setup) (memory : MemoryResources) : List String :=
  let directory := setup.loader.pattern.directory setup.source
  directory :: (setup.defaultLocale :: setup.candidatesAmong (memory.fileNames directory)).map
    (setup.loader.resourceName setup.source)

/-- Other locales are some of the candidates. -/
theorem mem_of_mem_otherLocales {setup : Setup} {candidates : List Locale} {locale : Locale}
    (member : locale ∈ setup.otherLocales candidates) : locale ∈ candidates := by
  rw [otherLocales, List.mem_eraseDups] at member
  exact (List.mem_filter.mp member).1

section Collections

variable {setup : Setup} {before after : Holdings} {one other : Collection}

/-- A locale has the same messages of its own in one collection and in another one. -/
def OwnsAlike (setup : Setup) (before after : Holdings) (one other : Collection) (locale : Locale) : Prop :=
  outcome before ((setup.loader.searching one).loadMerged setup.source locale) =
    outcome after ((setup.loader.searching other).loadMerged setup.source locale)

/-- Names do not depend on the collection in which they are looked for. -/
theorem nameAlike_searching (setup : Setup) (one other : Collection) :
    (setup.searching one).NameAlike (setup.searching other) :=
  ⟨rfl, rfl, fun _ => rfl⟩

/-- Collections with the same candidates, each owning the same, load the same. -/
theorem outcome_load_searching
    (listed : outcome before (setup.searching one).candidateLocales =
      outcome after (setup.searching other).candidateLocales)
    (alike : ∀ candidates, outcome after (setup.searching other).candidateLocales = .ok candidates →
      ∀ locale ∈ setup.defaultLocale :: candidates, setup.OwnsAlike before after one other locale) :
    outcome before (setup.searching one).load = outcome after (setup.searching other).load := by
  refine (nameAlike_searching setup one other).outcome_load listed fun candidates found => ?_
  obtain ⟨default, rest⟩ := List.forall_mem_cons.mp (alike candidates found)
  exact List.forall_mem_cons.mpr ⟨default, fun locale member => rest locale (mem_of_mem_otherLocales member)⟩

/-- The candidates come from the files in the directory of the source unless they are configured. -/
theorem outcome_candidateLocales (holdings : Holdings) (setup : Setup) (collection : Collection) :
    outcome holdings (setup.searching collection).candidateLocales =
      if setup.configured.isSome then .ok (setup.candidatesAmong [])
      else (((holdings collection).list (setup.loader.pattern.directory setup.source)).mapError
        (.discovery setup.source (setup.loader.pattern.directory setup.source))).map setup.candidatesAmong := by
  -- Configured locales are returned without a request.
  obtain ⟨source, loader, default, configured⟩ := setup
  cases configured with
  | some locales => rfl
  | none =>
    simp only [searching, candidateLocales, Loader.discoverLocales, outcome_bind, outcome_ofRequest, outcome_pure]
    rfl

/-- Once candidates are known in memory, they are those among its files. -/
theorem eq_candidatesAmong {setup : Setup} {memory : MemoryResources} {collection : Collection}
    {candidates : List Locale}
    (found : outcome (fun _ => memory.enumerator) (setup.searching collection).candidateLocales = .ok candidates) :
    candidates = setup.candidatesAmong (memory.fileNames (setup.loader.pattern.directory setup.source)) := by
  -- A listing in memory never fails.
  rw [outcome_candidateLocales] at found
  split at found
  · -- Configured locales are the same whatever files there are.
    rename_i configured
    obtain ⟨locales, same⟩ := Option.isSome_iff_exists.mp configured
    simp only [candidatesAmong, same, Option.getD_some, Except.ok.injEq] at found ⊢
    exact found.symm
  · exact (Except.ok.inj found).symm

end Collections

end Setup

namespace Store

/-- Setups that load the same are initialized alike, and their stores answer alike. -/
theorem init_searching_congr {before after : Holdings} {setup : Setup} {one other : Collection}
    (loaded : outcome before (setup.searching one).load = outcome after (setup.searching other).load) :
    ((ofSetup (setup.searching one)).init.run before).1 = ((ofSetup (setup.searching other)).init.run after).1 ∧
      ((ofSetup (setup.searching one)).init.run before).2.SameAnswers
        ((ofSetup (setup.searching other)).init.run after).2 := by
  have named := Setup.nameAlike_searching setup one other
  obtain ⟨result, stores⟩ := (Counterparts.ofSetup _ _).init named loaded
  exact ⟨result, stores.sameAnswers named⟩

open FileTree Directories

/--
A store over root directories starts and answers like one over memory into which all files below them were put.

The paths that it asks about have to be relative and to lead where the names on them lead, as they do within limits.
Where it lists files, no root may hold a file in the place of the directory or above it.
-/
theorem memory_mirrors_directories {rootAt : Roots} {roots : List String} {copies : List (ResourceId × ByteArray)}
    {setup : Setup} (distinct : roots.Nodup) (sound : ∀ root ∈ roots, IsRoot rootAt root)
    (collected : Collects rootAt roots copies)
    (relative : ∀ path ∈ setup.pathsIn (MemoryResources.empty.insertAll copies), IsRelative path)
    (follows : ∀ path ∈ setup.pathsIn (MemoryResources.empty.insertAll copies), FollowNames rootAt roots path)
    (clear : ∀ root ∈ roots, ∀ tree, rootAt root = .ok tree →
      tree.IsOpenTo (namesOn (setup.loader.pattern.directory setup.source))) :
    let memory := MemoryResources.empty.insertAll copies
    let inFiles := (ofSetup (setup.searching (.directories roots))).init.run (holdings rootAt)
    let inMemory := (ofSetup (setup.searching .shared)).init.run fun _ => memory.enumerator
    inFiles.1 = inMemory.1 ∧ inFiles.2.SameAnswers inMemory.2 := by
  -- A start depends on the candidates and on the messages of each of them.
  intro memory inFiles inMemory
  refine init_searching_congr (Setup.outcome_load_searching ?_ ?_)
  · -- The directory has the same files in both, so the same locales are found.
    have listed : (enumerator rootAt roots).list (setup.loader.pattern.directory setup.source) =
        memory.enumerator.list (setup.loader.pattern.directory setup.source) :=
      list_eq distinct sound collected (relative _ List.mem_cons_self) (follows _ List.mem_cons_self) clear
    rw [Setup.outcome_candidateLocales, Setup.outcome_candidateLocales]
    exact congrArg (fun answer => if setup.configured.isSome then _ else (Except.mapError _ answer).map _) listed
  · -- Each of them has the same copies in both.
    intro candidates found locale member
    have among := Setup.eq_candidatesAmong found
    have asked : setup.loader.resourceName setup.source locale ∈ setup.pathsIn memory :=
      List.mem_cons_of_mem _ (List.mem_map_of_mem (among ▸ member))
    exact Loader.outcome_loadMerged_searching (Enumerator.keepsNames_directories rootAt roots)
      (Enumerator.keepsNames_memory memory)
      (copies_eq distinct sound collected (relative _ asked) (follows _ asked))

/-- English texts below one root and English and French ones below another one, with files that are not asked for. -/
def twoRoots : Roots
  -- Neither the file in a directory further down nor the one beside the messages belongs to a locale.
  | "one" => .ok (.directory [
      ("m", .directory [("en", .file "a=1".toUTF8), ("deep", .directory [("fr", .file "a=5".toUTF8)])]),
      ("notes", .file "b=6".toUTF8)])
  | "two" => .ok (.directory [("m", .directory [("fr", .file "b=4".toUTF8), ("en", .file "b=2".toUTF8)])])
  | _ => .error .missing

/-- The files below two roots as copies, where those of the second one come in another order. -/
def filesOfTwoRoots : List (ResourceId × ByteArray) := [
  (⟨"one", "m/en"⟩, "a=1".toUTF8), (⟨"one", "m/deep/fr"⟩, "a=5".toUTF8), (⟨"one", "notes"⟩, "b=6".toUTF8),
  (⟨"two", "m/en"⟩, "b=2".toUTF8), (⟨"two", "m/fr"⟩, "b=4".toUTF8)]

/-- A setup that finds its locales in a directory of files named by locale only. -/
def discovering : Setup := ⟨"user", ⟨.shared, ⟨"m/\x7blocale\x7d"⟩, .utf8⟩, .english, none⟩

/-- A store that was started over memory with the files below two roots. -/
def startedInMemory : Except MessageError Unit × Store :=
  (ofSetup (discovering.searching .shared)).init.run fun _ =>
    (MemoryResources.empty.insertAll filesOfTwoRoots).enumerator

/-- French is found below the second root, also when the store is over the roots and passes over a missing one. -/
theorem two_roots_mirrored :
    let roots := ["one", "gone", "two"]
    let inFiles := (ofSetup (discovering.searching (.directories roots))).init.run (holdings twoRoots)
    startedInMemory.2.supportedLocales = [.english, Setup.french] ∧
      startedInMemory.2.lookup "b" Setup.french [] = some "4" ∧ inFiles.1 = startedInMemory.1 ∧
        inFiles.2.SameAnswers startedInMemory.2 := by
  intro roots inFiles
  have supported : startedInMemory.2.supportedLocales = [.english, Setup.french] := by cbv
  have own : startedInMemory.2.lookup "b" Setup.french [] = some "4" := by cbv
  have asked : discovering.pathsIn (MemoryResources.empty.insertAll filesOfTwoRoots) =
      ["m", "m/en", "m/en", "m/fr"] := by cbv
  have proper : ∀ path ∈ ["m", "m/en", "m/en", "m/fr"], IsRelative path ∧ IsWithinLimits path := by decide
  have formed : ∀ root tree, twoRoots root = .ok tree → tree.IsWellFormed := by
    have plain := @IsWellFormed.file
    intro root tree found
    unfold twoRoots at found
    split at found <;> cases found <;> simp +decide [isWellFormed_directory_iff, plain]
  have sound : ∀ root ∈ roots, IsRoot twoRoots root :=
    List.forall_mem_cons.mpr ⟨.existing rfl (formed "one" _ rfl), List.forall_mem_cons.mpr
      ⟨.missing rfl, List.forall_mem_singleton.mpr (.existing rfl (formed "two" _ rfl))⟩⟩
  have collected : Collects twoRoots roots filesOfTwoRoots := by
    have one : (filesOfTwoRoots.take 3).Perm (copiesAt twoRoots "one") := .of_eq (by cbv)
    have gone : ([] : List (ResourceId × ByteArray)).Perm (copiesAt twoRoots "gone") := .of_eq (by cbv)
    -- The copies below the second root only change places.
    have two : (filesOfTwoRoots.drop 3).Perm (copiesAt twoRoots "two") := by
      have listed : copiesAt twoRoots "two" =
          [(⟨"two", "m/fr"⟩, "b=4".toUTF8), (⟨"two", "m/en"⟩, "b=2".toUTF8)] := by cbv
      rw [listed]
      exact .swap _ _ []
    exact .cons one (.cons gone (.cons two .nil))
  have clear : ∀ root ∈ roots, ∀ tree, twoRoots root = .ok tree → tree.IsOpenTo (namesOn "m") := by
    intro root _ tree found
    unfold twoRoots at found
    split at found <;> cases found <;> exact isOpenTo_of_descend rfl
  refine ⟨supported, own, memory_mirrors_directories (by decide) sound collected ?_ ?_ clear⟩
  · rw [asked]
    exact fun path member => (proper path member).1
  · rw [asked]
    exact fun path member _ _ tree _ =>
      followsNames_of_isWithinLimits (proper path member).1 (proper path member).2 tree

end Store

end MessageCatalogue
