import MessageCatalogue.Proofs.Resource.Recoding
import MessageCatalogue.Proofs.Store.Counterparts

/-! A store over files in ISO 8859-1 cannot be told from one over the same texts in UTF-8. -/

namespace MessageCatalogue

open Loading

namespace Setup

/-- A setup whose loader decodes resources in another encoding. -/
def encodedIn (setup : Setup) (encoding : Encoding) : Setup :=
  { setup with loader := setup.loader.encodedIn encoding }

/-- Setups load narrow texts alike, each from files in its own encoding. -/
theorem loadAlike_encodedIn {texts : Collection → Texts} (narrow : ∀ collection, (texts collection).AreNarrow)
    (setup : Setup) (one other : Encoding) :
    LoadAlike (Texts.filed one texts) (Texts.filed other texts) (setup.encodedIn one) (setup.encodedIn other) where
  source := rfl
  defaultLocale := rfl
  resourceName := fun _ => rfl
  candidates := by
    obtain ⟨source, loader, default, configured⟩ := setup
    -- Configured locales are not looked for, and listing files decodes nothing.
    cases configured with
    | some locales => rfl
    | none => exact Loader.outcome_discoverLocales_encodedIn loader one other source
  messages := Loader.outcome_loadMerged_encodedIn narrow setup.loader one other setup.source

end Setup

namespace Store

open Text (IsNarrow)

/-- Calls that each meet texts of their own, which files hold in an encoding. -/
def inFiles (encoding : Encoding) (session : List ((Collection → Texts) × Call)) : List (Holdings × Call) :=
  session.map fun (texts, call) => (Texts.filed encoding texts, call)

/--
Narrow texts are read back from ISO 8859-1 and all texts from UTF-8, in which other bytes are refused.

So whatever a store is asked to do while the texts are edited, its replies and then its answers are the same over
files in either encoding.
-/
theorem encodings_agree :
    (∀ text, IsNarrow text → Encoding.latin1.decode (Encoding.latin1.encode text) = .ok text) ∧
    (∀ text, Encoding.utf8.decode (Encoding.utf8.encode text) = .ok text) ∧
    (∀ bytes, (∀ text, Encoding.utf8.encode text ≠ bytes) →
      ∃ malformed, Encoding.utf8.decode bytes = .error malformed) ∧
    ∀ (setup : Setup) (session : List ((Collection → Texts) × Call)),
      (∀ step ∈ session, ∀ collection, (step.1 collection).AreNarrow) →
      let store := fun encoding : Encoding => ofSetup (setup.encodedIn encoding)
      (store .latin1).replies (inFiles .latin1 session) = (store .utf8).replies (inFiles .utf8 session) ∧
        ((store .latin1).afterCalls (inFiles .latin1 session)).SameAnswers
          ((store .utf8).afterCalls (inFiles .utf8 session)) := by
  refine ⟨fun text => Encoding.decode_encode_latin1, Encoding.decode_encode_utf8,
    fun bytes => Encoding.decode_utf8_eq_error, ?_⟩
  intro setup session narrow store
  -- At every step, both stores find the texts of the moment.
  have alike : ∀ step ∈ session, (setup.encodedIn .latin1).LoadAlike (Texts.filed .latin1 step.1)
      (Texts.filed .utf8 step.1) (setup.encodedIn .utf8) := fun step member =>
    Setup.loadAlike_encodedIn (narrow step member) setup .latin1 .utf8
  have stores := Counterparts.ofSetup (setup.encodedIn .latin1) (setup.encodedIn .utf8)
  obtain ⟨replies, finished⟩ := stores.calls (Texts.filed .latin1) (Texts.filed .utf8) alike
  exact ⟨replies, finished.sameAnswers ⟨rfl, rfl, fun _ => rfl⟩⟩

open Directories

/-- A file of English texts in an encoding, alone below every root. -/
def menu (encoding : Encoding) (text : String) : Roots := fun _ =>
  .ok (.directory [("en", .file (encoding.encode text))])

/-- A setup whose resources are named by locale only and lie below one root. -/
def ofMenu : Setup := ⟨"menu", ⟨.directories ["root"], ⟨"\x7blocale\x7d"⟩, .utf8⟩, .english, none⟩

/-- A start over one menu and a reload once there is another one, both behind white space of two bytes in UTF-8. -/
def menuCalls (encoding : Encoding) : List (Holdings × Call) := [
  (holdings (menu encoding "\u0085a=café"), .init),
  (holdings (menu encoding "\u00a0a=thé"), .reload (.ofList ["en"]))]

theorem filed_menu (encoding : Encoding) (text : String) :
    Texts.filed encoding (Texts.below (menu .utf8 text)) = holdings (menu encoding text) := by
  have same : recode (encoding.encode ∘ Texts.ofUtf8) (menu .utf8 text) = menu encoding text := by
    refine funext fun root => ?_
    show Except.ok (FileTree.directory [("en", .file (encoding.encode (Texts.ofUtf8 (Encoding.utf8.encode text))))]) = _
    rw [Texts.ofUtf8_encode]
    rfl
  rw [Texts.filed_below, same]

theorem areNarrow_menu {text : String} (narrow : IsNarrow text) (collection : Collection) :
    (Texts.below (menu .utf8 text) collection).AreNarrow := by
  refine Texts.areNarrow_below _ (fun root tree there file inside => ?_) collection
  cases there
  -- There is only one file.
  obtain rfl := List.mem_singleton.mp inside
  rw [Texts.ofUtf8_encode]
  exact narrow

/-- The menus are served alike from both encodings, and the second one is served in the end. -/
theorem menus_agree :
    let store := fun encoding : Encoding => ofSetup (ofMenu.encodedIn encoding)
    ((store .latin1).afterCalls (menuCalls .latin1)).lookup "a" .english [] = some "thé" ∧
      (store .latin1).replies (menuCalls .latin1) = (store .utf8).replies (menuCalls .utf8) ∧
        ((store .latin1).afterCalls (menuCalls .latin1)).SameAnswers
          ((store .utf8).afterCalls (menuCalls .utf8)) := by
  -- The calls over files are those over texts, and the texts are narrow enough for both encodings.
  intro store
  have served : ((ofSetup (ofMenu.encodedIn .latin1)).afterCalls (menuCalls .latin1)).lookup "a" .english [] =
      some "thé" := by cbv
  let session : List ((Collection → Texts) × Call) := [
    (Texts.below (menu .utf8 "\u0085a=café"), .init),
    (Texts.below (menu .utf8 "\u00a0a=thé"), .reload (.ofList ["en"]))]
  have met : ∀ encoding, inFiles encoding session = menuCalls encoding := by
    intro encoding
    show [(Texts.filed _ _, _), (Texts.filed _ _, _)] = menuCalls encoding
    rw [filed_menu, filed_menu]
    rfl
  have first : IsNarrow "\u0085a=café" := by simp [IsNarrow]
  have second : IsNarrow "\u00a0a=thé" := by simp [IsNarrow]
  have narrow : ∀ step ∈ session, ∀ collection, (step.1 collection).AreNarrow :=
    List.forall_mem_cons.mpr ⟨areNarrow_menu first, List.forall_mem_singleton.mpr (areNarrow_menu second)⟩
  have agree := encodings_agree.2.2.2 ofMenu session narrow
  rw [met, met] at agree
  exact ⟨served, agree⟩

end Store

end MessageCatalogue
