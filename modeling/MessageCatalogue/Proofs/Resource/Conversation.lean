import MessageCatalogue.Proofs.Resource.Entries
import MessageCatalogue.Proofs.Resource.Transcript

/-! Loading is a conversation that goes on until a request is answered by a fault or a document is refused. -/

namespace MessageCatalogue

open Fetch

namespace Loading

variable {α β : Type} {exchanges : List Exchange}

/-- Two steps in a row end with the first one when it fails, and otherwise with the second one. -/
theorem transcript_bind_iff {first : Loading α} {continuation : α → Loading β} {result : Except MessageError β} :
    Transcript (first >>= continuation).run exchanges result ↔
      (∃ error, Transcript first.run exchanges (.error error) ∧ result = .error error) ∨
      ∃ earlier later value, exchanges = earlier ++ later ∧ Transcript first.run earlier (.ok value) ∧
        Transcript (continuation value).run later result := by
  rw [ExceptT.run_bind]
  constructor
  · intro transcript
    obtain ⟨earlier, later, middle, rfl, before, after⟩ := transcript_bind.mp transcript
    cases middle with
    | error error =>
      -- Nothing is asked for after an error.
      obtain ⟨rfl, same⟩ := transcript_done.mp after
      exact .inl ⟨error, by rwa [List.append_nil], same⟩
    | ok value => exact .inr ⟨earlier, later, value, rfl, before, after⟩
  · rintro (⟨error, before, rfl⟩ | ⟨earlier, later, value, rfl, before, after⟩)
    · exact transcript_bind.mpr ⟨exchanges, [], _, (List.append_nil _).symm, before, .done _⟩
    · exact transcript_bind.mpr ⟨earlier, later, _, rfl, before, after⟩

/-- A step that needs the answer to a request ends with the error for a fault, and otherwise it goes on. -/
theorem transcript_ofRequest_bind_iff {toError : ResourceFault → MessageError}
    {asked : Fetch (Except ResourceFault α)} {continuation : α → Loading β} {result : Except MessageError β} :
    Transcript (ofRequest toError asked >>= continuation).run exchanges result ↔
      (∃ fault, Transcript asked exchanges (.error fault) ∧ result = .error (toError fault)) ∨
      ∃ earlier later value, exchanges = earlier ++ later ∧ Transcript asked earlier (.ok value) ∧
        Transcript (continuation value).run later result := by
  -- The answer is passed on as it is, but for the account of a fault.
  have answered : ∀ {exchanges : List Exchange} {own : Except MessageError α},
      Transcript (ofRequest toError asked).run exchanges own ↔
        ∃ answer, Transcript asked exchanges answer ∧ own = answer.mapError toError := by
    intro exchanges own
    constructor
    · intro transcript
      obtain ⟨earlier, later, answer, rfl, before, after⟩ := transcript_bind.mp transcript
      obtain ⟨rfl, same⟩ := transcript_done.mp after
      exact ⟨answer, by rwa [List.append_nil], same⟩
    · rintro ⟨answer, before, rfl⟩
      exact transcript_bind.mpr ⟨exchanges, [], answer, (List.append_nil _).symm, before, .done _⟩
  rw [transcript_bind_iff]
  constructor
  · rintro (⟨error, before, rfl⟩ | ⟨earlier, later, value, rfl, before, after⟩)
    · obtain ⟨answer, asked, same⟩ := answered.mp before
      cases answer with
      | error fault => exact .inl ⟨fault, asked, by rw [Except.error.inj same]⟩
      | ok value => cases same
    · obtain ⟨answer, asked, same⟩ := answered.mp before
      cases answer with
      | error fault => cases same
      | ok own => exact .inr ⟨earlier, later, own, rfl, asked, Except.ok.inj same ▸ after⟩
  · rintro (⟨fault, asked, rfl⟩ | ⟨earlier, later, value, rfl, asked, after⟩)
    · exact .inl ⟨toError fault, answered.mpr ⟨_, asked, rfl⟩, rfl⟩
    · exact .inr ⟨earlier, later, value, rfl, answered.mpr ⟨_, asked, rfl⟩, after⟩

end Loading

namespace Loader

open Loading

variable {loader : Loader} {source : String} {locale : Locale} {exchanges : List Exchange}

/-- A document is interpreted by checking the codes of its entries. -/
theorem interpret_of_parse {id : ResourceId} {bytes : ByteArray} {text : String} {entries : List Properties.Entry}
    (decoded : loader.encoding.decode bytes = .ok text) (parsed : Properties.parse text = .ok entries) :
    loader.interpret source locale id bytes = (checkCodes source id entries).map fun _ => ⟨id, entries⟩ := by
  unfold interpret
  rw [decoded]
  simp only [Except.mapError, Bind.bind, Except.bind, parsed]
  cases checkCodes source id entries <;> rfl

/-- A resource either cannot be read or is interpreted. -/
theorem transcript_loadOne {id : ResourceId} {result : Except MessageError LoadedResource}
    (transcript : Transcript (loader.loadOne source locale id).run exchanges result) :
    (∃ fault, exchanges = [⟨loader.collection, .read id, .error fault⟩] ∧
      result = .error (.load source locale id.text fault)) ∨
    ∃ bytes, exchanges = [⟨loader.collection, .read id, .ok bytes⟩] ∧
      result = loader.interpret source locale id bytes := by
  -- Reading is the only request, and the interpretation of what was read makes none.
  rcases transcript_ofRequest_bind_iff.mp transcript with
    ⟨fault, asked, rfl⟩ | ⟨earlier, later, bytes, rfl, asked, after⟩
  · exact .inl ⟨fault, transcript_request.mp asked, rfl⟩
  · -- Nothing is asked for after the bytes are there.
    obtain ⟨rfl, rfl⟩ := transcript_done.mp after
    exact .inr ⟨bytes, by rw [transcript_request.mp asked, List.append_nil], rfl⟩

/-- Resources are loaded after the first one is, unless that fails. -/
theorem transcript_loadEach_cons {id : ResourceId} {rest : List ResourceId}
    {result : Except MessageError (List LoadedResource)}
    (transcript : Transcript (loader.loadEach source locale (id :: rest)).run exchanges result) :
    (∃ error, Transcript (loader.loadOne source locale id).run exchanges (.error error) ∧ result = .error error) ∨
    ∃ earlier later resource others, exchanges = earlier ++ later ∧
      Transcript (loader.loadOne source locale id).run earlier (.ok resource) ∧
      Transcript (loader.loadEach source locale rest).run later others ∧ result = others.map (resource :: ·) := by
  -- The first resource is loaded before anything is asked about the others.
  rcases transcript_bind_iff.mp transcript with failed | ⟨earlier, later, resource, rfl, own, onward⟩
  · exact .inl failed
  · refine .inr ⟨earlier, later, resource, ?_⟩
    rcases transcript_bind_iff.mp onward with ⟨error, others, rfl⟩ | ⟨whole, none, others, rfl, loaded, done⟩
    · exact ⟨_, rfl, own, others, rfl⟩
    · obtain ⟨rfl, rfl⟩ := transcript_done.mp done
      exact ⟨_, rfl, own, by rwa [List.append_nil], rfl⟩

/-- The resources of a locale either cannot be found or are loaded one after the other. -/
theorem transcript_loadAll {result : Except MessageError (List LoadedResource)}
    (transcript : Transcript (loader.loadAll source locale).run exchanges result) :
    (∃ fault, exchanges = [⟨loader.collection, .resources (loader.resourceName source locale), .error fault⟩] ∧
      result = .error (.load source locale (loader.resourceName source locale) fault)) ∨
    ∃ ids later, exchanges = ⟨loader.collection, .resources (loader.resourceName source locale), .ok ids⟩ :: later ∧
      Transcript (loader.loadEach source locale ids).run later result := by
  -- The search is one request, and its answer says which resources are loaded.
  rcases transcript_ofRequest_bind_iff.mp transcript with
    ⟨fault, asked, rfl⟩ | ⟨earlier, later, ids, rfl, asked, after⟩
  · exact .inl ⟨fault, transcript_request.mp asked, rfl⟩
  · exact .inr ⟨ids, later, by rw [transcript_request.mp asked, List.singleton_append], after⟩

/-- The locales of a source either cannot be looked for or are those that the file names reveal. -/
theorem transcript_discoverLocales {result : Except MessageError (List Locale)}
    (transcript : Transcript (loader.discoverLocales source).run exchanges result) :
    (∃ fault, exchanges = [⟨loader.collection, .list (loader.pattern.directory source), .error fault⟩] ∧
      result = .error (.discovery source (loader.pattern.directory source) fault)) ∨
    ∃ files, exchanges = [⟨loader.collection, .list (loader.pattern.directory source), .ok files⟩] ∧
      result = .ok (loader.localesOfFiles source files) := by
  -- The listing is the only request.
  rcases transcript_ofRequest_bind_iff.mp transcript with
    ⟨fault, asked, rfl⟩ | ⟨earlier, later, files, rfl, asked, after⟩
  · exact .inl ⟨fault, transcript_request.mp asked, rfl⟩
  · -- Nothing is asked for after the file names are there.
    obtain ⟨rfl, rfl⟩ := transcript_done.mp after
    exact .inr ⟨files, by rw [transcript_request.mp asked, List.append_nil], rfl⟩

end Loader

end MessageCatalogue
