import MessageCatalogue.Proofs.Source.FanOut

/-! An initialization attempts every store in order, tells of all that failed and can be made again. -/

namespace MessageCatalogue

open Fetch

/-- The initialization of the store under a number, with the exchanges that it had and its result. -/
structure Attempt where
  key : StoreKey
  exchanges : List Exchange
  result : Except MessageError Unit

/-- The errors of an attempt, which are none when it succeeded. -/
def Attempt.errors (attempt : Attempt) : List MessageError :=
  match attempt.result with
  | .ok _ => []
  | .error error => [error]

/-- Attempts one after the other, each of them at a store of the registry that those before it left. -/
inductive Round : Registry → List Attempt → Registry → Prop where
  | nil (registry : Registry) : Round registry [] registry
  | cons {registry after : Registry} {attempt : Attempt} {later : List Attempt} {store : Store}
      (own : Transcript (registry.store attempt.key).init attempt.exchanges (attempt.result, store))
      (onward : Round (registry.set attempt.key store) later after) : Round registry (attempt :: later) after

namespace Store

variable {store after : Store} {exchanges : List Exchange} {result : Except MessageError Unit}

namespace Initialization

/-- A store is initialized behind an attempt exactly when it was before or the attempt succeeded. -/
theorem isInitialized_iff (initialization : Initialization store exchanges result after) :
    after.isInitialized ↔ store.isInitialized ∨ result = .ok () := by
  cases initialization with
  | again serving => simp [isInitialized, snapshot?, serving]
  | destroyed lifecycle => simp
  | failed lifecycle loading => simp
  | loaded lifecycle loading => simp [isInitialized, snapshot?]

/-- Only a store that was never initialized makes requests or changes. -/
theorem still_of_ne (initialization : Initialization store exchanges result after)
    (begun : store.lifecycle ≠ .uninitialized) : exchanges = [] ∧ after = store := by
  cases initialization with
  | again serving => exact ⟨rfl, rfl⟩
  | destroyed lifecycle => exact ⟨rfl, rfl⟩
  | failed lifecycle loading => exact absurd lifecycle begun
  | loaded lifecycle loading => exact absurd lifecycle begun

end Initialization

/-- A store that is initialized has begun its life. -/
theorem lifecycle_ne_of_isInitialized (initialized : store.isInitialized) : store.lifecycle ≠ .uninitialized := by
  intro lifecycle
  simp [isInitialized, snapshot?, lifecycle] at initialized

end Store

/-- What an initialization made of a store is found under the number of the store. -/
theorem Registry.store_set_of_init {registry : Registry} {key : StoreKey} {exchanges : List Exchange}
    {result : Except MessageError Unit} {store : Store}
    (transcript : Transcript (registry.store key).init exchanges (result, store)) :
    (registry.set key store).store key = store := by
  -- A key may stand for no store at all, in which case nothing can be kept under it.
  by_cases kept : key < registry.stores.length
  · exact registry.store_set_self kept store
  · -- What stands for an absent store is destroyed, so it stays as it is.
    have absent : registry.store key = Store.absent := by
      simp [Registry.store, List.getElem?_eq_none (Nat.le_of_not_lt kept)]
    have begun : (registry.store key).lifecycle ≠ .uninitialized := by
      rw [absent]
      intro impossible
      cases impossible
    obtain ⟨_, rfl⟩ := (Store.initialization_of_transcript transcript).still_of_ne begun
    rw [registry.set_store]

namespace Round

variable {before middle after : Registry} {attempts earlier later : List Attempt}

/-- Two rounds in a row are one. -/
theorem append (one : Round before earlier middle) (other : Round middle later after) :
    Round before (earlier ++ later) after := by
  induction one with
  | nil => exact other
  | cons own onward ih => exact .cons own (ih other)

/-- A round leaves alone what it does not attempt. -/
theorem store_eq (round : Round before attempts after) {key : StoreKey} (left : key ∉ attempts.map (·.key)) :
    after.store key = before.store key := by
  induction round with
  | nil => rfl
  | @cons registry _ attempt _ store own onward ih =>
    rw [List.map_cons, List.mem_cons, not_or] at left
    rw [ih left.2, registry.store_set_of_ne left.1]

/-- In a round that comes to no store twice, each attempt is at a store as it was and leaves it as it is in the end. -/
theorem transcript_of_mem (round : Round before attempts after) (distinct : (attempts.map (·.key)).Nodup) :
    ∀ attempt ∈ attempts,
      Transcript (before.store attempt.key).init attempt.exchanges (attempt.result, after.store attempt.key) := by
  -- The first attempt is not undone by later ones, and those find their stores untouched by it.
  induction round with
  | nil => simp
  | @cons registry after attempt later store own onward ih =>
    rw [List.map_cons, List.nodup_cons] at distinct
    obtain ⟨once, distinct⟩ := distinct
    refine List.forall_mem_cons.mpr ⟨?_, fun other member => ?_⟩
    · rwa [onward.store_eq once, Registry.store_set_of_init own]
    · have elsewhere : other.key ≠ attempt.key := fun same => once (same ▸ List.mem_map_of_mem member)
      have found := ih distinct other member
      rwa [registry.store_set_of_ne elsewhere] at found

end Round

/-- A result tells of some errors when it is an error that stands for them or, without any, a success. -/
def Tells (errors : List MessageError) : Except MessageError Unit → Prop
  | .ok _ => errors = []
  | .error error => error.IsGrouped ∧ error.leaves = errors

/-- A result that tells of some errors is a success exactly when there are none. -/
theorem Tells.eq_ok_iff {errors : List MessageError} {result : Except MessageError Unit}
    (tells : Tells errors result) : result = .ok () ↔ errors = [] := by
  cases result with
  | ok value => exact iff_of_true rfl tells
  | error error =>
    obtain ⟨grouped, rfl⟩ := tells
    simp [grouped.leaves_ne_nil]

namespace Source

/-- Errors that were gathered on the way are told of by the result that is made of them. -/
theorem tells_unlessErrors {errors leaves : List MessageError} (grouped : ∀ error ∈ errors, error.IsGrouped)
    (gathered : errors.flatMap (·.leaves) = leaves) : Tells leaves (unlessErrors () errors) := by
  unfold unlessErrors
  cases combined : MessageError.combined? errors with
  | none => rw [Tells, ← gathered, MessageError.combined?_eq_none_iff.mp combined, List.flatMap_nil]
  | some error =>
    exact ⟨MessageError.isGrouped_of_combined grouped combined,
      (MessageError.leaves_of_combined combined).trans gathered⟩

/-- The result of an attempt tells of its own error. -/
theorem tells_of_initialization {store after : Store} {attempt : Attempt}
    (initialization : store.Initialization attempt.exchanges attempt.result after) :
    Tells attempt.errors attempt.result := by
  obtain ⟨key, exchanges, result⟩ := attempt
  cases result with
  | ok value => rfl
  | error error =>
    have single : error.isAggregate = false := initialization.single
    exact ⟨.single single, MessageError.leaves_of_single single⟩

/-- An error that tells of earlier attempts is put in front of those gathered later, and a success adds none. -/
theorem gathered_withError {own leaves errors : List MessageError} {result : Except MessageError Unit}
    (tells : Tells own result) (grouped : ∀ error ∈ errors, error.IsGrouped)
    (gathered : errors.flatMap (·.leaves) = leaves) :
    (∀ error ∈ withError result errors, error.IsGrouped) ∧
      (withError result errors).flatMap (·.leaves) = own ++ leaves := by
  -- Only a failure adds to what was gathered.
  cases result with
  | ok value =>
    obtain rfl : own = [] := tells
    exact ⟨grouped, gathered⟩
  | error error =>
    obtain ⟨first, same⟩ := tells
    exact ⟨List.forall_mem_cons.mpr ⟨first, grouped⟩, by rw [withError, List.flatMap_cons, same, gathered]⟩

mutual

/-- The initialization of a source is a round through its stores, and its result tells of what failed in it. -/
theorem round_of_init (source : Source) {registry after : Registry} {exchanges : List Exchange}
    {result : Except MessageError Unit} (transcript : Transcript (init source registry) exchanges (result, after)) :
    ∃ attempts : List Attempt, attempts.map (·.key) = leaves source ∧
      exchanges = attempts.flatMap (·.exchanges) ∧ Round registry attempts after ∧
      Tells (attempts.flatMap (·.errors)) result := by
  cases source with
  | store key =>
    -- The store that comes out of the attempt is put back in its place.
    rw [init] at transcript
    obtain ⟨earlier, later, ⟨own, store⟩, rfl, before, last⟩ := transcript_bind.mp transcript
    obtain ⟨rfl, rfl, rfl⟩ := transcript_done_mk.mp last
    let attempt : Attempt := ⟨key, earlier, result⟩
    have tells : Tells attempt.errors attempt.result :=
      tells_of_initialization (Store.initialization_of_transcript before)
    exact ⟨[attempt], rfl, by simp [attempt], .cons before (.nil _), by simpa using tells⟩
  | silent locale =>
    rw [init] at transcript
    obtain ⟨rfl, rfl, rfl⟩ := transcript_done_mk.mp transcript
    exact ⟨[], rfl, rfl, .nil _, rfl⟩
  | composite name resolver common members =>
    rw [init] at transcript
    obtain ⟨earlier, later, ⟨errors, finished⟩, rfl, before, last⟩ := transcript_bind.mp transcript
    obtain ⟨rfl, rfl, rfl⟩ := transcript_done_mk.mp last
    obtain ⟨attempts, keys, asked, round, grouped, gathered⟩ := round_of_initAll members before
    exact ⟨attempts, by rw [keys, leaves], by rw [asked, List.append_nil], round, tells_unlessErrors grouped gathered⟩
termination_by sizeOf source

/-- The initialization of several sources is a round through the stores of each of them. -/
theorem round_of_initAll (members : List Source) {registry after : Registry} {exchanges : List Exchange}
    {errors : List MessageError} (transcript : Transcript (initAll members registry) exchanges (errors, after)) :
    ∃ attempts : List Attempt, attempts.map (·.key) = leavesOfAll members ∧
      exchanges = attempts.flatMap (·.exchanges) ∧ Round registry attempts after ∧
      (∀ error ∈ errors, error.IsGrouped) ∧ errors.flatMap (·.leaves) = attempts.flatMap (·.errors) := by
  cases members with
  | nil =>
    rw [initAll] at transcript
    obtain ⟨rfl, rfl, rfl⟩ := transcript_done_mk.mp transcript
    exact ⟨[], rfl, rfl, .nil _, by simp, rfl⟩
  | cons first rest =>
    -- The other members are attempted whether or not the first one failed.
    rw [initAll] at transcript
    obtain ⟨earlier, later, ⟨result, initialized⟩, rfl, before, last⟩ := transcript_bind.mp transcript
    obtain ⟨middle, ended, ⟨failures, finished⟩, rfl, between, last⟩ := transcript_bind.mp last
    obtain ⟨rfl, rfl, rfl⟩ := transcript_done_mk.mp last
    obtain ⟨attempts, keys, asked, round, tells⟩ := round_of_init first before
    obtain ⟨more, moreKeys, moreAsked, onward, grouped, gathered⟩ := round_of_initAll rest between
    obtain ⟨allGrouped, allGathered⟩ := gathered_withError tells grouped gathered
    refine ⟨attempts ++ more, ?_, ?_, round.append onward, allGrouped, ?_⟩
    · rw [List.map_append, keys, moreKeys, leavesOfAll]
    · rw [asked, moreAsked, List.append_nil, List.flatMap_append]
    · rw [allGathered, List.flatMap_append]
termination_by sizeOf members

end

/-- Attempts of which none has an error are those that all succeeded. -/
theorem flatMap_errors_eq_nil_iff {attempts : List Attempt} :
    attempts.flatMap (·.errors) = [] ↔ ∀ attempt ∈ attempts, attempt.result = .ok () := by
  rw [List.flatMap_eq_nil_iff]
  refine forall₂_congr fun attempt member => ?_
  unfold Attempt.errors
  cases attempt.result <;> simp

/--
The initialization of a composite attempts each of its stores once and in order, whichever of them fail.

Each attempt goes as the initialization of its store by itself would go. The result tells of all that failed, and what
is initialized already stays as it is. An initialization that is made again asks for something only where a store is
still uninitialized.
-/
theorem initialization_attempts_every_store {name : String} {resolver : Option LocaleResolver}
    {common : Option String} {members : List Source} {registry after : Registry} {exchanges : List Exchange}
    {result : Except MessageError Unit} (distinct : (leavesOfAll members).Nodup)
    (transcript : Transcript (init (.composite name resolver common members) registry) exchanges (result, after)) :
    ∃ attempts : List Attempt, attempts.map (·.key) = leavesOfAll members ∧
      exchanges = attempts.flatMap (·.exchanges) ∧ Round registry attempts after ∧
      (∀ attempt ∈ attempts,
        Transcript (registry.store attempt.key).init attempt.exchanges (attempt.result, after.store attempt.key) ∧
        ((after.store attempt.key).isInitialized ↔
          (registry.store attempt.key).isInitialized ∨ attempt.result = .ok ())) ∧
      (∀ key, (registry.store key).isInitialized ∨ key ∉ leavesOfAll members →
        after.store key = registry.store key) ∧
      (result = .ok () ↔ ∀ attempt ∈ attempts, attempt.result = .ok ()) ∧
      (∀ error, result = .error error → error.IsGrouped ∧ error.leaves = attempts.flatMap (·.errors)) ∧
      ∀ again retried finished,
        Transcript (init (.composite name resolver common members) after) again (retried, finished) →
        ∃ retries : List Attempt, retries.map (·.key) = leavesOfAll members ∧
          again = retries.flatMap (·.exchanges) ∧ ∀ retry ∈ retries,
            Transcript (after.store retry.key).init retry.exchanges (retry.result, finished.store retry.key) ∧
            (retry.exchanges ≠ [] → (after.store retry.key).lifecycle = .uninitialized) := by
  -- The attempts are those of one round, in which every store comes up once.
  obtain ⟨attempts, keys, asked, round, tells⟩ := round_of_init _ transcript
  rw [leaves] at keys
  have each := round.transcript_of_mem (keys ▸ distinct)
  refine ⟨attempts, keys, asked, round, ?_, ?_, tells.eq_ok_iff.trans flatMap_errors_eq_nil_iff, ?_, ?_⟩
  -- The attempt on a store is its own initialization, as no other attempt has touched it before.
  · intro attempt member
    have own := each attempt member
    exact ⟨own, (Store.initialization_of_transcript own).isInitialized_iff⟩
  · intro key still
    by_cases member : key ∈ leavesOfAll members
    · -- A store that is attempted although it is initialized is left alone by the attempt.
      obtain ⟨attempt, found, rfl⟩ := List.mem_map.mp (keys ▸ member)
      have begun := Store.lifecycle_ne_of_isInitialized (still.resolve_right (not_not_intro member))
      exact ((Store.initialization_of_transcript (each attempt found)).still_of_ne begun).2
    · exact round.store_eq (keys ▸ member)
  -- The errors are gathered in the order of the attempts.
  · rintro error rfl
    exact tells
  -- A second round finds the stores as the first one left them.
  · intro again retried finished repeated
    obtain ⟨retries, retriedKeys, askedAgain, second, _⟩ := round_of_init _ repeated
    rw [leaves] at retriedKeys
    refine ⟨retries, retriedKeys, askedAgain, fun retry member => ?_⟩
    have own := second.transcript_of_mem (retriedKeys ▸ distinct) retry member
    refine ⟨own, fun some => ?_⟩
    by_contra begun
    exact some ((Store.initialization_of_transcript own).still_of_ne begun).1

/-- A store that was never initialized, one that is destroyed and one that serves something, among others. -/
def unevenStores : Registry :=
  ⟨[.ofSetup (servingSetup "a"), .ofSetup (servingSetup "b"), (servingStore "c").destroy, servingStore "d",
    .ofSetup (servingSetup "a")], []⟩

/-- These stores in another order, three of them inside a composite. -/
def unevenMembers : List Source := [.store 3, .composite "inner" none none [.store 0, .store 2, .store 1], .store 4]

/-- Such members come to each of the stores once. -/
theorem leavesOfAll_unevenMembers : leavesOfAll unevenMembers = [3, 0, 2, 1, 4] := by cbv

/-- The initialization of these stores through a composite. -/
def unevenInit (registry : Registry) : Fetch (Except MessageError Unit × Registry) :=
  init (.composite "outer" none none unevenMembers) registry

/-- Stores behind failing ones are initialized, and only the failing ones that are left ask for anything again. -/
theorem uneven_stores_are_attempted_again :
    let unreadable := MessageError.load "a" .english "a_en" (.other "unavailable")
    let error := MessageError.aggregate [.aggregate [unreadable, .destroyed "c"], unreadable]
    ∃ exchanges after attempts, (unevenInit unevenStores).run partlyAvailable = (.error error, after) ∧
      (after.store 1).lookup "key" .english [] = some "value" ∧
      attempts.map Attempt.key = [3, 0, 2, 1, 4] ∧ exchanges = attempts.flatMap (·.exchanges) ∧
      Round unevenStores attempts after ∧ error.leaves = attempts.flatMap (·.errors) ∧
      ∃ retries : List Attempt, retries.map (·.key) = [3, 0, 2, 1, 4] ∧
        ((unevenInit after).recorded.run partlyAvailable).2 = retries.flatMap (·.exchanges) ∧
        ∀ retry ∈ retries, retry.exchanges ≠ [] → (after.store retry.key).lifecycle = .uninitialized := by
  intro unreadable error
  have failed : ((unevenInit unevenStores).run partlyAvailable).1 = .error error := by cbv
  have served : (((unevenInit unevenStores).run partlyAvailable).2.store 1).lookup "key" .english [] =
      some "value" := by cbv
  have distinct : (leavesOfAll unevenMembers).Nodup := by rw [leavesOfAll_unevenMembers]; decide
  -- The theorem is about any exchanges, and these are the ones of the holdings.
  have transcript := transcript_recorded partlyAvailable (unevenInit unevenStores)
  rw [← Prod.eta ((unevenInit unevenStores).run partlyAvailable), failed] at transcript
  obtain ⟨attempts, keys, asked, round, _, _, _, told, again⟩ := initialization_attempts_every_store distinct transcript
  have repeated := transcript_recorded partlyAvailable
    (unevenInit ((unevenInit unevenStores).run partlyAvailable).2)
  rw [← Prod.eta ((unevenInit ((unevenInit unevenStores).run partlyAvailable).2).run partlyAvailable)] at repeated
  obtain ⟨retries, retriedKeys, askedAgain, each⟩ := again _ _ _ repeated
  rw [leavesOfAll_unevenMembers] at keys retriedKeys
  have whole : (unevenInit unevenStores).run partlyAvailable =
      (.error error, ((unevenInit unevenStores).run partlyAvailable).2) := by rw [← failed, Prod.eta]
  refine ⟨_, _, attempts, whole, served, keys, asked, round, (told error rfl).2, ?_⟩
  exact ⟨retries, retriedKeys, askedAgain, fun retry member => (each retry member).2⟩

end Source

end MessageCatalogue
