import MessageCatalogue.Proofs.Store.Lifecycle
import MessageCatalogue.Proofs.Store.Renewal

/-! A reload loads again what its event and those of its listeners name, each of them once and in whatever order. -/

namespace MessageCatalogue

open Fetch Loading

namespace Setup

variable {setup : Setup} {holdings : Holdings} {current middle next other : Layers} {event : ChangeEvent}
  {wanted further : ChangeEvent → Prop}

/-- Layers come out of others by loading again what those of some events name that can be loaded. -/
def Settles (setup : Setup) (holdings : Holdings) (wanted : ChangeEvent → Prop) (current next : Layers) : Prop :=
  ∃ events, next = setup.renewed holdings events current ∧ ∀ locale, setup.touches events locale = true ↔
    ∃ event, wanted event ∧ setup.Renewable holdings current [event] ∧ setup.touches [event] locale = true

/-- What those of some events touch that can be loaded decides what comes out of layers. -/
theorem Settles.unique (settles : setup.Settles holdings wanted current next)
    (others : setup.Settles holdings further current other)
    (same : ∀ locale, (∃ event, wanted event ∧ setup.Renewable holdings current [event] ∧
        setup.touches [event] locale = true) ↔
      ∃ event, further event ∧ setup.Renewable holdings current [event] ∧ setup.touches [event] locale = true) :
    next = other := by
  -- The layers that come out depend on which locales are touched, and on nothing else about the events.
  obtain ⟨events, rfl, touched⟩ := settles
  obtain ⟨more, rfl, alike⟩ := others
  refine congrFun (renewed_congr (funext fun locale => ?_)) current
  rw [Bool.eq_iff_iff, touched, alike, same]

/-- Without an event, layers stay. -/
theorem settles_of_none (none : ∀ event, ¬ wanted event) : setup.Settles holdings wanted current current := by
  refine ⟨[], (renewed_eq_self fun _ _ => rfl).2.symm, fun locale => ?_⟩
  constructor
  · intro impossible
    cases impossible
  · rintro ⟨event, listed, _⟩
    exact absurd listed (none event)

/-- Some events may come after others. -/
theorem Settles.trans (settles : setup.Settles holdings wanted current middle)
    (onward : setup.Settles holdings further middle next) :
    setup.Settles holdings (fun event => wanted event ∨ further event) current next := by
  obtain ⟨events, rfl, touched⟩ := settles
  obtain ⟨others, rfl, more⟩ := onward
  refine ⟨events ++ others, renewed_renewed, fun locale => ?_⟩
  -- What could be loaded at first can be loaded still.
  simp only [renewable_renewed] at more
  rw [touches_append, Bool.or_eq_true, touched, more, ← exists_or]
  simp only [or_and_right]

/-- What comes of the events does not depend on how they are given. -/
theorem Settles.congr (settles : setup.Settles holdings wanted current next)
    (same : ∀ event, wanted event ↔ further event) : setup.Settles holdings further current next := by
  obtain ⟨events, rfl, touched⟩ := settles
  exact ⟨events, rfl, fun locale => by simp only [touched, same]⟩

/-- What can be loaded does not change while the resources stay as they are. -/
theorem Settles.renewable_iff (settles : setup.Settles holdings wanted current next) {events : List ChangeEvent} :
    setup.Renewable holdings next events ↔ setup.Renewable holdings current events := by
  obtain ⟨_, rfl, _⟩ := settles
  exact renewable_renewed

/-- An event affects the locales of a snapshot as it did before anything was loaded again. -/
theorem Settles.affected_iff (settles : setup.Settles holdings wanted current next) (named : current.AreNamed setup)
    (renamed : next.AreNamed setup) : setup.affectedLocales (setup.snapshot next) event = [] ↔
      setup.affectedLocales (setup.snapshot current) event = [] := by
  obtain ⟨_, rfl, _⟩ := settles
  rw [affectedLocales_eq_nil_iff_touches renamed, affectedLocales_eq_nil_iff_touches named, keys_renewed]

/-- What a publication comes to while the resources stay as they are, with the layers that are served then. -/
inductive Refreshes (setup : Setup) (holdings : Holdings) (current : Layers) (event : ChangeEvent) :
    Except MessageError (Option Notice) → Layers → Prop where
  | unaffected (nothing : setup.affectedLocales (setup.snapshot current) event = []) :
      Refreshes setup holdings current event (.ok none) current
  | failed (affected : setup.affectedLocales (setup.snapshot current) event ≠ [])
      (unable : ¬ setup.Renewable holdings current [event]) (error : MessageError) :
      Refreshes setup holdings current event (.error error) current
  | renewed (affected : setup.affectedLocales (setup.snapshot current) event ≠ [])
      (able : setup.Renewable holdings current [event]) :
      Refreshes setup holdings current event (.ok (some (setup.noticeOf (setup.snapshot current) event)))
        (setup.renewed holdings [event] current)

/-- Whatever a publication comes to, its event is taken care of if that can be done. -/
theorem Refreshes.settles {result : Except MessageError (Option Notice)}
    (refreshes : setup.Refreshes holdings current event result next) (named : current.AreNamed setup) :
    setup.Settles holdings (· = event) current next := by
  -- A failed publication leaves the layers, as if no event had been wanted.
  cases refreshes with
  | unaffected nothing =>
    obtain ⟨able, same⟩ : setup.Renewable holdings current [event] ∧ setup.renewed holdings [event] current = current :=
      renewed_eq_self ((affectedLocales_eq_nil_iff_touches named).mp nothing)
    exact ⟨[event], same.symm, by simp [able]⟩
  | failed affected unable error =>
    refine ⟨[], (renewed_eq_self fun _ _ => rfl).2.symm, ?_⟩
    simp [unable, touches]
  | renewed affected able => exact ⟨[event], rfl, by simp [able]⟩

end Setup

/-- A listener after it has used up its reload, if it has one. -/
def Listener.spent (listener : Listener) : Listener :=
  if listener.reaction.isReload then { listener with reaction := .record } else listener

/-- A listener has no reload left after it has used up what it has. -/
@[simp] theorem Listener.isReload_spent (listener : Listener) : listener.spent.reaction.isReload = false := by
  obtain ⟨tag, reaction⟩ := listener
  cases reaction <;> rfl

/-- A listener that has no reload left is the same after it has used up what it has. -/
theorem Listener.spent_eq_self {listener : Listener} (none : listener.reaction.isReload = false) :
    listener.spent = listener := by
  rw [spent, none, if_neg Bool.false_ne_true]

/-- Some listener is still to reload its store with an event. -/
def Pending (audience : List Listener) (event : ChangeEvent) : Prop :=
  ∃ listener ∈ audience, listener.reaction = .reloadOnce event

/-- The events with which listeners reload their store in their turns. -/
def Turns.events (turns : Turns) : List ChangeEvent := turns.reloads.map (·.opening.event)

/-- A store that serves some layers to its listeners. -/
abbrev Store.ofLayers (setup : Setup) (current : Layers) (listeners : List Listener) : Store :=
  ⟨setup, .initialized (setup.snapshot current), listeners⟩

/-- A store serves some layers to listeners none of whom would destroy it. -/
structure Scene.Lasts (setup : Setup) (current : Layers) (scene : Scene) : Prop where
  store : scene.store = .ofLayers setup current scene.audience
  lasting : ∀ listener ∈ scene.audience, listener.reaction ≠ .destroy
  named : current.AreNamed setup

variable {setup : Setup} {holdings : Holdings} {current : Layers}

/-- A store lasts when one of its listeners uses up a reload. -/
theorem Scene.Lasts.spend {scene : Scene} (lasts : scene.Lasts setup current) (position : Nat) :
    (scene.spend position).Lasts setup current where
  store := by simp only [Scene.spend, Store.spend, lasts.store]
  lasting := fun _ member destroys => lasts.lasting _ (Scene.destroyers_spend member destroys) destroys
  named := lasts.named

/-- A publication of an initialized store refreshes its layers while the resources stay as they are. -/
theorem Opening.Begins.refreshes {opening : Opening} {exchanges : List Exchange} {listeners : List Listener}
    (begins : opening.Begins exchanges) (keep : ∀ collection, (holdings collection).KeepsNames)
    (each : ∀ exchange ∈ exchanges, exchange.IsFrom holdings)
    (met : opening.met = .ofLayers setup current listeners) (named : current.AreNamed setup) :
    ∃ next, opening.published = .ofLayers setup next listeners ∧ next.AreNamed setup ∧
      setup.Refreshes holdings current opening.event opening.outcome next := by
  -- The publication went by what the holdings answer, so it is known when it fails.
  have publication := Store.publication_of_transcript begins
  obtain ⟨store, event, result, published⟩ := opening
  dsimp only at met publication ⊢
  subst met
  cases publication with
  | uninitialized lifecycle => cases lifecycle
  | destroyed lifecycle => cases lifecycle
  | unaffected serving nothing =>
    obtain rfl := Lifecycle.initialized.inj serving
    exact ⟨current, rfl, named, .unaffected nothing⟩
  | failed serving affected loading =>
    obtain rfl := Lifecycle.initialized.inj serving
    refine ⟨current, rfl, named, .failed affected (fun able => ?_) _⟩
    have loaded := (Setup.outcome_refreshSnapshot_eq_ok named event).mpr ⟨able, rfl⟩
    cases loaded.symm.trans (run_eq_of_transcript loading each)
  | published serving affected loading =>
    obtain rfl := Lifecycle.initialized.inj serving
    obtain ⟨able, rfl⟩ := (Setup.outcome_refreshSnapshot_eq_ok named event).mp (run_eq_of_transcript loading each)
    have names : ∀ exchange ∈ exchanges, exchange.KeepsNames := fun exchange member =>
      (each exchange member).keepsNames keep
    obtain ⟨renamed, _⟩ := setup.provides_names.yields_refreshSnapshot (Setup.isLaid_snapshot_iff.mpr named) event
      exchanges _ loading names
    exact ⟨_, rfl, Setup.isLaid_snapshot_iff.mp renamed, .renewed affected able⟩

namespace Scene

variable {scene : Scene} {position : Nat} {listener : Listener}

/-- The listener at a position uses up its reload, and the others stay as they are. -/
theorem audience_spend (found : scene.audience[position]? = some listener) :
    ∃ earlier later, scene.audience = earlier ++ listener :: later ∧
      (scene.spend position).audience = earlier ++ { listener with reaction := .record } :: later := by
  obtain ⟨within, own⟩ := List.getElem?_eq_some_iff.mp found
  obtain ⟨earlier, first, later, split, length, spent⟩ := List.exists_of_modify
    (fun listener : Listener => { listener with reaction := .record }) within
  obtain rfl : first = listener := by simpa [split, ← length] using found
  exact ⟨earlier, later, split, spent⟩

/-- Listeners with their reloads used up are the same when one of them has used up its own. -/
theorem map_spent_spend {tag : String} {event : ChangeEvent}
    (found : scene.audience[position]? = some ⟨tag, .reloadOnce event⟩) :
    (scene.spend position).audience.map Listener.spent = scene.audience.map Listener.spent := by
  obtain ⟨earlier, later, split, spent⟩ := audience_spend found
  simp [split, spent, Listener.spent, Reaction.isReload]

/-- The event of a listener that uses up its reload is not pending any more, unless it is that of another one. -/
theorem pending_iff_spend {tag : String} {event other : ChangeEvent}
    (found : scene.audience[position]? = some ⟨tag, .reloadOnce event⟩) :
    Pending scene.audience other ↔ other = event ∨ Pending (scene.spend position).audience other := by
  -- The listener stands between those before it and those behind it, which keep their reloads.
  obtain ⟨earlier, later, split, spent⟩ := audience_spend found
  rw [Pending, Pending, split, spent]
  simp only [List.mem_append, List.mem_cons, or_and_right, exists_or, exists_eq_left, Reaction.reloadOnce.injEq,
    reduceCtorEq, false_or]
  constructor
  · rintro (earlier | rfl | later)
    · exact .inr (.inl earlier)
    · exact .inl rfl
    · exact .inr (.inr later)
  · rintro (rfl | earlier | later)
    · exact .inr (.inl rfl)
    · exact .inl earlier
    · exact .inr (.inr later)

/-- The listener at a position, if there is one, has no reload left. -/
def IsSpentAt (scene : Scene) (position : Nat) : Prop :=
  ∀ listener, scene.audience[position]? = some listener → listener.reaction.isReload = false

/-- A listener that uses up its reload has none left, and neither has one that had none before. -/
theorem isSpentAt_spend {other : Nat} (spent : position = other ∨ scene.IsSpentAt other) :
    (scene.spend position).IsSpentAt other := by
  intro listener found
  rw [spend, List.getElem?_modify] at found
  split at found
  · obtain ⟨_, _, rfl⟩ := Option.map_eq_some_iff.mp found
    rfl
  · rename_i different
    exact (spent.resolve_left different) listener (by simpa using found)

/-- A listener that would destroy the store still would when another one uses up its reload. -/
theorem getElem?_spend_of_destroy {other : Nat} {tag : String} {event : ChangeEvent}
    (used : scene.audience[position]? = some ⟨tag, .reloadOnce event⟩) (found : scene.audience[other]? = some listener)
    (destroys : listener.reaction = .destroy) : (scene.spend position).audience[other]? = some listener := by
  rw [spend, List.getElem?_modify]
  by_cases same : position = other
  · subst same
    obtain rfl := Option.some.inj (used.symm.trans found)
    cases destroys
  · simpa [same] using found

end Scene

namespace Plays

variable {queue : List (Delivery × Nat)} {scene after : Scene} {turns : Turns} {exchanges : List Exchange}

/-- Whatever listeners do, they remain the same but for the reloads that they use up. -/
theorem map_spent (plays : Plays queue scene turns exchanges after) :
    after.audience.map Listener.spent = scene.audience.map Listener.spent := by
  induction plays with
  | done scene => rfl
  | record listens onward ih => exact ih
  | destroy listens onward ih => exact ih
  | reload listens met begins nested onward ihInner ihRest =>
    exact ihRest.trans (ihInner.trans (Scene.map_spent_spend listens))

/-- An event that is pending is that of a reload in some turn, or else it is pending after all turns. -/
theorem pending_iff (plays : Plays queue scene turns exchanges after) {event : ChangeEvent} :
    Pending scene.audience event ↔ event ∈ turns.events ∨ Pending after.audience event := by
  induction plays with
  | done scene => simp [Turns.events, Turns.reloads]
  | record listens onward ih => exact ih
  | destroy listens onward ih => exact ih
  | reload listens met begins nested onward ihInner ihRest =>
    rw [Scene.pending_iff_spend listens, ihInner, ihRest]
    simp [Turns.events, Turns.reloads, or_assoc]

/-- A listener that has no reload left does not get another one. -/
theorem isSpentAt (plays : Plays queue scene turns exchanges after) {position : Nat}
    (spent : scene.IsSpentAt position) : after.IsSpentAt position := by
  induction plays with
  | done scene => exact spent
  | record listens onward ih => exact ih spent
  | destroy listens onward ih => exact ih spent
  | reload listens met begins nested onward ihInner ihRest =>
    exact ihRest (ihInner (Scene.isSpentAt_spend (.inr spent)))

/-- A listener that takes its turn has no reload left after it. -/
theorem isSpentAt_of_mem (plays : Plays queue scene turns exchanges after) :
    ∀ entry ∈ queue, after.IsSpentAt entry.2 := by
  -- Whatever the first listener does, it has done what it could.
  have still : ∀ {scene : Scene} {position : Nat} {tag : String} {reaction : Reaction},
      scene.audience[position]? = some ⟨tag, reaction⟩ → reaction.isReload = false → scene.IsSpentAt position := by
    intro scene position tag reaction listens none listener found
    obtain rfl := Option.some.inj (listens.symm.trans found)
    exact none
  induction plays with
  | done scene => exact fun _ none => nomatch none
  | record listens onward ih => exact List.forall_mem_cons.mpr ⟨onward.isSpentAt (still listens rfl), ih⟩
  | destroy listens onward ih =>
    exact List.forall_mem_cons.mpr ⟨onward.isSpentAt (still listens rfl), ih⟩
  | reload listens met begins nested onward ihInner ihRest =>
    have spent := nested.isSpentAt (Scene.isSpentAt_spend (.inl rfl))
    exact List.forall_mem_cons.mpr ⟨onward.isSpentAt spent, ihRest⟩

/-- While the resources stay as they are, listeners leave what comes of the events of their reloads. -/
theorem settles (plays : Plays queue scene turns exchanges after)
    (keep : ∀ collection, (holdings collection).KeepsNames) (each : ∀ exchange ∈ exchanges, exchange.IsFrom holdings)
    (lasts : scene.Lasts setup current) :
    ∃ next, after.Lasts setup next ∧ setup.Settles holdings (· ∈ turns.events) current next := by
  induction plays generalizing current with
  | done scene => exact ⟨current, lasts, Setup.settles_of_none fun _ none => nomatch none⟩
  | record listens onward ih => exact ih each lasts
  | destroy listens onward ih => exact absurd rfl (lasts.lasting _ (List.mem_of_getElem? listens))
  | @reload told position queue scene middle after opening inner rest opened within later listens met begins
      nested onward ihInner ihRest =>
    obtain ⟨here, others⟩ := List.forall_mem_append.mp each
    obtain ⟨inside, onwards⟩ := List.forall_mem_append.mp others
    have spent := lasts.spend position
    obtain ⟨published, same, named, refreshes⟩ := begins.refreshes keep here (met.trans spent.store) lasts.named
    -- The reload settles its own event, then its listeners settle theirs, and then the others go on.
    obtain ⟨between, still, settled⟩ := ihInner inside ⟨same, spent.lasting, named⟩
    obtain ⟨next, last, onward⟩ := ihRest onwards still
    refine ⟨next, last, (((refreshes.settles lasts.named).trans settled).trans onward).congr fun event => ?_⟩
    simp [Turns.events, Turns.reloads, or_assoc]

/-- A listener that would destroy the store still would after others took their turns. -/
theorem getElem?_of_destroy (plays : Plays queue scene turns exchanges after) {position : Nat} {listener : Listener}
    (found : scene.audience[position]? = some listener) (destroys : listener.reaction = .destroy) :
    after.audience[position]? = some listener := by
  induction plays with
  | done scene => exact found
  | record listens onward ih => exact ih found
  | destroy listens onward ih => exact ih found
  | reload listens met begins nested onward ihInner ihRest =>
    exact ihRest (ihInner (Scene.getElem?_spend_of_destroy listens found destroys))

/-- A listener that would destroy the store does so when it takes its turn. -/
theorem destroyed_of_mem (plays : Plays queue scene turns exchanges after) {entry : Delivery × Nat}
    (member : entry ∈ queue) {listener : Listener} (found : scene.audience[entry.2]? = some listener)
    (destroys : listener.reaction = .destroy) : after.store.lifecycle = .destroyed := by
  -- The induction goes along the turns, and the listener takes one of them.
  induction plays with
  | done scene => cases member
  | record listens onward ih =>
    rcases List.mem_cons.mp member with rfl | member
    · obtain rfl := Option.some.inj (listens.symm.trans found)
      cases destroys
    · exact ih member found
  | destroy listens onward ih =>
    rcases List.mem_cons.mp member with rfl | member
    · -- Nothing brings the store back.
      exact Store.two_le_stage_iff.mp (Nat.le_trans (Store.two_le_stage_iff.mpr rfl) onward.advances.le)
    · exact ih member found
  | reload listens met begins nested onward ihInner ihRest =>
    rcases List.mem_cons.mp member with rfl | member
    · obtain rfl := Option.some.inj (listens.symm.trans found)
      cases destroys
    · -- The listener is among those that go on after the reload of this one.
      exact ihRest member (nested.getElem?_of_destroy (Scene.getElem?_spend_of_destroy listens found destroys) destroys)

/-- When every listener took its turn, they have all used up their reloads. -/
theorem audience_eq (plays : Plays queue scene turns exchanges after)
    (everyone : ∀ position < scene.audience.length, ∃ entry ∈ queue, entry.2 = position) :
    after.audience = scene.audience.map (·.spent) ∧ ∀ event, ¬ Pending after.audience event := by
  -- Nobody joins or leaves the audience, so every listener has taken a turn by the end.
  have same := plays.map_spent
  have spent : ∀ listener ∈ after.audience, listener.reaction.isReload = false := by
    intro listener member
    obtain ⟨position, found⟩ := List.getElem?_of_mem member
    have within : position < scene.audience.length := by
      obtain ⟨within, _⟩ := List.getElem?_eq_some_iff.mp found
      simpa using within.trans_eq (by simpa using congrArg List.length same)
    obtain ⟨entry, called, rfl⟩ := everyone position within
    exact plays.isSpentAt_of_mem entry called listener found
  refine ⟨?_, ?_⟩
  · rw [← same]
    have same := List.map_congr_left fun listener member => Listener.spent_eq_self (spent listener member)
    exact (same.trans (List.map_id _)).symm
  · rintro event ⟨listener, member, reloads⟩
    have none := spent listener member
    rw [reloads] at none
    cases none

end Plays

/-- Everyone who listens to the published store is called. -/
theorem Opening.exists_mem_queue {opening : Opening} {notice : Notice} (noticed : opening.outcome = .ok (some notice))
    {position : Nat} {listener : Listener} (found : opening.published.listeners[position]? = some listener) :
    ∃ entry ∈ opening.queue, entry.2 = position := by
  refine ⟨(⟨listener.tag, notice⟩, position), ?_, rfl⟩
  rw [queue, noticed]
  exact List.mem_map.mpr ⟨(listener, position), List.mem_zipIdx_iff_getElem?.mpr found, rfl⟩

/-- What a reload of an initialized store comes to while the resources stay as they are. -/
inductive Store.Reloads (setup : Setup) (holdings : Holdings) (current : Layers) (listeners : List Listener)
    (event : ChangeEvent) : Except MessageError ReloadOutcome → Store → Prop where
  | unaffected (nothing : setup.affectedLocales (setup.snapshot current) event = []) :
      Reloads setup holdings current listeners event (.ok .unaffected) (.ofLayers setup current listeners)
  | failed {error : MessageError} (affected : setup.affectedLocales (setup.snapshot current) event ≠ [])
      (unable : ¬ setup.Renewable holdings current [event]) :
      Reloads setup holdings current listeners event (.error error) (.ofLayers setup current listeners)
  | destroyed {outcome : ReloadOutcome} {after : Store}
      (affected : setup.affectedLocales (setup.snapshot current) event ≠ [])
      (able : setup.Renewable holdings current [event]) {listener : Listener} (subscribed : listener ∈ listeners)
      (destroys : listener.reaction = .destroy) (gone : after.lifecycle = .destroyed) :
      Reloads setup holdings current listeners event (.ok outcome) after
  | settled {outcome : ReloadOutcome} {next : Layers}
      (affected : setup.affectedLocales (setup.snapshot current) event ≠ [])
      (able : setup.Renewable holdings current [event]) (lasting : ∀ listener ∈ listeners, listener.reaction ≠ .destroy)
      (named : next.AreNamed setup)
      (settles : setup.Settles holdings (fun other => other = event ∨ Pending listeners other) current next) :
      Reloads setup holdings current listeners event (.ok outcome) (.ofLayers setup next (listeners.map (·.spent)))

namespace Store

variable {listeners : List Listener} {event : ChangeEvent}

/-- A reload whose requests are answered from some holdings. -/
abbrev reloadIn (holdings : Holdings) (store : Store) (event : ChangeEvent) : Reloaded :=
  (store.reload event).run holdings

/-- A reload of an initialized store comes to one of these while the resources stay as they are. -/
theorem reloads_run (keep : ∀ collection, (holdings collection).KeepsNames) (named : current.AreNamed setup)
    (listeners : List Listener) (event : ChangeEvent) :
    Reloads setup holdings current listeners event (reloadIn holdings (.ofLayers setup current listeners) event).result
      (reloadIn holdings (.ofLayers setup current listeners) event).store := by
  let store : Store := .ofLayers setup current listeners
  have each := isFrom_recorded holdings (store.reload event)
  obtain ⟨⟨opening, turns⟩, after, rfl, runs, left, result, _⟩ :=
    exists_reloadCall (transcript_recorded holdings (store.reload event))
  obtain ⟨met, opened, within, split, begins, plays⟩ := runs
  rw [split] at each
  obtain ⟨here, inside⟩ := List.forall_mem_append.mp each
  obtain ⟨next, same, renamed, refreshes⟩ := begins.refreshes keep here met named
  rw [← left, ← result, ReloadCall.result]
  -- Without a notice nobody is called.
  have silent : (∀ notice, opening.outcome ≠ .ok (some notice)) → after.store = opening.published := by
    intro none
    rw [Opening.queue_eq_nil none] at plays
    cases plays
    rfl
  have own := refreshes.settles named
  generalize told : opening.outcome = outcome at refreshes silent
  cases refreshes with
  | unaffected nothing =>
    rw [silent (by simp), same]
    exact .unaffected nothing
  | failed affected unable error =>
    rw [silent (by simp), same]
    exact .failed affected unable
  | renewed affected able =>
    have called : ∀ position listener, listeners[position]? = some listener →
        ∃ entry ∈ opening.queue, entry.2 = position :=
      fun position listener found => Opening.exists_mem_queue told (by rw [same]; exact found)
    by_cases lasting : ∀ listener ∈ listeners, listener.reaction ≠ .destroy
    · -- Every listener has settled the event of its reload, if it had one.
      obtain ⟨last, still, settled⟩ := plays.settles keep inside ⟨same, lasting, renamed⟩
      obtain ⟨spent, nothing⟩ := plays.audience_eq fun position within =>
        called position _ (List.getElem?_eq_getElem within)
      rw [still.store, spent]
      refine .settled affected able lasting still.named ?_
      refine (own.trans settled).congr fun other => ?_
      have pending : Pending listeners other ↔ other ∈ turns.events ∨ Pending after.audience other := plays.pending_iff
      rw [pending, or_iff_left (nothing other)]
    · -- Someone destroys the store.
      obtain ⟨listener, subscribed, destroys⟩ : ∃ listener ∈ listeners, listener.reaction = .destroy := by
        simpa using lasting
      obtain ⟨position, found⟩ := List.getElem?_of_mem subscribed
      obtain ⟨entry, member, rfl⟩ := called position listener found
      exact .destroyed affected able subscribed destroys (plays.destroyed_of_mem member found destroys)

end Store

end MessageCatalogue
