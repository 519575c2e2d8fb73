import MessageCatalogue.Proofs.Store.Freshness
import MessageCatalogue.Proofs.Store.History

/-! Setups that load alike, each from holdings of its own, give stores that cannot be told apart. -/

namespace MessageCatalogue

open Loading

namespace Setup

variable {before after : Holdings} {one other : Setup}

/-- A locale has the same messages of its own for two setups, or they fail to load it alike. -/
def FindAlike (before after : Holdings) (one other : Setup) (locale : Locale) : Prop :=
  outcome before (one.loader.loadMerged one.source locale) =
    outcome after (other.loader.loadMerged other.source locale)

/-- Two setups serve one source with one default locale and look for its resources under the same names. -/
structure NameAlike (one other : Setup) : Prop where
  source : one.source = other.source
  defaultLocale : one.defaultLocale = other.defaultLocale
  resourceName : ∀ locale,
    one.loader.resourceName one.source locale = other.loader.resourceName other.source locale

/-- Whatever two setups look for, they find the same or fail alike. -/
structure LoadAlike (before after : Holdings) (one other : Setup) : Prop extends NameAlike one other where
  candidates : outcome before one.candidateLocales = outcome after other.candidateLocales
  messages : ∀ locale, FindAlike before after one other locale

namespace NameAlike

variable (alike : NameAlike one other)

include alike

theorem outcome_loadOwn {locale : Locale} (found : FindAlike before after one other locale) :
    outcome before (one.loadOwn locale) = outcome after (other.loadOwn locale) := by
  -- Names are the same for both, so the catalogue is if its messages are.
  rw [loadOwn, loadOwn, outcome_bind, outcome_bind, found, alike.resourceName]
  rfl

/-- A default locale without resources is the same error for both. -/
theorem missingDefault : one.missingDefault = other.missingDefault := by
  rw [Setup.missingDefault, Setup.missingDefault, alike.source, alike.defaultLocale, ← alike.source,
    alike.resourceName, alike.source]

theorem outcome_loadBase (found : FindAlike before after one other one.defaultLocale) :
    outcome before one.loadBase = outcome after other.loadBase := by
  rw [loadBase, loadBase, outcome_bind, outcome_bind, alike.outcome_loadOwn found, alike.defaultLocale]
  -- Whether the default locale has a resource is known by then.
  refine congrArg _ (funext fun own => ?_)
  cases own with
  | none => rw [outcome_throw, outcome_throw, alike.missingDefault]
  | some base => rfl

theorem outcome_loadOverlay (base : Catalogue) {locale : Locale}
    (found : FindAlike before after one other locale) :
    outcome before (one.loadOverlay base locale) = outcome after (other.loadOverlay base locale) := by
  rw [loadOverlay, loadOverlay, outcome_bind, outcome_bind, alike.outcome_loadOwn found]
  -- A locale without resources still has a name.
  refine congrArg _ (funext fun own => ?_)
  cases own with
  | none => rw [outcome_pure, outcome_pure, alike.resourceName]
  | some own => rfl

/-- Overlays are the same over one base when every locale has the same messages of its own. -/
theorem outcome_loadOverlays (base : Catalogue) {locales : List Locale}
    (found : ∀ locale ∈ locales, FindAlike before after one other locale) (known : Dictionary Locale Catalogue) :
    outcome before (one.loadOverlays base locales known) = outcome after (other.loadOverlays base locales known) := by
  -- Each overlay is filed alike before the next one is loaded.
  induction locales generalizing known with
  | nil => rfl
  | cons locale rest ih =>
    obtain ⟨own, others⟩ := List.forall_mem_cons.mp found
    rw [loadOverlays, loadOverlays, outcome_bind, outcome_bind, alike.outcome_loadOverlay base own]
    exact congrArg _ (funext fun overlay => ih others _)

/-- A snapshot is the same when every locale in it has the same messages of its own. -/
theorem outcome_loadSnapshot {locales : List Locale}
    (found : ∀ locale ∈ one.defaultLocale :: locales, FindAlike before after one other locale) :
    outcome before (one.loadSnapshot locales) = outcome after (other.loadSnapshot locales) := by
  obtain ⟨default, others⟩ := List.forall_mem_cons.mp found
  rw [loadSnapshot, loadSnapshot, outcome_bind, outcome_bind, alike.outcome_loadBase default]
  -- Over one base, every overlay is made of what its locale has.
  refine congrArg _ (funext fun base => ?_)
  have behind : ∀ locale ∈ locales.filter (· ≠ one.defaultLocale), FindAlike before after one other locale :=
    fun locale member => others locale (List.mem_filter.mp member).1
  have overlays := alike.outcome_loadOverlays base behind []
  rw [outcome_bind, outcome_bind, overlays, alike.defaultLocale]
  rfl

theorem supportedAmong (candidates : List Locale) :
    one.supportedAmong candidates = other.supportedAmong candidates := by
  rw [Setup.supportedAmong, Setup.supportedAmong, alike.defaultLocale]

/-- The whole is the same when the candidates are and each of them has the same messages of its own. -/
theorem outcome_load (candidates : outcome before one.candidateLocales = outcome after other.candidateLocales)
    (found : ∀ locales, outcome after other.candidateLocales = .ok locales →
      ∀ locale ∈ one.defaultLocale :: one.otherLocales locales, FindAlike before after one other locale) :
    outcome before one.load = outcome after other.load := by
  rw [load, load, outcome_bind, outcome_bind, candidates]
  cases listed : outcome after other.candidateLocales with
  | error error => rfl
  | ok locales =>
    -- The default locale is supported in front of the others.
    have supported := one.supportedAmong_eq locales ▸ List.forall_mem_cons.mpr
      ⟨found locales listed _ List.mem_cons_self, found locales listed⟩
    exact (alike.outcome_loadSnapshot supported).trans (by rw [alike.supportedAmong]; rfl)

/-- An event affects the same locales. -/
theorem affectedLocales (current : Snapshot) (event : ChangeEvent) :
    one.affectedLocales current event = other.affectedLocales current event := by
  rw [Setup.affectedLocales, Setup.affectedLocales, alike.defaultLocale]

end NameAlike

namespace LoadAlike

variable (alike : LoadAlike before after one other)

include alike

theorem outcome_load : outcome before one.load = outcome after other.load :=
  alike.toNameAlike.outcome_load alike.candidates fun _ _ locale _ => alike.messages locale

theorem outcome_loadSnapshot (others : List Locale) :
    outcome before (one.loadSnapshot others) = outcome after (other.loadSnapshot others) :=
  alike.toNameAlike.outcome_loadSnapshot fun locale _ => alike.messages locale

theorem outcome_refreshSnapshot (current : Snapshot) (affected : List Locale) :
    outcome before (one.refreshSnapshot current affected) = outcome after (other.refreshSnapshot current affected) := by
  -- The same branch is taken on both sides, as the default locales are the same.
  unfold refreshSnapshot
  rw [alike.defaultLocale]
  split
  · exact alike.outcome_loadSnapshot _
  · -- Only the affected locales are looked for, over the base that is served.
    cases current.catalogue? other.defaultLocale with
    | none => exact congrArg Except.error alike.missingDefault
    | some base =>
      have each : ∀ locale ∈ affected, FindAlike before after one other locale := fun locale _ => alike.messages locale
      have overlays := alike.outcome_loadOverlays base each
      dsimp only
      rw [outcome_bind, outcome_bind, overlays]
      rfl

/-- An event leads to the same notice and the same snapshot, or fails alike. -/
theorem outcome_refresh (current : Snapshot) (event : ChangeEvent) :
    outcome before (one.refresh current event) = outcome after (other.refresh current event) := by
  -- The notice tells of the source and of what the current snapshot owns, which are the same for both.
  rw [Setup.outcome_refresh, Setup.outcome_refresh, alike.affectedLocales, alike.outcome_refreshSnapshot, alike.source]

end LoadAlike

end Setup

namespace Store

variable {before after : Holdings} {one other : Setup} {left right : Store}

/-- What a call tells its caller, with the calls of listeners that it leads to. -/
inductive Reply where
  | initialized (result : Except MessageError Unit)
  | reloaded (result : Except MessageError ReloadOutcome) (deliveries : List Delivery)
  | silent

/-- The reply of a store to a call whose requests are answered from some holdings. -/
def reply (holdings : Holdings) (store : Store) : Call → Reply
  -- Subscribing and destroying have no answer.
  | .init => .initialized (store.init.run holdings).1
  | .reload event =>
    let reloaded := (store.reload event).run holdings
    .reloaded reloaded.result reloaded.deliveries
  | .subscribe _ => .silent
  | .destroy => .silent

/-- The replies of a store to some calls in a row, with the holdings that each of them meets. -/
def replies (store : Store) : List (Holdings × Call) → List Reply
  | [] => []
  | (holdings, call) :: rest => store.reply holdings call :: (store.afterCall holdings call).replies rest

/-- Two stores are at the same stage of their lives and have the same listeners, each under a setup of its own. -/
structure Counterparts (one other : Setup) (left right : Store) : Prop where
  setupLeft : left.setup = one
  setupRight : right.setup = other
  lifecycle : left.lifecycle = right.lifecycle
  listeners : left.listeners = right.listeners

/-- Stores at the same stage of their lives answer alike when their default locales are the same. -/
theorem sameAnswers_of_lifecycle {one other : Store} (lifecycle : one.lifecycle = other.lifecycle)
    (default : one.setup.defaultLocale = other.setup.defaultLocale) : one.SameAnswers other := by
  -- Every answer is made of the snapshot and the default locale.
  have published : one.snapshot? = other.snapshot? := by rw [snapshot?, snapshot?, lifecycle]
  refine ⟨?_, ?_, ?_, ?_⟩
  · intro code locale arguments
    rw [lookup, lookup, published]
  · rw [supportedLocales, supportedLocales, published, default]
  · rw [messageCounts, messageCounts, published]
  · intro identifier
    rw [owns, owns, published]

namespace Counterparts

theorem ofSetup (one other : Setup) : Counterparts one other (ofSetup one) (ofSetup other) := ⟨rfl, rfl, rfl, rfl⟩

variable (stores : Counterparts one other left right)

include stores

theorem sameAnswers (alike : one.NameAlike other) : left.SameAnswers right :=
  sameAnswers_of_lifecycle stores.lifecycle (by rw [stores.setupLeft, stores.setupRight, alike.defaultLocale])

theorem subscribe (listener : Listener) : Counterparts one other (left.subscribe listener) (right.subscribe listener) :=
  ⟨stores.setupLeft, stores.setupRight, stores.lifecycle, congrArg (· ++ [listener]) stores.listeners⟩

theorem destroy : Counterparts one other left.destroy right.destroy := ⟨stores.setupLeft, stores.setupRight, rfl, rfl⟩

theorem spend (position : Nat) : Counterparts one other (left.spend position) (right.spend position) :=
  ⟨stores.setupLeft, stores.setupRight, stores.lifecycle, congrArg (List.modify · position _) stores.listeners⟩

theorem serve (snapshot : Snapshot) : Counterparts one other { left with lifecycle := .initialized snapshot }
    { right with lifecycle := .initialized snapshot } :=
  ⟨stores.setupLeft, stores.setupRight, rfl, stores.listeners⟩

/-- Stores that were destroyed complain alike. -/
theorem destroyedError (alike : one.NameAlike other) : left.destroyedError = right.destroyedError := by
  rw [Store.destroyedError, Store.destroyedError, stores.setupLeft, stores.setupRight, alike.source]

/-- Stores whose setups load the same are initialized alike. -/
theorem init (alike : one.NameAlike other) (whole : outcome before one.load = outcome after other.load) :
    (left.init.run before).1 = (right.init.run after).1 ∧
      Counterparts one other (left.init.run before).2 (right.init.run after).2 := by
  -- Only stores that were never initialized load anything, and both of them are at the same stage.
  cases stage : left.lifecycle with
  | uninitialized =>
    have same : right.lifecycle = .uninitialized := stores.lifecycle ▸ stage
    have loaded : outcome before left.setup.load = outcome after right.setup.load := by
      rw [stores.setupLeft, stores.setupRight, whole]
    rw [run_init stage, run_init same, loaded]
    cases outcome after right.setup.load with
    | error error => exact ⟨rfl, stores⟩
    | ok snapshot => exact ⟨rfl, stores.serve snapshot⟩
  | initialized snapshot =>
    have same : right.lifecycle = .initialized snapshot := stores.lifecycle ▸ stage
    simp only [Store.init, stage, same]
    exact ⟨rfl, stores⟩
  | destroyed =>
    have same : right.lifecycle = .destroyed := stores.lifecycle ▸ stage
    simp only [Store.init, stage, same, stores.destroyedError alike]
    exact ⟨rfl, stores⟩

/-- Stores whose setups load alike publish alike. -/
theorem publish (alike : one.LoadAlike before after other) (event : ChangeEvent) :
    ((left.publish event).run before).1 = ((right.publish event).run after).1 ∧
      Counterparts one other ((left.publish event).run before).2 ((right.publish event).run after).2 := by
  -- Only stores that serve something refresh it, and both of them serve the same.
  cases stage : left.lifecycle with
  | uninitialized =>
    have same : right.lifecycle = .uninitialized := stores.lifecycle ▸ stage
    simp only [Store.publish, stage, same]
    exact ⟨rfl, stores⟩
  | destroyed =>
    have same : right.lifecycle = .destroyed := stores.lifecycle ▸ stage
    simp only [Store.publish, stage, same, stores.destroyedError alike.toNameAlike]
    exact ⟨rfl, stores⟩
  | initialized current =>
    have same : right.lifecycle = .initialized current := stores.lifecycle ▸ stage
    have refreshed : outcome before (left.setup.refresh current event) =
        outcome after (right.setup.refresh current event) := by
      rw [stores.setupLeft, stores.setupRight, alike.outcome_refresh]
    rw [run_publish stage, run_publish same, refreshed]
    cases outcome after (right.setup.refresh current event) with
    | error error => exact ⟨rfl, stores⟩
    | ok refreshed =>
      cases refreshed with
      | none => exact ⟨rfl, stores⟩
      | some refreshed => exact ⟨rfl, stores.serve refreshed.snapshot⟩

end Counterparts

/-- Further reloads lead counterparts to counterparts with the same calls of listeners. -/
def ReloadAlike (before after : Holdings) (one other : Setup)
    (again : Store → ChangeEvent → Fetch (Store × List Delivery)) : Prop :=
  -- Both sides see the same events, each over its own holdings.
  ∀ left right event, Counterparts one other left right →
    Counterparts one other ((again left event).run before).1 ((again right event).run after).1 ∧
      ((again left event).run before).2 = ((again right event).run after).2

namespace Counterparts

variable {again : Store → ChangeEvent → Fetch (Store × List Delivery)} (stores : Counterparts one other left right)

include stores

theorem react (nested : ReloadAlike before after one other again) (position : Nat) :
    Counterparts one other ((left.react again position).run before).1 ((right.react again position).run after).1 ∧
      ((left.react again position).run before).2 = ((right.react again position).run after).2 := by
  unfold Store.react
  rw [stores.listeners]
  -- Both stores have the same listener at the position.
  cases right.listeners[position]? with
  | none => exact ⟨stores, rfl⟩
  | some listener =>
    obtain ⟨tag, reaction⟩ := listener
    cases reaction with
    | record => exact ⟨stores, rfl⟩
    | destroy => exact ⟨stores.destroy, rfl⟩
    | reloadOnce event => exact nested _ _ event (stores.spend position)

theorem notify (nested : ReloadAlike before after one other again) (notice : Notice)
    (listeners : List (Listener × Nat)) :
    Counterparts one other ((Store.notify again notice listeners left).run before).1
        ((Store.notify again notice listeners right).run after).1 ∧
      ((Store.notify again notice listeners left).run before).2 =
        ((Store.notify again notice listeners right).run after).2 := by
  -- Each listener finds counterparts as those before it left them.
  induction listeners generalizing left right with
  | nil => exact ⟨stores, rfl⟩
  | cons first rest ih =>
    obtain ⟨reacted, inner⟩ := stores.react nested first.2
    obtain ⟨finished, later⟩ := ih reacted
    simp only [Store.notify, Fetch.bind_eq, Fetch.run_bind, Fetch.pure_eq, Fetch.run_done]
    refine ⟨finished, ?_⟩
    rw [inner, later]

/-- A reload is alike when those that its listeners may make are. -/
theorem reloadWithin (alike : one.LoadAlike before after other) {depth : Nat}
    (nested : ReloadAlike before after one other (reenter depth)) (event : ChangeEvent) :
    ((left.reloadWithin depth event).run before).result = ((right.reloadWithin depth event).run after).result ∧
      Counterparts one other ((left.reloadWithin depth event).run before).store
        ((right.reloadWithin depth event).run after).store ∧
      ((left.reloadWithin depth event).run before).deliveries =
        ((right.reloadWithin depth event).run after).deliveries := by
  obtain ⟨result, published⟩ := stores.publish alike event
  rw [run_reloadWithin, run_reloadWithin]
  generalize (left.publish event).run before = mine at result published ⊢
  generalize (right.publish event).run after = theirs at result published ⊢
  obtain ⟨told, left⟩ := mine
  obtain ⟨_, right⟩ := theirs
  cases result
  -- Listeners are called only when there is a notice for them.
  rcases told with error | _ | notice
  · exact ⟨rfl, published, rfl⟩
  · exact ⟨rfl, published, rfl⟩
  · have called : left.listeners = right.listeners := published.listeners
    obtain ⟨finished, deliveries⟩ := published.notify nested notice right.listeners.zipIdx
    dsimp only
    rw [called]
    exact ⟨rfl, finished, deliveries⟩

end Counterparts

/-- Listeners reload counterparts alike, however deep their reloads are nested. -/
theorem reloadAlike_reenter (alike : one.LoadAlike before after other) (depth : Nat) :
    ReloadAlike before after one other (reenter depth) := by
  -- The reloads of listeners are one level less deep.
  induction depth with
  | zero => exact fun left right event stores => ⟨stores, rfl⟩
  | succ depth ih =>
    intro left right event stores
    obtain ⟨_, finished, deliveries⟩ := stores.reloadWithin alike ih event
    simp only [reenter, Fetch.bind_eq, Fetch.run_bind, Fetch.pure_eq, Fetch.run_done]
    exact ⟨finished, deliveries⟩

namespace Counterparts

/-- A call is answered alike by stores whose setups load alike, and leaves them counterparts. -/
theorem call (stores : Counterparts one other left right) (alike : one.LoadAlike before after other) (call : Call) :
    left.reply before call = right.reply after call ∧
      Counterparts one other (left.afterCall before call) (right.afterCall after call) := by
  cases call with
  | init =>
    obtain ⟨result, initialized⟩ := stores.init alike.toNameAlike alike.outcome_load
    exact ⟨congrArg Reply.initialized result, initialized⟩
  | reload event =>
    -- As many listeners wait to reload either store, so their reloads nest equally deep.
    have pending : left.pendingReloads = right.pendingReloads := by
      rw [pendingReloads, pendingReloads, stores.listeners]
    have nested := reloadAlike_reenter alike right.pendingReloads
    obtain ⟨result, finished, deliveries⟩ := stores.reloadWithin alike nested event
    simp only [reply, afterCall, Store.reload, pending]
    exact ⟨congrArg₂ Reply.reloaded result deliveries, finished⟩
  | subscribe listener => exact ⟨rfl, stores.subscribe listener⟩
  | destroy => exact ⟨rfl, stores.destroy⟩

/-- Calls in a row are answered alike when the setups load alike at each of them. -/
theorem calls {α : Type} (before after : α → Holdings) {session : List (α × Call)}
    (alike : ∀ step ∈ session, one.LoadAlike (before step.1) (after step.1) other)
    (stores : Counterparts one other left right) :
    let mine := session.map fun step => (before step.1, step.2)
    let theirs := session.map fun step => (after step.1, step.2)
    left.replies mine = right.replies theirs ∧
      Counterparts one other (left.afterCalls mine) (right.afterCalls theirs) := by
  -- The first call leaves counterparts to the others.
  induction session generalizing left right with
  | nil => exact ⟨rfl, stores⟩
  | cons first rest ih =>
    obtain ⟨now, later⟩ := List.forall_mem_cons.mp alike
    obtain ⟨reply, stores⟩ := stores.call now first.2
    obtain ⟨replies, finished⟩ := ih later stores
    exact ⟨congrArg₂ List.cons reply replies, finished⟩

end Counterparts

end Store

end MessageCatalogue
