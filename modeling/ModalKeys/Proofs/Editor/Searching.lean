import Mathlib.Data.List.Infix
import ModalKeys.Proofs.Editor.Callbacks
import ModalKeys.Proofs.Editor.Settled

/-!
# Searches

What the keys that are typed in Search mode mean is a matter of the options that the mode was entered
with and of the keys typed since: it is given here without the state that the mode keeps. As long as no
mode switch comes in between, the searches handed to the host are those that the keys confirm, and in
every run the last search of an editor is the last one that it has handed over.
-/

namespace ModalKeys

variable {σ : Type}

/-! ## What typed keys mean -/

namespace EnterOptions

/-- Whether a key confirms a search: a line break does, and with `singleChar` every key. -/
def confirms (o : EnterOptions) (key : Char) : Bool := key = '\n' || o.singleChar.getD false

/-- The search text when some keys have been typed: all of them but the line breaks, or with
`singleChar` only the last of these. -/
def searchText (o : EnterOptions) (keys : List Char) : String :=
  let typed := keys.filter (· ≠ '\n')
  String.ofList (if o.singleChar.getD false then typed.getLast?.toList else typed)

/-- The search for the keys typed so far. -/
def query (o : EnterOptions) (keys : List Char) : SearchQuery where
  text := o.searchText keys
  range := o.searchRange.getD .document
  direction := o.searchDirection.getD .after

/-- The searches that some keys confirm, in order: one for each key that does so, with the keys up to
it. -/
def confirmed (o : EnterOptions) (keys : List Char) : List SearchQuery :=
  (keys.inits.filter fun typed => typed.getLast?.any o.confirms).map o.query

theorem confirmed_concat (o : EnterOptions) (keys : List Char) (key : Char) :
    o.confirmed (keys ++ [key]) =
      o.confirmed keys ++ if o.confirms key then [o.query (keys ++ [key])] else [] := by
  have step : (keys ++ [key]).inits = keys.inits ++ [keys ++ [key]] := List.inits_append keys [key]
  rw [confirmed, step, List.filter_append, List.map_append, confirmed, List.filter_singleton,
    List.getLast?_concat, Option.any_some]
  cases o.confirms key <;> rfl

end EnterOptions

/-! ## Searchers -/

namespace Searcher

/-- The state of a search for which some keys have been typed. -/
def collected (o : EnterOptions) (keys : List Char) (last : Option SearchQuery) : Searcher where
  text := o.searchText keys
  range := o.searchRange.getD .document
  direction := o.searchDirection.getD .after
  singleChar := o.singleChar.getD false
  last := last

theorem latch_eq_collected (s : Searcher) (o : EnterOptions) :
    s.latch o = collected o [] s.last := by
  have empty : o.searchText [] = "" := by
    rw [EnterOptions.searchText]
    split <;> rfl
  rw [collected, empty]
  rfl

/-- Entering gives up everything but the last search. -/
theorem latch_congr {s s' : Searcher} (h : s'.last = s.last) (o : EnterOptions) :
    s'.latch o = s.latch o := by
  rw [latch_eq_collected, latch_eq_collected, h]

/-- The searcher keeps nothing of the typed keys but their meaning. -/
theorem onKey_collected (o : EnterOptions) (keys : List Char) (last : Option SearchQuery)
    (key : Char) :
    (collected o keys last).onKey key =
      if o.confirms key then
        (collected o (keys ++ [key]) (some (o.query (keys ++ [key]))),
          some (o.query (keys ++ [key])))
      else (collected o (keys ++ [key]) last, none) := by
  by_cases newline : key = '\n'
  · have confirms : o.confirms key = true := by simp [EnterOptions.confirms, newline]
    have same : o.searchText (keys ++ [key]) = o.searchText keys := by
      simp [EnterOptions.searchText, newline]
    rw [onKey, if_pos newline, if_pos confirms, EnterOptions.query, collected, collected, same]
    rfl
  · rw [onKey, if_neg newline]
    cases single : o.singleChar.getD false with
    | true =>
        have confirms : o.confirms key = true := by simp [EnterOptions.confirms, single]
        have text : o.searchText (keys ++ [key]) = String.singleton key := by
          rw [String.singleton_eq_ofList]
          simp [EnterOptions.searchText, newline, single, List.filter_append]
        rw [if_pos (show (collected o keys last).singleChar = true from single), if_pos confirms,
          EnterOptions.query, collected, collected, text]
        rfl
    | false =>
        have waits : ¬o.confirms key = true := by simp [EnterOptions.confirms, newline, single]
        have text : o.searchText (keys ++ [key]) = (o.searchText keys).push key := by
          simp [EnterOptions.searchText, newline, single, List.filter_append]
        rw [if_neg (by rw [collected, single]; exact Bool.false_ne_true), if_neg waits, collected,
          collected, text]

/-- The last search is the one that the key confirms, if it does. -/
theorem last_onKey (s : Searcher) (key : Char) : (s.onKey key).1.last = (s.onKey key).2.or s.last := by
  rw [onKey]
  split
  · rfl
  · split <;> rfl

end Searcher

/-! ## Mode switches -/

/-- The search that is handed over. -/
def Event.query? : Event σ → Option SearchQuery
  | .search _ query => some query
  | _ => none

/-- The switch that an event announces. -/
def Event.request? : Event σ → Option ModeRequest
  | .willEnter mode options => some ⟨mode, options⟩
  | _ => none

/-- A searcher as some mode switches leave it. They keep the last search, and give up the rest when
Search mode is entered. -/
structure Searcher.Switched (requests : List ModeRequest) (s s' : Searcher) : Prop where
  last : s'.last = s.last
  same : requests = [] → s' = s
  latched : ∀ o, requests.getLast? = some ⟨.search, o⟩ → s' = s.latch o

namespace Searcher.Switched

theorem refl (s : Searcher) : Switched [] s s := ⟨rfl, fun _ => rfl, fun _ h => by cases h⟩

theorem trans {xs ys : List ModeRequest} {s₁ s₂ s₃ : Searcher} (h₁ : Switched xs s₁ s₂)
    (h₂ : Switched ys s₂ s₃) : Switched (xs ++ ys) s₁ s₃ where
  last := h₂.last.trans h₁.last
  same := by
    intro h
    obtain ⟨hx, hy⟩ := List.append_eq_nil_iff.1 h
    rw [h₂.same hy, h₁.same hx]
  latched := by
    intro o h
    rcases ys.eq_nil_or_concat' with rfl | ⟨rest, r, rfl⟩
    · rw [List.append_nil] at h
      rw [h₂.same rfl, h₁.latched o h]
    · rw [← List.append_assoc, List.getLast?_concat] at h
      rw [h₂.latched o (by rw [List.getLast?_concat, h]), latch_congr h₁.last]

end Searcher.Switched

namespace Editor

theorem searcher?_transition (e : Editor σ) (mode : Mode) (options : EnterOptions) {s : Searcher}
    (hs : e.search.searcher? = some s) :
    ∃ s', (e.transition mode options).search.searcher? = some s' ∧
      Searcher.Switched [⟨mode, options⟩] s s' := by
  have left : ∃ s₁, (e.modify e.mode Modal.willLeave).search.searcher? = some s₁ ∧
      s₁.last = s.last := by
    by_cases hm : e.mode = .search
    · refine ⟨s.latch {}, ?_, rfl⟩
      rw [hm]
      show e.search.willLeave.searcher? = _
      rw [Modal.searcher?_willLeave, hs]
      rfl
    · refine ⟨s, ?_, rfl⟩
      show ((e.modify e.mode Modal.willLeave).modal .search).searcher? = _
      rw [modal_modify_of_ne _ _ _ (Ne.symm hm)]
      exact hs
  obtain ⟨s₁, hs₁, last⟩ := left
  -- the reset of all modals at the end of the switch has nothing to do with the searcher
  have entered : (e.transition mode options).search.searcher? =
      (((e.modify e.mode Modal.willLeave).modify mode (Modal.willEnter · options)).modal
        .search).searcher? := by
    show ((e.transition mode options).modal .search).searcher? = _
    rw [modal_transition, Modal.searcher?_reset]
  by_cases hm : mode = .search
  · subst hm
    refine ⟨s₁.latch options, ?_, last, nofun, ?_⟩
    · rw [entered, modal_modify_self, Modal.searcher?_willEnter]
      show (e.modify e.mode Modal.willLeave).search.searcher?.map _ = _
      rw [hs₁]
      rfl
    · intro o h
      cases h
      exact Searcher.latch_congr last options
  · refine ⟨s₁, ?_, last, nofun, ?_⟩
    · rw [entered, modal_modify_of_ne _ _ _ (Ne.symm hm)]
      exact hs₁
    · intro o h
      cases h
      exact (hm rfl).elim

/-- While actions run the searcher changes by mode switches only. -/
theorem Ran.switched {e e' : Editor σ} {events : List (Event σ)} (h : Ran e events e')
    {s : Searcher} (hs : e.search.searcher? = some s) : ∃ s', e'.search.searcher? = some s' ∧
      Searcher.Switched (events.filterMap Event.request?) s s' := by
  induction h generalizing s with
  | done => exact ⟨s, hs, .refl s⟩
  | execute _ ih => exact ih hs
  | search _ ih => exact ih hs
  | ask _ ih => exact ih hs
  | update _ ih => exact ih hs
  | @switch e _ mode options events _ ih =>
      obtain ⟨s₁, hs₁, first⟩ := searcher?_transition e mode options hs
      obtain ⟨s', hs', rest⟩ := ih hs₁
      exact ⟨s', hs', first.trans rest⟩

/-! ## Operations -/

/-- The searcher and the search that an answer consists of account for some events, apart from the mode
switches among them. -/
structure Answered (events : List (Event σ)) (answer : Searcher × Option SearchQuery)
    (e' : Editor σ) : Prop where
  queries : events.filterMap Event.query? = answer.2.toList
  searcher : ∃ s', e'.search.searcher? = some s' ∧
    Searcher.Switched (events.filterMap Event.request?) answer.1 s'

theorem Answered.quiet {e' : Editor σ} {s : Searcher} (h : e'.search.searcher? = some s) :
    Answered ([] : List (Event σ)) (s, none) e' :=
  ⟨rfl, s, h, .refl s⟩

theorem queries_eq_nil {Q : (σ → σ) → Prop} {events : List (Event σ)}
    (h : ∀ event ∈ events, event.ByAction Q) : events.filterMap Event.query? = [] := by
  refine List.filterMap_eq_nil_iff.2 ?_
  intro event hevent
  have by_action := h event hevent
  cases event <;> first | rfl | exact by_action.elim

/-- Whatever an action does, it hands over no search. -/
theorem Ran.answered {e e' : Editor σ} {events : List (Event σ)} (h : Ran e events e')
    (actions : ∀ event ∈ events, event.ByAction fun _ => True) {s : Searcher}
    (hs : e.search.searcher? = some s) : Answered events (s, none) e' :=
  ⟨queries_eq_nil actions, h.switched hs⟩

theorem answered_transition (e : Editor σ) (r : ModeRequest) {s : Searcher}
    (hs : e.search.searcher? = some s) :
    Answered (Event.switch e.mode r) (s, none) (e.transition r.mode r.options) :=
  (ran_switch e r).answered (byAction_switch e.mode r) hs

end Editor

/-- The search that an input comes to. -/
def Resolution.query? : Resolution σ → Option SearchQuery
  | .search query => some query
  | _ => none

theorem Modal.query?_onKey {m : Modal σ} {s : Searcher} (h : m.searcher? = some s)
    (store : Store (Action σ)) (key : Char) (now : Nat) :
    (m.onKey store key now).2.query? = (s.onKey key).2 := by
  unfold searcher? at h
  unfold onKey
  cases hk : m.kind with
  | keymap matcher =>
      rw [hk] at h
      cases h
  | visual matcher shape =>
      rw [hk] at h
      cases h
  | search other =>
      rw [hk] at h
      cases h
      dsimp only
      split
      · next he => rw [he]; rfl
      · next he => rw [he]; rfl

namespace Editor

/-- Nothing but the search that an input comes to is handed over. -/
theorem queries_resolve (e : Editor σ) (source : Mode) (r : Resolution σ) :
    (e.resolveEvents source r).filterMap Event.query? = r.query?.toList := by
  cases r with
  | pending => rfl
  | unhandled => rfl
  | run action => exact queries_eq_nil (byAction_exec _ _ e action action.updates_true)
  | search query =>
      have switches := byAction_switches (Q := fun _ : σ → σ => True) e.mode
        (e.host.search e.state { current := e.mode } query).modes.pending
      show query :: (Event.switches e.mode _).filterMap Event.query? = [query]
      rw [queries_eq_nil switches]

theorem answered_resolve (e : Editor σ) (source : Mode) (r : Resolution σ) {s : Searcher}
    (hs : e.search.searcher? = some s) :
    Answered (e.resolveEvents source r) (s, r.query?) (e.resolve source r).1 := by
  refine ⟨queries_resolve e source r, ?_⟩
  have reset : ∀ {x : Editor σ} {s' : Searcher}, x.search.searcher? = some s' →
      (x.modify source Modal.reset).search.searcher? = some s' := by
    intro x s' hx
    rw [searcher?_modify (Modal.searcher?_reset _), hx]
  cases r with
  | pending => exact ⟨s, hs, .refl s⟩
  | unhandled => exact ⟨s, reset hs, .refl s⟩
  | run action =>
      obtain ⟨s', hs', switched⟩ := (ran_exec _ _ e action).switched hs
      exact ⟨s', reset hs', switched⟩
  | search query => exact (ran_runSearch e query).switched hs

/-- A key that hands over a search confirms that one, and hands over no other. -/
theorem onKey_of_query {e : Editor σ} {key : Char} {now : Nat} {query : SearchQuery}
    (h : query ∈ (e.operationEvents (.inputKey key now)).filterMap Event.query?) :
    ((e.modal e.mode).onKey e.store key now).2 = .search query ∧
      (e.operationEvents (.inputKey key now)).filterMap Event.query? = [query] := by
  let taken := (e.modal e.mode).onKey e.store key now
  have queries : (e.operationEvents (.inputKey key now)).filterMap Event.query? =
      taken.2.query?.toList := queries_resolve (e.modify e.mode fun _ => taken.1) e.mode taken.2
  show taken.2 = .search query ∧ _
  rw [queries] at h ⊢
  cases hr : taken.2 with
  | search other =>
      rw [hr] at h
      rw [List.mem_singleton.1 h]
      exact ⟨rfl, rfl⟩
  | _ =>
      rw [hr] at h
      cases h

/-- What an operation means for a searcher: only keys that are typed in Search mode concern it. -/
def searchAnswer (e : Editor σ) (s : Searcher) : Operation σ → Searcher × Option SearchQuery
  | .inputKey key _ => if e.mode = .search then s.onKey key else (s, none)
  | _ => (s, none)

theorem answered_inputKey {e : Editor σ} (h : e.Settled) (key : Char) (now : Nat) {s : Searcher}
    (hs : e.search.searcher? = some s) :
    Answered (e.operationEvents (.inputKey key now)) (e.searchAnswer s (.inputKey key now))
      (e.apply (.inputKey key now)) := by
  let taken := (e.modal e.mode).onKey e.store key now
  have resolved : ∀ {s₁ : Searcher},
      (e.modify e.mode fun _ => taken.1).search.searcher? = some s₁ →
      Answered (e.operationEvents (.inputKey key now)) (s₁, taken.2.query?)
        (e.apply (.inputKey key now)) := fun hs₁ =>
    let answered := answered_resolve (e.modify e.mode fun _ => taken.1) e.mode taken.2 hs₁
    ⟨answered.queries, answered.searcher⟩
  rw [searchAnswer]
  by_cases hm : e.mode = .search
  · have hs' : (e.modal e.mode).searcher? = some s := by rw [hm]; exact hs
    have collected := (Modal.onKey_of_searcher? hs' e.store key now).2.1
    have query : taken.2.query? = (s.onKey key).2 := Modal.query?_onKey hs' e.store key now
    have changed : (e.modify e.mode fun _ => taken.1).search.searcher? = some (s.onKey key).1 := by
      show ((e.modify e.mode fun _ => taken.1).modal .search).searcher? = _
      rw [modal_modify, if_pos hm.symm]
      exact collected
    have answered := resolved changed
    rw [if_pos hm]
    rwa [query] at answered
  · have none : taken.2.query? = none := by
      cases hr : taken.2 with
      | search query =>
          have collects := Modal.searcher?_of_onKey_search hr
          rw [h.collects, decide_eq_true_iff] at collects
          exact (hm collects).elim
      | _ => rfl
    have unchanged : (e.modify e.mode fun _ => taken.1).search.searcher? = some s := by
      show ((e.modify e.mode fun _ => taken.1).modal .search).searcher? = _
      rw [modal_modify_of_ne _ _ _ (Ne.symm hm)]
      exact hs
    have answered := resolved unchanged
    rw [if_neg hm]
    rwa [none] at answered

theorem answered_checkTimeout (e : Editor σ) (now : Nat) {s : Searcher}
    (hs : e.search.searcher? = some s) :
    Answered (e.operationEvents (.checkTimeout now)) (s, none) (e.apply (.checkTimeout now)) := by
  rw [operationEvents, inputEvents,
    show Operation.checkTimeout now = (TimedInput.check now).operation from rfl, apply_input]
  rcases e.taken_check_cases now with hn | ⟨matcher, _, ht⟩
  · rw [hn]
    exact .quiet hs
  · rw [ht]
    have hs' : (e.modify e.mode (Modal.mapMatcher · Matcher.reset)).search.searcher? = some s := by
      rw [searcher?_modify (Modal.searcher?_mapMatcher _ _), hs]
    have answered := answered_resolve (e.modify e.mode (Modal.mapMatcher · Matcher.reset)) e.mode
      matcher.expired hs'
    have none : matcher.expired.query? = none := by
      rcases matcher.expired_cases with ⟨action, he⟩ | ⟨_, _, he⟩ <;> rw [he] <;> rfl
    rw [none] at answered
    exact ⟨answered.queries, answered.searcher⟩

theorem answered_apply {e : Editor σ} (h : e.Settled) {op : Operation σ} (hop : op.Regular)
    {s : Searcher} (hs : e.search.searcher? = some s) :
    Answered (e.operationEvents op) (e.searchAnswer s op) (e.apply op) := by
  have store : ∀ (x : Editor σ) st, x.search.searcher? = some s →
      { x with store := st }.search.searcher? = some s := fun _ _ hx => hx
  have update : ∀ (x : Editor σ) mode (f : Modal σ → Modal σ), (x.modal mode).Keeps (f (x.modal mode)) →
      x.search.searcher? = some s → (x.update mode f).search.searcher? = some s :=
    fun x mode f hk hx => (searcher?_modify hk.searcher).trans hx
  have updateKeymap : ∀ (x : Editor σ) mode km, x.search.searcher? = some s →
      (x.updateKeymap mode km).search.searcher? = some s := by
    intro x mode km hx
    exact (searcher?_modify (e := { x with store := _ })
      (Modal.keeps_updateKeymap (x.modal mode) x.store x.held km).searcher).trans hx
  have clearKeymap : ∀ (x : Editor σ) mode, x.search.searcher? = some s →
      (x.clearKeymap mode).search.searcher? = some s := by
    intro x mode hx
    exact (searcher?_modify (e := { x with store := _ })
      (Modal.keeps_clearKeymap (x.modal mode) x.store).searcher).trans hx
  cases op with
  | inputKey key now => exact answered_inputKey h key now hs
  | checkTimeout now => exact answered_checkTimeout e now hs
  | enterMode mode options =>
      have answered := answered_transition e ⟨mode, options⟩ hs
      exact ⟨answered.queries, answered.searcher⟩
  | enterModeNamed name options =>
      rw [operationEvents, apply, enterModeNamed]
      cases Mode.ofName? name with
      | none => exact .quiet hs
      | some mode =>
          have answered := answered_transition e ⟨mode, options⟩ hs
          exact ⟨answered.queries, answered.searcher⟩
  | resetCurrent => exact .quiet (update e e.mode Modal.reset (Modal.keeps_reset _) hs)
  | resetAll => exact .quiet ((Modal.searcher?_reset e.search).trans hs)
  | clearKeymaps => exact .quiet (clearKeymaps_preserves clearKeymap hs)
  | updateKeymaps layers => exact .quiet (mergeLayer_preserves store updateKeymap _ layers hs)
  | applyPreset preset => exact .quiet (mergeLayers_preserves store updateKeymap _ hs)
  | updateFromSettings settings =>
      exact .quiet (updateFromSettings_preserves store updateKeymap clearKeymap
        (fun x mode wait => update x mode _ (Modal.keeps_setWait _ wait)) settings hs)
  | setKeymap mode root => exact .quiet (update e mode _ (Modal.keeps_setKeymap _ root) hs)
  | updateKeymap mode layer => exact .quiet (updateKeymap e mode layer hs)
  | clearKeymap mode => exact .quiet (clearKeymap e mode hs)
  | setWait mode wait => exact .quiet (update e mode _ (Modal.keeps_setWait _ wait) hs)
  | setDefaultHandler mode action =>
      exact .quiet (update e mode _ (Modal.keeps_setDefaultHandler _ action) hs)
  | setTimeoutHandler mode action =>
      exact .quiet (update e mode _ (Modal.keeps_setTimeoutHandler _ action) hs)
  | changeModal mode change => exact hop.elim
  | changeStore change => exact .quiet hs
  | changeState change => exact ⟨rfl, s, hs, .refl s⟩
  | subscribe => exact .quiet hs
  | unsubscribe ticket => exact .quiet hs
  | receive ticket => exact .quiet hs

/-! ## Whole runs -/

theorem lastSearch_eq {e : Editor σ} {s : Searcher} (hs : e.search.searcher? = some s) :
    e.lastSearch = s.last := by
  rw [lastSearch, Modal.lastSearch, hs]
  rfl

theorem Settled.exists_searcher {e : Editor σ} (h : e.Settled) :
    ∃ s, e.search.searcher? = some s :=
  Option.isSome_iff_exists.1 (h.collects .search)

theorem last_searchAnswer (e : Editor σ) (s : Searcher) (op : Operation σ) :
    (e.searchAnswer s op).1.last = (e.searchAnswer s op).2.or s.last := by
  cases op with
  | inputKey key now =>
      rw [searchAnswer]
      split
      · exact s.last_onKey key
      · rfl
  | _ => rfl

/-- The last search is the last one handed over by an operation, if there is one. -/
theorem lastSearch_apply {e : Editor σ} (h : e.Settled) {op : Operation σ} (hop : op.Regular) :
    (e.apply op).lastSearch =
      ((e.operationEvents op).filterMap Event.query?).getLast?.or e.lastSearch := by
  obtain ⟨s, hs⟩ := h.exists_searcher
  obtain ⟨queries, s', hs', switched⟩ := answered_apply h hop hs
  rw [lastSearch_eq hs', switched.last, last_searchAnswer, queries, lastSearch_eq hs]
  cases (e.searchAnswer s op).2 <;> rfl

theorem lastSearch_run {e : Editor σ} (h : e.Settled) {ops : List (Operation σ)}
    (hops : ∀ op ∈ ops, op.Regular) : (e.run ops).lastSearch =
      ((e.runEvents ops).filterMap Event.query?).getLast?.or e.lastSearch := by
  induction ops generalizing e with
  | nil => rfl
  | cons op rest ih =>
      have hop := hops op List.mem_cons_self
      have later := ih (h.apply hop) fun o ho => hops o (List.mem_cons_of_mem _ ho)
      show ((e.apply op).run rest).lastSearch = _
      rw [later, lastSearch_apply h hop, runEvents, List.filterMap_append, List.getLast?_append,
        Option.or_assoc]

/-- Nothing but a key that is typed in Search mode hands over a search. -/
theorem queries_eq_nil_of_not_typed {e : Editor σ} (h : e.Settled) {op : Operation σ}
    (hop : op.Regular) (other : (∀ key now, op ≠ .inputKey key now) ∨ e.mode ≠ .search) :
    (e.operationEvents op).filterMap Event.query? = [] := by
  obtain ⟨s, hs⟩ := h.exists_searcher
  rw [(answered_apply h hop hs).queries]
  cases op with
  | inputKey key now =>
      rcases other with typed | hm
      · exact (typed key now rfl).elim
      · rw [searchAnswer, if_neg hm]
        rfl
  | _ => rfl

end Editor

/-! ## Collecting text -/

/-- The key that an operation types. -/
def Operation.key? : Operation σ → Option Char
  | .inputKey key _ => some key
  | _ => none

/-- The keys that some operations type, in order. -/
def typedKeys (ops : List (Operation σ)) : List Char := ops.filterMap Operation.key?

/-- Every mode that is entered has been asked for. -/
theorem Protocol.entered_eq {source target : Mode} {events : List (Event σ)}
    (h : Protocol source events target) :
    events.filterMap Event.entered? = (events.filterMap Event.request?).map (·.mode) := by
  induction h with
  | done => rfl
  | @switch source mode target options events _ ih => exact congrArg (mode :: ·) ih
  | execute _ ih => exact ih
  | search _ ih => exact ih
  | ask _ ih => exact ih
  | update _ ih => exact ih

namespace Editor

/-- Search mode has been entered with some options, and some keys have been typed since. -/
structure Searching (e : Editor σ) (o : EnterOptions) (keys : List Char) : Prop where
  mode : e.mode = .search
  searcher : e.search.searcher? = some (Searcher.collected o keys e.lastSearch)

namespace Searching

variable {e : Editor σ} {o : EnterOptions} {keys : List Char}

theorem answer_eq (h : e.Searching o keys) (op : Operation σ) :
    ∃ query, e.searchAnswer (Searcher.collected o keys e.lastSearch) op =
        (Searcher.collected o (keys ++ op.key?.toList) (query.or e.lastSearch), query) ∧
      o.confirmed (keys ++ op.key?.toList) = o.confirmed keys ++ query.toList := by
  cases op with
  | inputKey key now =>
      rw [searchAnswer, if_pos h.mode, Searcher.onKey_collected]
      show ∃ query, _ ∧ o.confirmed (keys ++ [key]) = _
      rw [o.confirmed_concat]
      split
      · exact ⟨some (o.query (keys ++ [key])), rfl, rfl⟩
      · exact ⟨none, rfl, rfl⟩
  | _ =>
      refine ⟨none, ?_, ?_⟩
      · show _ = (Searcher.collected o (keys ++ []) _, _)
        rw [List.append_nil]
        rfl
      · show o.confirmed (keys ++ []) = o.confirmed keys ++ []
        rw [List.append_nil, List.append_nil]

/-- An operation hands over the search that its key confirms. -/
theorem confirmed_apply (h : e.Searching o keys) (hs : e.Settled) {op : Operation σ}
    (hop : op.Regular) : o.confirmed (keys ++ op.key?.toList) =
      o.confirmed keys ++ (e.operationEvents op).filterMap Event.query? := by
  obtain ⟨query, answer, confirmed⟩ := h.answer_eq op
  rw [(answered_apply hs hop h.searcher).queries, answer]
  exact confirmed

/-- Without a mode switch an operation adds its key to those typed. -/
theorem apply (h : e.Searching o keys) (hs : e.Settled) {op : Operation σ} (hop : op.Regular)
    (stays : (e.operationEvents op).filterMap Event.entered? = []) :
    (e.apply op).Searching o (keys ++ op.key?.toList) := by
  have protocol := (accounted_apply e op).protocol
  have no_requests : (e.operationEvents op).filterMap Event.request? = [] := by
    rw [protocol.entered_eq] at stays
    exact List.map_eq_nil_iff.1 stays
  obtain ⟨query, answer, _⟩ := h.answer_eq op
  obtain ⟨_, s', hs', switched⟩ := answered_apply hs hop h.searcher
  rw [answer] at switched
  have same := switched.same no_requests
  refine ⟨?_, ?_⟩
  · rw [protocol.target_eq, stays]
    exact h.mode
  · rw [lastSearch_eq hs', hs', same]
    rfl

theorem run (h : e.Searching o keys) (hs : e.Settled) {ops : List (Operation σ)}
    (hops : ∀ op ∈ ops, op.Regular)
    (stays : (e.runEvents ops).filterMap Event.entered? = []) :
    (e.run ops).Searching o (keys ++ typedKeys ops) ∧ o.confirmed (keys ++ typedKeys ops) =
      o.confirmed keys ++ (e.runEvents ops).filterMap Event.query? := by
  induction ops generalizing e keys with
  | nil =>
      have none_typed : keys ++ typedKeys ([] : List (Operation σ)) = keys := List.append_nil keys
      rw [none_typed]
      exact ⟨h, (List.append_nil _).symm⟩
  | cons op rest ih =>
      have hop := hops op List.mem_cons_self
      rw [runEvents, List.filterMap_append, List.append_eq_nil_iff] at stays
      have typed : keys ++ typedKeys (op :: rest) =
          keys ++ op.key?.toList ++ typedKeys rest := by
        rw [List.append_assoc, typedKeys, typedKeys, List.filterMap_cons]
        cases op.key? <;> rfl
      obtain ⟨later, confirmed⟩ := ih (h.apply hs hop stays.1) (hs.apply hop)
        (fun o ho => hops o (List.mem_cons_of_mem _ ho)) stays.2
      rw [typed]
      refine ⟨later, ?_⟩
      rw [confirmed, h.confirmed_apply hs hop, runEvents, List.filterMap_append,
        List.append_assoc]

end Searching

/-- An operation that ends in a switch to Search mode starts a search, whatever it does before. -/
theorem searching_apply {e : Editor σ} (h : e.Settled) {op : Operation σ} (hop : op.Regular)
    {o : EnterOptions}
    (enters : ((e.operationEvents op).filterMap Event.request?).getLast? = some ⟨.search, o⟩) :
    (e.apply op).Searching o [] := by
  obtain ⟨s, hs⟩ := h.exists_searcher
  obtain ⟨_, s', hs', switched⟩ := answered_apply h hop hs
  have protocol := (accounted_apply e op).protocol
  refine ⟨?_, ?_⟩
  · rw [protocol.target_eq, protocol.entered_eq, List.getLastD_eq_getLast?, List.getLast?_map,
      enters]
    rfl
  · rw [lastSearch_eq hs', hs', switched.latched o enters, Searcher.latch_eq_collected]
    rfl

/-- A key that is typed in Search mode leaves no mode waiting for another one. -/
theorem idle_inputKey {e : Editor σ} (h : e.Settled) (hm : e.mode = .search) (key : Char) (now : Nat)
    (mode : Mode) : ((e.apply (.inputKey key now)).modal mode).Idle := by
  let taken := (e.modal e.mode).onKey e.store key now
  have collects : (e.modal e.mode).searcher?.isSome := by
    rw [h.collects, hm]
    rfl
  obtain ⟨s, hs⟩ := Option.isSome_iff_exists.1 collects
  obtain ⟨keySeq, searcher, answer⟩ := Modal.onKey_of_searcher? hs e.store key now
  have still_collects : taken.1.searcher?.isSome := by
    rw [show taken.1.searcher? = _ from searcher]
    rfl
  have taken_idle : taken.1.Idle := {
    keySeq := keySeq.trans (h.tidy.idle_of_searcher? collects).keySeq
    pending := Modal.isPending_eq_false_of_searcher? still_collects
    deadline := Modal.deadline_eq_none_of_searcher? still_collects }
  have idle : ∀ m, ((e.modify e.mode fun _ => taken.1).modal m).Idle := by
    intro m
    rw [modal_modify]
    split
    · exact taken_idle
    · exact h.idle m ‹_›
  show (((e.modify e.mode fun _ => taken.1).resolve e.mode taken.2).1.release.modal mode).Idle
  rw [modal_release]
  rcases answer with waits | ⟨query, confirms⟩
  · rw [show taken.2 = .pending from waits]
    exact idle mode
  · -- the switches that the host asks for reset every modal
    rw [show taken.2 = .search query from confirms]
    exact (ran_runSearch _ query).modal_of_reset Modal.idle_reset (idle mode)

/-- Searches in every run from a new editor. The last search is always the last one that was handed over,
and nothing but a key typed in Search mode hands one over or changes it. When an operation has entered
Search mode with some options, and no mode switch has happened since, the searches handed over are those
that the keys typed since then confirm with these options, and so is the search that the next key hands
over, if any. Such a key never leaves a mode waiting for another one. -/
theorem searches_run_create (host : Host σ) (state : σ) (ops : List (Operation σ))
    (hops : ∀ op ∈ ops, op.Regular) :
    let e := (create host state).run ops
    e.lastSearch = (((create host state).runEvents ops).filterMap Event.query?).getLast? ∧
    (∀ op : Operation σ, op.Regular → (∀ key now, op ≠ .inputKey key now) ∨ e.mode ≠ .search →
      (e.operationEvents op).filterMap Event.query? = [] ∧
      (e.apply op).lastSearch = e.lastSearch) ∧
    ∀ before op during options, ops = before ++ op :: during →
      let entering := (create host state).run before
      ((entering.operationEvents op).filterMap Event.request?).getLast? = some ⟨.search, options⟩ →
      ((entering.apply op).runEvents during).filterMap Event.entered? = [] →
      e.mode = .search ∧
      e.search.searcher? = some (Searcher.collected options (typedKeys during) e.lastSearch) ∧
      ((entering.apply op).runEvents during).filterMap Event.query? =
        options.confirmed (typedKeys during) ∧
      ∀ key now,
        (e.operationEvents (.inputKey key now)).filterMap Event.query? =
          (if options.confirms key then [options.query (typedKeys during ++ [key])] else []) ∧
        ∀ mode, ((e.apply (.inputKey key now)).modal mode).Idle := by
  intro e
  have settled : e.Settled := settled_run_create host state ops hops
  refine ⟨?_, ?_, ?_⟩
  · have last := lastSearch_run (settled_create host state) hops
    rwa [show (create host state).lastSearch = none from rfl, Option.or_none] at last
  · intro op hop other
    have none := queries_eq_nil_of_not_typed settled hop other
    refine ⟨none, ?_⟩
    rw [lastSearch_apply settled hop, none]
    rfl
  · intro before op during options split entering enters stays
    rw [split] at hops
    have settled_before : entering.Settled :=
      settled_run_create host state before fun o ho => hops o (List.mem_append_left _ ho)
    have hop : op.Regular := hops op (List.mem_append_right _ List.mem_cons_self)
    have started := searching_apply settled_before hop enters
    obtain ⟨searching, confirmed⟩ := started.run (settled_before.apply hop)
      (fun o ho => hops o (List.mem_append_right _ (List.mem_cons_of_mem _ ho))) stays
    have reached : (entering.apply op).run during = e := by
      show _ = ops.foldl Editor.apply (create host state)
      rw [split, List.foldl_append]
      rfl
    rw [reached, List.nil_append] at searching
    refine ⟨searching.mode, searching.searcher, confirmed.symm, ?_⟩
    intro key now
    refine ⟨?_, idle_inputKey settled searching.mode key now⟩
    have regular : (Operation.inputKey key now : Operation σ).Regular := trivial
    have next := searching.confirmed_apply settled regular
    rw [Operation.key?, Option.toList_some, EnterOptions.confirmed_concat] at next
    exact (List.append_cancel_left next).symm

/-- Search mode is entered for the second time, by an action that fails afterwards. A search that has been
confirmed may be confirmed again, and more keys then add to its text. -/
theorem searches_run_create_after_failure :
    let host := Host.recorder [("find", [.enter .search { searchRange := some .line }, .fail
      (.failed "disk")])] []
    let before : List (Operation Record) := [.enterMode .search { singleChar := some true },
      .inputKey 'a' 0, .enterModeNamed "normal" {},
      .setDefaultHandler .normal (some (.command "find" none))]
    let during : List (Operation Record) := [.inputKey 'x' 0, .updateFromSettings {},
      .inputKey '\n' 1, .resetAll, .inputKey 'y' 2]
    let ops := before ++ .inputKey 'q' 0 :: during
    let entering := (create host []).run before
    (∀ op ∈ ops, op.Regular) ∧
      ((entering.operationEvents (.inputKey 'q' 0)).filterMap Event.request?).getLast? =
        some ⟨.search, { searchRange := some .line }⟩ ∧
      ((entering.apply (.inputKey 'q' 0)).runEvents during).filterMap Event.entered? = [] ∧
      (((create host []).run ops).operationEvents (.inputKey '\n' 3)).filterMap Event.query? =
        [⟨"xy", .line, .after⟩] ∧
      ((create host []).run ops).lastSearch = some ⟨"x", .line, .after⟩ := by
  intro host before during ops entering
  have regular : ∀ op ∈ ops, op.Regular := by simp [ops, before, during, Operation.Regular]
  have enters : ((entering.operationEvents (.inputKey 'q' 0)).filterMap Event.request?).getLast? =
      some ⟨.search, { searchRange := some .line }⟩ := by decide +kernel
  have stays : ((entering.apply (.inputKey 'q' 0)).runEvents during).filterMap Event.entered? = [] := by
    decide +kernel
  obtain ⟨last, _, collecting⟩ := searches_run_create host [] ops regular
  obtain ⟨_, _, _, next⟩ := collecting before (.inputKey 'q' 0) during _ rfl enters stays
  refine ⟨regular, enters, stays, ?_, ?_⟩
  · rw [(next '\n' 3).1]
    decide +kernel
  · rw [last]
    decide +kernel

end Editor

end ModalKeys
