import ModalKeys.Proofs.Editor.Transition

/-!
# Events

What an editor does can be noticed from outside in a few ways only: the host's hooks are called, and
callbacks are told the active mode and change the state that they share with the host. This file
lists these events in order for each action, next to the functions that run actions, and relates the
two by `Ran`. What holds along every run of an action is then an induction over `Ran`, which has one
case for each kind of event, and needs no look at the shape of actions or callbacks.
-/

namespace ModalKeys

variable {σ : Type}

/-- Something that can be noticed from outside. -/
inductive Event (σ : Type) where
  /-- The host is asked to run a command and told the active mode. -/
  | execute (current : Mode) (command : String) (args : Option Json)
  /-- The host is handed a search and told the active mode. -/
  | search (current : Mode) (query : SearchQuery)
  | willLeave (mode : Mode)
  | willEnter (mode : Mode) (options : EnterOptions)
  | didEnter (mode : Mode)
  /-- A callback asks for the active mode and is told it. -/
  | ask (current : Mode)
  /-- The state is changed by a callback or by the embedding program. -/
  | update (step : σ → σ)

namespace Event

/-- What an event does to the state of the host. -/
def effect (host : Host σ) (s : σ) : Event σ → σ
  | .execute current command args => (host.execute s { current } command args).state
  | .search current query => (host.search s { current } query).state
  | .willLeave mode => host.willLeave s mode
  | .willEnter mode options => host.willEnter s mode options
  | .didEnter mode => host.didEnter s mode
  | .ask _ => s
  | .update step => step s

/-- The state after some events. -/
def replay (host : Host σ) (s : σ) (events : List (Event σ)) : σ := events.foldl (effect host) s

/-- The calls that a switch from one mode to another consists of. -/
def switch (source : Mode) (r : ModeRequest) : List (Event σ) :=
  [.willLeave source, .willEnter r.mode r.options, .didEnter r.mode]

/-- The calls for several switches in a row. -/
def switches (source : Mode) : List ModeRequest → List (Event σ)
  | [] => []
  | r :: rest => switch source r ++ switches r.mode rest

/-- The mode that an event completes the switch to. -/
def entered? : Event σ → Option Mode
  | .didEnter mode => some mode
  | _ => none

theorem replay_append (host : Host σ) (s : σ) (xs ys : List (Event σ)) :
    replay host s (xs ++ ys) = replay host (replay host s xs) ys :=
  List.foldl_append

end Event

namespace Editor

/-! ## The events of an action -/

/-- The events when a command is passed to the host. -/
def commandEvents (e : Editor σ) (command : String) (args : Option Json) : List (Event σ) :=
  .execute e.mode command args :: Event.switches e.mode
    (e.host.execute e.state { current := e.mode } command args).modes.pending

/-- The events when a search is passed to the host. -/
def searchEvents (e : Editor σ) (query : SearchQuery) : List (Event σ) :=
  .search e.mode query :: Event.switches e.mode
    (e.host.search e.state { current := e.mode } query).modes.pending

/-- The events when a command is run, be it built in or the host's. -/
def executeEvents (e : Editor σ) (command : String) (args : Option Json) : List (Event σ) :=
  match Builtin.request command args with
  | .error _ => []
  | .ok (some request) => Event.switch e.mode request
  | .ok none => e.commandEvents command args

/-- The events of the conversation with a callback. -/
def converseEvents (name : String) (e : Editor σ) : Script σ → List (Event σ)
  | .done => []
  | .fail _ => []
  | .ask next => .ask e.mode :: e.converseEvents name (next e.mode name)
  | .update step next =>
    .update step :: { e with state := step e.state }.converseEvents name (next e.state)
  | .enter mode options next =>
    Event.switch e.mode ⟨mode, options⟩ ++ (e.transition mode options).converseEvents name next
  | .execute command args next =>
    let (e', result) := e.execute command args
    e.executeEvents command args ++ e'.converseEvents name (next result)

mutual

/-- The events when an action runs for the keys that were typed. -/
def execEvents (name : String) (keys : List Char) (e : Editor σ) : Action σ → List (Event σ)
  | .command command args => e.executeEvents command args
  | .callback run => e.converseEvents name (run keys)
  | .sequence items => execAllEvents name keys e items
termination_by structural action => action

/-- The events when actions run in order until one fails. -/
def execAllEvents (name : String) (keys : List Char) (e : Editor σ) :
    List (Action σ) → List (Event σ)
  | [] => []
  | action :: rest =>
    execEvents name keys e action ++
      match exec name keys e action with
      | (e, .ok ()) => execAllEvents name keys e rest
      | (_, .error _) => []
termination_by structural actions => actions

end

/-- The events when what a key or a timeout came to is done. -/
def resolveEvents (e : Editor σ) (source : Mode) : Resolution σ → List (Event σ)
  | .pending => []
  | .unhandled => []
  | .run action => execEvents (e.modal source).name (e.modal source).keySeq e action
  | .search query => e.searchEvents query

/-! ## Runs -/

/-- An editor comes to be another one by some events and nothing else. Its host is called as the
events say, and apart from that it only switches modes. -/
inductive Ran : Editor σ → List (Event σ) → Editor σ → Prop
  | done (e : Editor σ) : Ran e [] e
  | execute {e e' : Editor σ} {command : String} {args : Option Json} {events : List (Event σ)} :
      Ran { e with
        state := (e.host.execute e.state { current := e.mode } command args).state } events e' →
      Ran e (.execute e.mode command args :: events) e'
  | search {e e' : Editor σ} {query : SearchQuery} {events : List (Event σ)} :
      Ran { e with
        state := (e.host.search e.state { current := e.mode } query).state } events e' →
      Ran e (.search e.mode query :: events) e'
  | ask {e e' : Editor σ} {events : List (Event σ)} :
      Ran e events e' → Ran e (.ask e.mode :: events) e'
  | update {e e' : Editor σ} {step : σ → σ} {events : List (Event σ)} :
      Ran { e with state := step e.state } events e' → Ran e (.update step :: events) e'
  | switch {e e' : Editor σ} {mode : Mode} {options : EnterOptions} {events : List (Event σ)} :
      Ran (e.transition mode options) events e' →
      Ran e (.willLeave e.mode :: .willEnter mode options :: .didEnter mode :: events) e'

theorem Ran.trans {e₁ e₂ e₃ : Editor σ} {xs ys : List (Event σ)} (h₁ : Ran e₁ xs e₂)
    (h₂ : Ran e₂ ys e₃) : Ran e₁ (xs ++ ys) e₃ := by
  induction h₁ with
  | done => exact h₂
  | execute _ ih => exact .execute (ih h₂)
  | search _ ih => exact .search (ih h₂)
  | ask _ ih => exact .ask (ih h₂)
  | update _ ih => exact .update (ih h₂)
  | switch _ ih => exact .switch (ih h₂)

/-- What may be assumed of an editor before an action may be assumed after it, if it does not depend
on the host's state and a mode switch keeps it. -/
theorem Ran.preserves {P : Editor σ → Prop} (state : ∀ e s, P e → P { e with state := s })
    (transition : ∀ e mode options, P e → P (e.transition mode options))
    {e e' : Editor σ} {events : List (Event σ)} (h : Ran e events e') : P e → P e' := by
  induction h with
  | done => exact id
  | execute _ ih => exact fun hp => ih (state _ _ hp)
  | search _ ih => exact fun hp => ih (state _ _ hp)
  | ask _ ih => exact ih
  | update _ ih => exact fun hp => ih (state _ _ hp)
  | switch _ ih => exact fun hp => ih (transition _ _ _ hp)

/-! ## Actions run as their events say -/

theorem ran_switch (e : Editor σ) (r : ModeRequest) :
    Ran e (Event.switch e.mode r) (e.transition r.mode r.options) :=
  .switch (.done _)

theorem ran_switches (e : Editor σ) (requests : List ModeRequest) :
    Ran e (Event.switches e.mode requests) (e.applyRequests requests) := by
  induction requests generalizing e with
  | nil => exact .done e
  | cons r rest ih =>
      -- the later switches start from the mode that the first one enters
      have h := (ran_switch e r).trans (ih (e.transition r.mode r.options))
      rwa [mode_transition] at h

theorem ran_runCommand (e : Editor σ) (command : String) (args : Option Json) :
    Ran e (e.commandEvents command args) (e.runCommand command args).1 :=
  .execute (ran_switches { e with state := _ } _)

theorem ran_runSearch (e : Editor σ) (query : SearchQuery) :
    Ran e (e.searchEvents query) (e.runSearch query).1 :=
  .search (ran_switches { e with state := _ } _)

theorem ran_execute (e : Editor σ) (command : String) (args : Option Json) :
    Ran e (e.executeEvents command args) (e.execute command args).1 := by
  unfold executeEvents execute
  cases Builtin.request command args with
  | error error => exact .done e
  | ok request =>
      cases request with
      | none => exact ran_runCommand e command args
      | some request => exact ran_switch e request

theorem ran_converse (name : String) (e : Editor σ) (script : Script σ) :
    Ran e (e.converseEvents name script) (e.converse name script).1 := by
  induction script generalizing e with
  | done => exact .done e
  | fail error => exact .done e
  | ask next ih => exact .ask (ih e.mode name e)
  | update step next ih => exact .update (ih e.state { e with state := step e.state })
  | enter mode options next ih =>
      exact (ran_switch e ⟨mode, options⟩).trans (ih (e.transition mode options))
  | execute command args next ih =>
      have h := ran_execute e command args
      exact h.trans (ih (e.execute command args).2 (e.execute command args).1)

mutual

theorem ran_exec (name : String) (keys : List Char) (e : Editor σ) :
    (action : Action σ) → Ran e (execEvents name keys e action) (exec name keys e action).1
  | .command command args => by
      rw [execEvents, exec]
      exact ran_execute e command args
  | .callback run => by
      rw [execEvents, exec]
      exact ran_converse name e (run keys)
  | .sequence items => by
      rw [execEvents, exec]
      exact ran_execAll name keys e items
termination_by structural action => action

theorem ran_execAll (name : String) (keys : List Char) (e : Editor σ) :
    (actions : List (Action σ)) →
      Ran e (execAllEvents name keys e actions) (execAll name keys e actions).1
  | [] => by
      rw [execAllEvents, execAll]
      exact .done e
  | action :: rest => by
      have h := ran_exec name keys e action
      rw [execAllEvents, execAll]
      generalize exec name keys e action = reply at h ⊢
      rcases reply with ⟨e', _ | ⟨⟩⟩
      · -- the rest of the sequence does not run
        simpa using h
      · exact h.trans (ran_execAll name keys e' rest)
termination_by structural actions => actions

end

/-! ## What every run does -/

namespace Ran

variable {e e' : Editor σ} {events : List (Event σ)}

theorem host_eq (h : Ran e events e') : e'.host = e.host :=
  h.preserves (P := fun x => x.host = e.host) (fun _ _ hx => hx)
    (fun x mode options hx => by rw [host_transition, hx]) rfl

theorem nextTicket_eq (h : Ran e events e') : e'.nextTicket = e.nextTicket :=
  h.preserves (P := fun x => x.nextTicket = e.nextTicket) (fun _ _ hx => hx)
    (fun x mode options hx => by rw [nextTicket_transition, hx]) rfl

/-- The state of the host is what its recorded calls make of it. -/
theorem state_eq (h : Ran e events e') : e'.state = Event.replay e.host e.state events := by
  induction h with
  | done => rfl
  | execute _ ih => exact ih
  | search _ ih => exact ih
  | ask _ ih => exact ih
  | update _ ih => exact ih
  | @switch e₁ _ mode options _ _ ih =>
      rw [ih, state_transition, host_transition]
      rfl

/-- What a reset makes true of a modal, and what was true of it before, is true afterwards. -/
theorem modal_of_reset {P : Modal σ → Prop} (reset : ∀ m : Modal σ, P m.reset) {mode : Mode}
    (h : Ran e events e') (he : P (e.modal mode)) : P (e'.modal mode) := by
  refine h.preserves (P := fun x => P (x.modal mode)) (fun _ _ hx => hx) ?_ he
  intro x target options _
  rw [modal_transition]
  exact reset _

/-- Whether a mode collects text is settled for good. -/
theorem isSome_searcher?_modal (h : Ran e events e') (mode : Mode) :
    (e'.modal mode).searcher?.isSome = (e.modal mode).searcher?.isSome :=
  h.preserves (P := fun x => (x.modal mode).searcher?.isSome = (e.modal mode).searcher?.isSome)
    (fun _ _ hx => hx)
    (fun x target options hx => by rw [isSome_searcher?_transition, hx]) rfl

end Ran

end Editor

end ModalKeys
