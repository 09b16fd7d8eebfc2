import ModalKeys.Proofs.Editor.Actions
import ModalKeys.Proofs.Editor.Searching
import ModalKeys.Terminal.Host

/-!
# The search memory of a terminal

An editor and the terminal that it prints on remember the last search each for themselves. The editor
does so when a key confirms a search, and the terminal when the search is handed to it, before it is
printed. Whichever writes fail, they remember the same search after every operation, the commands that
repeat a search always find the one that was confirmed last, and a confirmed search ends in Normal mode.
-/

namespace ModalKeys

namespace Terminal

/-! ## What is remembered -/

/-- A change of the terminal that leaves the last search alone. -/
def KeepsSearch (step : Terminal → Terminal) : Prop := ∀ t, (step t).lastSearch = t.lastSearch

theorem lastSearch_line (t : Terminal) (text : String) :
    (t.line text).1.lastSearch = t.lastSearch := rfl

theorem keepsSearch_echo (text : String) : KeepsSearch fun t => (t.echo text).1 := fun _ => rfl

/-- A command prints a line, or fails before it would. -/
theorem execute_cases (t : Terminal) (command : String) (args : Option Json) :
    (t.execute command args).1 = t ∨ ∃ text, (t.execute command args).1 = (t.line text).1 := by
  have repeated (reverse : Bool) : (t.repeatSearch command reverse).1 = t ∨
      ∃ text, (t.repeatSearch command reverse).1 = (t.line text).1 := by
    unfold repeatSearch
    split
    · exact Or.inl rfl
    · exact Or.inr ⟨_, rfl⟩
  unfold execute
  split
  · split
    · exact Or.inr ⟨_, rfl⟩
    · exact Or.inl rfl
  · split
    · exact repeated false
    · split
      · exact repeated true
      · split <;> exact Or.inr ⟨_, rfl⟩

theorem lastSearch_execute (t : Terminal) (command : String) (args : Option Json) :
    (t.execute command args).1.lastSearch = t.lastSearch := by
  rcases t.execute_cases command args with h | ⟨text, h⟩
  · rw [h]
  · rw [h, lastSearch_line]

/-- A search is remembered also when it cannot be printed. -/
theorem lastSearch_search (t : Terminal) (query : SearchQuery) :
    (t.search query).1.lastSearch = some query := rfl

/-- The terminal remembers the last search that it was handed. -/
theorem lastSearch_replay (t : Terminal) {events : List (Event Terminal)}
    (updates : ∀ step, .update step ∈ events → KeepsSearch step) :
    (Event.replay host t events).lastSearch =
      (events.filterMap Event.query?).getLast?.or t.lastSearch := by
  induction events generalizing t with
  | nil => rfl
  | cons event rest ih =>
      have later := ih (Event.effect host t event)
        fun step hs => updates step (List.mem_cons_of_mem _ hs)
      have kept (none : event.query? = none)
          (same : (Event.effect host t event).lastSearch = t.lastSearch) :
          (Event.replay host t (event :: rest)).lastSearch =
            ((event :: rest).filterMap Event.query?).getLast?.or t.lastSearch := by
        rw [List.filterMap_cons_none none, ← same]
        exact later
      cases event with
      | execute current command args => exact kept rfl (t.lastSearch_execute command args)
      | search current query =>
          have handed : (Event.effect host t (.search current query)).lastSearch = some query :=
            t.lastSearch_search query
          rw [List.filterMap_cons_some (show (Event.search current query).query? = some query from rfl),
            List.getLast?_cons]
          refine later.trans ?_
          rw [handed]
          cases (rest.filterMap Event.query?).getLast? <;> rfl
      | willLeave mode => exact kept rfl rfl
      | willEnter mode options => exact kept rfl rfl
      | didEnter mode => exact kept rfl rfl
      | ask current => exact kept rfl rfl
      | update step => exact kept rfl (updates step List.mem_cons_self t)

/-! ## Repeating a search -/

/-- The commands that repeat the last search, and what they call the direction. -/
def repeatCommands : List (String × String) :=
  [("modalex.searchNext", "same"), ("modalex.searchPrev", "reverse")]

/-- When some searches have been confirmed, the commands that repeat a search print the last one, and fail
without an attempt at printing exactly if there is none. -/
def RepeatsLast (t : Terminal) (searches : List SearchQuery) : Prop :=
  ∀ command direction, (command, direction) ∈ repeatCommands → ∀ args,
    (t.execute command args = (t, .error (.failed s!"{command}: no previous search")) ↔
      searches = []) ∧
    ∀ query, searches.getLast? = some query →
      t.execute command args = t.line s!"search {quoted query.text} again ({direction} direction)"

theorem writes_line (t : Terminal) (text : String) :
    (t.line text).1.output.writes = t.output.writes + 1 := by
  unfold line Output.write
  split
  · next h =>
      split at h <;> cases h <;> rfl

/-- Printing is an attempt, whatever comes of it. -/
theorem line_ne (t : Terminal) (text : String) (result : CommandResult) :
    t.line text ≠ (t, result) := by
  intro h
  have writes := t.writes_line text
  rw [h] at writes
  exact Nat.ne_of_lt (Nat.lt_succ_self _) writes

theorem execute_repeat (t : Terminal) {command direction : String}
    (h : (command, direction) ∈ repeatCommands) (args : Option Json) :
    t.execute command args = match t.lastSearch with
      | none => (t, .error (.failed s!"{command}: no previous search"))
      | some query => t.line s!"search {quoted query.text} again ({direction} direction)" := by
  simp only [repeatCommands, List.mem_cons, Prod.mk.injEq, List.not_mem_nil, or_false] at h
  rcases h with ⟨rfl, rfl⟩ | ⟨rfl, rfl⟩
  · unfold execute repeatSearch
    rw [if_neg (by decide), if_pos rfl]
    rfl
  · unfold execute repeatSearch
    rw [if_neg (by decide), if_neg (by decide), if_pos rfl]
    rfl

theorem repeatsLast {t : Terminal} {searches : List SearchQuery}
    (h : t.lastSearch = searches.getLast?) : t.RepeatsLast searches := by
  intro command direction hc args
  rw [t.execute_repeat hc args, h]
  rcases searches.eq_nil_or_concat' with rfl | ⟨before, last, rfl⟩
  · exact ⟨iff_of_true rfl rfl, nofun⟩
  · rw [List.getLast?_concat]
    refine ⟨iff_of_false (t.line_ne _ _) (by simp), ?_⟩
    rintro query ⟨⟩
    rfl

end Terminal

namespace Editor

/-! ## Terminals in editors -/

variable {e : Editor Terminal}

/-- The commands that repeat a search are the terminal's, which asks for no mode switch. -/
theorem execute_repeat (host : e.host = Terminal.host) {command direction : String}
    (h : (command, direction) ∈ Terminal.repeatCommands) (args : Option Json) :
    e.execute command args =
      ({ e with state := (e.state.execute command args).1 }, (e.state.execute command args).2) := by
  have hosts : Builtin.request command args = .ok none := by
    simp only [Terminal.repeatCommands, List.mem_cons, Prod.mk.injEq, List.not_mem_nil,
      or_false] at h
    rcases h with ⟨rfl, -⟩ | ⟨rfl, -⟩ <;> rfl
  rw [execute, hosts]
  show e.runCommand command args = _
  rw [runCommand, host]
  rfl

/-- A search that is handed to the terminal switches to Normal mode. -/
theorem runSearch_eq (host : e.host = Terminal.host) (query : SearchQuery) :
    e.runSearch query =
      ({ e with state := (e.state.search query).1 }.transition .normal {},
        (e.state.search query).2) := by
  rw [runSearch, host]
  rfl

/-- The terminal has the search before it tries to print it, and the mode is switched either way. -/
theorem inputKey_of_query (host : e.host = Terminal.host) {key : Char} {now : Nat}
    {query : SearchQuery}
    (h : query ∈ (e.operationEvents (.inputKey key now)).filterMap Event.query?) :
    (e.inputKey key now).1.mode = .normal ∧
      (e.inputKey key now).1.state = (e.state.search query).1 ∧
      (e.inputKey key now).2 = (e.state.search query).2.mapError .command := by
  let searching := e.modify e.mode fun _ => ((e.modal e.mode).onKey e.store key now).1
  have same_host : searching.host = Terminal.host := (host_modify ..).trans host
  have same_state : searching.state = e.state := state_modify ..
  have processed : e.inputKey key now =
      ((searching.runSearch query).1.release, (searching.runSearch query).2.mapError .command) := by
    simp only [inputKey, onKey, (onKey_of_query h).1]
    rfl
  rw [processed, runSearch_eq same_host, same_state]
  refine ⟨rfl, ?_, rfl⟩
  show ({ searching with state := (e.state.search query).1 }.transition .normal {}).state = _
  rw [state_transition]
  show searching.host.didEnter (searching.host.willEnter (searching.host.willLeave _ _) _ _) _ = _
  rw [same_host]
  rfl

/-- The search memory in every run of an editor on a terminal, whichever writes fail. No keymaps are
shared, and neither the embedding program nor the handlers that it sets change the terminal's memory. Then
the terminal and the editor remember the same search, the one that was confirmed last. At every point of
the run, also in the middle of an action, the commands that repeat a search print that one, and fail
exactly if no search has been confirmed. A key that confirms a search leads to Normal mode whatever comes
of printing it. -/
theorem search_memory_run_create (output : Output) (ops : List (Operation Terminal))
    (internal : ∀ op ∈ ops, op.Internal) (updates : ∀ op ∈ ops, op.Updates Terminal.KeepsSearch) :
    let start := create Terminal.host { output }
    let e := start.run ops
    let searches := (start.runEvents ops).filterMap Event.query?
    e.state.lastSearch = e.lastSearch ∧ e.lastSearch = searches.getLast? ∧
    e.state.RepeatsLast searches ∧
    (∀ command direction, (command, direction) ∈ Terminal.repeatCommands → ∀ args,
      e.execute command args =
        ({ e with state := (e.state.execute command args).1 },
          (e.state.execute command args).2)) ∧
    (∀ before after, start.runEvents ops = before ++ after →
      (Event.replay Terminal.host { output } before).RepeatsLast
        (before.filterMap Event.query?)) ∧
    ∀ key now, ∀ query ∈ (e.operationEvents (.inputKey key now)).filterMap Event.query?,
      (e.inputKey key now).1.mode = .normal ∧
      (e.inputKey key now).1.lastSearch = some query ∧
      (e.inputKey key now).1.state = (e.state.search query).1 ∧
      (e.inputKey key now).2 = (e.state.search query).2.mapError .command := by
  intro start e searches
  have regular : ∀ op ∈ ops, op.Regular := fun op ho => (internal op ho).regular
  have kept : ∀ step, .update step ∈ start.runEvents ops → Terminal.KeepsSearch step :=
    (everyAction_create _ Terminal.host { output }).updates_run internal updates
  have run := accounted_run start ops
  have host : e.host = Terminal.host := run.host
  have editor : e.lastSearch = searches.getLast? := by
    have last := lastSearch_run (settled_create Terminal.host { output }) regular
    rwa [show (create Terminal.host { output }).lastSearch = none from rfl, Option.or_none] at last
  have point : ∀ before after, start.runEvents ops = before ++ after →
      (Event.replay Terminal.host { output } before).lastSearch =
        (before.filterMap Event.query?).getLast? := by
    intro before after split
    rw [Terminal.lastSearch_replay _ fun step hs => kept step (split ▸ List.mem_append_left _ hs)]
    exact Option.or_none
  have terminal : e.state.lastSearch = searches.getLast? := by
    rw [run.state]
    exact point _ [] (List.append_nil _).symm
  refine ⟨terminal.trans editor.symm, editor, Terminal.repeatsLast terminal,
    fun _ _ hc args => execute_repeat host hc args,
    fun before after split => Terminal.repeatsLast (point before after split), ?_⟩
  intro key now query hq
  obtain ⟨mode, state, result⟩ := inputKey_of_query host hq
  refine ⟨mode, ?_, state, result⟩
  have settled := settled_run_create Terminal.host { output } ops regular
  have typed : (Operation.inputKey key now : Operation Terminal).Regular := trivial
  have last := lastSearch_apply settled typed
  rwa [(onKey_of_query hq).2] at last

/-- Only the second write succeeds, so no search is printed, neither when it is confirmed nor when it is
repeated. Between the searches the settings are loaded again and all modes are reset. -/
theorem search_memory_run_create_after_failure :
    let output : Output := { failure := fun n =>
      if n = 1 then none else some { reason := "broken pipe", written := n } }
    let again : Action Terminal := .sequence [.command "modalex.enterSearchAfter" none,
      .command "modalex.searchNext" none]
    let ops : List (Operation Terminal) := [.setDefaultHandler .normal (some again),
      .setDefaultHandler .insert (some (Action.typeKeys Terminal.typeCommand)), .inputKey 'n' 0,
      .inputKey 'b' 0, .inputKey '\n' 0, .changeState fun t => (t.echo "error").1,
      .updateFromSettings {}, .resetAll, .inputKey 'n' 1, .inputKey 'a' 1, .checkTimeout 2]
    let e := (create Terminal.host { output }).run ops
    (∀ op ∈ ops, op.Internal) ∧ (∀ op ∈ ops, op.Updates Terminal.KeepsSearch) ∧
      e.state.lastSearch = some ⟨"b", .document, .after⟩ ∧
      (e.execute "modalex.searchPrev" none).2 = .error (.failed "broken pipe") ∧
      (e.operationEvents (.inputKey '\n' 3)).filterMap Event.query? = [⟨"a", .document, .after⟩] ∧
      (e.inputKey '\n' 3).2 = .error (.command (.failed "broken pipe")) ∧
      (e.inputKey '\n' 3).1.mode = .normal ∧
      (e.inputKey '\n' 3).1.lastSearch = some ⟨"a", .document, .after⟩ := by
  intro output again ops e
  have internal : ∀ op ∈ ops, op.Internal := by simp [ops, Operation.Internal]
  have updates : ∀ op ∈ ops, op.Updates Terminal.KeepsSearch := by
    simp [ops, again, Operation.Updates, Operation.handler?, Action.Updates, Action.UpdatesAll,
      Action.updates_typeKeys, Terminal.keepsSearch_echo]
  obtain ⟨agree, last, repeats, hosted, -, confirms⟩ :=
    search_memory_run_create output ops internal updates
  have searches : ((create Terminal.host { output }).runEvents ops).filterMap Event.query? =
      [⟨"b", .document, .after⟩] := by decide +kernel
  have confirmed : (e.operationEvents (.inputKey '\n' 3)).filterMap Event.query? =
      [⟨"a", .document, .after⟩] := by decide +kernel
  have reverse : ("modalex.searchPrev", "reverse") ∈ Terminal.repeatCommands := by decide
  rw [searches] at last repeats
  obtain ⟨mode, second, state, result⟩ :=
    confirms '\n' 3 ⟨"a", .document, .after⟩ (confirmed ▸ List.mem_singleton_self _)
  refine ⟨internal, updates, ?_, ?_, confirmed, ?_, ?_, second⟩
  · rw [agree, last]
    rfl
  · rw [hosted _ _ reverse none, (repeats _ _ reverse none).2 _ rfl]
    decide +kernel
  · rw [result]
    decide +kernel
  · rw [mode]

end Editor

end ModalKeys
