import ModalKeys.Proofs.Editor.Event

/-!
# Actions as lists of leaves

However deeply sequences are nested, an action comes to the commands and callbacks in it, taken from
left to right until one of them fails. The loop over this list is given here without a look at nested
sequences, and each turn of it spells out what running a single command or callback is. Running an
action is that loop: it ends in the same editor with the same result, and the same things happen on
the way.
-/

namespace ModalKeys

variable {σ : Type}

/-- An action that has no parts. -/
inductive Leaf (σ : Type) where
  | command (name : String) (args : Option Json)
  | callback (run : List Char → Script σ)

namespace Action

mutual

/-- The commands and callbacks of an action, from left to right. -/
def leaves : Action σ → List (Leaf σ)
  | .command name args => [.command name args]
  | .callback run => [.callback run]
  | .sequence items => leavesOfAll items
termination_by structural action => action

def leavesOfAll : List (Action σ) → List (Leaf σ)
  | [] => []
  | action :: rest => leaves action ++ leavesOfAll rest
termination_by structural actions => actions

end

end Action

/-- Something that happens while an action runs. -/
inductive Happening (σ : Type) where
  /-- A callback is called with keys. -/
  | called (run : List Char → Script σ) (keys : List Char)
  | event (event : Event σ)

/-- What can be noticed of it outside. -/
def Happening.event? : Happening σ → Option (Event σ)
  | .called .. => none
  | .event noticed => some noticed

/-- A run of something: what happened, in order, the editor then, and the result. -/
structure Execution (σ : Type) where
  trace : List (Happening σ)
  editor : Editor σ
  result : CommandResult

namespace Execution

/-- Goes on with the editor, unless there was an error. -/
def andThen (x : Execution σ) (next : Editor σ → Execution σ) : Execution σ :=
  match x.result with
  | .ok () => { next x.editor with trace := x.trace ++ (next x.editor).trace }
  | .error _ => x

theorem andThen_of_ok {x : Execution σ} (h : x.result = .ok ()) (next : Editor σ → Execution σ) :
    x.andThen next = { next x.editor with trace := x.trace ++ (next x.editor).trace } := by
  rw [andThen, h]

theorem andThen_of_error {x : Execution σ} {error : CommandError} (h : x.result = .error error)
    (next : Editor σ → Execution σ) : x.andThen next = x := by
  rw [andThen, h]

/-- Either there was an error, or nothing stands in the way. -/
theorem result_cases (x : Execution σ) : x.result = .ok () ∨ ∃ error, x.result = .error error := by
  rcases x.result with error | ⟨⟩
  · exact Or.inr ⟨error, rfl⟩
  · exact Or.inl rfl

theorem andThen_assoc (x : Execution σ) (f g : Editor σ → Execution σ) :
    (x.andThen f).andThen g = x.andThen fun e => (f e).andThen g := by
  rcases x.result_cases with h | ⟨error, h⟩
  · rw [andThen_of_ok h, andThen_of_ok h]
    rcases (f x.editor).result_cases with hf | ⟨error, hf⟩
    · rw [andThen_of_ok hf, andThen_of_ok (by exact hf), List.append_assoc]
    · rw [andThen_of_error hf, andThen_of_error (by exact hf)]
  · rw [andThen_of_error h, andThen_of_error h, andThen_of_error h]

end Execution

namespace Editor

/-! ## The loop -/

/-- Runs a single command or callback. A built-in command is a mode switch, or it is refused and
nothing happens. Any other command is the host's: the host is asked once, with the arguments as they
are, and the switches it asks for are carried out in order, whatever its result is. -/
def runLeaf (name : String) (keys : List Char) (e : Editor σ) : Leaf σ → Execution σ
  | .command command args =>
    match Builtin.request command args with
    | .error _ => ⟨[], e, .error (.invalidArguments command)⟩
    | .ok (some r) =>
      ⟨(Event.switch e.mode r).map .event, e.transition r.mode r.options, .ok ()⟩
    | .ok none =>
      let reply := e.host.execute e.state { current := e.mode } command args
      { trace := .event (.execute e.mode command args) ::
          (Event.switches e.mode reply.modes.pending).map .event
        editor := reply.modes.pending.foldl (fun e r => e.transition r.mode r.options)
          { e with state := reply.state }
        result := reply.result }
  | .callback run =>
    let (e', result) := e.converse name (run keys)
    ⟨.called run keys :: (e.converseEvents name (run keys)).map .event, e', result⟩

/-- Runs commands and callbacks in order until one fails. -/
def runLeaves (name : String) (keys : List Char) (e : Editor σ) : List (Leaf σ) → Execution σ
  | [] => ⟨[], e, .ok ()⟩
  | leaf :: rest => (runLeaf name keys e leaf).andThen fun e => runLeaves name keys e rest

theorem runLeaves_append (name : String) (keys : List Char) (e : Editor σ) (xs ys : List (Leaf σ)) :
    runLeaves name keys e (xs ++ ys) =
      (runLeaves name keys e xs).andThen fun e => runLeaves name keys e ys := by
  induction xs generalizing e with
  | nil => rfl
  | cons leaf rest ih =>
      rw [List.cons_append, runLeaves, runLeaves, Execution.andThen_assoc]
      congr 1
      funext e'
      exact ih e'

theorem runLeaves_singleton (name : String) (keys : List Char) (e : Editor σ) (leaf : Leaf σ) :
    runLeaves name keys e [leaf] = runLeaf name keys e leaf := by
  rw [runLeaves]
  rcases (runLeaf name keys e leaf).result_cases with h | ⟨error, h⟩
  · rw [Execution.andThen_of_ok h, runLeaves, List.append_nil, ← h]
  · rw [Execution.andThen_of_error h]

/-- A loop that fails has come to a leaf that fails, and stops there. -/
theorem exists_leaf_of_error {name : String} {keys : List Char} {e : Editor σ}
    {leaves : List (Leaf σ)} {error : CommandError}
    (h : (runLeaves name keys e leaves).result = .error error) :
    ∃ before leaf after, leaves = before ++ leaf :: after ∧
      (runLeaves name keys e before).result = .ok () ∧
      (runLeaf name keys (runLeaves name keys e before).editor leaf).result = .error error ∧
      runLeaves name keys e leaves = runLeaves name keys e (before ++ [leaf]) := by
  induction leaves generalizing e with
  | nil => cases h
  | cons leaf rest ih =>
      rcases (runLeaf name keys e leaf).result_cases with hl | ⟨other, hl⟩
      · -- the first leaf that fails is one of the rest
        rw [runLeaves, Execution.andThen_of_ok hl] at h
        obtain ⟨before, failing, after, hr, hb, hf, hs⟩ := ih h
        refine ⟨leaf :: before, failing, after, by rw [hr]; rfl, ?_, ?_, ?_⟩
        · rw [runLeaves, Execution.andThen_of_ok hl]
          exact hb
        · rw [runLeaves, Execution.andThen_of_ok hl]
          exact hf
        · rw [List.cons_append, runLeaves, runLeaves, Execution.andThen_of_ok hl,
            Execution.andThen_of_ok hl, hs]
      · refine ⟨[], leaf, rest, rfl, rfl, ?_, ?_⟩
        · rw [runLeaves, Execution.andThen_of_error hl] at h
          exact h
        · rw [List.nil_append, runLeaves_singleton, runLeaves, Execution.andThen_of_error hl]

/-! ## The trace of an action -/

mutual

/-- What happens while an action runs for the keys that were typed. -/
def execTrace (name : String) (keys : List Char) (e : Editor σ) : Action σ → List (Happening σ)
  | .command command args => (e.executeEvents command args).map .event
  | .callback run => .called run keys :: (e.converseEvents name (run keys)).map .event
  | .sequence items => execAllTrace name keys e items
termination_by structural action => action

/-- What happens while actions run in order until one fails. -/
def execAllTrace (name : String) (keys : List Char) (e : Editor σ) :
    List (Action σ) → List (Happening σ)
  | [] => []
  | action :: rest =>
    execTrace name keys e action ++
      match exec name keys e action with
      | (e, .ok ()) => execAllTrace name keys e rest
      | (_, .error _) => []
termination_by structural actions => actions

end

theorem filterMap_map_event (events : List (Event σ)) :
    (events.map Happening.event).filterMap Happening.event? = events := by
  rw [List.filterMap_map]
  show events.filterMap some = events
  exact List.filterMap_some

mutual

/-- Apart from the calls of callbacks the trace consists of the events. -/
theorem events_execTrace (name : String) (keys : List Char) (e : Editor σ) :
    (action : Action σ) →
      (execTrace name keys e action).filterMap Happening.event? = execEvents name keys e action
  | .command command args => by
      rw [execTrace, execEvents]
      exact filterMap_map_event _
  | .callback run => by
      rw [execTrace, execEvents, List.filterMap_cons_none rfl]
      exact filterMap_map_event _
  | .sequence items => by
      rw [execTrace, execEvents]
      exact events_execAllTrace name keys e items
termination_by structural action => action

theorem events_execAllTrace (name : String) (keys : List Char) (e : Editor σ) :
    (actions : List (Action σ)) →
      (execAllTrace name keys e actions).filterMap Happening.event? =
        execAllEvents name keys e actions
  | [] => by
      rw [execAllTrace, execAllEvents]
      rfl
  | action :: rest => by
      rw [execAllTrace, execAllEvents, List.filterMap_append, events_execTrace name keys e action]
      rcases exec name keys e action with ⟨e', _ | ⟨⟩⟩
      · rfl
      · exact congrArg _ (events_execAllTrace name keys e' rest)
termination_by structural actions => actions

end

/-! ## Actions run as the loop does -/

/-- The run of an action. -/
def execution (name : String) (keys : List Char) (e : Editor σ) (action : Action σ) : Execution σ :=
  ⟨execTrace name keys e action, (exec name keys e action).1, (exec name keys e action).2⟩

/-- The run of actions in order. -/
def executionOfAll (name : String) (keys : List Char) (e : Editor σ) (actions : List (Action σ)) :
    Execution σ :=
  ⟨execAllTrace name keys e actions, (execAll name keys e actions).1,
    (execAll name keys e actions).2⟩

theorem executionOfAll_cons (name : String) (keys : List Char) (e : Editor σ) (action : Action σ)
    (rest : List (Action σ)) : executionOfAll name keys e (action :: rest) =
      (execution name keys e action).andThen fun e => executionOfAll name keys e rest := by
  rw [executionOfAll, execAllTrace, execAll, execution]
  rcases exec name keys e action with ⟨e', error | ⟨⟩⟩
  · rw [Execution.andThen_of_error rfl, List.append_nil]
  · rw [Execution.andThen_of_ok rfl]
    rfl

end Editor

/-- A built-in command is refused for its arguments only. -/
theorem Builtin.eq_of_request_eq_error {command : String} {args : Option Json}
    {error : CommandError} (h : request command args = .error error) :
    error = .invalidArguments command := by
  unfold request at h
  split at h
  · cases h
  · split at h
    · split at h
      · cases h
      · cases h
        rfl
    · cases h

namespace Editor

theorem execution_command (name : String) (keys : List Char) (e : Editor σ) (command : String)
    (args : Option Json) :
    execution name keys e (.command command args) = runLeaf name keys e (.command command args) := by
  rw [execution, execTrace, exec, runLeaf, executeEvents, execute]
  cases hb : Builtin.request command args with
  | error error =>
      rw [Builtin.eq_of_request_eq_error hb]
      rfl
  | ok request =>
      cases request with
      | none => rfl
      | some r => rfl

theorem execution_callback (name : String) (keys : List Char) (e : Editor σ)
    (run : List Char → Script σ) :
    execution name keys e (.callback run) = runLeaf name keys e (.callback run) := by
  rw [execution, execTrace, exec, runLeaf]

mutual

theorem execution_eq (name : String) (keys : List Char) (e : Editor σ) :
    (action : Action σ) → execution name keys e action = runLeaves name keys e action.leaves
  | .command command args => by
      rw [Action.leaves, runLeaves_singleton]
      exact execution_command name keys e command args
  | .callback run => by
      rw [Action.leaves, runLeaves_singleton]
      exact execution_callback name keys e run
  | .sequence items => by
      rw [Action.leaves, ← executionOfAll_eq name keys e items, execution, execTrace, exec,
        executionOfAll]
termination_by structural action => action

theorem executionOfAll_eq (name : String) (keys : List Char) (e : Editor σ) :
    (actions : List (Action σ)) →
      executionOfAll name keys e actions = runLeaves name keys e (Action.leavesOfAll actions)
  | [] => by
      rw [executionOfAll, execAllTrace, execAll, Action.leavesOfAll, runLeaves]
  | action :: rest => by
      rw [executionOfAll_cons, Action.leavesOfAll, runLeaves_append, execution_eq name keys e action]
      congr 1
      funext e'
      exact executionOfAll_eq name keys e' rest
termination_by structural actions => actions

end

/-- An action runs as the loop over its leaves: the editor and with it the host's state end up the
same, so does the result, and the same things happen in the same order. They are all that happens to
the editor. If the action fails, then as its first leaf that fails does and right after it, with all
that came before left as it is. -/
theorem exec_eq_runLeaves (name : String) (keys : List Char) (e : Editor σ) (action : Action σ) :
    let loop := runLeaves name keys e action.leaves
    exec name keys e action = (loop.editor, loop.result) ∧
    execTrace name keys e action = loop.trace ∧
    Ran e (loop.trace.filterMap Happening.event?) loop.editor ∧
    ∀ error, (exec name keys e action).2 = .error error →
      ∃ before leaf after, action.leaves = before ++ leaf :: after ∧
        (runLeaves name keys e before).result = .ok () ∧
        (runLeaf name keys (runLeaves name keys e before).editor leaf).result = .error error ∧
        loop = runLeaves name keys e (before ++ [leaf]) := by
  intro loop
  have same : execution name keys e action = loop := execution_eq name keys e action
  have editor : (exec name keys e action).1 = loop.editor := congrArg Execution.editor same
  have result : (exec name keys e action).2 = loop.result := congrArg Execution.result same
  have trace : execTrace name keys e action = loop.trace := congrArg Execution.trace same
  refine ⟨Prod.ext editor result, trace, ?_, ?_⟩
  · rw [← trace, ← editor, events_execTrace]
    exact ran_exec name keys e action
  · intro error failed
    exact exists_leaf_of_error (result ▸ failed)

end Editor

end ModalKeys
