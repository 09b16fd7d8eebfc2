import ModalKeys.Proofs.Editor.Protocol

/-!
# What actions do besides switching modes

Actions ask the host to run commands, and their callbacks may change the state that they share with it.
They hand over no searches: only a key that is typed in Search mode does. Which changes a callback makes
can be read off its script, and only those are among the events of a run.
-/

namespace ModalKeys

variable {σ : Type}

/-! ## Changes of the shared state -/

/-- Every change of the shared state that a script makes is one of `Q`, however it is answered. -/
def Script.Updates (Q : (σ → σ) → Prop) : Script σ → Prop
  | .done => True
  | .fail _ => True
  | .ask next => ∀ mode name, (next mode name).Updates Q
  | .update step next => Q step ∧ ∀ s, (next s).Updates Q
  | .enter _ _ next => next.Updates Q
  | .execute _ _ next => ∀ result, (next result).Updates Q

namespace Action

mutual

/-- Every change of the shared state that the callbacks of an action make is one of `Q`. -/
def Updates (Q : (σ → σ) → Prop) : Action σ → Prop
  | .command _ _ => True
  | .callback run => ∀ keys, (run keys).Updates Q
  | .sequence items => UpdatesAll Q items
termination_by structural action => action

def UpdatesAll (Q : (σ → σ) → Prop) : List (Action σ) → Prop
  | [] => True
  | action :: rest => Updates Q action ∧ UpdatesAll Q rest
termination_by structural actions => actions

end

end Action

theorem Script.updates_true (script : Script σ) : script.Updates fun _ => True := by
  induction script with
  | done => trivial
  | fail error => trivial
  | ask next ih => exact ih
  | update step next ih => exact ⟨trivial, ih⟩
  | enter mode options next ih => exact ih
  | execute command args next ih => exact ih

mutual

theorem Action.updates_true (action : Action σ) : action.Updates fun _ => True := by
  cases action with
  | command name args => trivial
  | callback run => exact fun keys => (run keys).updates_true
  | sequence items => exact Action.updatesAll_true items
termination_by structural action

theorem Action.updatesAll_true (actions : List (Action σ)) :
    Action.UpdatesAll (fun _ => True) actions := by
  cases actions with
  | nil => trivial
  | cons action rest => exact ⟨action.updates_true, Action.updatesAll_true rest⟩
termination_by structural actions

end

/-- Typing keys by a command changes nothing but what the host does for the command. -/
theorem Action.updates_typeKeys (Q : (σ → σ) → Prop) (command : String) :
    (Action.typeKeys command : Action σ).Updates Q := by
  intro keys result
  cases result <;> trivial

/-! ## Events -/

/-- An event that an action may bring about if its changes of the shared state are those of `Q`. -/
def Event.ByAction (Q : (σ → σ) → Prop) : Event σ → Prop
  | .search _ _ => False
  | .update step => Q step
  | _ => True

namespace Editor

variable {Q : (σ → σ) → Prop}

theorem byAction_switches (source : Mode) (requests : List ModeRequest) :
    ∀ event ∈ (Event.switches source requests : List (Event σ)), event.ByAction Q := by
  induction requests generalizing source with
  | nil => exact List.forall_mem_nil _
  | cons r rest ih =>
      intro event hevent
      rcases List.mem_append.1 hevent with h | h
      · simp only [Event.switch, List.mem_cons, List.not_mem_nil, or_false] at h
        rcases h with rfl | rfl | rfl <;> trivial
      · exact ih r.mode event h

theorem byAction_switch (source : Mode) (r : ModeRequest) :
    ∀ event ∈ (Event.switch source r : List (Event σ)), event.ByAction Q := by
  have h := byAction_switches (Q := Q) source [r]
  rwa [Event.switches, Event.switches, List.append_nil] at h

theorem byAction_execute (e : Editor σ) (command : String) (args : Option Json) :
    ∀ event ∈ e.executeEvents command args, event.ByAction Q := by
  unfold executeEvents
  split
  · exact List.forall_mem_nil _
  · exact byAction_switch _ _
  · exact List.forall_mem_cons.2 ⟨trivial, byAction_switches _ _⟩

theorem byAction_converse (name : String) (e : Editor σ) {script : Script σ}
    (h : script.Updates Q) : ∀ event ∈ e.converseEvents name script, event.ByAction Q := by
  induction script generalizing e with
  | done => exact List.forall_mem_nil _
  | fail error => exact List.forall_mem_nil _
  | ask next ih => exact List.forall_mem_cons.2 ⟨trivial, ih e.mode name e (h e.mode name)⟩
  | update step next ih => exact List.forall_mem_cons.2 ⟨h.1, ih e.state _ (h.2 e.state)⟩
  | enter mode options next ih =>
      exact List.forall_mem_append.2 ⟨byAction_switch _ _, ih _ h⟩
  | execute command args next ih =>
      exact List.forall_mem_append.2 ⟨byAction_execute e command args, ih _ _ (h _)⟩

mutual

/-- The events of an action are what its callbacks allow. -/
theorem byAction_exec (name : String) (keys : List Char) (e : Editor σ) (action : Action σ)
    (h : action.Updates Q) : ∀ event ∈ execEvents name keys e action, event.ByAction Q := by
  cases action with
  | command command args =>
      rw [execEvents]
      exact byAction_execute e command args
  | callback run =>
      rw [execEvents]
      exact byAction_converse name e (h keys)
  | sequence items =>
      rw [execEvents]
      exact byAction_execAll name keys e items h
termination_by structural action

theorem byAction_execAll (name : String) (keys : List Char) (e : Editor σ)
    (actions : List (Action σ)) (h : Action.UpdatesAll Q actions) :
    ∀ event ∈ execAllEvents name keys e actions, event.ByAction Q := by
  cases actions with
  | nil => exact List.forall_mem_nil _
  | cons action rest =>
      rw [execAllEvents]
      refine List.forall_mem_append.2 ⟨byAction_exec name keys e action h.1, ?_⟩
      split
      · next e' _ => exact byAction_execAll name keys e' rest h.2
      · exact List.forall_mem_nil _
termination_by structural actions

end

end Editor

end ModalKeys
