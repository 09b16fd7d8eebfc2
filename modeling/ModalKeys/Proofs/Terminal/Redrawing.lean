import Mathlib.Data.List.Destutter
import ModalKeys.Proofs.Editor.BackReferences
import ModalKeys.Proofs.Terminal.SearchMemory
import ModalKeys.Terminal.Session

/-!
# What redrawing shows

Between two redraws a session may take keys and timeouts and may be told to switch modes. Any number of
mode switches can come of that, some of them in the middle of an action. As long as nothing fails to be
written, the redraws together print one cursor shape for each completed switch, in order, and the status
whenever it is not the one that was printed last.
-/

namespace ModalKeys

/-! ## Writing to a terminal that takes everything -/

namespace Output

/-- The output after some texts have been written one after the other. -/
def wrote (o : Output) (texts : List String) : Output :=
  { o with text := o.text ++ String.join texts, writes := o.writes + texts.length }

theorem wrote_nil (o : Output) : o.wrote [] = o := by
  simp [wrote]

theorem wrote_append (o : Output) (xs ys : List String) :
    (o.wrote xs).wrote ys = o.wrote (xs ++ ys) := by
  simp [wrote, String.join_append, String.append_assoc, Nat.add_assoc]

theorem write_eq {o : Output} (h : ∀ n, o.failure n = none) (text : String) :
    o.write text = (o.wrote [text], .ok ()) := by
  simp [write, wrote, h]

end Output

namespace Terminal

/-- The terminal after some texts have been written one after the other. -/
def wrote (t : Terminal) (texts : List String) : Terminal := { t with output := t.output.wrote texts }

theorem line_eq {t : Terminal} (h : ∀ n, t.output.failure n = none) (text : String) :
    t.line text = (t.wrote [text ++ "\r\n"], .ok ()) := by
  rw [line, Output.write_eq h]
  rfl

theorem failure_line (t : Terminal) (text : String) :
    (t.line text).1.output.failure = t.output.failure := by
  unfold line Output.write
  split
  · next h => split at h <;> cases h <;> rfl

theorem failure_execute (t : Terminal) (command : String) (args : Option Json) :
    (t.execute command args).1.output.failure = t.output.failure := by
  rcases t.execute_cases command args with h | ⟨text, h⟩
  · rw [h]
  · rw [h, failure_line]

/-- Which writes fail is up to the terminal. Commands and searches do not change it. -/
theorem failure_replay (t : Terminal) {events : List (Event Terminal)}
    (quiet : ∀ step, .update step ∉ events) :
    (Event.replay host t events).output.failure = t.output.failure := by
  induction events generalizing t with
  | nil => rfl
  | cons event rest ih =>
    have later := ih (Event.effect host t event)
      fun step hs => quiet step (List.mem_cons_of_mem _ hs)
    refine later.trans ?_
    cases event with
    | execute current command args => exact t.failure_execute command args
    | search current query => exact failure_line _ _
    | update step => exact (quiet step List.mem_cons_self).elim
    | _ => rfl

end Terminal

theorem Editor.statusText_ne_empty (e : Editor σ) : e.statusText ≠ "" := by
  unfold statusText
  split <;> simp [toString, String.append_eq_empty_iff]

namespace Session

/-! ## Runs -/

/-- What a session can be made to do. -/
inductive Step where
  | key (c : Char) (now : Nat)
  | timeout (now : Nat)
  | enter (mode : Mode) (options : EnterOptions)
  | redraw
  deriving DecidableEq

/-- What a step does with the editor, if it does not only show it. -/
def Step.operation? : Step → Option (Operation Terminal)
  | .key c now => some (.inputKey c now)
  | .timeout now => some (.checkTimeout now)
  | .enter mode options => some (.enterMode mode options)
  | .redraw => none

/-- The session after a step. -/
def apply (s : Session) : Step → Session
  | .key c now => s.key c now
  | .timeout now => s.timeout now
  | .enter mode options => { s with editor := s.editor.enterMode mode options }
  | .redraw => s.redraw.1

/-- The session after some steps. -/
def run (s : Session) (steps : List Step) : Session := steps.foldl apply s

/-- The modes of the switches that a step completes. -/
def entered (s : Session) (step : Step) : List Mode :=
  match step.operation? with
  | some op => (s.editor.operationEvents op).filterMap Event.entered?
  | none => []

/-- The modes of the switches that some steps complete. -/
def runEntered (s : Session) : List Step → List Mode
  | [] => []
  | step :: rest => s.entered step ++ (s.apply step).runEntered rest

/-- The session as each redraw of a run finds it. -/
def redrawn (s : Session) : List Step → List Session
  | [] => []
  | .redraw :: rest => s :: (s.apply .redraw).redrawn rest
  | step :: rest => (s.apply step).redrawn rest

/-! ## Frames -/

/-- The line that shows a status. -/
def statusLine (status : String) : String := s!"[{status}]" ++ "\r\n"

theorem statusLine_injective : Function.Injective statusLine := by
  intro a b h
  simpa [statusLine, toString] using h

/-- What one redraw prints. -/
structure Frame where
  cursors : List CursorStyle
  status : Option String
  deriving DecidableEq

namespace Frame

/-- The texts that are written, the cursor shapes first. -/
def texts (f : Frame) : List String := f.cursors.map CursorStyle.ansi ++ f.status.toList.map statusLine

def text (f : Frame) : String := String.join f.texts

end Frame

/-- The frame of a redraw. Modes in `unseen` were entered since the last one, which found the status
`previous`. -/
def frame (s : Session) (unseen : List Mode) (previous : String) : Frame where
  cursors := unseen.map s.settings.cursorStyle
  status := if s.editor.statusText = previous then none else some s.editor.statusText

/-- The frames of a run. Before it, modes in `unseen` were entered since the last redraw, and the status was
`previous` at that redraw. -/
def frames (s : Session) (unseen : List Mode) (previous : String) : List Step → List Frame
  | [] => []
  | .redraw :: rest =>
    s.frame unseen previous :: (s.apply .redraw).frames [] s.editor.statusText rest
  | step :: rest => (s.apply step).frames (unseen ++ s.entered step) previous rest

/-! ## Redrawing once -/

/-- The session after some texts have been written to its terminal. -/
def wrote (s : Session) (texts : List String) : Session :=
  { s with editor := { s.editor with state := s.editor.state.wrote texts } }

theorem wrote_nil (s : Session) : s.wrote [] = s := by
  simp [wrote, Terminal.wrote, Output.wrote_nil]

theorem wrote_append (s : Session) (xs ys : List String) :
    (s.wrote xs).wrote ys = s.wrote (xs ++ ys) := by
  simp [wrote, Terminal.wrote, Output.wrote_append]

theorem showCursors_eq {s : Session} (h : ∀ n, s.editor.state.output.failure n = none)
    (modes : List Mode) :
    s.showCursors modes =
      (s.wrote ((modes.map s.settings.cursorStyle).map CursorStyle.ansi), .ok ()) := by
  induction modes generalizing s with
  | nil =>
    rw [List.map_nil, List.map_nil, wrote_nil]
    rfl
  | cons mode rest ih =>
    have first : s.showCursors (mode :: rest) =
        (s.wrote [(s.settings.cursorStyle mode).ansi]).showCursors rest := by
      simp only [showCursors, onTerminal, Output.write_eq h]
      rfl
    rw [first, ih (s := s.wrote _) h, wrote_append]
    rfl

theorem echo_eq {s : Session} (h : ∀ n, s.editor.state.output.failure n = none) (text : String) :
    s.onTerminal (·.echo text) = (s.wrote [text ++ "\r\n"], true) := by
  unfold onTerminal Terminal.echo
  simp only [Terminal.line_eq h]
  rfl

/-- The session after it has taken the modes that it was sent. -/
def taken (s : Session) : Session := { s with editor := (s.editor.receive s.ticket).2 }

theorem redraw_of_shown {s t : Session}
    (shown : s.taken.showCursors (s.editor.receive s.ticket).1 = (t, .ok ())) :
    s.redraw = if t.editor.statusText = t.status then (t, .ok ()) else
      ({ (t.onTerminal (·.echo s!"[{t.editor.statusText}]")).1 with
        status := t.editor.statusText }, .ok ()) := by
  unfold taken at shown
  unfold redraw
  simp only [shown]

/-- A session that is sent the modes in `unseen` with the next redraw, and that showed the status
`previous` with the last one. Nothing that it may run changes the terminal behind its back. -/
structure Watching (s : Session) (unseen : List Mode) (previous : String) : Prop where
  host : s.editor.host = Terminal.host
  writes : ∀ n, s.editor.state.output.failure n = none
  actions : s.editor.EveryAction (Action.Updates fun _ => False)
  listening : s.editor.Listening s.ticket unseen.reverse
  status : s.status = previous

variable {s : Session} {unseen : List Mode} {previous : String}

/-- A redraw takes the modes that were sent and prints the frame for them. -/
theorem Watching.redraw_eq (h : s.Watching unseen previous) :
    s.redraw = ({ s.taken.wrote (s.frame unseen previous).texts with
      status := s.editor.statusText }, .ok ()) := by
  let shapes := (unseen.map s.settings.cursorStyle).map CursorStyle.ansi
  have shown : s.taken.showCursors (s.editor.receive s.ticket).1 = (s.taken.wrote shapes, .ok ()) := by
    rw [showCursors_eq (s := s.taken) h.writes, h.listening.receive_eq, List.reverse_reverse]
    rfl
  have status : (s.taken.wrote shapes).status = previous := h.status
  have text : (s.taken.wrote shapes).editor.statusText = s.editor.statusText := rfl
  rw [redraw_of_shown shown, text, status]
  by_cases unchanged : s.editor.statusText = previous
  · have nothing : (s.frame unseen previous).texts = shapes := by
      simp [frame, Frame.texts, unchanged, shapes]
    rw [if_pos unchanged, nothing, unchanged, ← status]
  · have line : (s.frame unseen previous).texts = shapes ++ [statusLine s.editor.statusText] := by
      simp [frame, Frame.texts, unchanged, shapes]
    rw [if_neg unchanged, line, ← wrote_append, echo_eq (s := s.taken.wrote shapes) h.writes]
    rfl

/-! ## Steps -/

/-- What is reported is printed, and nothing else changes. -/
theorem report_cases (s : Session) (result : Except DispatchError β) :
    s.report result = s ∨ ∃ text, s.report result = (s.onTerminal (·.echo text)).1 := by
  cases result with
  | ok _ => exact Or.inl rfl
  | error error => exact Or.inr ⟨_, rfl⟩

namespace Watching

theorem echo (h : s.Watching unseen previous) (text : String) :
    (s.onTerminal (·.echo text)).1.Watching unseen previous where
  host := h.host
  writes n := by
    show (s.editor.state.line text).1.output.failure n = none
    rw [Terminal.failure_line, h.writes]
  actions := ⟨h.actions.bound, h.actions.handlers⟩
  listening := ⟨h.listening.subscriber, h.listening.used⟩
  status := h.status

theorem report (h : s.Watching unseen previous) (result : Except DispatchError β) :
    (s.report result).Watching unseen previous := by
  rcases s.report_cases result with same | ⟨text, printed⟩
  · rwa [same]
  · rw [printed]
    exact h.echo text

/-- The modes that an operation of the editor enters are sent with the next redraw. -/
theorem operation (h : s.Watching unseen previous) (op : Operation Terminal) (internal : op.Internal)
    (unheard : op.Unheard) (updates : op.Updates fun _ => False) :
    ({ s with editor := s.editor.apply op } : Session).Watching
      (unseen ++ (s.editor.operationEvents op).filterMap Event.entered?) previous := by
  have accounted := s.editor.accounted_apply op
  have quiet (step : Terminal → Terminal) : .update step ∉ s.editor.operationEvents op :=
    h.actions.updates_apply updates step
  refine ⟨accounted.host.trans h.host, ?_, ?_, ?_, h.status⟩
  · intro n
    rw [accounted.state, h.host, Terminal.failure_replay _ quiet, h.writes]
  · exact h.actions.apply (Config.updates_described _) internal updates.handler
  · rw [List.reverse_append]
    exact h.listening.hear unheard

theorem apply (h : s.Watching unseen previous) {step : Step} (hs : step ≠ .redraw) :
    (s.apply step).Watching (unseen ++ s.entered step) previous := by
  cases step with
  | key c now => exact (h.operation (.inputKey c now) trivial trivial nofun).report _
  | timeout now => exact (h.operation (.checkTimeout now) trivial trivial nofun).report _
  | enter mode options => exact h.operation (.enterMode mode options) trivial trivial nofun
  | redraw => exact (hs rfl).elim

/-- A redraw takes what was sent, and remembers the status. -/
theorem redraw (h : s.Watching unseen previous) :
    s.redraw.1.Watching [] s.editor.statusText := by
  have looked := h.listening.look
  rw [h.redraw_eq]
  exact ⟨h.host, h.writes, ⟨h.actions.bound, h.actions.handlers⟩,
    ⟨looked.subscriber, looked.used⟩, rfl⟩

/-- A redraw succeeds and prints its frame, and nothing else. -/
theorem printed_redraw (h : s.Watching unseen previous) :
    s.redraw.2 = .ok () ∧ s.redraw.1.printed = s.printed ++ (s.frame unseen previous).text := by
  rw [h.redraw_eq]
  exact ⟨rfl, rfl⟩

example : (((create {} {}).1.apply (.enter .insert {})).apply (.enter .visual {})).redraw.1.printed =
    "\x1b[6 q\x1b[2 q[-- VISUAL --]\r\n" := by decide +kernel

theorem settings_redraw (h : s.Watching unseen previous) :
    s.redraw.1.settings = s.settings := by
  rw [h.redraw_eq]
  rfl

theorem statusText_redraw (h : s.Watching unseen previous) :
    s.redraw.1.editor.statusText = s.editor.statusText := by
  rw [h.redraw_eq]
  rfl

end Watching

theorem settings_report (s : Session) (result : Except DispatchError β) :
    (s.report result).settings = s.settings := by
  rcases s.report_cases result with h | ⟨text, h⟩ <;> rw [h]
  rfl

theorem settings_apply (s : Session) {step : Step} (hs : step ≠ .redraw) :
    (s.apply step).settings = s.settings := by
  cases step with
  | key c now => exact settings_report _ _
  | timeout now => exact settings_report _ _
  | enter mode options => rfl
  | redraw => exact (hs rfl).elim

/-! ## Runs with redraws -/

theorem frames_redraw (s : Session) (unseen : List Mode) (previous : String) (rest : List Step) :
    s.frames unseen previous (.redraw :: rest) =
      s.frame unseen previous :: s.redraw.1.frames [] s.editor.statusText rest := rfl

theorem frames_cons {step : Step} (hs : step ≠ .redraw) (s : Session) (unseen : List Mode)
    (previous : String) (rest : List Step) :
    s.frames unseen previous (step :: rest) =
      (s.apply step).frames (unseen ++ s.entered step) previous rest := by
  cases step with
  | redraw => exact (hs rfl).elim
  | _ => rfl

theorem redrawn_cons {step : Step} (hs : step ≠ .redraw) (s : Session) (rest : List Step) :
    s.redrawn (step :: rest) = (s.apply step).redrawn rest := by
  cases step with
  | redraw => exact (hs rfl).elim
  | _ => rfl

theorem frames_eq_nil {steps : List Step} (h : .redraw ∉ steps) (s : Session) (unseen : List Mode)
    (previous : String) : s.frames unseen previous steps = [] := by
  induction steps generalizing s unseen with
  | nil => rfl
  | cons step rest ih =>
    rw [List.mem_cons, not_or] at h
    rw [frames_cons (Ne.symm h.1), ih h.2]

namespace Watching

theorem run (h : s.Watching unseen previous) (steps : List Step) :
    ∃ unseen' previous', (s.run steps).Watching unseen' previous' := by
  induction steps generalizing s unseen previous with
  | nil => exact ⟨unseen, previous, h⟩
  | cons step rest ih =>
    by_cases hs : step = .redraw
    · subst hs
      exact ih h.redraw
    · exact ih (h.apply hs)

/-- Each redraw of a run succeeds and prints its frame. -/
theorem printed_run (h : s.Watching unseen previous) (steps : List Step) :
    List.Forall₂ (fun x frame => x.redraw.2 = .ok () ∧ x.redraw.1.printed = x.printed ++ frame.text)
      (s.redrawn steps) (s.frames unseen previous steps) := by
  induction steps generalizing s unseen previous with
  | nil => exact .nil
  | cons step rest ih =>
    by_cases hs : step = .redraw
    · subst hs
      exact .cons h.printed_redraw (ih h.redraw)
    · rw [redrawn_cons hs, frames_cons hs]
      exact ih (h.apply hs)

/-- Every mode that is entered before the last redraw is shown once, in order. -/
theorem cursors_run (h : s.Watching unseen previous) (before : List Step) {after : List Step}
    (last : .redraw ∉ after) :
    (s.frames unseen previous (before ++ .redraw :: after)).flatMap Frame.cursors =
      (unseen ++ s.runEntered before).map s.settings.cursorStyle := by
  induction before generalizing s unseen previous with
  | nil =>
    rw [List.nil_append, frames_redraw, frames_eq_nil last, List.flatMap_singleton, runEntered,
      List.append_nil]
    rfl
  | cons step rest ih =>
    by_cases hs : step = .redraw
    · subst hs
      have later := ih h.redraw
      rw [h.settings_redraw] at later
      rw [List.cons_append, frames_redraw, List.flatMap_cons, later, List.nil_append, runEntered,
        List.map_append]
      rfl
    · rw [List.cons_append, frames_cons hs, ih (h.apply hs), settings_apply s hs, runEntered,
        List.append_assoc]

end Watching

/-! ## Status lines -/

/-- The statuses that the redraws of a run find. -/
def statuses (s : Session) (steps : List Step) : List String :=
  (s.redrawn steps).map (·.editor.statusText)

/-- Each status that is not the one before it, and nothing for the others. Before the first one there was
`previous`. -/
def changes (previous : String) (statuses : List String) : List (Option String) :=
  List.zipWith (fun previous status => if status = previous then none else some status)
    (previous :: statuses) statuses

/-- Leaving out the statuses that did not change drops repetitions, also of `previous`. -/
theorem filterMap_changes (previous : String) (statuses : List String) :
    previous :: (changes previous statuses).filterMap id = statuses.destutter' (· ≠ ·) previous := by
  induction statuses generalizing previous with
  | nil => rfl
  | cons status rest ih =>
    show previous :: ((if status = previous then none else some status) ::
      changes status rest).filterMap id = _
    by_cases unchanged : status = previous
    · rw [if_pos unchanged, List.filterMap_cons_none (f := id) rfl,
        List.destutter'_cons_neg _ (not_not.2 unchanged.symm), unchanged, ih]
    · rw [if_neg unchanged, List.filterMap_cons_some (f := id) rfl, ih,
        List.destutter'_cons_pos _ (Ne.symm unchanged)]

theorem filterMap_changes_empty {statuses : List String} (h : "" ∉ statuses) :
    (changes "" statuses).filterMap id = statuses.destutter (· ≠ ·) := by
  refine List.cons_injective ((filterMap_changes "" statuses).trans ?_)
  cases statuses with
  | nil => rfl
  | cons status rest => exact List.destutter'_cons_pos _ fun same => h (same ▸ List.mem_cons_self)

theorem getLast?_destutter (statuses : List String) :
    (statuses.destutter (· ≠ ·)).getLast? = statuses.getLast? := by
  cases statuses with
  | nil => rfl
  | cons previous rest =>
    rw [List.destutter_cons']
    induction rest generalizing previous with
    | nil => rfl
    | cons status rest ih =>
      rw [List.getLast?_cons_cons, ← ih status]
      by_cases unchanged : status = previous
      · rw [List.destutter'_cons_neg _ (not_not.2 unchanged.symm), unchanged]
      · rw [List.destutter'_cons_pos _ (Ne.symm unchanged), List.getLast?_cons, ih status,
          List.getLast?_cons, Option.getD_some]

theorem run_concat (s : Session) (before : List Step) (step : Step) :
    s.run (before ++ [step]) = (s.run before).apply step :=
  List.foldl_concat ..

theorem statuses_concat (s : Session) (before : List Step) :
    s.statuses (before ++ [.redraw]) = s.statuses before ++ [(s.run before).editor.statusText] := by
  have found : s.redrawn (before ++ [.redraw]) = s.redrawn before ++ [s.run before] := by
    induction before generalizing s with
    | nil => rfl
    | cons step rest ih =>
      by_cases hs : step = .redraw
      · subst hs
        exact congrArg _ (ih _)
      · rw [List.cons_append, redrawn_cons hs, redrawn_cons hs, ih]
        rfl
  rw [statuses, found, List.map_append]
  rfl

/-- A redraw shows the status if it is not the one that the redraw before it found. -/
theorem status_frames (s : Session) (unseen : List Mode) (previous : String) (steps : List Step) :
    (s.frames unseen previous steps).map Frame.status = changes previous (s.statuses steps) := by
  induction steps generalizing s unseen previous with
  | nil => rfl
  | cons step rest ih =>
    by_cases hs : step = .redraw
    · subst hs
      exact congrArg _ (ih _ _ _)
    · rw [frames_cons hs, ih, statuses, statuses, redrawn_cons hs]

/-- The status lines of a run are its statuses without repetitions. -/
theorem lines_frames (s : Session) (unseen : List Mode) (steps : List Step) :
    (s.frames unseen "" steps).filterMap Frame.status = (s.statuses steps).destutter (· ≠ ·) := by
  have shown : "" ∉ s.statuses steps := by
    rintro found
    obtain ⟨x, -, empty⟩ := List.mem_map.1 found
    exact x.editor.statusText_ne_empty empty
  rw [← filterMap_changes_empty shown, ← status_frames, List.filterMap_map]
  rfl

/-! ## New sessions -/

theorem watching_create (settings : Settings) {output : Output} (h : ∀ n, output.failure n = none) :
    (create settings output).1.Watching [] "" := by
  let type : Option (Action Terminal) := some (Action.typeKeys Terminal.typeCommand)
  let fresh := Editor.create Terminal.host { output }
  let typing := fresh.modify .insert fun m => (m.setDefaultHandler type).setTimeoutHandler type
  let op : Operation Terminal := .updateFromSettings settings
  have none_created := Editor.everyAction_create (Action.Updates fun _ => False) Terminal.host { output }
  have types : ∀ action ∈ type, action.Updates fun _ => False := by
    simp [type, Action.updates_typeKeys]
  have actions : typing.EveryAction (Action.Updates fun _ => False) := by
    refine ⟨none_created.bound, fun mode action hin => ?_⟩
    rw [Editor.modal_modify] at hin
    split at hin
    · rcases Modal.mem_handlers_setTimeoutHandler hin with hin | set
      · rcases Modal.mem_handlers_setDefaultHandler hin with hin | set
        · exact none_created.handlers mode action hin
        · exact types action set
      · exact types action set
    · exact none_created.handlers mode action hin
  have configured : (typing.apply op).EveryAction (Action.Updates fun _ => False) :=
    actions.apply (Config.updates_described _) trivial nofun
  have accounted := typing.accounted_apply op
  have ticketed : typing.Ticketed := nofun
  have listening := (ticketed.apply op).listening_subscribe
  refine ⟨accounted.host, fun n => ?_, ⟨configured.bound, configured.handlers⟩, listening, rfl⟩
  show (typing.apply op).state.output.failure n = none
  rw [accounted.state]
  exact h n

/-- Redraws in every run of a session whose writes succeed. Each redraw prints its frame and nothing else:
first the cursor shapes, then the status line, if any. The cursor shapes of all the frames are those of
the modes that were entered before the last redraw, each once and in order. A frame has a status line
exactly if the status is not the one that the redraw before it found, the first one comparing with the empty
text. So the status lines are the statuses without repetitions, no line is printed twice in a row, and
after a redraw the last one shows the current status. -/
theorem redraws_run_create (settings : Settings) (output : Output) (steps : List Step)
    (succeeds : ∀ n, output.failure n = none) :
    let start := (create settings output).1
    let frames := start.frames [] "" steps
    let statuses := start.statuses steps
    let lines := frames.filterMap Frame.status
    List.Forall₂ (fun x frame => x.redraw.2 = .ok () ∧ x.redraw.1.printed = x.printed ++ frame.text)
      (start.redrawn steps) frames ∧
    (∀ before after, steps = before ++ .redraw :: after → .redraw ∉ after →
      frames.flatMap Frame.cursors = (start.runEntered before).map settings.cursorStyle) ∧
    frames.map Frame.status = List.zipWith
      (fun previous status => if status = previous then none else some status)
      ("" :: statuses) statuses ∧
    lines = statuses.destutter (· ≠ ·) ∧
    (lines.map statusLine).IsChain (· ≠ ·) ∧
    ∀ before after, steps = before ++ .redraw :: after →
      ((start.frames [] "" (before ++ [.redraw])).filterMap Frame.status).getLast? =
        some (start.run (before ++ [.redraw])).editor.statusText := by
  intro start frames statuses lines
  have watching : start.Watching [] "" := watching_create settings succeeds
  have collapsed : lines = statuses.destutter (· ≠ ·) := start.lines_frames [] steps
  refine ⟨watching.printed_run steps, ?_, start.status_frames [] "" steps, collapsed, ?_, ?_⟩
  · rintro before after rfl last
    exact watching.cursors_run before last
  · have chain : lines.IsChain (· ≠ ·) := collapsed ▸ List.isChain_destutter _ _
    exact (List.isChain_map statusLine).2 (chain.imp fun _ _ => statusLine_injective.ne)
  · intro before after _
    obtain ⟨unseen, previous, later⟩ := watching.run before
    rw [lines_frames, getLast?_destutter, statuses_concat, List.getLast?_concat, run_concat]
    exact congrArg some later.statusText_redraw.symm

/-- One key switches twice, a redraw finds nothing new, and an error is printed between two others. -/
theorem redraws_run_create_in_one_action :
    let settings : Settings := { normalKeymaps := some (.object
      [("a", .array [.string "modalex.enterInsert", .string "modalex.enterVisual"]),
        ("b", .string "type")]) }
    let before : List Step := [.redraw, .key 'a' 0, .redraw, .redraw, .enter .normal {}, .key 'b' 1,
      .enter .search {}, .key 'b' 2]
    let steps := before ++ [.redraw]
    let output : Output := {}
    let start := (create settings output).1
    let frames := start.frames [] "" steps
    (∀ n, output.failure n = none) ∧
      frames = [⟨[], some "-- NORMAL --"⟩, ⟨[.line, .block], some "-- VISUAL --"⟩, ⟨[], none⟩,
        ⟨[.block, .underline], some "-- SEARCH --: b"⟩] ∧
      List.Forall₂
        (fun x frame => x.redraw.2 = .ok () ∧ x.redraw.1.printed = x.printed ++ frame.text)
        (start.redrawn steps) frames ∧
      [CursorStyle.line, .block, .block, .underline] =
        (start.runEntered before).map settings.cursorStyle ∧
      ["-- NORMAL --", "-- VISUAL --", "-- SEARCH --: b"] =
        (start.statuses steps).destutter (· ≠ ·) ∧
      (start.run (before ++ [.redraw])).editor.statusText = "-- SEARCH --: b" := by
  intro settings before steps output start frames
  let type : Option (Action Terminal) := some (Action.typeKeys Terminal.typeCommand)
  let typing := (Editor.create Terminal.host { output }).modify .insert fun m =>
    (m.setDefaultHandler type).setTimeoutHandler type
  let opened (e : Editor Terminal) : Session :=
    { editor := e.subscribe.2, settings, ticket := e.subscribe.1 }
  let expected : List Frame := [⟨[], some "-- NORMAL --"⟩, ⟨[.line, .block], some "-- VISUAL --"⟩,
    ⟨[], none⟩, ⟨[.block, .underline], some "-- SEARCH --: b"⟩]
  have check : ((typing.setTimeout .insert none).clearKeymaps.mergeLayersWithin 40
      [("inline", settings.inlineKeymaps)]).any fun e =>
      (opened e).frames [] "" steps = expected := by
    decide +kernel
  obtain ⟨e, he, check⟩ := (Option.any_eq_true _ _).1 check
  have created : start = opened e :=
    congrArg (fun result : Editor Terminal × List LayerError => opened result.1)
      (Editor.mergeLayers_eq_of_mergeLayersWithin he)
  have shown : frames = expected := by
    show start.frames [] "" steps = expected
    rw [created]
    exact of_decide_eq_true check
  obtain ⟨printed, cursors, statuses, lines, -, current⟩ :=
    redraws_run_create settings output steps fun _ => rfl
  refine ⟨fun _ => rfl, shown, printed, ?_, ?_, ?_⟩
  · rw [← cursors before _ rfl (by decide)]
    show _ = frames.flatMap Frame.cursors
    rw [shown]
    rfl
  · rw [← lines]
    show _ = frames.filterMap Frame.status
    rw [shown]
    rfl
  · have last : (frames.filterMap Frame.status).getLast? =
        some (start.run (before ++ [.redraw])).editor.statusText := current before [] rfl
    rw [shown] at last
    exact (Option.some.inj last).symm

end Session

end ModalKeys
