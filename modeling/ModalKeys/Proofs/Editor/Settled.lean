import ModalKeys.Host.Recording
import ModalKeys.Proofs.Editor.Operation
import ModalKeys.Proofs.Modal.Step

/-!
# Settled editors

Between operations only the active modal can be in the middle of a key sequence, and only Search mode
can hold search options. While an action runs this does not hold: the modal that resolved the action
still has the keys, and the action may have switched to other modes. `Running` says what holds then,
and a reset of that one modal is all it takes to settle the editor again.
-/

namespace ModalKeys

variable {σ : Type}

namespace Editor

/-- Nothing is left half done, except that the active modal may wait for a further key. -/
structure Settled (e : Editor σ) : Prop where
  idle : ∀ mode, mode ≠ e.mode → (e.modal mode).Idle
  tidy : e.current.Tidy
  /-- Search mode collects text, and the other modes follow keys. -/
  collects : ∀ mode, (e.modal mode).searcher?.isSome = decide (mode = .search)
  searching : e.search.keySeq = [] ∧ e.search.deadline = none
  unlatched : e.mode ≠ .search → e.search.Unlatched

/-- Nothing is left half done outside the modal of `source`. -/
structure Running (source : Mode) (e : Editor σ) : Prop where
  idle : ∀ mode, mode ≠ source → (e.modal mode).Idle
  collects : ∀ mode, (e.modal mode).searcher?.isSome = decide (mode = .search)
  unlatched : e.mode ≠ .search → e.search.Unlatched

theorem Settled.running {e : Editor σ} (h : e.Settled) : e.Running e.mode where
  idle := h.idle
  collects := h.collects
  unlatched := h.unlatched

/-- The active modal may wait for a further key. -/
theorem Running.settled_of_tidy {e : Editor σ} {source : Mode} (h : e.Running source)
    (hm : e.mode = source) (ht : (e.modal source).Tidy) : e.Settled := by
  subst hm
  -- collecting text needs no waiting, so a tidy Search modal is idle
  have idle : (e.modal .search).Idle := by
    by_cases hm : e.mode = .search
    · exact Modal.Tidy.idle_of_searcher? (hm ▸ ht) (h.collects .search)
    · exact h.idle .search (Ne.symm hm)
  exact {
    idle := h.idle
    tidy := ht
    collects := h.collects
    searching := ⟨idle.keySeq, idle.deadline⟩
    unlatched := h.unlatched }

theorem Running.settled {e : Editor σ} {source : Mode} (h : e.Running source)
    (hs : (e.modal source).Idle) : e.Settled := by
  have idle : ∀ mode, (e.modal mode).Idle := by
    intro mode
    by_cases hm : mode = source
    · rw [hm]
      exact hs
    · exact h.idle mode hm
  have running : e.Running e.mode := ⟨fun mode _ => idle mode, h.collects, h.unlatched⟩
  exact running.settled_of_tidy rfl (idle e.mode).tidy

theorem settled_create (host : Host σ) (state : σ) : (create host state).Settled := by
  have idle : ∀ mode, ((create host state).modal mode).Idle := by
    intro mode
    cases mode <;> exact ⟨rfl, rfl, rfl⟩
  exact {
    idle := fun mode _ => idle mode
    tidy := (idle _).tidy
    collects := by intro mode; cases mode <;> rfl
    searching := ⟨rfl, rfl⟩
    unlatched := fun _ => ⟨rfl, rfl, rfl, rfl⟩ }

/-! ## Changes of the modals -/

/-- The Search modal of a changed editor, as far as its options go. -/
theorem searcher?_modify {e : Editor σ} {mode : Mode} {f : Modal σ → Modal σ}
    (h : (f (e.modal mode)).searcher? = (e.modal mode).searcher?) :
    (e.modify mode f).search.searcher? = e.search.searcher? := by
  cases mode <;> first | exact h | rfl

theorem Settled.modify {e : Editor σ} (h : e.Settled) {mode : Mode} {f : Modal σ → Modal σ}
    (hk : (e.modal mode).Keeps (f (e.modal mode))) : (e.modify mode f).Settled := by
  have hs := searcher?_modify hk.searcher
  have idle : ∀ m, m ≠ e.mode → ((e.modify mode f).modal m).Idle := by
    intro m hm
    by_cases hmm : m = mode
    · subst hmm
      rw [modal_modify_self]
      exact hk.idle (h.idle m hm)
    · rw [modal_modify_of_ne _ _ _ hmm]
      exact h.idle m hm
  have tidy : ((e.modify mode f).modal e.mode).Tidy := by
    by_cases hm : e.mode = mode
    · rw [hm, modal_modify_self]
      exact hk.tidy (hm ▸ h.tidy)
    · rw [modal_modify_of_ne _ _ _ hm]
      exact h.tidy
  have running : (e.modify mode f).Running e.mode := by
    refine ⟨idle, ?_, ?_⟩
    · intro m
      rw [isSome_searcher?_modify (by rw [hk.searcher]), h.collects]
    · rw [mode_modify]
      intro hm
      exact (h.unlatched hm).of_searcher? hs
  exact running.settled_of_tidy (mode_modify ..) tidy

/-- A reset of the modal that was in use settles the editor. -/
theorem Running.reset {e : Editor σ} {source : Mode} (h : e.Running source) :
    (e.modify source Modal.reset).Settled := by
  have hs : (e.modify source Modal.reset).search.searcher? = e.search.searcher? :=
    searcher?_modify (Modal.searcher?_reset _)
  have running : (e.modify source Modal.reset).Running source := by
    refine ⟨?_, ?_, ?_⟩
    · intro mode hm
      rw [modal_modify_of_ne _ _ _ hm]
      exact h.idle mode hm
    · intro mode
      rw [isSome_searcher?_modify (by rw [Modal.searcher?_reset]), h.collects]
    · rw [mode_modify]
      intro hm
      exact (h.unlatched hm).of_searcher? hs
  have idle : ((e.modify source Modal.reset).modal source).Idle := by
    rw [modal_modify_self]
    exact Modal.idle_reset _
  exact running.settled idle

/-! ## Mode switches -/

/-- A mode switch settles the editor, whatever the modal of `source` was doing. -/
theorem Running.transition {e : Editor σ} {source : Mode} (h : e.Running source) (mode : Mode)
    (options : EnterOptions) : (e.transition mode options).Settled := by
  have idle : ∀ m, ((e.transition mode options).modal m).Idle := by
    intro m
    rw [modal_transition]
    exact Modal.idle_reset _
  refine ⟨fun m _ => idle m, (idle _).tidy, ?_, ?_, ?_⟩
  · intro m
    rw [isSome_searcher?_transition, h.collects]
  · exact ⟨(idle .search).keySeq, (idle .search).deadline⟩
  · -- what was latched for a search is given up when Search mode is left
    intro hm
    rw [mode_transition] at hm
    have hs : ((e.transition mode options).modal .search).searcher? =
        ((e.modify e.mode Modal.willLeave).modal .search).searcher? := by
      rw [modal_transition, Modal.searcher?_reset, modal_modify_of_ne _ _ _ (Ne.symm hm)]
    by_cases he : e.mode = .search
    · refine Modal.Unlatched.of_searcher? (m := (e.modal .search).willLeave) ?_ ?_
      · exact Modal.unlatched_willLeave (h.collects .search)
      · exact hs.trans (by rw [he, modal_modify_self])
    · refine (h.unlatched he).of_searcher? ?_
      rw [modal_modify_of_ne _ _ _ (Ne.symm he)] at hs
      exact hs

theorem Settled.transition {e : Editor σ} (h : e.Settled) (mode : Mode) (options : EnterOptions) :
    (e.transition mode options).Settled :=
  h.running.transition mode options

theorem Settled.withState {e : Editor σ} (h : e.Settled) (s : σ) : { e with state := s }.Settled :=
  ⟨h.idle, h.tidy, h.collects, h.searching, h.unlatched⟩

theorem Settled.withStore {e : Editor σ} (h : e.Settled) (s : Store (Action σ)) :
    { e with store := s }.Settled :=
  ⟨h.idle, h.tidy, h.collects, h.searching, h.unlatched⟩

theorem Ran.settled {e e' : Editor σ} {events : List (Event σ)} (h : Ran e events e')
    (hs : e.Settled) : e'.Settled :=
  h.preserves (fun _ s he => he.withState s) (fun _ mode options he => he.transition mode options) hs

/-- Running actions does no harm outside the modal that they were resolved in. -/
theorem Ran.running {e e' : Editor σ} {events : List (Event σ)} {source : Mode} (h : Ran e events e')
    (hr : e.Running source) : e'.Running source := by
  have transition : ∀ (x : Editor σ) (mode : Mode) (options : EnterOptions), x.Running source →
      (x.transition mode options).Running source := by
    intro x mode options hx
    have hs := hx.transition mode options
    refine ⟨?_, hs.collects, hs.unlatched⟩
    intro m _
    rw [modal_transition]
    exact Modal.idle_reset _
  exact h.preserves (fun _ _ hx => ⟨hx.idle, hx.collects, hx.unlatched⟩) transition hr

/-! ## Keys and timeouts -/

/-- Running what a sequence resolved to, or giving the sequence up, settles the editor. -/
theorem Running.resolve {e : Editor σ} {source : Mode} (h : e.Running source)
    {r : Resolution σ} (hr : r = .unhandled ∨ ∃ action, r = .run action) :
    (e.resolve source r).1.Settled := by
  rcases hr with rfl | ⟨action, rfl⟩
  · exact h.reset
  · have hran := ran_exec (e.modal source).name (e.modal source).keySeq e action
    exact (hran.running h).reset

/-- While the active modal deals with an input the others stay as they are. -/
theorem Settled.running_taken {e : Editor σ} (h : e.Settled) {f : Modal σ → Modal σ}
    (hf : (f (e.modal e.mode)).searcher?.isSome = (e.modal e.mode).searcher?.isSome) :
    (e.modify e.mode f).Running e.mode := by
  refine ⟨?_, ?_, ?_⟩
  · intro m hm
    rw [modal_modify_of_ne _ _ _ hm]
    exact h.idle m hm
  · intro m
    rw [isSome_searcher?_modify hf, h.collects]
  · rw [mode_modify]
    intro hm
    refine (h.unlatched hm).of_searcher? ?_
    show ((e.modify e.mode f).modal .search).searcher? = _
    rw [modal_modify_of_ne _ _ _ (Ne.symm hm)]
    rfl

theorem settled_inputKey {e : Editor σ} (h : e.Settled) (key : Char) (now : Nat) :
    (e.inputKey key now).1.Settled := by
  let m := (e.modal e.mode).onKey e.store key now
  have hr : (e.modify e.mode fun _ => m.1).Running e.mode :=
    h.running_taken (Modal.isSome_searcher?_onKey _ _ _ _)
  have settled : ((e.modify e.mode fun _ => m.1).resolve e.mode m.2).1.Settled := by
    cases hq : m.2 with
    | pending =>
        -- nothing runs, and the typed keys stay for the next one
        refine hr.settled_of_tidy (mode_modify ..) ?_
        rw [modal_modify_self]
        exact h.tidy.onKey hq
    | run action => exact hr.resolve (Or.inr ⟨action, rfl⟩)
    | unhandled => exact hr.resolve (Or.inl rfl)
    | search query =>
        -- no reset follows, but the Search modal has no typed keys anyway
        have hi : ((e.modify e.mode fun _ => m.1).modal e.mode).Idle := by
          rw [modal_modify_self]
          exact h.tidy.idle_onKey_search hq
        exact (ran_runSearch _ query).settled (hr.settled hi)
  exact settled.withStore _

theorem settled_checkTimeout {e : Editor σ} (h : e.Settled) (now : Nat) :
    (e.apply (.checkTimeout now)).Settled := by
  rw [show Operation.checkTimeout now = (TimedInput.check now).operation from rfl, apply_input]
  rcases e.taken_check_cases now with hn | ⟨matcher, _, hs⟩
  · rw [hn]
    exact h
  · rw [hs]
    have hr : (e.modify e.mode (Modal.mapMatcher · Matcher.reset)).Running e.mode :=
      h.running_taken (by rw [Modal.searcher?_mapMatcher])
    have settled := hr.resolve (r := matcher.expired) (by
      rcases matcher.expired_cases with ⟨action, he⟩ | ⟨_, _, he⟩
      · exact Or.inr ⟨action, he⟩
      · exact Or.inl he)
    exact settled.withStore _

/-! ## All operations -/

theorem Settled.enterMode {e : Editor σ} (h : e.Settled) (mode : Mode) (options : EnterOptions) :
    (e.enterMode mode options).Settled :=
  (h.transition mode options).withStore _

theorem Settled.update {e : Editor σ} (h : e.Settled) {mode : Mode} {f : Modal σ → Modal σ}
    (hk : (e.modal mode).Keeps (f (e.modal mode))) : (e.update mode f).Settled :=
  (h.modify hk).withStore _

theorem Settled.updateKeymap {e : Editor σ} (h : e.Settled) (mode : Mode) (layer : KeymapId) :
    (e.updateKeymap mode layer).Settled :=
  ((h.withStore _).modify (Modal.keeps_updateKeymap (e.modal mode) e.store e.held layer)).withStore _

theorem Settled.clearKeymap {e : Editor σ} (h : e.Settled) (mode : Mode) :
    (e.clearKeymap mode).Settled :=
  ((h.withStore _).modify (Modal.keeps_clearKeymap (e.modal mode) e.store)).withStore _

theorem Settled.resetModals {e : Editor σ} (h : e.Settled) : e.resetModals.Settled := by
  have step : ∀ (modes : List Mode) (x : Editor σ), x.Settled →
      (modes.foldl (fun x mode => x.modify mode Modal.reset) x).Settled := by
    intro modes
    induction modes with
    | nil => exact fun x hx => hx
    | cons mode rest ih => exact fun x hx => ih _ (hx.modify (Modal.keeps_reset _))
  exact step Mode.all e h

/-- No operation leaves anything half done, whether it succeeds or fails. -/
theorem Settled.apply {e : Editor σ} (h : e.Settled) {op : Operation σ} (hop : op.Regular) :
    (e.apply op).Settled := by
  have store : ∀ (x : Editor σ) s, x.Settled → { x with store := s }.Settled :=
    fun x s hx => hx.withStore s
  have updateKeymap : ∀ (x : Editor σ) mode km, x.Settled → (x.updateKeymap mode km).Settled :=
    fun x mode km hx => hx.updateKeymap mode km
  cases op with
  | inputKey key now => exact settled_inputKey h key now
  | checkTimeout now => exact settled_checkTimeout h now
  | enterMode mode options => exact h.enterMode mode options
  | enterModeNamed name options =>
      show (e.enterModeNamed name options).1.Settled
      unfold enterModeNamed
      cases Mode.ofName? name with
      | none => exact h
      | some mode => exact h.enterMode mode options
  | resetCurrent => exact h.update (Modal.keeps_reset _)
  | resetAll => exact h.resetModals.withStore _
  | clearKeymaps => exact clearKeymaps_preserves (fun x mode hx => hx.clearKeymap mode) h
  | updateKeymaps layers => exact mergeLayer_preserves store updateKeymap _ layers h
  | applyPreset preset => exact mergeLayers_preserves store updateKeymap _ h
  | updateFromSettings settings =>
      exact updateFromSettings_preserves store updateKeymap (fun x mode hx => hx.clearKeymap mode)
        (fun x mode wait hx => hx.update (Modal.keeps_setWait _ wait)) settings h
  | setKeymap mode root => exact h.update (Modal.keeps_setKeymap _ root)
  | updateKeymap mode layer => exact h.updateKeymap mode layer
  | clearKeymap mode => exact h.clearKeymap mode
  | setWait mode wait => exact h.update (Modal.keeps_setWait _ wait)
  | setDefaultHandler mode action => exact h.update (Modal.keeps_setDefaultHandler _ action)
  | setTimeoutHandler mode action => exact h.update (Modal.keeps_setTimeoutHandler _ action)
  | changeModal mode change => exact hop.elim
  | changeStore change => exact h.withStore _
  | changeState change => exact h.withState _
  | subscribe => exact ⟨h.idle, h.tidy, h.collects, h.searching, h.unlatched⟩
  | unsubscribe ticket => exact ⟨h.idle, h.tidy, h.collects, h.searching, h.unlatched⟩
  | receive ticket => exact ⟨h.idle, h.tidy, h.collects, h.searching, h.unlatched⟩

theorem Settled.run {e : Editor σ} (h : e.Settled) {ops : List (Operation σ)}
    (hops : ∀ op ∈ ops, op.Regular) : (e.run ops).Settled := by
  induction ops generalizing e with
  | nil => exact h
  | cons op rest ih =>
      have ho : op.Regular := hops op List.mem_cons_self
      exact ih (h.apply ho) fun o hm => hops o (List.mem_cons_of_mem _ hm)

/-- Every editor is settled between operations: after each run from a new one, only the active modal
can have typed keys, which is when it waits for more, and only Search mode can have search options. -/
theorem settled_run_create (host : Host σ) (state : σ) (ops : List (Operation σ))
    (hops : ∀ op ∈ ops, op.Regular) : ((create host state).run ops).Settled :=
  (settled_create host state).run hops

/-- A handler that fails after it has switched to Search mode by way of Insert mode. -/
theorem settled_run_create_after_failure :
    let handler : Action Record := .callback (CallbackStep.script · [.enter .insert {},
      .enter .search { singleChar := some true }, .fail (.failed "stop")])
    let ops : List (Operation Record) := [.setWait .normal (some 300000000),
      .setDefaultHandler .normal (some handler), .applyPreset .simple, .inputKey 'd' 0,
      .inputKey 'q' 5, .checkTimeout 400000000, .enterModeNamed "nowhere" {}]
    (∀ op ∈ ops, op.Regular) ∧ ((create Host.commandRecorder []).run ops).Settled := by
  intro handler ops
  have regular : ∀ op ∈ ops, op.Regular := by simp [ops, Operation.Regular]
  exact ⟨regular, settled_run_create _ _ _ regular⟩

end Editor

end ModalKeys
