import ModalKeys.Host.Recording
import ModalKeys.Proofs.Editor.Protocol
import ModalKeys.Proofs.Editor.Reapplying
import ModalKeys.Proofs.Editor.Settled

/-!
# When timers fire

A timer is a deadline that is looked at when the embedding program says so. The history of an editor
lists what sets or stops timers, without a look at deadlines: keys that are typed, timeouts that are
resolved, mode switches that are completed, and typed keys that are given up. Its last entry alone
decides whether a look at the clock resolves a timeout.
-/

namespace ModalKeys

variable {σ : Type}

/-- What sets a timer, or stops it. -/
inductive TimerEvent where
  /-- A key was typed. `pending` tells whether it left the active modal waiting for a further key, and
  `wait` is how long that modal waits. -/
  | typed (now : Nat) (pending : Bool) (wait : Option Nat)
  /-- The typed keys were resolved by timeout. -/
  | fired
  /-- A mode switch was completed. -/
  | entered (mode : Mode)
  /-- The typed keys were given up: modals were reset, or keymaps cleared or replaced. -/
  | reset
  deriving DecidableEq, Repr

/-- When the typed keys are due if nothing happens afterwards. -/
def TimerEvent.due? : TimerEvent → Option Nat
  | .typed now pending wait => if pending then wait.map (now + ·) else none
  | _ => none

theorem TimerEvent.due?_eq_some_iff {event : TimerEvent} {deadline : Nat} :
    event.due? = some deadline ↔
      ∃ now wait, event = .typed now true (some wait) ∧ now + wait = deadline := by
  constructor
  · intro h
    cases event with
    | typed now pending wait =>
        cases pending with
        | false => cases h
        | true =>
            obtain ⟨nanos, rfl, hd⟩ := Option.map_eq_some_iff.1 h
            exact ⟨now, nanos, rfl, hd⟩
    | fired => cases h
    | entered mode => cases h
    | reset => cases h
  · rintro ⟨now, wait, rfl, rfl⟩
    rfl

/-- The deadline after some events, the last of which has the say. -/
def deadlineAfter (events : List TimerEvent) (before : Option Nat) : Option Nat :=
  events.foldl (fun _ event => event.due?) before

theorem deadlineAfter_append (xs ys : List TimerEvent) (before : Option Nat) :
    deadlineAfter (xs ++ ys) before = deadlineAfter ys (deadlineAfter xs before) :=
  List.foldl_append

theorem deadlineAfter_none (events : List TimerEvent) :
    deadlineAfter events none = events.getLast?.bind TimerEvent.due? := by
  rcases List.eq_nil_or_concat events with rfl | ⟨before, last, rfl⟩
  · rfl
  · rw [List.concat_eq_append, deadlineAfter_append, List.getLast?_concat]
    rfl

/-- Nothing is due after events none of which sets a timer. -/
theorem deadlineAfter_eq_none {events : List TimerEvent} (h : ∀ event ∈ events, event.due? = none)
    {before : Option Nat} (hb : events = [] → before = none) : deadlineAfter events before = none := by
  rcases List.eq_nil_or_concat events with rfl | ⟨front, last, rfl⟩
  · exact hb rfl
  · rw [List.concat_eq_append] at h ⊢
    rw [deadlineAfter_append]
    exact h last (List.mem_append_right _ List.mem_cons_self)

namespace Editor

/-! ## The history of an editor -/

/-- Whether a look at the clock resolves a timeout: it then says so, or fails. -/
def fires (e : Editor σ) (now : Nat) : Bool :=
  match (e.checkTimeout now).2 with
  | .ok false => false
  | _ => true

/-- What an operation itself does to timers, apart from the mode switches that it leads to. -/
def timerEvent? (e : Editor σ) : Operation σ → Option TimerEvent
  | .inputKey key now =>
    let modal := (e.inputKey key now).1.current
    some (.typed now modal.isPending modal.wait)
  | .checkTimeout now => if e.fires now then some .fired else none
  | .resetCurrent | .resetAll | .clearKeymaps | .updateFromSettings _ => some .reset
  | .setKeymap mode _ | .clearKeymap mode => if mode = e.mode then some .reset else none
  | _ => none

/-- What an operation does to timers, in order. -/
def timerEvents (e : Editor σ) (op : Operation σ) : List TimerEvent :=
  (e.timerEvent? op).toList ++ ((e.operationEvents op).filterMap Event.entered?).map .entered

/-- What has happened to timers in the course of some operations. -/
def timerHistory (e : Editor σ) : List (Operation σ) → List TimerEvent
  | [] => []
  | op :: rest => e.timerEvents op ++ (e.apply op).timerHistory rest

/-- Resolves the typed keys by timeout. A handler runs for all of them, if there is one, and the modal
is reset afterwards, whatever comes of it. -/
def expire (e : Editor σ) (handler : Option (Action σ)) : Editor σ × Except DispatchError Bool :=
  let stopped := e.modify e.mode (Modal.mapMatcher · Matcher.reset)
  let ran := match handler with
    | some action => exec e.current.name e.current.keySeq stopped action
    | none => (stopped, .ok ())
  ((ran.1.modify e.mode Modal.reset).release, (ran.2.mapError .command).map fun _ => true)

/-! ## Looking at the clock -/

theorem expire_ne_ok_false (e : Editor σ) (handler : Option (Action σ)) :
    (e.expire handler).2 ≠ .ok false := by
  have no (result : CommandResult) :
      (result.mapError DispatchError.command).map (fun _ => true) ≠ .ok false := by
    cases result <;> exact nofun
  exact no _

theorem onTimeout_of_late {m : Modal σ} {now : Nat} (h : ∀ d, m.deadline = some d → now < d) :
    m.onTimeout now = (m, none) := by
  rw [Modal.onTimeout]
  cases hm : m.matcher? with
  | none => rfl
  | some matcher =>
      refine if_neg fun due => ?_
      obtain ⟨d, hd, hle⟩ := (Option.any_eq_true ..).1 due
      have late := h d (by rw [Modal.deadline, hm]; exact hd)
      exact Nat.not_lt_of_le (of_decide_eq_true hle) late

theorem onTimeout_of_due {m : Modal σ} {now d : Nat} (h : m.deadline = some d) (hle : d ≤ now) :
    ∃ matcher, m.matcher? = some matcher ∧
      m.onTimeout now = (m.mapMatcher Matcher.reset, some matcher.expired) := by
  obtain ⟨matcher, hm, hd⟩ := Option.bind_eq_some_iff.1 h
  refine ⟨matcher, hm, ?_⟩
  rw [Modal.onTimeout, hm]
  exact if_pos (by rw [hd]; exact decide_eq_true hle)

theorem checkTimeout_of_late {e : Editor σ} {now : Nat} (h : ∀ d, e.nextDeadline = some d → now < d) :
    e.checkTimeout now = (e, .ok false) := by
  have early : (e.modal e.mode).onTimeout now = (e.modal e.mode, none) := onTimeout_of_late h
  rw [checkTimeout, early]

theorem checkTimeout_of_due {e : Editor σ} {now d : Nat} (h : e.nextDeadline = some d)
    (hle : d ≤ now) : ∃ matcher, e.current.matcher? = some matcher ∧
      e.checkTimeout now = e.expire (matcher.onTimeout <|> matcher.onDefault) := by
  obtain ⟨matcher, hm, expired⟩ := onTimeout_of_due h hle
  refine ⟨matcher, hm, ?_⟩
  have stopped : e.modify e.mode (fun _ => e.current.mapMatcher Matcher.reset) =
      e.modify e.mode (Modal.mapMatcher · Matcher.reset) := by
    rw [current]
    cases e.mode <;> rfl
  have modal : (e.modify e.mode (Modal.mapMatcher · Matcher.reset)).modal e.mode =
      e.current.mapMatcher Matcher.reset := modal_modify_self ..
  rw [current] at expired stopped
  rw [checkTimeout, expired]
  dsimp only
  rw [stopped]
  unfold expire Matcher.expired Matcher.unmatched
  cases matcher.onTimeout with
  | some action =>
      dsimp only
      rw [resolve, modal]
      rfl
  | none =>
      cases matcher.onDefault with
      | some action =>
          dsimp only
          rw [resolve, modal]
          rfl
      | none => rfl

theorem fires_iff_ne {e : Editor σ} {now : Nat} :
    e.fires now = true ↔ (e.checkTimeout now).2 ≠ .ok false := by
  rw [fires]
  rcases (e.checkTimeout now).2 with error | fired
  · simp
  · cases fired <;> simp

theorem fires_iff {e : Editor σ} {now : Nat} :
    e.fires now = true ↔ ∃ d, e.nextDeadline = some d ∧ d ≤ now := by
  rw [fires_iff_ne]
  constructor
  · intro fired
    by_contra none
    refine fired ?_
    rw [checkTimeout_of_late fun d hd => Nat.lt_of_not_le fun hle => none ⟨d, hd, hle⟩]
  · rintro ⟨d, hd, hle⟩
    obtain ⟨matcher, _, expired⟩ := checkTimeout_of_due hd hle
    rw [expired]
    exact e.expire_ne_ok_false _

theorem late_of_fires_eq_false {e : Editor σ} {now : Nat} (h : e.fires now = false) (d : Nat)
    (hd : e.nextDeadline = some d) : now < d := by
  refine Nat.lt_of_not_le fun hle => ?_
  cases h.symm.trans (fires_iff.2 ⟨d, hd, hle⟩)

theorem checkTimeout_of_not_fires {e : Editor σ} {now : Nat} (h : e.fires now = false) :
    e.checkTimeout now = (e, .ok false) :=
  checkTimeout_of_late (late_of_fires_eq_false h)

/-! ## Nothing is left of a sequence that was resolved -/

theorem Running.idle_reset {e : Editor σ} {source : Mode} (h : e.Running source) (mode : Mode) :
    ((e.modify source Modal.reset).modal mode).Idle := by
  by_cases hm : mode = source
  · subst hm
    rw [modal_modify_self]
    exact Modal.idle_reset _
  · rw [modal_modify_of_ne _ _ _ hm]
    exact h.idle mode hm

theorem Running.idle_resolve {e : Editor σ} {source : Mode} (h : e.Running source)
    {r : Resolution σ} (hr : r = .unhandled ∨ ∃ action, r = .run action) (mode : Mode) :
    ((e.resolve source r).1.modal mode).Idle := by
  rcases hr with rfl | ⟨action, rfl⟩
  · exact h.idle_reset mode
  · have hran := ran_exec (e.modal source).name (e.modal source).keySeq e action
    exact (hran.running h).idle_reset mode

/-- A key that is not followed by the wait for another one leaves no modal waiting. -/
theorem Settled.idle_inputKey {e : Editor σ} (h : e.Settled) {key : Char} {now : Nat}
    (hr : (e.current.onKey e.store key now).2 ≠ .pending) (mode : Mode) :
    ((e.inputKey key now).1.modal mode).Idle := by
  let reply := (e.modal e.mode).onKey e.store key now
  have running : (e.modify e.mode fun _ => reply.1).Running e.mode :=
    h.running_taken (Modal.isSome_searcher?_onKey _ _ _ _)
  show (((e.modify e.mode fun _ => reply.1).resolve e.mode reply.2).1.release.modal mode).Idle
  rw [modal_release]
  cases hq : reply.2 with
  | pending => exact absurd hq hr
  | run action => exact running.idle_resolve (Or.inr ⟨action, rfl⟩) mode
  | unhandled => exact running.idle_resolve (Or.inl rfl) mode
  | search query =>
      -- there is no reset, but a modal that collects text does not wait for keys
      have idle : ∀ m, ((e.modify e.mode fun _ => reply.1).modal m).Idle := by
        intro m
        by_cases hm : m = e.mode
        · rw [hm, modal_modify_self]
          exact h.tidy.idle_onKey_search hq
        · exact running.idle m hm
      exact (ran_runSearch _ query).modal_of_reset Modal.idle_reset (idle mode)

/-- Nor does a timeout that is resolved. -/
theorem Settled.idle_checkTimeout {e : Editor σ} (h : e.Settled) {now : Nat} (fires : e.fires now)
    (mode : Mode) : ((e.checkTimeout now).1.modal mode).Idle := by
  obtain ⟨d, hd, hle⟩ := fires_iff.1 fires
  obtain ⟨matcher, _, expired⟩ := checkTimeout_of_due hd hle
  have running : (e.modify e.mode (Modal.mapMatcher · Matcher.reset)).Running e.mode :=
    h.running_taken (by rw [Modal.searcher?_mapMatcher])
  rw [expired]
  unfold expire
  dsimp only
  rw [modal_release]
  cases matcher.onTimeout <|> matcher.onDefault with
  | none => exact running.idle_reset mode
  | some action =>
      have hran := ran_exec e.current.name e.current.keySeq
        (e.modify e.mode (Modal.mapMatcher · Matcher.reset)) action
      exact (hran.running running).idle_reset mode

/-- A key that is followed by the wait for another one sets the timer, and switches no mode. -/
theorem inputKey_of_pending {e : Editor σ} {key : Char} {now : Nat}
    (hr : (e.current.onKey e.store key now).2 = .pending) :
    (e.inputKey key now).1 =
      (e.modify e.mode fun _ => (e.current.onKey e.store key now).1).release ∧
    e.operationEvents (.inputKey key now) = [] := by
  rw [current] at hr
  constructor
  · rw [inputKey, onKey, current]
    dsimp only
    rw [hr, resolve]
  · rw [operationEvents, inputEvents, taken]
    dsimp only
    rw [hr, resolveEvents]

theorem deadline_onKey_of_pending {m : Modal σ} {s : Store (Action σ)} {key : Char} {now : Nat}
    (hr : (m.onKey s key now).2 = .pending) (waits : (m.onKey s key now).1.isPending = true) :
    (m.onKey s key now).1.deadline = m.wait.map (now + ·) := by
  rcases m.matcher?_or_searcher? with ⟨matcher, hm, _⟩ | ⟨searcher, hs, _⟩
  · obtain ⟨_, hm', hr'⟩ := Modal.onKey_of_matcher? hm s key now
    rw [hr'] at hr
    rcases matcher.onKey_cases s key (m.wait.map (now + ·)) with
      ⟨next, he⟩ | ⟨action, he⟩ | ⟨_, he⟩
    · rw [Modal.deadline, hm', he]
      rfl
    · rw [he] at hr
      cases hr
    · rw [he] at hr
      cases hr
  · have collects : (m.onKey s key now).1.searcher?.isSome := by
      rw [Modal.isSome_searcher?_onKey, hs]
      rfl
    rw [Modal.isPending_eq_false_of_searcher? collects] at waits
    cases waits

theorem wait_onKey (m : Modal σ) (s : Store (Action σ)) (key : Char) (now : Nat) :
    (m.onKey s key now).1.wait = m.wait := by
  unfold Modal.onKey
  cases m.kind with
  | keymap matcher => rfl
  | visual matcher shape => rfl
  | search searcher =>
      dsimp only
      split <;> rfl

/-! ## What an operation does to the timer -/

theorem nextDeadline_eq_none {e : Editor σ} (h : ∀ mode, (e.modal mode).Idle) :
    e.nextDeadline = none :=
  (h e.mode).deadline

/-- Search mode has no timer. -/
theorem Settled.nextDeadline_eq_none {e : Editor σ} (h : e.Settled)
    (idle : ∀ mode ∈ KeymapLayers.modes, (e.modal mode).Idle) : e.nextDeadline = none := by
  show (e.modal e.mode).deadline = none
  cases hm : e.mode with
  | normal => exact (idle .normal (by decide)).deadline
  | insert => exact (idle .insert (by decide)).deadline
  | visual => exact (idle .visual (by decide)).deadline
  | search => exact h.searching.2

@[simp] theorem nextDeadline_withStore (e : Editor σ) (s : Store (Action σ)) :
    ({ e with store := s } : Editor σ).nextDeadline = e.nextDeadline := by
  rw [nextDeadline, current, modal_withStore]
  rfl

@[simp] theorem nextDeadline_release (e : Editor σ) : e.release.nextDeadline = e.nextDeadline :=
  nextDeadline_withStore ..

theorem nextDeadline_modify (e : Editor σ) (mode : Mode) (f : Modal σ → Modal σ) :
    (e.modify mode f).nextDeadline =
      if e.mode = mode then (f (e.modal mode)).deadline else e.nextDeadline := by
  rw [nextDeadline, current, mode_modify, modal_modify]
  split
  · next active => rw [active]
  · rfl

theorem nextDeadline_update (e : Editor σ) (mode : Mode) (f : Modal σ → Modal σ) :
    (e.update mode f).nextDeadline =
      if e.mode = mode then (f (e.modal mode)).deadline else e.nextDeadline := by
  rw [update, nextDeadline_release, nextDeadline_modify]

theorem nextDeadline_update_of_eq {e : Editor σ} {mode : Mode} {f : Modal σ → Modal σ}
    (h : (f (e.modal mode)).deadline = (e.modal mode).deadline) :
    (e.update mode f).nextDeadline = e.nextDeadline := by
  rw [nextDeadline_update, h]
  split
  · next active =>
      rw [← active]
      rfl
  · rfl

theorem deadline_mapMatcher (m : Modal σ) {f : Matcher σ → Matcher σ}
    (h : ∀ matcher, (f matcher).deadline = matcher.deadline) :
    (m.mapMatcher f).deadline = m.deadline := by
  rw [Modal.deadline, Modal.matcher?_mapMatcher, Modal.deadline]
  cases m.matcher? with
  | none => rfl
  | some matcher => exact h matcher

theorem nextDeadline_updateKeymap (e : Editor σ) (mode : Mode) (layer : KeymapId) :
    (e.updateKeymap mode layer).nextDeadline = e.nextDeadline := by
  have kept : ((e.modal mode).updateKeymap e.store e.held layer).1.deadline =
      (e.modal mode).deadline := by
    unfold Modal.updateKeymap
    split
    · rfl
    · exact deadline_mapMatcher _ fun _ => rfl
  rw [updateKeymap, nextDeadline_release, nextDeadline_modify, nextDeadline_withStore]
  dsimp only
  rw [kept]
  split
  · next active =>
      rw [← show e.mode = mode from active]
      rfl
  · rfl

/-- Merging layers is no reason to stop waiting. -/
theorem nextDeadline_mergeLayer (e : Editor σ) (name : String) (layers : KeymapLayers) :
    (e.mergeLayer name layers).1.nextDeadline = e.nextDeadline :=
  mergeLayer_preserves (P := fun x => x.nextDeadline = e.nextDeadline)
    (fun x s hx => (nextDeadline_withStore x s).trans hx)
    (fun x mode km hx => (nextDeadline_updateKeymap x mode km).trans hx) name layers rfl

theorem nextDeadline_mergeLayers (e : Editor σ) (layers : List (String × KeymapLayers)) :
    (e.mergeLayers layers).1.nextDeadline = e.nextDeadline := by
  induction layers generalizing e with
  | nil => rfl
  | cons layer rest ih =>
      exact (ih (e.mergeLayer layer.1 layer.2).1).trans (nextDeadline_mergeLayer ..)

theorem nextDeadline_enterMode (e : Editor σ) (mode : Mode) (options : EnterOptions) :
    (e.enterMode mode options).nextDeadline = none := by
  rw [enterMode, nextDeadline_release]
  refine nextDeadline_eq_none fun m => ?_
  rw [modal_transition]
  exact Modal.idle_reset _

theorem nextDeadline_resetAll (e : Editor σ) : e.resetAll.nextDeadline = none := by
  rw [resetAll, nextDeadline_release]
  refine nextDeadline_eq_none fun mode => ?_
  cases mode <;> exact Modal.idle_reset _

theorem nextDeadline_setKeymap (e : Editor σ) (mode : Mode) (root : KeymapId) :
    (e.setKeymap mode root).nextDeadline = if mode = e.mode then none else e.nextDeadline := by
  have given : ((e.modal mode).setKeymap root).deadline = none := by
    refine Eq.trans (deadline_mapMatcher _ ?_) (e.modal mode).idle_reset.deadline
    exact fun matcher => rfl
  rw [setKeymap, nextDeadline_update, given]
  simp only [eq_comm]

theorem nextDeadline_clearKeymap (e : Editor σ) (mode : Mode) :
    (e.clearKeymap mode).nextDeadline = if mode = e.mode then none else e.nextDeadline := by
  rw [clearKeymap, nextDeadline_release, nextDeadline_modify, nextDeadline_withStore,
    (Modal.idle_clearKeymap ..).deadline]
  simp only [eq_comm]

/-! ## The history tells the deadline -/

/-- Giving up the keys of a mode is no matter unless it is the active one. -/
theorem deadlineAfter_reset_if (active : Prop) [Decidable active] (before : Option Nat) :
    deadlineAfter ((if active then some TimerEvent.reset else none).toList ++ []) before =
      if active then none else before := by
  split <;> rfl

theorem deadlineAfter_entered (own : Option TimerEvent) (modes : List Mode) (before : Option Nat) :
    deadlineAfter (own.toList ++ modes.map .entered) before =
      if modes = [] then deadlineAfter own.toList before else none := by
  rw [deadlineAfter_append]
  split
  · next none =>
      rw [none]
      rfl
  · next some =>
      refine deadlineAfter_eq_none (fun event he => ?_) fun none =>
        absurd (List.map_eq_nil_iff.1 none) some
      obtain ⟨mode, _, rfl⟩ := List.mem_map.1 he
      rfl

theorem Settled.nextDeadline_inputKey {e : Editor σ} (h : e.Settled) (key : Char) (now : Nat) :
    (e.inputKey key now).1.nextDeadline =
      deadlineAfter (e.timerEvents (.inputKey key now)) e.nextDeadline := by
  have tidy : (e.inputKey key now).1.current.Tidy := (settled_inputKey h key now).tidy
  rw [timerEvents, timerEvent?, deadlineAfter_entered]
  cases waits : (e.inputKey key now).1.current.isPending with
  | false =>
      have none : (e.inputKey key now).1.nextDeadline = none := by
        rw [← Option.not_isSome_iff_eq_none]
        exact fun some => by simp [tidy.pending_of_deadline some] at waits
      rw [none]
      split <;> rfl
  | true =>
      -- the key cannot have been resolved, since that would leave no modal waiting
      have pending : (e.current.onKey e.store key now).2 = .pending := by
        by_contra resolved
        have idle := h.idle_inputKey resolved (e.inputKey key now).1.mode
        cases idle.pending.symm.trans waits
      obtain ⟨after, noEvents⟩ := inputKey_of_pending pending
      rw [noEvents]
      have modal : (e.inputKey key now).1.current = (e.current.onKey e.store key now).1 := by
        rw [after, current, modal_release]
        show (e.modify e.mode _).modal (e.modify e.mode _).mode = _
        rw [mode_modify, modal_modify_self]
      rw [modal] at waits
      rw [nextDeadline, modal, deadline_onKey_of_pending pending waits, wait_onKey]
      rfl

theorem Settled.nextDeadline_of_fires {e : Editor σ} (h : e.Settled) {now : Nat}
    (fires : e.fires now) : (e.checkTimeout now).1.nextDeadline = none :=
  Editor.nextDeadline_eq_none (h.idle_checkTimeout fires)

theorem Settled.nextDeadline_checkTimeout {e : Editor σ} (h : e.Settled) (now : Nat) :
    (e.checkTimeout now).1.nextDeadline =
      deadlineAfter (e.timerEvents (.checkTimeout now)) e.nextDeadline := by
  rw [timerEvents, timerEvent?, deadlineAfter_entered]
  cases fired : e.fires now with
  | true =>
      rw [h.nextDeadline_of_fires fired]
      split <;> rfl
  | false =>
      have early : (e.modal e.mode).onTimeout now = (e.modal e.mode, none) :=
        onTimeout_of_late (late_of_fires_eq_false fired)
      have noEvents : e.operationEvents (.checkTimeout now) = [] := by
        rw [operationEvents, inputEvents, taken, early]
      rw [noEvents, checkTimeout_of_not_fires fired]
      rfl

/-- After a look at the clock no deadline has come. -/
theorem Settled.lt_of_nextDeadline_checkTimeout {e : Editor σ} (h : e.Settled) {now d : Nat}
    (hd : (e.checkTimeout now).1.nextDeadline = some d) : now < d := by
  cases fires : e.fires now with
  | true =>
      rw [h.nextDeadline_of_fires fires] at hd
      cases hd
  | false =>
      rw [checkTimeout_of_not_fires fires] at hd
      exact late_of_fires_eq_false fires d hd

/-- All the keys typed are resolved by a timeout, and nothing is left to resolve. -/
theorem Settled.checkTimeout_of_fires {e : Editor σ} (h : e.Settled) {now : Nat}
    (fires : e.fires now) : e.current.keySeq ≠ [] ∧ ∃ matcher, e.current.matcher? = some matcher ∧
      e.checkTimeout now = e.expire (matcher.onTimeout <|> matcher.onDefault) ∧
      ∀ later, (e.checkTimeout now).1.fires later = false := by
  obtain ⟨d, hd, hle⟩ := fires_iff.1 fires
  have waits : e.current.isPending = true := h.tidy.pending_of_deadline (by
    rw [show e.current.deadline = some d from hd]
    rfl)
  obtain ⟨matcher, hm, expired⟩ := checkTimeout_of_due hd hle
  refine ⟨h.tidy.pending_iff.1 waits, matcher, hm, expired, fun later => ?_⟩
  rw [Bool.eq_false_iff, ne_eq, fires_iff, h.nextDeadline_of_fires fires]
  exact nofun

/-- The deadline after an operation is told by its events alone. -/
theorem nextDeadline_apply {e : Editor σ} (h : e.Settled) {op : Operation σ} (hop : op.Regular) :
    (e.apply op).nextDeadline = deadlineAfter (e.timerEvents op) e.nextDeadline := by
  have settled : (e.apply op).Settled := h.apply hop
  cases op with
  | inputKey key now => exact h.nextDeadline_inputKey key now
  | checkTimeout now => exact h.nextDeadline_checkTimeout now
  | enterMode mode options => exact nextDeadline_enterMode e mode options
  | enterModeNamed name options =>
      rw [apply, enterModeNamed, timerEvents, operationEvents]
      cases Mode.ofName? name with
      | none => rfl
      | some mode => exact nextDeadline_enterMode e mode options
  | resetCurrent =>
      rw [apply, resetCurrent, reset, nextDeadline_update, if_pos rfl]
      exact (Modal.idle_reset _).deadline
  | resetAll => exact nextDeadline_resetAll e
  | clearKeymaps =>
      exact settled.nextDeadline_eq_none fun mode hm => (cleared_clearKeymaps e hm).idle
  | updateKeymaps layers => exact nextDeadline_mergeLayer ..
  | applyPreset preset => exact nextDeadline_mergeLayers ..
  | updateFromSettings settings =>
      exact settled.nextDeadline_eq_none fun mode hm => idle_updateFromSettings e settings hm
  | setKeymap mode root =>
      exact (nextDeadline_setKeymap ..).trans (deadlineAfter_reset_if ..).symm
  | updateKeymap mode layer => exact nextDeadline_updateKeymap e mode layer
  | clearKeymap mode => exact (nextDeadline_clearKeymap ..).trans (deadlineAfter_reset_if ..).symm
  | setWait mode wait => exact nextDeadline_update_of_eq rfl
  | setDefaultHandler mode action =>
      exact nextDeadline_update_of_eq (deadline_mapMatcher _ fun _ => rfl)
  | setTimeoutHandler mode action =>
      exact nextDeadline_update_of_eq (deadline_mapMatcher _ fun _ => rfl)
  | changeModal mode change => exact hop.elim
  | changeStore change => exact nextDeadline_withStore ..
  | changeState change => rfl
  | subscribe => rfl
  | unsubscribe ticket => rfl
  | receive ticket => rfl

theorem nextDeadline_run {e : Editor σ} (h : e.Settled) {ops : List (Operation σ)}
    (hops : ∀ op ∈ ops, op.Regular) :
    (e.run ops).nextDeadline = deadlineAfter (e.timerHistory ops) e.nextDeadline := by
  induction ops generalizing e with
  | nil => rfl
  | cons op rest ih =>
      obtain ⟨ho, hrest⟩ := List.forall_mem_cons.1 hops
      rw [timerHistory, deadlineAfter_append, ← nextDeadline_apply h ho]
      exact ih (h.apply ho) hrest

/-- A timeout is resolved by a look at the clock exactly when the last that happened to timers is a key
that left the active modal waiting, with a timeout that has passed since. All the keys typed are then
taken by the timeout handler, or else by the default handler, or else dropped; looking again is of no
use. Otherwise nothing happens. After a look at the clock there is always time left to wait. -/
theorem checkTimeout_run_create (host : Host σ) (state : σ) (ops : List (Operation σ))
    (hops : ∀ op ∈ ops, op.Regular) (now : Nat) :
    let e := (create host state).run ops
    let history := (create host state).timerHistory ops
    (e.fires now ↔ ∃ typed wait,
      history.getLast? = some (.typed typed true (some wait)) ∧ typed + wait ≤ now) ∧
    (e.fires now → e.current.keySeq ≠ [] ∧ ∃ matcher, e.current.matcher? = some matcher ∧
      e.checkTimeout now = e.expire (matcher.onTimeout <|> matcher.onDefault) ∧
      ∀ later, (e.checkTimeout now).1.fires later = false) ∧
    (e.fires now = false → e.checkTimeout now = (e, .ok false)) ∧
    (∀ d, (e.checkTimeout now).1.nextDeadline = some d → now < d) ∧
    (e.checkTimeout now).1.pollTimeout now ≠ some 0 := by
  intro e history
  have settled : e.Settled := (settled_create host state).run hops
  have deadline : e.nextDeadline = history.getLast?.bind TimerEvent.due? :=
    (nextDeadline_run (settled_create host state) hops).trans (deadlineAfter_none history)
  refine ⟨?_, settled.checkTimeout_of_fires, checkTimeout_of_not_fires,
    fun d => settled.lt_of_nextDeadline_checkTimeout, fun stuck => ?_⟩
  · rw [fires_iff, deadline]
    constructor
    · rintro ⟨d, hd, hle⟩
      obtain ⟨event, last, due⟩ := Option.bind_eq_some_iff.1 hd
      obtain ⟨typed, wait, rfl, rfl⟩ := TimerEvent.due?_eq_some_iff.1 due
      exact ⟨typed, wait, last, hle⟩
    · rintro ⟨typed, wait, last, hle⟩
      exact ⟨typed + wait, by rw [last]; rfl, hle⟩
  · obtain ⟨d, hd, zero⟩ := Option.map_eq_some_iff.1 stuck
    exact Nat.not_le_of_lt (settled.lt_of_nextDeadline_checkTimeout hd)
      (Nat.sub_eq_zero_iff_le.1 zero)

/-- The timer that the key has set runs on when the timeout and the handler are changed afterwards, and
when the clock is looked at too early. The editor's own three keymaps are followed by the one that is
loaded. -/
theorem checkTimeout_run_create_after_changes :
    let keymap : Json := .object [("j", .object [("k", .string "modalex.enterNormal")])]
    let ops : List (Operation Record) := [.setWait .insert (some 1500),
      .changeStore fun s => ((s.load keymap).toOption.map (·.2)).getD s,
      .setKeymap .insert 3, .enterMode .insert {}, .inputKey 'x' 0, .inputKey 'j' 1000,
      .setWait .insert none, .setTimeoutHandler .insert (some (.typeKeys "type")),
      .checkTimeout 2499]
    let e := (create Host.commandRecorder []).run ops
    (∀ op ∈ ops, op.Regular) ∧ e.fires 2500 = true ∧
      e.current.keySeq ≠ [] ∧ ∃ matcher, e.current.matcher? = some matcher ∧
        e.checkTimeout 2500 = e.expire (matcher.onTimeout <|> matcher.onDefault) ∧
        ∀ later, (e.checkTimeout 2500).1.fires later = false := by
  intro keymap ops e
  have regular : ∀ op ∈ ops, op.Regular := by simp [ops, Operation.Regular]
  obtain ⟨fires_iff, expires, _⟩ :=
    checkTimeout_run_create Host.commandRecorder [] ops regular 2500
  have last : ((create Host.commandRecorder []).timerHistory ops).getLast? =
      some (.typed 1000 true (some 1500)) := by decide +kernel
  have fires := fires_iff.2 ⟨1000, 1500, last, by decide⟩
  exact ⟨regular, fires, expires fires⟩

end Editor

end ModalKeys
