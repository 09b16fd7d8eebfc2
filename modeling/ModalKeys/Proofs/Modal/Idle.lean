import ModalKeys.Modal

/-!
# Idle and tidy modals

Between two inputs a modal is either *idle*, with no keys typed and no timer set, or it waits for a
further key after the ones typed. `Tidy` says that these are the only two cases. What an operation
on a modal does to them is recorded once, as `Keeps`.
-/

namespace ModalKeys

variable {σ : Type}

namespace Modal

/-- No keys have been typed, none are awaited, and no timer is set. -/
structure Idle (m : Modal σ) : Prop where
  keySeq : m.keySeq = []
  pending : m.isPending = false
  deadline : m.deadline = none

/-- Further keys are awaited exactly when some have been typed, and a timer is set only then. -/
structure Tidy (m : Modal σ) : Prop where
  pending_iff : m.isPending = true ↔ m.keySeq ≠ []
  pending_of_deadline : m.deadline.isSome → m.isPending = true

/-- Nothing has been latched for a search: no text, and the default options. -/
structure Unlatched (m : Modal σ) : Prop where
  text : m.searchText = some ""
  range : m.searchRange = some .document
  direction : m.searchDirection = some .after
  singleChar : m.isSingleChar = false

theorem Idle.tidy {m : Modal σ} (h : m.Idle) : m.Tidy where
  pending_iff := by simp [h.keySeq, h.pending]
  pending_of_deadline := by simp [h.deadline]

/-! ## Matchers and searchers -/

/-- A modal follows keys through keymaps or collects text. -/
theorem matcher?_or_searcher? (m : Modal σ) :
    (∃ matcher, m.matcher? = some matcher ∧ m.searcher? = none) ∨
    (∃ searcher, m.searcher? = some searcher ∧ m.matcher? = none) := by
  unfold matcher? searcher?
  cases m.kind with
  | keymap matcher => exact Or.inl ⟨matcher, rfl, rfl⟩
  | visual matcher shape => exact Or.inl ⟨matcher, rfl, rfl⟩
  | search searcher => exact Or.inr ⟨searcher, rfl, rfl⟩

theorem matcher?_eq_none_of_searcher? {m : Modal σ} (h : m.searcher?.isSome) :
    m.matcher? = none := by
  rcases m.matcher?_or_searcher? with ⟨matcher, _, hn⟩ | ⟨searcher, _, hn⟩
  · rw [hn] at h
    cases h
  · exact hn

theorem isSome_matcher? (m : Modal σ) : m.matcher?.isSome = !m.searcher?.isSome := by
  rcases m.matcher?_or_searcher? with ⟨matcher, hm, hn⟩ | ⟨searcher, hs, hn⟩
  · rw [hm, hn]
    rfl
  · rw [hs, hn]
    rfl

theorem isPending_eq_false_of_searcher? {m : Modal σ} (h : m.searcher?.isSome) :
    m.isPending = false := by
  rw [isPending, matcher?_eq_none_of_searcher? h]
  rfl

theorem deadline_eq_none_of_searcher? {m : Modal σ} (h : m.searcher?.isSome) :
    m.deadline = none := by
  rw [deadline, matcher?_eq_none_of_searcher? h]
  rfl

/-- A modal that collects text never waits for a further key. -/
theorem Tidy.idle_of_searcher? {m : Modal σ} (h : m.Tidy) (hs : m.searcher?.isSome) : m.Idle where
  keySeq := by
    have hp := isPending_eq_false_of_searcher? hs
    have hk := mt h.pending_iff.2 (by simp [hp])
    exact Decidable.not_not.1 hk
  pending := isPending_eq_false_of_searcher? hs
  deadline := deadline_eq_none_of_searcher? hs

theorem Unlatched.of_searcher? {m m' : Modal σ} (h : m.Unlatched)
    (hs : m'.searcher? = m.searcher?) : m'.Unlatched where
  text := by rw [searchText, hs]; exact h.text
  range := by rw [searchRange, hs]; exact h.range
  direction := by rw [searchDirection, hs]; exact h.direction
  singleChar := by rw [isSingleChar, hs]; exact h.singleChar

@[simp] theorem searcher?_mapMatcher (m : Modal σ) (f : Matcher σ → Matcher σ) :
    (m.mapMatcher f).searcher? = m.searcher? := by
  unfold searcher? mapMatcher
  cases m.kind <;> rfl

@[simp] theorem matcher?_mapMatcher (m : Modal σ) (f : Matcher σ → Matcher σ) :
    (m.mapMatcher f).matcher? = m.matcher?.map f := by
  unfold matcher? mapMatcher
  cases m.kind <;> rfl

@[simp] theorem keySeq_reset (m : Modal σ) : m.reset.keySeq = [] := rfl

@[simp] theorem searcher?_reset (m : Modal σ) : m.reset.searcher? = m.searcher? := by
  rw [reset, searcher?_mapMatcher]
  rfl

@[simp] theorem matcher?_reset (m : Modal σ) :
    m.reset.matcher? = m.matcher?.map Matcher.reset := by
  rw [reset, matcher?_mapMatcher]
  rfl

theorem idle_reset (m : Modal σ) : m.reset.Idle where
  keySeq := rfl
  pending := by
    rw [isPending, matcher?_reset]
    cases m.matcher? <;> rfl
  deadline := by
    rw [deadline, matcher?_reset]
    cases m.matcher? <;> rfl

/-! ## Entering and leaving -/

@[simp] theorem searcher?_willEnter (m : Modal σ) (options : EnterOptions) :
    (m.willEnter options).searcher? = m.searcher?.map (·.latch options) := by
  unfold searcher? willEnter
  cases m.kind <;> rfl

@[simp] theorem searcher?_willLeave (m : Modal σ) :
    m.willLeave.searcher? = m.searcher?.map (·.latch {}) := by
  unfold searcher? willLeave
  cases m.kind <;> rfl

theorem unlatched_willLeave {m : Modal σ} (h : m.searcher?.isSome) : m.willLeave.Unlatched := by
  obtain ⟨searcher, hs⟩ := Option.isSome_iff_exists.1 h
  have hl : m.willLeave.searcher? = some (searcher.latch {}) := by rw [searcher?_willLeave, hs]; rfl
  refine ⟨?_, ?_, ?_, ?_⟩
  · rw [searchText, hl]; rfl
  · rw [searchRange, hl]; rfl
  · rw [searchDirection, hl]; rfl
  · rw [isSingleChar, hl]; rfl

/-! ## Operations that keep what is typed, or give it up -/

/-- From `m` to `m'` nothing is left half done: an idle modal stays idle and a tidy one tidy. The
search options do not change. -/
structure Keeps (m m' : Modal σ) : Prop where
  idle : m.Idle → m'.Idle
  tidy : m.Tidy → m'.Tidy
  searcher : m'.searcher? = m.searcher?

/-- Giving up what was typed. -/
theorem Keeps.of_idle {m m' : Modal σ} (h : m'.Idle) (hs : m'.searcher? = m.searcher?) :
    m.Keeps m' where
  idle := fun _ => h
  tidy := fun _ => h.tidy
  searcher := hs

/-- Leaving everything that was typed in place. -/
theorem Keeps.of_eq {m m' : Modal σ} (hk : m'.keySeq = m.keySeq) (hp : m'.isPending = m.isPending)
    (hd : m'.deadline = m.deadline) (hs : m'.searcher? = m.searcher?) : m.Keeps m' where
  idle := fun h => ⟨by rw [hk, h.keySeq], by rw [hp, h.pending], by rw [hd, h.deadline]⟩
  tidy := fun h => ⟨by rw [hp, hk]; exact h.pending_iff, by rw [hd, hp]; exact h.pending_of_deadline⟩
  searcher := hs

/-- Changing a matcher but for its place in the keymaps and its timer. -/
theorem Keeps.mapMatcher (m : Modal σ) {f : Matcher σ → Matcher σ}
    (hc : ∀ matcher, (f matcher).current = matcher.current)
    (hd : ∀ matcher, (f matcher).deadline = matcher.deadline) : m.Keeps (m.mapMatcher f) := by
  refine Keeps.of_eq rfl ?_ ?_ (searcher?_mapMatcher m f)
  · rw [isPending, matcher?_mapMatcher, isPending]
    cases m.matcher? with
    | none => rfl
    | some matcher => simp [hc]
  · rw [deadline, matcher?_mapMatcher, deadline]
    cases m.matcher? with
    | none => rfl
    | some matcher => simp [hd]

theorem keeps_reset (m : Modal σ) : m.Keeps m.reset :=
  Keeps.of_idle m.idle_reset m.searcher?_reset

theorem keeps_setWait (m : Modal σ) (wait : Option Nat) : m.Keeps (m.setWait wait) :=
  Keeps.of_eq rfl rfl rfl rfl

theorem keeps_setDefaultHandler (m : Modal σ) (action : Option (Action σ)) :
    m.Keeps (m.setDefaultHandler action) :=
  Keeps.mapMatcher m (fun _ => rfl) (fun _ => rfl)

theorem keeps_setTimeoutHandler (m : Modal σ) (action : Option (Action σ)) :
    m.Keeps (m.setTimeoutHandler action) :=
  Keeps.mapMatcher m (fun _ => rfl) (fun _ => rfl)

/-- After a reset, a change of the matcher that touches neither its place nor its timer. -/
theorem keeps_reset_mapMatcher (m : Modal σ) {f : Matcher σ → Matcher σ}
    (hc : ∀ matcher, (f matcher).current = matcher.current)
    (hd : ∀ matcher, (f matcher).deadline = matcher.deadline) :
    m.Keeps (m.reset.mapMatcher f) :=
  Keeps.of_idle ((Keeps.mapMatcher m.reset hc hd).idle m.idle_reset)
    (by rw [searcher?_mapMatcher, searcher?_reset])

theorem keeps_setKeymap (m : Modal σ) (root : KeymapId) : m.Keeps (m.setKeymap root) :=
  keeps_reset_mapMatcher m (fun _ => rfl) (fun _ => rfl)

theorem keeps_clearKeymap (m : Modal σ) (s : Store (Action σ)) : m.Keeps (m.clearKeymap s).1 := by
  unfold clearKeymap
  split
  · exact m.keeps_reset
  · exact keeps_reset_mapMatcher m (fun _ => rfl) (fun _ => rfl)

theorem keeps_updateKeymap (m : Modal σ) (s : Store (Action σ)) (roots : List KeymapId)
    (layer : KeymapId) : m.Keeps (m.updateKeymap s roots layer).1 := by
  unfold updateKeymap
  split
  · exact Keeps.of_eq rfl rfl rfl rfl
  · exact Keeps.mapMatcher m (fun _ => rfl) (fun _ => rfl)

end Modal

end ModalKeys
