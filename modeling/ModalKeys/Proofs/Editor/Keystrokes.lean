import ModalKeys.Host.Recording
import ModalKeys.Proofs.Editor.Operation

/-!
# No keystroke is lost

The keys typed in a mode are cut into sequences, each of which is resolved once: an action runs for
it, or it is dropped because there is no handler to take it. `Dispatched` records the sequences that
a run resolves and what is done about each. Put one after the other, followed by the keys that still
wait for more, they are what was typed.
-/

namespace ModalKeys

variable {σ : Type}

/-- The keys that an input adds. -/
def TimedInput.keys : TimedInput → List Char
  | .typed key _ => [key]
  | .check _ => []

/-- The action that takes the typed keys if no binding does. -/
def Matcher.handler? (m : Matcher σ) : TimedInput → Option (Action σ)
  | .typed _ _ => m.onDefault
  | .check _ => m.onTimeout <|> m.onDefault

/-- A sequence of keys typed in a mode, and the action that ran for it, if any. -/
structure KeySequence (σ : Type) where
  mode : Mode
  keys : List Char
  action : Option (Action σ)

namespace Editor

/-- What comes of one input: the sequence that it completes, if it does, and the editor then. An
action runs for the whole sequence, once. -/
inductive Dispatch (e : Editor σ) (input : TimedInput) : Option (KeySequence σ) → Editor σ → Prop
  /-- It is too early for a timeout. -/
  | early : e.taken input = (e, none) → Dispatch e input none e
  | waits {e₁ : Editor σ} : e.taken input = (e₁, some .pending) → Dispatch e input none e₁.release
  | searches {e₁ : Editor σ} {query : SearchQuery} : e.taken input = (e₁, some (.search query)) →
      Dispatch e input none (e₁.runSearch query).1.release
  | runs {e₁ : Editor σ} {action : Action σ} {keys : List Char} :
      e.taken input = (e₁, some (.run action)) → (e₁.modal e.mode).keySeq = keys →
      Dispatch e input (some ⟨e.mode, keys, some action⟩)
        ((exec (e₁.modal e.mode).name keys e₁ action).1.modify e.mode Modal.reset).release
  /-- The sequence is dropped, and only because nobody would take it. -/
  | drops {e₁ : Editor σ} {matcher : Matcher σ} {keys : List Char} :
      e.taken input = (e₁, some .unhandled) → (e₁.modal e.mode).keySeq = keys →
      e.current.matcher? = some matcher → matcher.handler? input = none →
      Dispatch e input (some ⟨e.mode, keys, none⟩) (e₁.modify e.mode Modal.reset).release

/-- The sequences that a run of inputs completes, in order. -/
inductive Dispatched : Editor σ → List TimedInput → List (KeySequence σ) → Editor σ → Prop
  | done (e : Editor σ) : Dispatched e [] [] e
  | step {e e₁ e' : Editor σ} {input : TimedInput} {inputs : List TimedInput}
      {sequence : Option (KeySequence σ)} {sequences : List (KeySequence σ)} :
      Dispatch e input sequence e₁ → Dispatched e₁ inputs sequences e' →
      Dispatched e (input :: inputs) (sequence.toList ++ sequences) e'

/-- The editor after some inputs. -/
def process (e : Editor σ) (inputs : List TimedInput) : Editor σ :=
  e.run (inputs.map TimedInput.operation)

/-- The keys typed while a mode is active. -/
def typed (mode : Mode) (e : Editor σ) : List TimedInput → List Char
  | [] => []
  | input :: rest =>
    (if e.mode = mode then input.keys else []) ++ typed mode (e.apply input.operation) rest

/-- The keys of the sequences of a mode. -/
def keysOf (mode : Mode) (sequences : List (KeySequence σ)) : List Char :=
  (sequences.filter (·.mode = mode)).flatMap (·.keys)

theorem keysOf_append (mode : Mode) (xs ys : List (KeySequence σ)) :
    keysOf mode (xs ++ ys) = keysOf mode xs ++ keysOf mode ys := by
  rw [keysOf, List.filter_append, List.flatMap_append]
  rfl

/-! ## Each input is dispatched -/

/-- A sequence is given up only where nobody takes it. -/
theorem handler?_of_taken {e e₁ : Editor σ} {input : TimedInput}
    (h : e.taken input = (e₁, some .unhandled)) :
    ∃ matcher, e.current.matcher? = some matcher ∧ matcher.handler? input = none := by
  cases input with
  | typed key now =>
      have hr : (e.current.onKey e.store key now).2 = .unhandled :=
        Option.some.inj (congrArg Prod.snd h)
      rcases e.current.matcher?_or_searcher? with ⟨matcher, hm, _⟩ | ⟨searcher, hs, _⟩
      · refine ⟨matcher, hm, ?_⟩
        rw [(Modal.onKey_of_matcher? hm e.store key now).2.2] at hr
        rcases matcher.onKey_cases e.store key (e.current.wait.map (now + ·)) with
          ⟨next, he⟩ | ⟨action, he⟩ | ⟨hd, _⟩
        · rw [he] at hr
          cases hr
        · rw [he] at hr
          cases hr
        · exact hd
      · obtain ⟨_, _, hp | ⟨query, hq⟩⟩ := Modal.onKey_of_searcher? hs e.store key now
        · rw [hp] at hr
          cases hr
        · rw [hq] at hr
          cases hr
  | check now =>
      rcases e.taken_check_cases now with hn | ⟨matcher, hm, hs⟩
      · rw [hn] at h
        cases h
      · refine ⟨matcher, hm, ?_⟩
        rw [hs] at h
        have hr : matcher.expired = .unhandled := Option.some.inj (congrArg Prod.snd h)
        rcases matcher.expired_cases with ⟨action, he⟩ | ⟨hd, ht, _⟩
        · rw [he] at hr
          cases hr
        · show (matcher.onTimeout <|> matcher.onDefault) = none
          rw [hd, ht]
          rfl

theorem dispatch_apply (e : Editor σ) (input : TimedInput) :
    ∃ sequence, Dispatch e input sequence (e.apply input.operation) := by
  rw [apply_input]
  generalize ht : e.taken input = reply
  rcases reply with ⟨e₁, _ | r⟩
  · -- a key always comes to something, while a look at the clock may come too early
    cases input with
    | typed key now => cases congrArg Prod.snd ht
    | check now =>
        rcases e.taken_check_cases now with hn | ⟨matcher, _, hs⟩
        · exact ⟨none, .early hn⟩
        · rw [hs] at ht
          cases congrArg Prod.snd ht
  · cases r with
    | pending => exact ⟨none, .waits ht⟩
    | unhandled =>
        obtain ⟨matcher, hm, hn⟩ := handler?_of_taken ht
        exact ⟨_, .drops ht rfl hm hn⟩
    | run action => exact ⟨_, .runs ht rfl⟩
    | search query => exact ⟨none, .searches ht⟩

theorem dispatched_process (e : Editor σ) (inputs : List TimedInput) :
    ∃ sequences, Dispatched e inputs sequences (e.process inputs) := by
  induction inputs generalizing e with
  | nil => exact ⟨[], .done e⟩
  | cons input rest ih =>
      obtain ⟨sequence, h⟩ := dispatch_apply e input
      obtain ⟨sequences, hs⟩ := ih (e.apply input.operation)
      exact ⟨_, .step h hs⟩

/-! ## Where the typed keys are -/

/-- Only the active modal has typed keys. -/
def KeysInPlace (e : Editor σ) : Prop := ∀ mode, mode ≠ e.mode → (e.modal mode).keySeq = []

theorem Ran.keysInPlace {e e' : Editor σ} {events : List (Event σ)} (h : Ran e events e')
    (he : e.KeysInPlace) : e'.KeysInPlace := by
  refine h.preserves (fun _ _ hx => hx) ?_ he
  intro x mode options _ m _
  rw [modal_transition]
  rfl

/-- Taking an input changes the active modal, which notes the key if it does not collect text. -/
theorem taken_eq_modify {e e₁ : Editor σ} {input : TimedInput} {r : Resolution σ}
    (h : e.taken input = (e₁, some r)) :
    ∃ m : Modal σ, e₁ = e.modify e.mode (fun _ => m) ∧
      m.searcher?.isSome = e.current.searcher?.isSome ∧
      (e.current.matcher?.isSome → m.keySeq = e.current.keySeq ++ input.keys) := by
  cases input with
  | typed key now =>
      refine ⟨(e.current.onKey e.store key now).1, ?_, ?_, ?_⟩
      · exact (congrArg Prod.fst h).symm
      · exact Modal.isSome_searcher?_onKey _ _ _ _
      · intro hf
        obtain ⟨matcher, hm⟩ := Option.isSome_iff_exists.1 hf
        exact (Modal.onKey_of_matcher? hm e.store key now).1
  | check now =>
      rcases e.taken_check_cases now with hn | ⟨matcher, _, hs⟩
      · rw [hn] at h
        cases h
      · refine ⟨e.current.mapMatcher Matcher.reset, ?_, ?_, ?_⟩
        · rw [hs] at h
          rw [← show _ = e₁ from congrArg Prod.fst h, current]
          cases e.mode <;> rfl
        · rw [Modal.searcher?_mapMatcher]
        · intro _
          exact (List.append_nil _).symm

/-- Only a modal that collects text hands over a search. -/
theorem searcher?_of_taken_search {e e₁ : Editor σ} {input : TimedInput} {query : SearchQuery}
    (h : e.taken input = (e₁, some (.search query))) : e.current.searcher?.isSome := by
  cases input with
  | typed key now =>
      exact Modal.searcher?_of_onKey_search (Option.some.inj (congrArg Prod.snd h))
  | check now =>
      rcases e.taken_check_cases now with hn | ⟨matcher, _, hs⟩
      · rw [hn] at h
        cases h
      · rw [hs] at h
        have hr : matcher.expired = .search query := Option.some.inj (congrArg Prod.snd h)
        rcases matcher.expired_cases with ⟨action, he⟩ | ⟨_, _, he⟩ <;>
        · rw [he] at hr
          cases hr

theorem keySeq_taken_of_ne {e e₁ : Editor σ} {input : TimedInput} {r : Resolution σ}
    (h : e.taken input = (e₁, some r)) (he : e.KeysInPlace) {mode : Mode} (hm : mode ≠ e.mode) :
    (e₁.modal mode).keySeq = [] := by
  obtain ⟨m, rfl, _, _⟩ := taken_eq_modify h
  rw [modal_modify_of_ne _ _ _ hm]
  exact he mode hm

theorem KeysInPlace.taken {e e₁ : Editor σ} (he : e.KeysInPlace) {input : TimedInput}
    {r : Resolution σ} (h : e.taken input = (e₁, some r)) : e₁.KeysInPlace := by
  intro mode hm
  refine keySeq_taken_of_ne h he ?_
  obtain ⟨m, rfl, _, _⟩ := taken_eq_modify h
  rwa [mode_modify] at hm

/-- Once a sequence is resolved no modal has typed keys, wherever the action has led. -/
theorem keySeq_resolved {e₁ e₂ : Editor σ} {source : Mode} {events : List (Event σ)}
    (h : Ran e₁ events e₂) (he : ∀ mode, mode ≠ source → (e₁.modal mode).keySeq = [])
    (mode : Mode) : ((e₂.modify source Modal.reset).release.modal mode).keySeq = [] := by
  rw [modal_release]
  by_cases hm : mode = source
  · rw [hm, modal_modify_self]
    rfl
  · -- a switch resets every modal, and without one the others have no keys to begin with
    rw [modal_modify_of_ne _ _ _ hm]
    exact h.modal_of_reset (P := fun m => m.keySeq = []) Modal.keySeq_reset (he mode hm)

theorem Dispatch.keySeq_of_some {e e' : Editor σ} {input : TimedInput} {sequence : KeySequence σ}
    (h : Dispatch e input (some sequence) e') (he : e.KeysInPlace) (mode : Mode) :
    (e'.modal mode).keySeq = [] := by
  cases h with
  | @runs e₁ action keys ht hk =>
      exact keySeq_resolved (ran_exec _ keys e₁ action) (fun m => keySeq_taken_of_ne ht he) mode
  | @drops e₁ matcher keys ht hk _ _ =>
      exact keySeq_resolved (.done e₁) (fun m => keySeq_taken_of_ne ht he) mode

theorem Dispatch.keysInPlace {e e' : Editor σ} {input : TimedInput}
    {sequence : Option (KeySequence σ)} (h : Dispatch e input sequence e') (he : e.KeysInPlace) :
    e'.KeysInPlace := by
  intro mode hm
  cases sequence with
  | some sequence => exact h.keySeq_of_some he mode
  | none =>
      cases h with
      | early _ => exact he mode hm
      | waits ht =>
          rw [modal_release]
          exact he.taken ht mode hm
      | @searches e₁ query ht =>
          rw [modal_release]
          exact (ran_runSearch e₁ query).keysInPlace (he.taken ht) mode hm

/-- Whether a mode follows keys is settled for good. -/
theorem Dispatch.isSome_matcher? {e e' : Editor σ} {input : TimedInput}
    {sequence : Option (KeySequence σ)} (h : Dispatch e input sequence e') (mode : Mode) :
    (e'.modal mode).matcher?.isSome = (e.modal mode).matcher?.isSome := by
  have taken : ∀ {e₁ r}, e.taken input = (e₁, some r) →
      (e₁.modal mode).searcher?.isSome = (e.modal mode).searcher?.isSome := by
    intro e₁ r ht
    obtain ⟨m, rfl, hs, _⟩ := taken_eq_modify ht
    exact isSome_searcher?_modify hs mode
  have reset : ∀ e₁ : Editor σ, ((e₁.modify e.mode Modal.reset).release.modal mode).searcher?.isSome =
      (e₁.modal mode).searcher?.isSome := by
    intro e₁
    rw [modal_release, isSome_searcher?_modify (by rw [Modal.searcher?_reset])]
  rw [Modal.isSome_matcher?, Modal.isSome_matcher?]
  cases h with
  | early _ => rfl
  | waits ht => rw [modal_release, taken ht]
  | @searches e₁ query ht =>
      rw [modal_release, (ran_runSearch e₁ query).isSome_searcher?_modal, taken ht]
  | @runs e₁ action keys ht _ =>
      rw [reset, (ran_exec _ keys e₁ action).isSome_searcher?_modal, taken ht]
  | drops ht _ _ _ => rw [reset, taken ht]

/-! ## Keys are conserved -/

theorem Dispatch.of_some {e e' : Editor σ} {input : TimedInput} {sequence : KeySequence σ}
    (h : Dispatch e input (some sequence) e') : sequence.mode = e.mode ∧
      ∃ e₁ r, e.taken input = (e₁, some r) ∧ (e₁.modal e.mode).keySeq = sequence.keys := by
  cases h with
  | runs ht hk => exact ⟨rfl, _, _, ht, hk⟩
  | drops ht hk _ _ => exact ⟨rfl, _, _, ht, hk⟩

/-- The keys of the active mode before an input and with it are those of the sequence that it
completes and those after it. -/
theorem Dispatch.keySeq_current {e e' : Editor σ} {input : TimedInput}
    {sequence : Option (KeySequence σ)} (h : Dispatch e input sequence e') (he : e.KeysInPlace)
    (hm : e.current.matcher?.isSome) :
    e.current.keySeq ++ input.keys = keysOf e.mode sequence.toList ++ (e'.modal e.mode).keySeq := by
  have keys : ∀ {e₁ r}, e.taken input = (e₁, some r) →
      (e₁.modal e.mode).keySeq = e.current.keySeq ++ input.keys := by
    intro e₁ r ht
    obtain ⟨m, rfl, _, hk⟩ := taken_eq_modify ht
    rw [modal_modify_self]
    exact hk hm
  cases sequence with
  | some sequence =>
      obtain ⟨hmode, e₁, r, ht, hk⟩ := h.of_some
      rw [h.keySeq_of_some he, ← keys ht, hk]
      simp [keysOf, hmode]
  | none =>
      cases h with
      | early ht =>
          cases input with
          | typed key now => cases congrArg Prod.snd ht
          | check now => exact List.append_nil _
      | waits ht =>
          rw [modal_release]
          exact (keys ht).symm
      | searches ht =>
          -- the mode follows keys, so it hands over no search
          have hs := searcher?_of_taken_search ht
          rw [Modal.isSome_matcher?, hs] at hm
          cases hm

/-- The other modes have no keys, and no sequence is theirs. -/
theorem Dispatch.keySeq_of_ne {e e' : Editor σ} {input : TimedInput}
    {sequence : Option (KeySequence σ)} (h : Dispatch e input sequence e') (he : e.KeysInPlace)
    {mode : Mode} (hm : mode ≠ e.mode) :
    keysOf mode sequence.toList = [] ∧ (e'.modal mode).keySeq = [] := by
  cases sequence with
  | some sequence =>
      obtain ⟨hmode, _⟩ := h.of_some
      refine ⟨?_, h.keySeq_of_some he mode⟩
      simp [keysOf, hmode, Ne.symm hm]
  | none =>
      refine ⟨rfl, ?_⟩
      cases h with
      | early _ => exact he mode hm
      | waits ht =>
          rw [modal_release]
          exact keySeq_taken_of_ne ht he hm
      | @searches e₁ query ht =>
          rw [modal_release]
          exact (ran_runSearch e₁ query).modal_of_reset (P := fun m => m.keySeq = [])
            Modal.keySeq_reset (keySeq_taken_of_ne ht he hm)

theorem Dispatch.keySeq_append {e e' : Editor σ} {input : TimedInput}
    {sequence : Option (KeySequence σ)} (h : Dispatch e input sequence e') (he : e.KeysInPlace)
    {mode : Mode} (hm : (e.modal mode).matcher?.isSome) :
    (e.modal mode).keySeq ++ (if e.mode = mode then input.keys else []) =
      keysOf mode sequence.toList ++ (e'.modal mode).keySeq := by
  by_cases active : e.mode = mode
  · subst active
    rw [if_pos rfl]
    exact h.keySeq_current he hm
  · obtain ⟨hk, hk'⟩ := h.keySeq_of_ne he (Ne.symm active)
    rw [if_neg active, he mode (Ne.symm active), hk, hk']

theorem Dispatch.eq_apply {e e' : Editor σ} {input : TimedInput}
    {sequence : Option (KeySequence σ)} (h : Dispatch e input sequence e') :
    e' = e.apply input.operation := by
  rw [apply_input]
  cases h with
  | early ht => rw [ht]
  | waits ht =>
      rw [ht]
      rfl
  | searches ht =>
      rw [ht]
      rfl
  | runs ht hk =>
      rw [ht]
      subst hk
      rfl
  | drops ht _ _ _ =>
      rw [ht]
      rfl

theorem Dispatched.keySeq_append {e e' : Editor σ} {inputs : List TimedInput}
    {sequences : List (KeySequence σ)} (h : Dispatched e inputs sequences e') (he : e.KeysInPlace)
    {mode : Mode} (hm : (e.modal mode).matcher?.isSome) :
    (e.modal mode).keySeq ++ typed mode e inputs =
      keysOf mode sequences ++ (e'.modal mode).keySeq := by
  induction h with
  | done e => exact List.append_nil _
  | @step e e₁ e' input inputs sequence sequences hd _ ih =>
      have rest := ih (hd.keysInPlace he) (by rwa [hd.isSome_matcher?])
      calc (e.modal mode).keySeq ++ typed mode e (input :: inputs)
          = (e.modal mode).keySeq ++ (if e.mode = mode then input.keys else []) ++
              typed mode e₁ inputs := by
            rw [typed, hd.eq_apply, List.append_assoc]
        _ = keysOf mode sequence.toList ++ ((e₁.modal mode).keySeq ++ typed mode e₁ inputs) := by
            rw [hd.keySeq_append he hm, List.append_assoc]
        _ = keysOf mode (sequence.toList ++ sequences) ++ (e'.modal mode).keySeq := by
            rw [rest, keysOf_append, List.append_assoc]

/-- From an editor with no typed keys on, whatever the inputs are and whatever comes of them, each
key typed in a mode ends up in exactly one sequence of that mode or still waits for more. Sequences
are resolved one by one in the order in which they were typed. -/
theorem typed_eq_keysOf_append (e : Editor σ) (idle : ∀ mode, (e.modal mode).Idle)
    (inputs : List TimedInput) :
    ∃ sequences, Dispatched e inputs sequences (e.process inputs) ∧
      ∀ mode, (e.modal mode).matcher?.isSome →
        typed mode e inputs = keysOf mode sequences ++ ((e.process inputs).modal mode).keySeq := by
  obtain ⟨sequences, h⟩ := dispatched_process e inputs
  refine ⟨sequences, h, ?_⟩
  intro mode hm
  have conserved := h.keySeq_append (fun m _ => (idle m).keySeq) hm
  rwa [(idle mode).keySeq] at conserved

/-- The second `j` leads out of Insert mode, after the first one has been typed by timeout. The
editor's own three keymaps are followed by the one that is loaded. -/
theorem typed_eq_keysOf_append_after_timeout :
    let keymap : Json := .object [("j", .object [("k", .string "modalex.enterNormal")])]
    let e := (create Host.commandRecorder []).run [.setWait .insert (some 300000000),
      .setDefaultHandler .insert (some (.typeKeys "type")),
      .changeStore fun s => ((s.load keymap).toOption.map (·.2)).getD s,
      .setKeymap .insert 3, .enterMode .insert {}]
    let inputs : List TimedInput :=
      [.typed 'j' 0, .check 400000000, .typed 'j' 500000000, .typed 'k' 600000000, .typed 'q' 0]
    (∀ mode, (e.modal mode).Idle) ∧ (e.modal .insert).matcher?.isSome ∧
      ∃ sequences, Dispatched e inputs sequences (e.process inputs) ∧
        ['j', 'j', 'k'] =
          keysOf .insert sequences ++ ((e.process inputs).modal .insert).keySeq := by
  intro keymap e inputs
  have idle : ∀ mode, (e.modal mode).Idle := by
    intro mode
    cases mode <;> exact ⟨rfl, rfl, rfl⟩
  have follows : (e.modal .insert).matcher?.isSome := rfl
  obtain ⟨sequences, dispatched, typed_eq⟩ := typed_eq_keysOf_append e idle inputs
  refine ⟨idle, follows, sequences, dispatched, ?_⟩
  rw [← typed_eq .insert follows]
  decide +kernel

end Editor

end ModalKeys
