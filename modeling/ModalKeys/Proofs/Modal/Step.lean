import ModalKeys.Proofs.Modal.Idle

/-!
# What keys and timeouts do to a modal

A matcher has three answers to a key, and each leaves it in a definite state. The typed keys grow by
the key in every one of them; it is the caller who gives them up.
-/

namespace ModalKeys

variable {σ : Type}

namespace Matcher

/-- A key leads on, completes a binding, or matches nothing. -/
theorem onKey_cases (m : Matcher σ) (s : Store (Action σ)) (key : Char) (deadline : Option Nat) :
    (∃ next, m.onKey s key deadline = ({ m with current := some next, deadline }, .pending)) ∨
    (∃ action, m.onKey s key deadline = (m.reset, .run action)) ∨
    (m.onDefault = none ∧ m.onKey s key deadline = (m.reset, .unhandled)) := by
  unfold onKey
  cases s.lookup (m.current.getD m.root) key with
  | none =>
      unfold unmatched
      cases hd : m.onDefault with
      | none => exact Or.inr (Or.inr ⟨rfl, rfl⟩)
      | some action => exact Or.inr (Or.inl ⟨action, rfl⟩)
  | some binding =>
      cases binding with
      | keymap next => exact Or.inl ⟨next, rfl⟩
      | action tag act => exact Or.inr (Or.inl ⟨act, rfl⟩)

/-- An expired timeout runs a handler, or there is none. -/
theorem expired_cases (m : Matcher σ) :
    (∃ action, m.expired = .run action) ∨
    (m.onDefault = none ∧ m.onTimeout = none ∧ m.expired = .unhandled) := by
  unfold expired unmatched
  cases m.onTimeout with
  | some action => exact Or.inl ⟨action, rfl⟩
  | none =>
      cases hd : m.onDefault with
      | some action => exact Or.inl ⟨action, rfl⟩
      | none => exact Or.inr ⟨rfl, rfl, rfl⟩

end Matcher

namespace Modal

/-! ## Keys -/

theorem onKey_of_matcher? {m : Modal σ} {matcher : Matcher σ} (h : m.matcher? = some matcher)
    (s : Store (Action σ)) (key : Char) (now : Nat) :
    (m.onKey s key now).1.keySeq = m.keySeq ++ [key] ∧
    (m.onKey s key now).1.matcher? =
      some (matcher.onKey s key (m.wait.map (now + ·))).1 ∧
    (m.onKey s key now).2 = (matcher.onKey s key (m.wait.map (now + ·))).2 := by
  unfold matcher? at h
  unfold onKey matcher?
  cases hk : m.kind with
  | keymap other =>
      rw [hk] at h
      cases h
      exact ⟨rfl, rfl, rfl⟩
  | visual other shape =>
      rw [hk] at h
      cases h
      exact ⟨rfl, rfl, rfl⟩
  | search searcher =>
      rw [hk] at h
      cases h

theorem onKey_of_searcher? {m : Modal σ} {searcher : Searcher} (h : m.searcher? = some searcher)
    (s : Store (Action σ)) (key : Char) (now : Nat) :
    (m.onKey s key now).1.keySeq = m.keySeq ∧
    (m.onKey s key now).1.searcher? = some (searcher.onKey key).1 ∧
    ((m.onKey s key now).2 = .pending ∨ ∃ query, (m.onKey s key now).2 = .search query) := by
  unfold searcher? at h
  unfold onKey searcher?
  cases hk : m.kind with
  | keymap matcher =>
      rw [hk] at h
      cases h
  | visual matcher shape =>
      rw [hk] at h
      cases h
  | search other =>
      rw [hk] at h
      cases h
      dsimp only
      split
      · next searcher' hs => exact ⟨rfl, by rw [hs], Or.inl rfl⟩
      · next searcher' query hs => exact ⟨rfl, by rw [hs], Or.inr ⟨query, rfl⟩⟩

/-- A key does not turn a modal into one of another kind. -/
theorem isSome_searcher?_onKey (m : Modal σ) (s : Store (Action σ)) (key : Char) (now : Nat) :
    (m.onKey s key now).1.searcher?.isSome = m.searcher?.isSome := by
  rcases m.matcher?_or_searcher? with ⟨matcher, hm, hn⟩ | ⟨searcher, hs, _⟩
  · have hm' := (onKey_of_matcher? hm s key now).2.1
    rcases (m.onKey s key now).1.matcher?_or_searcher? with ⟨_, _, hn'⟩ | ⟨_, _, hn'⟩
    · rw [hn, hn']
    · rw [hn'] at hm'
      cases hm'
  · rw [(onKey_of_searcher? hs s key now).2.1, hs]
    rfl

/-- The matcher follows the key, if there is one. -/
theorem matcher?_onKey (m : Modal σ) (s : Store (Action σ)) (key : Char) (now : Nat) :
    (m.onKey s key now).1.matcher? =
      m.matcher?.map fun matcher => (matcher.onKey s key (m.wait.map (now + ·))).1 := by
  rcases m.matcher?_or_searcher? with ⟨matcher, hm, -⟩ | ⟨searcher, hs, hn⟩
  · rw [(onKey_of_matcher? hm s key now).2.1, hm, Option.map_some]
  · have collects : (m.onKey s key now).1.searcher?.isSome := by
      rw [isSome_searcher?_onKey, hs]
      rfl
    rw [matcher?_eq_none_of_searcher? collects, hn, Option.map_none]

/-- A key that asks for more leaves the modal waiting for it. -/
theorem Tidy.onKey {m : Modal σ} (h : m.Tidy) {s : Store (Action σ)} {key : Char} {now : Nat}
    (hr : (m.onKey s key now).2 = .pending) : (m.onKey s key now).1.Tidy := by
  rcases m.matcher?_or_searcher? with ⟨matcher, hm, _⟩ | ⟨searcher, hs, _⟩
  · obtain ⟨hk, hm', hr'⟩ := onKey_of_matcher? hm s key now
    rw [hr'] at hr
    rcases matcher.onKey_cases s key (m.wait.map (now + ·)) with
      ⟨next, he⟩ | ⟨action, he⟩ | ⟨_, he⟩
    · rw [he] at hm'
      have hp : (m.onKey s key now).1.isPending = true := by rw [isPending, hm']; rfl
      exact ⟨by simp [hp, hk], fun _ => hp⟩
    · rw [he] at hr
      cases hr
    · rw [he] at hr
      cases hr
  · -- a modal that collects text stays idle
    have hs' : m.searcher?.isSome := by rw [hs]; rfl
    have hi := h.idle_of_searcher? hs'
    have hc := (isSome_searcher?_onKey m s key now).trans hs'
    refine Idle.tidy ⟨?_, isPending_eq_false_of_searcher? hc, deadline_eq_none_of_searcher? hc⟩
    rw [(onKey_of_searcher? hs s key now).1, hi.keySeq]

/-- Only a modal that collects text hands over a search. -/
theorem searcher?_of_onKey_search {m : Modal σ} {s : Store (Action σ)} {key : Char} {now : Nat}
    {query : SearchQuery} (hr : (m.onKey s key now).2 = .search query) : m.searcher?.isSome := by
  rcases m.matcher?_or_searcher? with ⟨matcher, hm, _⟩ | ⟨searcher, hs, _⟩
  · rw [(onKey_of_matcher? hm s key now).2.2] at hr
    rcases matcher.onKey_cases s key (m.wait.map (now + ·)) with
      ⟨next, he⟩ | ⟨action, he⟩ | ⟨_, he⟩ <;>
    · rw [he] at hr
      cases hr
  · rw [hs]
    rfl

theorem Tidy.idle_onKey_search {m : Modal σ} (h : m.Tidy) {s : Store (Action σ)} {key : Char}
    {now : Nat} {query : SearchQuery} (hr : (m.onKey s key now).2 = .search query) :
    (m.onKey s key now).1.Idle := by
  have hs := searcher?_of_onKey_search hr
  obtain ⟨searcher, hs'⟩ := Option.isSome_iff_exists.1 hs
  have hc := (isSome_searcher?_onKey m s key now).trans hs
  refine ⟨?_, isPending_eq_false_of_searcher? hc, deadline_eq_none_of_searcher? hc⟩
  rw [(onKey_of_searcher? hs' s key now).1, (h.idle_of_searcher? hs).keySeq]

/-! ## Timeouts -/

/-- A timeout that has expired stops waiting and asks for a handler. -/
theorem onTimeout_cases (m : Modal σ) (now : Nat) :
    m.onTimeout now = (m, none) ∨
    ∃ matcher, m.matcher? = some matcher ∧
      m.onTimeout now = (m.mapMatcher Matcher.reset, some matcher.expired) := by
  unfold onTimeout
  cases hm : m.matcher? with
  | none => exact Or.inl rfl
  | some matcher =>
      dsimp only
      split
      · exact Or.inr ⟨matcher, rfl, rfl⟩
      · exact Or.inl rfl

end Modal

end ModalKeys
