import Mathlib.Data.List.Infix
import ModalKeys.Modal.Standalone
import ModalKeys.Proofs.Keymap.Soundness
import ModalKeys.Proofs.Keymap.Treelike
import ModalKeys.Proofs.Modal.Step

/-!
# Keys cut into segments

A modal follows keys through keymaps one at a time, and starts over at its root whenever a sequence is
resolved. Its answers can be told without following it: the keys are cut into segments from the left, each
of them a shortest sequence that does not lead from the root to a keymap, and each segment is looked up as
a whole. Keys change no keymap, and none is released while they are typed. So the modal stands on a keymap
that is still there, also when only aliases lead to it.
-/

namespace ModalKeys

variable {α σ : Type}

namespace Store

/-! ## Segments -/

/-- Keys that lead to a keymap. -/
def LeadsOn (s : Store α) (root : KeymapId) (keys : List Char) : Prop :=
  ∃ id, s.walk root keys = some (.keymap id)

/-- A shortest sequence of keys that does not lead to a keymap. -/
structure Segment (s : Store α) (root : KeymapId) (keys : List Char) : Prop where
  ends : ¬s.LeadsOn root keys
  shortest : ∀ shorter, shorter <+: keys → shorter ≠ keys → s.LeadsOn root shorter

/-- Keys that are cut into segments, and the keys left over, which do not end a segment yet. -/
structure Cut (s : Store α) (root : KeymapId) (keys : List Char) (segments : List (List Char))
    (rest : List Char) : Prop where
  eq : keys = segments.flatten ++ rest
  segment : ∀ segment ∈ segments, s.Segment root segment
  rest : s.LeadsOn root rest

variable {s : Store α} {root : KeymapId} {keys rest : List Char} {segments : List (List Char)}

instance : Decidable (s.LeadsOn root keys) :=
  match h : s.walk root keys with
  | some (.keymap id) => isTrue ⟨id, h⟩
  | some (.action ..) => isFalse (by rintro ⟨id, hid⟩; rw [h] at hid; cases hid)
  | none => isFalse (by rintro ⟨id, hid⟩; rw [h] at hid; cases hid)

theorem walk_concat {id : KeymapId} (h : s.walk root keys = some (.keymap id)) (key : Char) :
    s.walk root (keys ++ [key]) = s.lookup id key := by
  rw [walk_append h]
  cases hl : s.lookup id key with
  | none => rw [walk, hl]
  | some binding =>
      cases binding with
      | keymap next => exact walk_singleton hl
      | action tag act =>
          rw [walk, hl]
          rfl

/-- A keymap that keys lead on from is there. -/
theorem LeadsOn.alive (h : s.LeadsOn root keys) : s.alive root := by
  obtain ⟨id, h⟩ := h
  cases keys with
  | nil =>
      rw [walk] at h
      split at h
      · assumption
      · cases h
  | cons key keys =>
      rw [walk] at h
      cases hl : s.lookup root key with
      | none =>
          rw [hl] at h
          cases h
      | some binding => exact alive_of_slot? hl

theorem LeadsOn.of_append {more : List Char} (h : s.LeadsOn root (keys ++ more)) :
    s.LeadsOn root keys := by
  induction keys generalizing root with
  | nil => exact ⟨root, if_pos h.alive⟩
  | cons key keys ih =>
      obtain ⟨id, h⟩ := h
      rw [List.cons_append, walk] at h
      split at h
      · next next hl =>
          obtain ⟨id', hid⟩ := ih ⟨id, h⟩
          exact ⟨id', (walk_of_lookup hl keys).trans hid⟩
      · split at h
        · cases h
        · cases h
      · cases h

theorem LeadsOn.of_prefix {shorter : List Char} (h : s.LeadsOn root keys) (le : shorter <+: keys) :
    s.LeadsOn root shorter := by
  obtain ⟨more, rfl⟩ := le
  exact h.of_append

/-- The first key that does not lead on ends a segment. -/
theorem Segment.concat {key : Char} (h : s.LeadsOn root keys) (ends : ¬s.LeadsOn root (keys ++ [key])) :
    s.Segment root (keys ++ [key]) where
  ends := ends
  shortest shorter le ne := by
    rcases List.prefix_concat_iff.1 le with eq | le
    · exact absurd eq ne
    · exact h.of_prefix le

/-- No segment begins another one. -/
theorem Segment.eq_of_prefix {a b : List Char} (ha : s.Segment root a) (hb : s.Segment root b)
    (le : a <+: b) : a = b := by
  by_contra ne
  exact ha.ends (hb.shortest a le ne)

/-- Keys begin with one segment at most. -/
theorem Segment.unique {a b left left' : List Char} (ha : s.Segment root a) (hb : s.Segment root b)
    (same : a ++ left = b ++ left') : a = b := by
  rcases List.prefix_or_prefix_of_prefix ⟨left, rfl⟩ ⟨left', same.symm⟩ with le | le
  · exact ha.eq_of_prefix hb le
  · exact (hb.eq_of_prefix ha le).symm

namespace Cut

theorem nil (alive : s.alive root) : s.Cut root [] [] [] :=
  ⟨rfl, fun _ h => (nomatch h), root, if_pos alive⟩

/-- A further key that leads on is left over with those before it. -/
theorem concat (h : s.Cut root keys segments rest) {key : Char}
    (leads : s.LeadsOn root (rest ++ [key])) : s.Cut root (keys ++ [key]) segments (rest ++ [key]) :=
  ⟨by rw [h.eq, List.append_assoc], h.segment, leads⟩

/-- A further key that does not lead on ends a segment. -/
theorem close (h : s.Cut root keys segments rest) {key : Char}
    (ends : ¬s.LeadsOn root (rest ++ [key])) :
    s.Cut root (keys ++ [key]) (segments ++ [rest ++ [key]]) [] where
  eq := by
    rw [h.eq, List.flatten_concat, List.append_nil, List.append_assoc]
  segment segment hs := by
    rcases List.mem_append.1 hs with hs | hs
    · exact h.segment segment hs
    · rw [List.mem_singleton.1 hs]
      exact .concat h.rest ends
  rest := h.rest.of_prefix List.nil_prefix

theorem uncons {segment : List Char} (h : s.Cut root keys (segment :: segments) rest) :
    ∃ left, keys = segment ++ left ∧ s.Segment root segment ∧ s.Cut root left segments rest := by
  refine ⟨segments.flatten ++ rest, ?_, h.segment segment List.mem_cons_self, rfl, ?_, h.rest⟩
  · rw [h.eq, List.flatten_cons, List.append_assoc]
  · exact fun x hx => h.segment x (List.mem_cons_of_mem _ hx)

/-- Keys that lead on do not begin with a segment. -/
theorem segments_eq_nil (h : s.Cut root keys segments rest) (leads : s.LeadsOn root keys) :
    segments = [] := by
  cases segments with
  | nil => rfl
  | cons segment segments =>
      obtain ⟨left, rfl, hs, -⟩ := h.uncons
      exact absurd leads.of_append hs.ends

/-- Keys can be cut in one way only. -/
theorem unique {segments' : List (List Char)} {rest' : List Char} (h : s.Cut root keys segments rest)
    (h' : s.Cut root keys segments' rest') : segments = segments' ∧ rest = rest' := by
  induction segments generalizing keys segments' with
  | nil =>
      have all : keys = rest := h.eq
      have none := h'.segments_eq_nil (all ▸ h.rest)
      subst none
      exact ⟨rfl, all.symm.trans h'.eq⟩
  | cons segment segments ih =>
      obtain ⟨left, rfl, hs, hl⟩ := h.uncons
      cases segments' with
      | nil =>
          have all : segment ++ left = rest' := h'.eq
          exact absurd (h.segments_eq_nil (all ▸ h'.rest)) (List.cons_ne_nil _ _)
      | cons segment' segments' =>
          obtain ⟨left', same, hs', hl'⟩ := h'.uncons
          obtain rfl := hs.unique hs' same
          obtain rfl := List.append_cancel_left same
          obtain ⟨rfl, rfl⟩ := ih hl hl'
          exact ⟨rfl, rfl⟩

end Cut

end Store

/-- What the caller learns when a key has been typed: what it comes to, and the keys typed so far. -/
structure Answer (σ : Type) where
  resolution : Resolution σ
  keySeq : List Char

/-- Each of the keys asks for more. -/
def Answer.waiting (keys : List Char) : List (Answer σ) :=
  keys.inits.tail.map fun typed => ⟨.pending, typed⟩

theorem Answer.waiting_concat (keys : List Char) (key : Char) :
    (waiting (keys ++ [key]) : List (Answer σ)) = waiting keys ++ [⟨.pending, keys ++ [key]⟩] := by
  have some : keys.inits ≠ [] := by
    cases keys <;> simp
  rw [waiting, List.inits_append, List.tail_append_of_ne_nil some, List.map_append, waiting]
  rfl

/-- Whether the caller is to reset the modal. -/
def Resolution.isFinal : Resolution σ → Bool
  | .run _ | .unhandled => true
  | .pending | .search _ => false

namespace Matcher

variable (m : Matcher σ) (s : Store (Action σ))

/-- What a segment comes to as a whole. -/
def ending (segment : List Char) : Resolution σ :=
  match s.walk m.root segment, m.onDefault with
  | some (.action _ action), _ => .run action
  | _, some handler => .run handler
  | _, none => .unhandled

/-- The answers to the keys of a segment. All keys but the last one ask for more. -/
def answers (segment : List Char) : List (Answer σ) :=
  Answer.waiting segment.dropLast ++ [⟨m.ending s segment, segment⟩]

/-- What a key comes to at the end of the keys that the matcher has followed. -/
theorem onKey_of_walk {m : Matcher σ} {s : Store (Action σ)} {typed : List Char}
    (h : s.walk m.root typed = some (.keymap (m.current.getD m.root))) (key : Char)
    (deadline : Option Nat) :
    (∃ next, s.walk m.root (typed ++ [key]) = some (.keymap next) ∧
      m.onKey s key deadline = ({ m with current := some next, deadline }, .pending)) ∨
    (¬s.LeadsOn m.root (typed ++ [key]) ∧
      m.onKey s key deadline = (m.reset, m.ending s (typed ++ [key]))) := by
  have hw := Store.walk_concat h key
  unfold onKey ending Store.LeadsOn
  rw [← hw]
  cases s.walk m.root (typed ++ [key]) with
  | none =>
      refine Or.inr ⟨by simp, ?_⟩
      unfold unmatched
      cases m.onDefault <;> rfl
  | some binding =>
      cases binding with
      | keymap next => exact Or.inl ⟨next, rfl, rfl⟩
      | action tag act => exact Or.inr ⟨by simp, rfl⟩

theorem isFinal_ending (segment : List Char) : (m.ending s segment).isFinal := by
  unfold ending
  split <;> rfl

end Matcher

namespace Standalone

/-- Types a key, and resets the modal when the sequence has been resolved. -/
def press (m : Standalone σ) (key : Char) (now : Nat) : Standalone σ × Answer σ :=
  let (typed, r) := m.onKey key now
  (if r.isFinal then typed.map Modal.reset else typed, ⟨r, typed.modal.keySeq⟩)

/-- Types keys one after another, each at a time of its own. -/
def pressAll (m : Standalone σ) (inputs : List (Char × Nat)) : Standalone σ × List (Answer σ) :=
  inputs.foldl (fun (m, answers) (key, now) =>
    let (m, answer) := m.press key now
    (m, answers ++ [answer])) (m, [])

/-- The keymap that a modal stands on, while it waits for a further key. -/
def place? (m : Standalone σ) : Option KeymapId := m.modal.matcher?.bind (·.current)

theorem pressAll_concat (m : Standalone σ) (inputs : List (Char × Nat)) (key : Char) (now : Nat) :
    m.pressAll (inputs ++ [(key, now)]) = (((m.pressAll inputs).1.press key now).1,
      (m.pressAll inputs).2 ++ [((m.pressAll inputs).1.press key now).2]) := by
  rw [pressAll, List.foldl_append]
  rfl

/-- Between two keys: no keymap has been changed or released, and the modal stands where the keys typed
since the last segment lead. -/
structure Stands (m : Standalone σ) (s : Store (Action σ)) (matcher : Matcher σ) (typed : List Char) :
    Prop where
  store : m.store = s
  keySeq : m.modal.keySeq = typed
  matcher? : ∃ current deadline, m.modal.matcher? = some { matcher with current, deadline }
  place : ∀ id, m.place? = some id ↔ typed ≠ [] ∧ s.walk matcher.root typed = some (.keymap id)

section

variable {s : Store (Action σ)} {matcher : Matcher σ}

/-- Whatever the modal waits for, it holds its root and its layers, and that is enough. -/
theorem release_eq {m : Standalone σ}
    (settled : m.store.Settled (m.store.handles ++ matcher.root :: matcher.layers))
    (hm : ∃ current deadline, m.modal.matcher? = some { matcher with current, deadline }) :
    m.release = m := by
  obtain ⟨current, deadline, hm⟩ := hm
  have same : m.store.release m.modal.held = m.store := by
    refine (settled.mono fun id hid => ?_).collect_eq
    rw [Modal.held, hm]
    simp only [Option.map_some, Option.getD_some, Matcher.held, List.mem_append, List.mem_cons,
      List.cons_append, Option.mem_toList] at hid ⊢
    tauto
  rw [release, same]

/-- The matcher stands where the keys typed lead, at the root if there are none. -/
theorem Stands.walk_eq {m : Standalone σ} {typed : List Char} (h : m.Stands s matcher typed)
    (leads : s.LeadsOn matcher.root typed) {current deadline : Option _}
    (hm : m.modal.matcher? = some { matcher with current, deadline }) :
    s.walk matcher.root typed = some (.keymap (current.getD matcher.root)) := by
  have place : m.place? = current := by
    rw [place?, hm]
    rfl
  obtain ⟨id, hid⟩ := leads
  by_cases none : typed = []
  · subst none
    have away : current = none := by
      rw [Option.eq_none_iff_forall_ne_some]
      exact fun x hx => ((h.place x).1 (place.trans hx)).1 rfl
    rw [away]
    rw [Store.walk] at hid ⊢
    split at hid
    · next alive => exact if_pos alive
    · cases hid
  · rw [← place, (h.place id).2 ⟨none, hid⟩]
    exact hid

theorem press_eq {m : Standalone σ} {key : Char} {now : Nat} {modal : Modal σ} {r : Resolution σ}
    (typed : m.modal.onKey m.store key now = (modal, r))
    (kept : release ⟨m.store, modal⟩ = ⟨m.store, modal⟩) :
    m.press key now = (if r.isFinal then release ⟨m.store, modal.reset⟩ else ⟨m.store, modal⟩,
      ⟨r, modal.keySeq⟩) := by
  rw [press, onKey, typed]
  dsimp only
  rw [kept]
  rfl

/-- What one more key comes to. -/
theorem Stands.press {m : Standalone σ} {typed : List Char} (h : m.Stands s matcher typed)
    (settled : s.Settled (s.handles ++ matcher.root :: matcher.layers))
    (leads : s.LeadsOn matcher.root typed) (key : Char) (now : Nat) :
    (s.LeadsOn matcher.root (typed ++ [key]) ∧ (m.press key now).1.Stands s matcher (typed ++ [key]) ∧
      (m.press key now).2 = ⟨.pending, typed ++ [key]⟩) ∨
    (¬s.LeadsOn matcher.root (typed ++ [key]) ∧ (m.press key now).1.Stands s matcher [] ∧
      (m.press key now).2 = ⟨matcher.ending s (typed ++ [key]), typed ++ [key]⟩) := by
  obtain ⟨current, deadline, hm⟩ := h.matcher?
  have here := h.walk_eq leads hm
  obtain rfl := h.store
  rcases hk : m.modal.onKey m.store key now with ⟨modal, r⟩
  have after := Modal.onKey_of_matcher? hm m.store key now
  rw [hk, h.keySeq] at after
  obtain ⟨keySeq, hm', rfl⟩ := after
  dsimp only at keySeq hm' hk
  rcases Matcher.onKey_of_walk (m := { matcher with current, deadline }) here key
    (m.modal.wait.map (now + ·)) with ⟨next, hw, ho⟩ | ⟨ends, ho⟩
  · rw [ho] at hk hm'
    rw [press_eq hk (release_eq settled ⟨_, _, hm'⟩), keySeq]
    refine Or.inl ⟨⟨next, hw⟩, ⟨rfl, keySeq, ⟨_, _, hm'⟩, fun id => ?_⟩, rfl⟩
    show modal.matcher?.bind (·.current) = some id ↔ _
    rw [hm', hw]
    simp
  · rw [ho] at hk hm'
    have hr : modal.reset.matcher? = some { matcher with current := none, deadline := none } := by
      rw [Modal.matcher?_reset, hm']
      rfl
    have kept := release_eq (m := ⟨m.store, modal.reset⟩) settled ⟨_, _, hr⟩
    rw [press_eq hk (release_eq settled ⟨_, _, hm'⟩), keySeq,
      if_pos (Matcher.isFinal_ending _ m.store _), kept]
    refine Or.inr ⟨ends, ⟨rfl, rfl, ⟨_, _, hr⟩, fun id => ?_⟩, rfl⟩
    show modal.reset.matcher?.bind (·.current) = some id ↔ _
    rw [hr]
    simp

/-- Every key is answered as its segment tells, whatever keys follow. -/
theorem Stands.pressAll {m : Standalone σ} (h : m.Stands s matcher [])
    (settled : s.Settled (s.handles ++ matcher.root :: matcher.layers))
    (alive : s.alive matcher.root) (inputs : List (Char × Nat)) :
    ∃ segments rest, s.Cut matcher.root (inputs.map (·.1)) segments rest ∧
      (m.pressAll inputs).2 = segments.flatMap (matcher.answers s) ++ Answer.waiting rest ∧
      (m.pressAll inputs).1.Stands s matcher rest := by
  induction inputs using List.reverseRecOn with
  | nil => exact ⟨[], [], .nil alive, rfl, h⟩
  | append_singleton inputs input ih =>
      obtain ⟨key, now⟩ := input
      obtain ⟨segments, rest, cut, answers, stands⟩ := ih
      rw [pressAll_concat, List.map_append, answers]
      rcases stands.press settled cut.rest key now with
        ⟨leads, stands', answer⟩ | ⟨ends, stands', answer⟩
      · refine ⟨segments, rest ++ [key], cut.concat leads, ?_, stands'⟩
        rw [answer, Answer.waiting_concat, List.append_assoc]
      · refine ⟨segments ++ [rest ++ [key]], [], cut.close ends, ?_, stands'⟩
        rw [answer, List.flatMap_append, List.flatMap_singleton, Matcher.answers, List.dropLast_concat]
        simp [Answer.waiting]

end

/-- Keys that are typed into an idle modal, over whatever keymaps, are cut into segments. All but the last
key of a segment ask for more, and the last one comes to the action that the segment leads to, or else to
the default handler. The keys typed since the last segment lead to where the modal stands. What nothing
holds is released before the first key, and then nothing is. -/
theorem answers_pressAll {m : Standalone σ} {matcher : Matcher σ} (idle : m.modal.Idle)
    (hm : m.modal.matcher? = some matcher) (alive : m.store.alive matcher.root)
    (inputs : List (Char × Nat)) :
    let s := m.release.store
    let after := m.release.pressAll inputs
    ∃ segments rest, s.Cut matcher.root (inputs.map (·.1)) segments rest ∧
      after.2 = segments.flatMap (matcher.answers s) ++ Answer.waiting rest ∧
      after.1.store = s ∧ after.1.modal.keySeq = rest ∧
      ∀ id, after.1.place? = some id ↔ rest ≠ [] ∧ s.walk matcher.root rest = some (.keymap id) := by
  intro s after
  have away : matcher.current = none := by
    have pending := idle.pending
    rw [Modal.isPending, hm] at pending
    exact Option.isNone_iff_eq_none.1 (Option.isSome_eq_false_iff.1 pending)
  have held : m.modal.held = matcher.root :: matcher.layers := by
    rw [Modal.held, hm]
    show matcher.root :: matcher.current.toList ++ matcher.layers = _
    rw [away]
    rfl
  have settled : s.Settled (s.handles ++ matcher.root :: matcher.layers) := by
    show (m.store.release m.modal.held).Settled _
    rw [← held, show s.handles = m.store.handles from Store.handles_release ..]
    exact Store.settled_collect m.store _
  have alive' : s.alive matcher.root := by
    have kept : s.keymap? matcher.root = m.store.keymap? matcher.root :=
      Store.keymap?_release_of_mem (by rw [held]; exact List.mem_cons_self)
    exact (Store.alive_of_agree kept).trans alive
  have start : m.release.Stands s matcher [] := by
    refine ⟨rfl, idle.keySeq, ⟨matcher.current, matcher.deadline, hm⟩, fun id => ?_⟩
    show m.modal.matcher?.bind (·.current) = some id ↔ _
    rw [hm, Option.bind_some, away]
    simp
  obtain ⟨segments, rest, cut, answers, stands⟩ := start.pressAll settled alive' inputs
  exact ⟨segments, rest, cut, answers, stands.store, stands.keySeq, stands.place⟩

/-- A key that leads back to the root by an alias, a key without a binding, and one that is left over. -/
theorem answers_pressAll_back_reference :
    let config : Json := .object [("g", .object [("g", .string "top"), ("r", .number (.integer (-1)))])]
    let m : Standalone Unit := match (keymap "Normal" (some 100)).load config with
      | .ok (root, m) => m.map (·.setKeymap root)
      | .error _ => keymap "Normal" none
    let matcher : Matcher Unit := { root := 1 }
    let after := m.release.pressAll [('g', 0), ('r', 5), ('g', 7), ('g', 9), ('x', 9), ('g', 20)]
    m.modal.Idle ∧ m.modal.matcher? = some matcher ∧ m.store.alive matcher.root ∧
      after.2.map (·.keySeq) =
        [['g'], ['g', 'r'], ['g', 'r', 'g'], ['g', 'r', 'g', 'g'], ['x'], ['g']] ∧
      ∃ id, after.1.place? = some id ∧ m.release.store.walk 1 ['g'] = some (.keymap id) := by
  intro config m matcher after
  have idle : m.modal.Idle := ⟨rfl, rfl, rfl⟩
  have hm : m.modal.matcher? = some matcher := rfl
  have alive : m.store.alive matcher.root := by decide +kernel
  obtain ⟨segments, rest, cut, answers, -, -, place⟩ := answers_pressAll idle hm alive
    [('g', 0), ('r', 5), ('g', 7), ('g', 9), ('x', 9), ('g', 20)]
  have once : m.release.store.Cut 1 ['g', 'r', 'g', 'g', 'x', 'g'] [['g', 'r', 'g', 'g'], ['x']] ['g'] := by
    have first : m.release.store.Segment 1 (['g', 'r', 'g'] ++ ['g']) :=
      .concat (by decide +kernel) (by decide +kernel)
    have second : m.release.store.Segment 1 ([] ++ ['x']) :=
      .concat (by decide +kernel) (by decide +kernel)
    have segments := List.forall_mem_cons.2 ⟨first, List.forall_mem_singleton.2 second⟩
    exact ⟨rfl, segments, by decide +kernel⟩
  obtain ⟨rfl, rfl⟩ := cut.unique once
  obtain ⟨id, hid⟩ := once.rest
  refine ⟨idle, hm, alive, ?_, id, (place id).2 ⟨by decide, hid⟩, hid⟩
  rw [answers]
  rfl

end Standalone

end ModalKeys
