import ModalKeys.Proofs.Keymap.Forward
import ModalKeys.Proofs.Keymap.Serving

/-!
# Keymaps that are laid over one another

A merge goes down both keymaps at the same time, also if they share keymaps among their keys. As long as
it meets no receiver with two different incoming keymaps, the incoming keymap has the last word: its keys
that lead to actions lead to the same actions in the receiver.
-/

namespace ModalKeys

variable {α σ : Type}

/-! ## Overlapping keymaps -/

namespace Store

variable {s : Store α} {a b r d r' d' : KeymapId} {key : Char}

/-- The same keys lead to these two keymaps from `a` and from `b`. -/
def Overlapped (s : Store α) (a b r d : KeymapId) : Prop :=
  ∃ keys, s.walk a keys = some (.keymap r) ∧ s.walk b keys = some (.keymap d)

theorem Overlapped.step (h : s.Overlapped a b r d) (hr : s.lookup r key = some (.keymap r'))
    (hd : s.lookup d key = some (.keymap d')) : s.Overlapped a b r' d' := by
  obtain ⟨keys, hr', hd'⟩ := h
  exact ⟨keys ++ [key], (walk_append hr' [key]).trans (walk_singleton hr),
    (walk_append hd' [key]).trans (walk_singleton hd)⟩

/-- Of the keymaps that `b` leads to, one at most comes to lie on each of those that `a` leads to. The
former are none of the latter. -/
structure LaidOnce (s : Store α) (a b : KeymapId) : Prop where
  forward : s.Forward
  alive : s.alive a ∧ s.alive b
  apart : ∀ id, s.Owns a id → ¬s.Owns b id
  once : ∀ r d d', s.Overlapped a b r d → s.Overlapped a b r d' → d = d'

namespace LaidOnce

theorem receiver (h : s.LaidOnce a b) (hrd : s.Overlapped a b r d) : s.Owns a r := by
  obtain ⟨keys, hr, -⟩ := hrd
  exact (h.forward.encloses h.alive.1).of_walk .self hr

theorem incoming (h : s.LaidOnce a b) (hrd : s.Overlapped a b r d) : s.Owns b d := by
  obtain ⟨keys, -, hd⟩ := hrd
  exact (h.forward.encloses h.alive.2).of_walk .self hd

theorem start (h : s.LaidOnce a b) : s.Overlapped a b a b :=
  ⟨[], by rw [walk, if_pos h.alive.1], by rw [walk, if_pos h.alive.2]⟩

end LaidOnce

end Store

namespace Merging

open Store

variable {s t : Store α} {upkeep : Upkeep} {seen : PairLog} {a b r d c e : KeymapId} {key : Char}
  {theirs : Slot α} {pending : List (Char × Slot α)} {tasks : List (MergeTask α)} {m : Merging α}

/-- What a slot of a receiver is once the incoming slot has been dealt with: it has been replaced, or both
lead to keymaps, which have been taken up. -/
inductive Copied (seen : PairLog) : Option (Slot α) → Slot α → Prop
  | replaced {theirs : Slot α} : Copied seen (some theirs) theirs
  | entered {ours theirs : Slot α} {c e : KeymapId} : ours.binding = .keymap c →
      theirs.binding = .keymap e → (c, e) ∈ seen.pairs → Copied seen (some ours) theirs

theorem Copied.add {ours : Option (Slot α)} (h : Copied seen ours theirs) (c e : KeymapId) :
    Copied (seen.add c e) ours theirs := by
  cases h with
  | replaced => exact .replaced
  | entered hc he hce => exact .entered hc he (List.mem_cons_of_mem _ hce)

theorem Copied.met {ours : Slot α} (h : Copied seen (some ours) theirs) (hc : ours.binding = .keymap c)
    (he : theirs.binding = .keymap e) : c = e ∨ (c, e) ∈ seen.pairs := by
  cases h with
  | replaced => exact .inl (Binding.keymap.inj (hc.symm.trans he))
  | entered hc' he' met =>
      cases hc.symm.trans hc'
      cases he.symm.trans he'
      exact .inr met

/-- A task is still to copy what a key of the incoming keymap is bound to. -/
def Awaits (tasks : List (MergeTask α)) (r d : KeymapId) (key : Char) : Prop :=
  ∃ task ∈ tasks, task.receiver = r ∧ task.incoming = d ∧ key ∈ task.pending.map (·.1)

/-- What a merge of keymaps that are laid over one another once has done so far. Incoming keymaps are as
they were, and receivers are as they were at the keys that have not been dealt with. -/
structure Laying (s : Store α) (a b : KeymapId) (m : Merging α) : Prop where
  start : (a, b) ∈ m.seen.pairs
  overlapped : ∀ r d, (r, d) ∈ m.seen.pairs → s.Overlapped a b r d
  other : ∀ id, (∀ d, (id, d) ∉ m.seen.pairs) → m.store.keymap? id = s.keymap? id
  tasks : ∀ task ∈ m.tasks, (task.receiver, task.incoming) ∈ m.seen.pairs ∧
    ∀ p ∈ task.pending, s.slot? task.incoming p.1 = some p.2
  slots : ∀ r d, (r, d) ∈ m.seen.pairs → ∀ key theirs, s.slot? d key = some theirs →
    Copied m.seen (m.store.slot? r key) theirs ∨
      m.store.slot? r key = s.slot? r key ∧ Awaits m.tasks r d key

namespace Laying

/-- A pair of keymaps is taken up. -/
theorem add (h : Laying s a b ⟨t, upkeep, seen, tasks⟩) (once : s.LaidOnce a b)
    (hce : s.Overlapped a b c e) (new : (c, e) ∉ seen.pairs) :
    Laying s a b ⟨t, upkeep, seen.add c e, ⟨c, e, t.slots e⟩ :: tasks⟩ := by
  obtain ⟨start, overlapped, other, pending, slots⟩ := h
  dsimp only at start overlapped other pending slots
  have receiver : t.keymap? c = s.keymap? c := by
    refine other c fun d hd => new ?_
    rw [once.once c e d hce (overlapped c d hd)]
    exact hd
  have incoming : t.keymap? e = s.keymap? e := by
    refine other e fun d hd => ?_
    exact once.apart e (once.receiver (overlapped e d hd)) (once.incoming hce)
  constructor
  · exact List.mem_cons_of_mem _ start
  · intro r d hrd
    rcases List.mem_cons.1 hrd with hrd | hrd
    · cases hrd
      exact hce
    · exact overlapped r d hrd
  · exact fun id hid => other id fun d hd => hid d (List.mem_cons_of_mem _ hd)
  · refine List.forall_mem_cons.2 ⟨⟨List.mem_cons_self, fun p hp => ?_⟩, fun task ht => ?_⟩
    · rw [← slot?_of_agree incoming]
      exact mem_slots.1 hp
    · exact (pending task ht).imp_left (List.mem_cons_of_mem _)
  · intro r d hrd key theirs hs
    rcases List.mem_cons.1 hrd with hrd | hrd
    · cases hrd
      refine .inr ⟨slot?_of_agree receiver key, _, List.mem_cons_self, rfl, rfl, ?_⟩
      rw [← slot?_of_agree incoming] at hs
      exact List.mem_map_of_mem (mem_slots.2 hs)
    · refine (slots r d hrd key theirs hs).imp (·.add c e) fun ⟨same, task, ht, at_⟩ => ?_
      exact ⟨same, task, List.mem_cons_of_mem _ ht, at_⟩

/-- An incoming slot replaces that of the receiver. -/
theorem put (h : Laying s a b ⟨t, upkeep, seen, tasks⟩) (once : s.LaidOnce a b) (alive : t.alive r)
    (hrd : (r, d) ∈ seen.pairs) (hs : s.slot? d key = some theirs) :
    Laying s a b ⟨t.put r key theirs, upkeep, seen, tasks⟩ where
  start := h.start
  overlapped := h.overlapped
  other id hid := by
    have ne : id ≠ r := by
      rintro rfl
      exact hid d hrd
    dsimp only
    rw [keymap?_put, if_neg ne]
    exact h.other id hid
  tasks := h.tasks
  slots r' d' hrd' k slot hs' := by
    dsimp only
    by_cases here : r' = r ∧ k = key
    · obtain ⟨rfl, rfl⟩ := here
      cases once.once r' d d' (h.overlapped r' d hrd) (h.overlapped r' d' hrd')
      cases hs.symm.trans hs'
      rw [slot?_put, if_pos ⟨rfl, rfl, alive⟩]
      exact .inl .replaced
    · rw [slot?_put, if_neg fun hk => here ⟨hk.1, hk.2.1⟩]
      exact h.slots r' d' hrd' k slot hs'

/-- A slot has been dealt with. -/
theorem pop (first : List (MergeTask α))
    (h : Laying s a b ⟨t, upkeep, seen, first ++ ⟨r, d, (key, theirs) :: pending⟩ :: tasks⟩)
    (copied : Copied seen (t.slot? r key) theirs) (upkeep' : Upkeep) :
    Laying s a b ⟨t, upkeep', seen, first ++ ⟨r, d, pending⟩ :: tasks⟩ := by
  obtain ⟨start, overlapped, other, fits, slots⟩ := h
  obtain ⟨before, head, after⟩ : _ ∧ _ := by
    simpa only [List.forall_mem_append, List.forall_mem_cons] using fits
  refine ⟨start, overlapped, other, ?_, ?_⟩
  · dsimp only
    rw [List.forall_mem_append, List.forall_mem_cons]
    exact ⟨before, ⟨head.1, head.2.2⟩, after⟩
  · intro r' d' hrd k slot hs
    refine (slots r' d' hrd k slot hs).elim .inl fun ⟨same, task, ht, hr, hd, hk⟩ => ?_
    have still (task : MergeTask α) (ht : task ∈ first ∨ task ∈ tasks ∨ task = ⟨r, d, pending⟩) :
        task ∈ first ++ ⟨r, d, pending⟩ :: tasks := by
      rwa [List.mem_append, List.mem_cons, or_comm (a := task = _)]
    rcases List.mem_append.1 ht with ht | ht
    · exact .inr ⟨same, task, still task (.inl ht), hr, hd, hk⟩
    · rcases List.mem_cons.1 ht with rfl | ht
      · subst hr hd
        rcases List.mem_cons.1 hk with rfl | hk
        · cases head.2.1.symm.trans hs
          exact .inl copied
        · exact .inr ⟨same, _, still _ (.inr (.inr rfl)), rfl, rfl, hk⟩
      · exact .inr ⟨same, task, still task (.inr (.inl ht)), hr, hd, hk⟩

/-- Each step keeps it so: a slot replaces another one, or a pair is taken up that is new. -/
theorem step (h : Laying s a b m) (direct : Direct s m) (once : s.LaidOnce a b)
    (roots : List KeymapId) : Laying s a b (m.step roots) := by
  obtain ⟨t, upkeep, seen, _ | ⟨⟨r, d, _ | ⟨⟨key, theirs⟩, pending⟩⟩, tasks⟩⟩ := m
  · exact h
  · obtain ⟨start, overlapped, other, fits, slots⟩ := h
    refine ⟨start, overlapped, other, (List.forall_mem_cons.1 fits).2, fun r' d' hrd k slot hs => ?_⟩
    refine (slots r' d' hrd k slot hs).imp_right fun ⟨same, task, ht, hr, hd, hk⟩ => ?_
    refine ⟨same, task, (List.mem_cons.1 ht).resolve_left ?_, hr, hd, hk⟩
    rintro rfl
    cases hk
  · have forward : t.Forward := direct.forward
    have carries : t.Carries theirs := direct.pending _ List.mem_cons_self _ List.mem_cons_self
    obtain ⟨hrd, fits⟩ := h.tasks _ List.mem_cons_self
    have hs : s.slot? d key = some theirs := fits _ List.mem_cons_self
    have slots := h.slots r d hrd key theirs hs
    dsimp only at slots
    have alive : t.alive r := by
      have overlapped := h.overlapped r d hrd
      exact (direct.alive r).trans
        ((once.forward.encloses once.alive.1).alive r (once.receiver overlapped))
    -- where the receiver is as it was, its keymap and the incoming one are at the end of the same keys
    have next {c e : KeymapId} (hc : t.lookup r key = some (.keymap c))
        (he : theirs.binding = .keymap e) (same : t.slot? r key = s.slot? r key) :
        s.Overlapped a b c e := by
      have hr : s.lookup r key = some (.keymap c) := by
        rw [once.forward.lookup, ← same, ← forward.lookup, hc]
      have hd : s.lookup d key = some (.keymap e) := by
        rw [once.forward.lookup, hs, Option.map_some, he]
      exact (h.overlapped r d hrd).step hr hd
    obtain ⟨m', hm, ⟨_, c, e, hc, he, met, rfl⟩ | ⟨_, c, e, hc, he, hne, new, rfl⟩ |
        ⟨_, -, rfl⟩⟩ :=
      step_cases_of_bound (fun slot hs => (forward r key slot hs).alias?_eq_none)
        carries.alias?_eq_none roots upkeep seen d pending tasks
    all_goals rw [hm]
    · have he := binding_of_resolve he
      obtain ⟨ours, ho, hours⟩ := Option.map_eq_some_iff.1 ((forward.lookup r key).symm.trans hc)
      refine pop [] h (slots.elim id fun ⟨same, _⟩ => ?_) _
      rcases met with rfl | met
      · have both := next hc he same
        exact absurd (once.incoming both) (once.apart c (once.receiver both))
      · exact ho ▸ .entered hours he met
    · have he := binding_of_resolve he
      obtain ⟨ours, ho, hours⟩ := Option.map_eq_some_iff.1 ((forward.lookup r key).symm.trans hc)
      rcases slots with copied | ⟨same, -⟩
      · exact ((ho ▸ copied).met hours he).elim (absurd · hne) (absurd · new)
      · refine pop [_] (h.add once (next hc he same) new) ?_ _
        exact ho ▸ .entered hours he List.mem_cons_self
    · refine pop [] (h.put once alive hrd hs) ?_ _
      rw [slot?_put, if_pos ⟨rfl, rfl, alive⟩]
      exact .replaced

/-- When nothing is left to do, actions of incoming keymaps have come to lie where the keys lead that lead
to them. -/
theorem walk_of_finished (h : Laying s a b m) (direct : Direct s m) (once : s.LaidOnce a b)
    (finished : m.tasks = []) {keys : List Char} {tag : Nat} {act : α} (hrd : (r, d) ∈ m.seen.pairs)
    (hw : s.walk d keys = some (.action tag act)) : m.store.walk r keys = some (.action tag act) := by
  have encloses := once.forward.encloses once.alive.2
  have agree (id : KeymapId) (ho : s.Owns b id) : m.store.keymap? id = s.keymap? id :=
    h.other id fun d hd => once.apart id (once.receiver (h.overlapped id d hd)) ho
  induction keys generalizing r d with
  | nil =>
      rw [walk] at hw
      split at hw <;> cases hw
  | cons key keys ih =>
      rw [walk, once.forward.lookup] at hw
      rw [walk, direct.forward.lookup]
      cases hs : s.slot? d key with
      | none =>
          rw [hs] at hw
          cases hw
      | some theirs =>
          rw [hs] at hw
          have copied := (h.slots r d hrd key theirs hs).resolve_right fun waits => by
            obtain ⟨-, task, ht, -⟩ := waits
            rw [finished] at ht
            cases ht
          generalize m.store.slot? r key = ours at copied
          cases copied with
          | replaced =>
              cases hb : theirs.binding with
              | action tag act =>
                  rw [Option.map_some, hb] at hw ⊢
                  exact hw
              | keymap e =>
                  rw [Option.map_some, hb] at hw ⊢
                  have owned := encloses.target d key theirs e (once.incoming (h.overlapped r d hrd)) hs
                    (congrArg Binding.keymap? hb)
                  exact (encloses.walk_of_agree agree owned keys).trans hw
          | entered hc he met =>
              rw [Option.map_some, he] at hw
              rw [Option.map_some, hc]
              exact ih met hw

end Laying

end Merging

namespace Store

variable {s : Store α} {a b : KeymapId}

/-- A keymap that is laid over another one once has the last word. -/
theorem LaidOnce.walk_merge (h : s.LaidOnce a b) (roots : List KeymapId) {keys : List Char} {tag : Nat}
    {act : α} (hw : s.walk b keys = some (.action tag act)) :
    (s.merge roots a b).walk a keys = some (.action tag act) := by
  have hne : a ≠ b := by
    rintro rfl
    exact h.apart a .self .self
  have start : Merging.Laying s a b ⟨s, .none, PairLog.add default a b, [⟨a, b, s.slots b⟩]⟩ := by
    have only {r d : KeymapId} (hrd : (r, d) ∈ (PairLog.add default a b).pairs) : r = a ∧ d = b :=
      Prod.mk.inj (List.mem_singleton.1 hrd)
    refine ⟨List.mem_cons_self, fun r d hrd => ?_, fun _ _ => rfl, fun task ht => ?_, ?_⟩
    · obtain ⟨rfl, rfl⟩ := only hrd
      exact h.start
    · cases List.mem_singleton.1 ht
      exact ⟨List.mem_cons_self, fun p hp => mem_slots.1 hp⟩
    · intro r d hrd key theirs hs
      obtain ⟨rfl, rfl⟩ := only hrd
      exact .inr ⟨rfl, _, List.mem_cons_self, rfl, rfl, List.mem_map_of_mem (mem_slots.2 hs)⟩
  obtain ⟨m', finished, ⟨laying, direct⟩, heq⟩ :=
    exists_merged (P := fun m => Merging.Laying s a b m ∧ Merging.Direct s m)
      (fun _ hm => ⟨hm.1.step hm.2 h roots, hm.2.step roots⟩) ⟨start, h.forward.direct a b⟩
  rw [heq]
  exact laying.walk_of_finished direct h (finished hne) laying.start hw

/-! ## Compiled keymaps -/

section Compiled

variable {s s' t : Store (Action σ)} {config : Json} {root km : KeymapId}

/-- No keymap that keys lead to from another one comes to lie under two objects of a configuration. -/
def MeetsOnce (t : Store (Action σ)) (root : KeymapId) (config : Json) : Prop :=
  ∀ keys keys' id place place', t.walk root keys = some (.keymap id) →
    t.walk root keys' = some (.keymap id) → Config.interpret config keys = some (.object place) →
    Config.interpret config keys' = some (.object place') → place.path = place'.path

theorem MeetsOnce.of_walk (h : s.MeetsOnce root config)
    (walk : ∀ keys, t.walk root keys = s.walk root keys) : t.MeetsOnce root config := by
  intro keys keys' id place place' hw hw'
  rw [walk] at hw hw'
  exact h keys keys' id place place' hw hw'

/-- The keymap of the configuration is laid over older keymaps. -/
theorem laidOnce_of_compile (compiled : s.compile config = .ok (km, s')) (kept : s'.Retains km t)
    (forward : t.Forward) (alive : t.alive root) (older : ∀ id : Nat, t.Owns root id → id < s.next)
    (once : t.MeetsOnce root config) : t.LaidOnce root km := by
  have object {keys : List Char} {d : KeymapId} (hd : t.walk km keys = some (.keymap d)) :
      ∃ place, Config.interpret config keys = some (.object place) := by
    have reached := ends_walk compiled kept keys
    rw [hd] at reached
    generalize Config.interpret config keys = found at reached
    cases reached with
    | object => exact ⟨_, rfl⟩
  refine ⟨forward, ⟨alive, ?_⟩, fun id ho ho' => ?_, ?_⟩
  · exact (alive_of_agree (kept km .self)).trans ((encloses_of_compile compiled).alive km .self)
  · exact Nat.not_lt_of_le (le_of_owns compiled (kept.owns_of_owns .self ho')) (older id ho)
  · rintro r d d' ⟨keys, hr, hd⟩ ⟨keys', hr', hd'⟩
    obtain ⟨place, hp⟩ := object hd
    obtain ⟨place', hp'⟩ := object hd'
    have path := once keys keys' r place place' hr hr' hp hp'
    have equal := (same_walk_iff compiled kept hp hp' hd hd').2 (congrArg Config.Occurrence.object path)
    exact beq_iff_eq.1 equal

/-- Its actions come out on top. -/
theorem LaidOnce.walk_merge_of_compile (h : t.LaidOnce root km)
    (compiled : s.compile config = .ok (km, s')) (kept : s'.Retains km t) (roots : List KeymapId)
    {keys : List Char} {path : List Nat} {v : Json}
    (hi : Config.interpret config keys = some (.action path v)) :
    ∃ tag, (t.merge roots root km).walk root keys = some (.action tag (Config.described v)) := by
  have ends := ends_walk compiled kept keys
  rw [hi] at ends
  obtain ⟨tag, hw⟩ := ends.eq_action
  exact ⟨tag, h.walk_merge roots hw⟩

end Compiled

end Store

end ModalKeys
