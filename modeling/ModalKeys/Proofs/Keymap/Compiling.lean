import ModalKeys.Proofs.Keymap.Compilation
import ModalKeys.Proofs.Keymap.Tree

/-!
# What compiling keeps

Compilation adds keymaps, takes numbers for actions, and binds keys of the keymap that it is filling:
to an action, to a keymap that encloses the place, or to a keymap that has just been filled. What each
of these steps keeps, of the store and of the stack of keymaps that are being filled, holds in the end,
and also where a compilation stops with an error. The back references can be restricted by a condition on
their place and on how far they go.
-/

namespace ModalKeys

variable {σ β γ : Type}

namespace Config

/-! ## Back references -/

mutual

/-- Whether every back reference in a value satisfies a condition. It is given the number of keymaps
around the reference and the number of levels that the reference goes back. -/
def eachBack (p : Nat → Nat → Bool) (depth : Nat) : Json → Bool
  | .number n => p depth (n.toInt64?.getD 0).natAbs
  | .object members =>
    if Json.hasMember "command" members then true else eachBackIn p (depth + 1) members
  | .null => true
  | .bool _ => true
  | .string _ => true
  | .array _ => true
termination_by structural v => v

def eachBackIn (p : Nat → Nat → Bool) (depth : Nat) : List (String × Json) → Bool
  | [] => true
  | m :: ms => eachBackOf p depth m && eachBackIn p depth ms
termination_by structural ms => ms

def eachBackOf (p : Nat → Nat → Bool) (depth : Nat) : String × Json → Bool
  | (name, v) => if isReserved name then true else eachBack p depth v
termination_by structural m => m

end

/-- Whether every back reference in a configuration satisfies a condition. -/
def everyBack (p : Nat → Nat → Bool) : Json → Bool
  | .object members => eachBackIn p 1 members
  | _ => true

mutual

theorem eachBack_true (depth : Nat) (v : Json) : eachBack (fun _ _ => true) depth v := by
  cases v with
  | object members =>
      rw [eachBack]
      split
      · rfl
      · exact eachBackIn_true _ members
  | _ => rfl
termination_by structural v

theorem eachBackIn_true (depth : Nat) (ms : List (String × Json)) :
    eachBackIn (fun _ _ => true) depth ms := by
  cases ms with
  | nil => rfl
  | cons m ms =>
      rw [eachBackIn, eachBackOf_true depth m, eachBackIn_true depth ms]
      rfl
termination_by structural ms

theorem eachBackOf_true (depth : Nat) (m : String × Json) :
    eachBackOf (fun _ _ => true) depth m := by
  obtain ⟨name, v⟩ := m
  rw [eachBackOf]
  split
  · rfl
  · exact eachBack_true depth v
termination_by structural m

end

theorem everyBack_true (config : Json) : everyBack (fun _ _ => true) config := by
  cases config with
  | object members => exact eachBackIn_true 1 members
  | _ => rfl

/-! ## Steps -/

section Steps

variable {p : Nat → Nat → Bool} {M : List KeymapId → Store (Action σ) → Prop}

/-- The slot for a value can be put into the innermost of the enclosing keymaps. -/
inductive Fits (p : Nat → Nat → Bool) (M : List KeymapId → Store (Action σ) → Prop)
    (enclosing : List KeymapId) : Slot (Action σ) → Store (Action σ) → Prop
  | action {s : Store (Action σ)} {tag : Nat} {v : Json} : M enclosing s →
      Fits p M enclosing (.bound (.action tag (described v))) s
  | back {s : Store (Action σ)} {n : Nat} {target : KeymapId} : M enclosing s →
      p enclosing.length n → enclosing[n]? = some target → Fits p M enclosing (.aliasOf target) s
  | keymap {s : Store (Action σ)} {inner : KeymapId} : M (inner :: enclosing) s →
      Fits p M enclosing (.bound (.keymap inner)) s

theorem Fits.imp {N : List KeymapId → Store (Action σ) → Prop}
    (h : ∀ enclosing s, M enclosing s → N enclosing s) {enclosing : List KeymapId}
    {slot : Slot (Action σ)} {s : Store (Action σ)} (fits : Fits p M enclosing slot s) :
    Fits p N enclosing slot s := by
  cases fits with
  | action hs => exact .action (h _ _ hs)
  | back hs hp ht => exact .back (h _ _ hs) hp ht
  | keymap hs => exact .keymap (h _ _ hs)

/-- The steps of a compilation keep a property of the store and of the keymaps that are being filled,
innermost first. -/
structure Kept (p : Nat → Nat → Bool) (M : List KeymapId → Store (Action σ) → Prop) : Prop where
  create : ∀ enclosing s id help, M enclosing s → M (s.next :: enclosing) (s.create id help).2
  tag : ∀ km enclosing s, M (km :: enclosing) s → M (km :: enclosing) s.freshTag.2
  put : ∀ km enclosing s keys slot, Fits p M (km :: enclosing) slot s →
    M (km :: enclosing) (s.putAll km keys slot)

/-- After a part of a compilation, `Q` holds of its value and the store. If it has failed, the property
holds of the store that is left, with some keymaps still to be filled. -/
def Leaves (M : List KeymapId → Store (Action σ) → Prop) (x : Compiler σ β) (s : Store (Action σ))
    (Q : β → Store (Action σ) → Prop) : Prop :=
  match x.attempt s with
  | (.ok b, s') => Q b s'
  | (.error _, s') => ∃ still, M still s'

namespace Leaves

variable {x : Compiler σ β} {f : β → Compiler σ γ} {s s' : Store (Action σ)}
  {Q : β → Store (Action σ) → Prop} {Q' : γ → Store (Action σ) → Prop}

theorem bind (hx : Leaves M x s Q) (hf : ∀ b s', Q b s' → Leaves M (f b) s' Q') :
    Leaves M (x >>= f) s Q' := by
  unfold Leaves at hx ⊢
  rw [Compiler.attempt_bind]
  generalize x.attempt s = r at hx ⊢
  rcases r with ⟨_ | b, s'⟩
  · exact hx
  · exact hf b s' hx

theorem located {enclosing : List KeymapId} {path : List String} {r : Except ConfigFault β}
    (hs : M enclosing s) (hf : ∀ b, r = .ok b → Leaves M (f b) s Q') :
    Leaves M (located path r >>= f) s Q' := by
  cases r with
  | error fault => exact ⟨enclosing, hs⟩
  | ok b => exact hf b rfl

theorem of_result {b : β} (h : Leaves M x s Q) (hr : x.result s = .ok (b, s')) : Q b s' := by
  unfold Leaves at h
  unfold Compiler.result at hr
  generalize x.attempt s = r at h hr
  rcases r with ⟨_ | b', s''⟩
  · cases hr
  · cases hr
    exact h

theorem of_error {error : ConfigError} (h : Leaves M x s Q) (hr : x.result s = .error error) :
    (x.attempt s).1 = .error error ∧ ∃ still, M still (x.attempt s).2 := by
  unfold Leaves at h
  unfold Compiler.result at hr
  generalize x.attempt s = r at h hr ⊢
  rcases r with ⟨_ | b', s''⟩
  · cases hr
    exact ⟨rfl, h⟩
  · cases hr

end Leaves

theorem Kept.taggedAction (kept : Kept p M) {km : KeymapId} {enclosing : List KeymapId}
    (path : List String) (v : Json) {s : Store (Action σ)} (hs : M (km :: enclosing) s) :
    Leaves M (taggedAction path v) s (Fits p M (km :: enclosing)) := by
  refine .located hs ?_
  intro act ha
  rw [action_eq_ok v ha]
  exact Fits.action (kept.tag km enclosing s hs)

theorem Kept.describedKeymap (kept : Kept p M) {enclosing : List KeymapId} (path : List String)
    (members : List (String × Json)) {s : Store (Action σ)} (hs : M enclosing s) :
    Leaves M (describedKeymap path members) s fun km s' => M (km :: enclosing) s' := by
  refine .located hs ?_
  intro id _
  refine .located hs ?_
  intro help _
  exact kept.create enclosing s id help hs

mutual

theorem Kept.value (kept : Kept p M) (v : Json) {km : KeymapId} {enclosing : List KeymapId}
    (path : List String) {s : Store (Action σ)} (hs : M (km :: enclosing) s)
    (hb : eachBack p (enclosing.length + 1) v) :
    Leaves M (value (km :: enclosing) path v) s (Fits p M (km :: enclosing)) := by
  cases v with
  | null => exact ⟨_, hs⟩
  | bool b => exact ⟨_, hs⟩
  | number n =>
      rw [Config.value]
      refine .located hs ?_
      intro target ht
      exact Fits.back hs hb (reference_eq_ok ht)
  | string name => exact kept.taggedAction path _ hs
  | array items => exact kept.taggedAction path _ hs
  | object members =>
      rw [Config.value]
      rw [eachBack] at hb
      split
      · exact kept.taggedAction path _ hs
      · next hc =>
          rw [if_neg hc] at hb
          refine (kept.describedKeymap path members hs).bind ?_
          intro inner s₁ h₁
          refine (kept.entries members path h₁ hb).bind ?_
          intro _ s₂ h₂
          exact Fits.keymap h₂
termination_by structural v

theorem Kept.entries (kept : Kept p M) (ms : List (String × Json)) {km : KeymapId}
    {enclosing : List KeymapId} (path : List String) {s : Store (Action σ)}
    (hs : M (km :: enclosing) s) (hb : eachBackIn p (enclosing.length + 1) ms) :
    Leaves M (entries km enclosing path ms) s fun _ s' => M (km :: enclosing) s' := by
  cases ms with
  | nil => exact hs
  | cons m ms =>
      rw [eachBackIn, Bool.and_eq_true] at hb
      rw [Config.entries]
      refine (kept.entry m path hs hb.1).bind ?_
      intro _ s₁ h₁
      exact kept.entries ms path h₁ hb.2
termination_by structural ms

theorem Kept.entry (kept : Kept p M) (m : String × Json) {km : KeymapId}
    {enclosing : List KeymapId} (path : List String) {s : Store (Action σ)}
    (hs : M (km :: enclosing) s) (hb : eachBackOf p (enclosing.length + 1) m) :
    Leaves M (entry km enclosing path m) s fun _ s' => M (km :: enclosing) s' := by
  obtain ⟨name, v⟩ := m
  rw [Config.entry]
  rw [eachBackOf] at hb
  split
  · exact hs
  · next hn =>
      rw [if_neg hn] at hb
      refine .located hs ?_
      intro keys _
      refine (kept.value v _ hs hb).bind ?_
      intro slot s₁ fits
      exact kept.put km enclosing s₁ keys slot fits
termination_by structural m

end

theorem Kept.outermost (kept : Kept p M) {s : Store (Action σ)} {config : Json} (hs : M [] s)
    (hb : everyBack p config) : Leaves M (outermost config) s fun root s' => M [root] s' := by
  cases config with
  | object members =>
      refine (kept.describedKeymap [] members hs).bind ?_
      intro km s₁ h₁
      refine (kept.entries members [] h₁ hb).bind ?_
      intro _ s₂ h₂
      exact h₂
  | _ => exact ⟨[], hs⟩

/-- What the steps keep holds when a configuration has been compiled. -/
theorem Kept.compile (kept : Kept p M) {s s' : Store (Action σ)} {config : Json} {root : KeymapId}
    (hs : M [] s) (hb : everyBack p config) (h : s.compile config = .ok (root, s')) :
    M [root] s' :=
  (kept.outermost hs hb).of_result h

/-- What the steps keep holds also where a compilation stops. -/
theorem Kept.attempt (kept : Kept p M) {s : Store (Action σ)} {config : Json} {error : ConfigError}
    (hs : M [] s) (hb : everyBack p config) (h : s.compile config = .error error) :
    (s.attempt config).1 = .error error ∧ ∃ still, M still (s.attempt config).2 :=
  (kept.outermost hs hb).of_error h

end Steps

end Config

namespace Store

/-! ## New keymaps only -/

/-- The second store has the keymaps of the first one as they are, and possibly newer ones, which lead to
newer ones only. -/
structure Extends (s t : Store (Action σ)) : Prop where
  next : s.next ≤ t.next
  handles : t.handles = s.handles
  keymap? : ∀ k : Nat, k < s.next → t.keymap? k = s.keymap? k
  inside : ∀ (k : Nat) key slot (x : Nat), s.next ≤ k → t.slot? k key = some slot →
    slot.binding.keymap? = some x → s.next ≤ x ∧ x < t.next

theorem Extends.refl (s : Store (Action σ)) : s.Extends s where
  next := Nat.le_refl _
  handles := rfl
  keymap? _ _ := rfl
  inside k key slot x hk hs _ := by
    obtain ⟨km, hkm, -⟩ := slot?_eq_some_iff.1 hs
    exact absurd hk (Nat.not_le_of_lt (lt_next_of_alive (alive_of_keymap? hkm)))

theorem kept_extends (s : Store (Action σ)) : Config.Kept (fun _ _ => true) fun enclosing t =>
    s.Extends t ∧ ∀ k : Nat, k ∈ enclosing → s.next ≤ k ∧ k < t.next where
  create enclosing t id help h := by
    refine ⟨⟨Nat.le_succ_of_le h.1.next, h.1.handles, ?_, ?_⟩, ?_⟩
    · intro k hk
      have hne : k ≠ t.next := Nat.ne_of_lt (Nat.lt_of_lt_of_le hk h.1.next)
      rw [keymap?_create, if_neg hne, h.1.keymap? k hk]
    · intro k key slot x hk hs hx
      rw [slot?_create] at hs
      split at hs
      · cases hs
      · exact (h.1.inside k key slot x hk hs hx).imp_right Nat.lt_succ_of_lt
    · intro k hk
      rcases List.mem_cons.1 hk with rfl | hk
      · exact ⟨h.1.next, Nat.lt_succ_self _⟩
      · exact (h.2 k hk).imp_right Nat.lt_succ_of_lt
  tag km enclosing t h := by
    refine ⟨⟨Nat.le_succ_of_le h.1.next, h.1.handles, h.1.keymap?, ?_⟩, ?_⟩
    · intro k key slot x hk hs hx
      exact (h.1.inside k key slot x hk hs hx).imp_right Nat.lt_succ_of_lt
    · exact fun k hk => (h.2 k hk).imp_right Nat.lt_succ_of_lt
  put km enclosing t keys slot h := by
    have open_ : s.Extends t ∧ (∀ k : Nat, k ∈ km :: enclosing → s.next ≤ k ∧ k < t.next) ∧
        ∀ x : Nat, slot.binding.keymap? = some x → s.next ≤ x ∧ x < t.next := by
      cases h with
      | action h => exact ⟨h.1, h.2, nofun⟩
      | back h _ ht =>
          refine ⟨h.1, h.2, fun x hx => ?_⟩
          cases hx
          exact h.2 _ (List.mem_of_getElem? ht)
      | keymap h =>
          refine ⟨h.1, fun k hk => h.2 k (List.mem_cons_of_mem _ hk), fun x hx => ?_⟩
          cases hx
          exact h.2 _ List.mem_cons_self
    obtain ⟨ext, above, target⟩ := open_
    refine ⟨⟨ext.next, ext.handles, ?_, ?_⟩, above⟩
    · intro k hk
      have hne : k ≠ km := by
        rintro rfl
        exact absurd (above k List.mem_cons_self).1 (Nat.not_le_of_lt hk)
      rw [putAll, keymap?_modify, if_neg hne, ext.keymap? k hk]
    · intro k key found x hk hs hx
      rw [slot?_putAll] at hs
      split at hs
      · cases hs
        exact target x hx
      · exact ext.inside k key found x hk hs hx

/-- Compilation adds keymaps and leaves the others alone. -/
theorem extends_of_compile {s s' : Store (Action σ)} {config : Json} {root : KeymapId}
    (h : s.compile config = .ok (root, s')) : s.Extends s' :=
  ((kept_extends s).compile ⟨.refl s, by simp⟩ (Config.everyBack_true config) h).1

/-- The first keymap that is created is the one for the configuration as a whole. -/
theorem eq_next_of_compile {s s' : Store (Action σ)} {config : Json} {root : KeymapId}
    (h : s.compile config = .ok (root, s')) : root = s.next := by
  cases config with
  | object members =>
      obtain ⟨km, s₁, hd, h⟩ := Config.run_eq_ok h
      obtain ⟨_, s₂, -, h⟩ := Config.run_eq_ok h
      cases h
      exact (Config.describedKeymap_eq_ok hd).1
  | _ => cases h

end Store

end ModalKeys
