import ModalKeys.Proofs.Keymap.Compiling

/-!
# A configuration compiled twice

Compilation looks at the configuration and at the number of keymaps around the place, and never at the
keymaps of the store, nor at what callbacks share. Two compilations of one configuration therefore take
the same steps, each in its own store, and stop at the same error. What each pair of steps keeps, of the
two stores and of the keymaps that are being filled in them, holds in the end.
-/

namespace ModalKeys

variable {σ τ : Type}

namespace Config

/-! ## Two results -/

/-- Two results that are the same error, or values that belong together. -/
inductive Accord {ε β γ : Type} (Q : β → γ → Prop) : Except ε β → Except ε γ → Prop
  | error (e : ε) : Accord Q (.error e) (.error e)
  | ok {b : β} {c : γ} : Q b c → Accord Q (.ok b) (.ok c)

namespace Accord

variable {ε β γ β' γ' : Type} {Q : β → γ → Prop} {Q' : β' → γ' → Prop}

theorem refl (x : Except ε β) : Accord (fun b c => b = c) x x := by
  cases x with
  | error e => exact .error e
  | ok b => exact .ok rfl

theorem bind {x : Except ε β} {y : Except ε γ} {f : β → Except ε β'} {g : γ → Except ε γ'}
    (h : Accord Q x y) (hf : ∀ b c, Q b c → Accord Q' (f b) (g c)) :
    Accord Q' (x >>= f) (y >>= g) := by
  cases h with
  | error e => exact .error e
  | ok hq => exact hf _ _ hq

/-- Together with where the values come from. -/
theorem attach {x : Except ε β} {y : Except ε γ} (h : Accord Q x y) :
    Accord (fun b c => Q b c ∧ x = .ok b ∧ y = .ok c) x y := by
  cases h with
  | error e => exact .error e
  | ok hq => exact .ok ⟨hq, rfl, rfl⟩

/-- The errors are the same. -/
theorem error_iff {x : Except ε β} {y : Except ε γ} (h : Accord Q x y) (e : ε) :
    x = .error e ↔ y = .error e := by
  cases h with
  | error e' => simp
  | ok => simp

/-! ### Results of compilers -/

variable {s : Store (Action σ)} {t : Store (Action τ)} {f : β → Compiler σ β'} {g : γ → Compiler τ γ'}
  {R : β' × Store (Action σ) → γ' × Store (Action τ) → Prop}

theorem run {x : Compiler σ β} {y : Compiler τ γ}
    {P : β × Store (Action σ) → γ × Store (Action τ) → Prop}
    (h : Accord P (x.result s) (y.result t))
    (hf : ∀ b s' c t', P (b, s') (c, t') → Accord R ((f b).result s') ((g c).result t')) :
    Accord R ((x >>= f).result s) ((y >>= g).result t) := by
  rw [Compiler.result_bind, Compiler.result_bind]
  exact h.bind fun r r' hr => hf r.1 r.2 r'.1 r'.2 hr

theorem located {x : Except ConfigFault β} {y : Except ConfigFault γ} (path : List String)
    (h : Accord Q x y) (hf : ∀ b c, Q b c → Accord R ((f b).result s) ((g c).result t)) :
    Accord R ((located path x >>= f).result s) ((located path y >>= g).result t) := by
  cases h with
  | error fault => exact .error _
  | ok hq => exact hf _ _ hq

end Accord

/-! ## Actions -/

theorem accord_command (members : List (String × Json)) :
    Accord (fun (_ : Action σ) (_ : Action τ) => True) (command members) (command members) := by
  unfold command
  split
  · split
    · exact .error _
    · split
      · exact .ok trivial
      · exact .ok trivial
      · exact .ok trivial
      · exact .ok trivial
      · exact .error _
  · exact .error _

mutual

theorem accord_action (v : Json) :
    Accord (fun (_ : Action σ) (_ : Action τ) => True) (action v) (action v) := by
  cases v with
  | null => exact .error _
  | bool b => exact .error _
  | number n => exact .error _
  | string name =>
      rw [action, action]
      split
      · exact .error _
      · exact .ok trivial
  | object members =>
      rw [action, action]
      exact accord_command members
  | array items =>
      rw [action, action]
      exact (accord_actions items).bind fun _ _ _ => .ok trivial
termination_by structural v

theorem accord_actions (vs : List Json) :
    Accord (fun (_ : List (Action σ)) (_ : List (Action τ)) => True) (actions vs) (actions vs) := by
  cases vs with
  | nil => exact .ok trivial
  | cons v vs =>
      rw [actions, actions]
      exact (accord_action v).bind fun _ _ _ => (accord_actions vs).bind fun _ _ _ => .ok trivial
termination_by structural vs

end

/-! ## Two runs -/

section Steps

variable {R : List KeymapId → Store (Action σ) → List KeymapId → Store (Action τ) → Prop}

/-- The slots for a value can be put into the innermost of the enclosing keymaps, on both sides. -/
inductive FitsBoth (R : List KeymapId → Store (Action σ) → List KeymapId → Store (Action τ) → Prop)
    (enclosing enclosing' : List KeymapId) :
    Slot (Action σ) × Store (Action σ) → Slot (Action τ) × Store (Action τ) → Prop
  | action {s : Store (Action σ)} {t : Store (Action τ)} {v : Json} {act : Action σ}
      {act' : Action τ} : R enclosing s enclosing' t → Config.action v = .ok act →
      Config.action v = .ok act' →
      FitsBoth R enclosing enclosing' (.bound (.action s.next act), s.freshTag.2)
        (.bound (.action t.next act'), t.freshTag.2)
  | back {s : Store (Action σ)} {t : Store (Action τ)} {n : Nat} {target target' : KeymapId} :
      R enclosing s enclosing' t → enclosing[n]? = some target → enclosing'[n]? = some target' →
      FitsBoth R enclosing enclosing' (.aliasOf target, s) (.aliasOf target', t)
  | keymap {s : Store (Action σ)} {t : Store (Action τ)} {inner inner' : KeymapId} :
      R (inner :: enclosing) s (inner' :: enclosing') t →
      FitsBoth R enclosing enclosing' (.bound (.keymap inner), s) (.bound (.keymap inner'), t)

/-- The steps of two compilations keep a relation between them. -/
structure Coupled (R : List KeymapId → Store (Action σ) → List KeymapId → Store (Action τ) → Prop) :
    Prop where
  length : ∀ enclosing s enclosing' t, R enclosing s enclosing' t →
    enclosing.length = enclosing'.length
  create : ∀ enclosing s enclosing' t id help, R enclosing s enclosing' t →
    R (s.next :: enclosing) (s.create id help).2 (t.next :: enclosing') (t.create id help).2
  put : ∀ km enclosing km' enclosing' keys slot s slot' t,
    FitsBoth R (km :: enclosing) (km' :: enclosing') (slot, s) (slot', t) →
    R (km :: enclosing) (s.putAll km keys slot) (km' :: enclosing') (t.putAll km' keys slot')

/-- Whether a back reference is in range depends on the number of keymaps around it only. -/
theorem accord_reference {enclosing enclosing' : List KeymapId}
    (h : enclosing.length = enclosing'.length) (n : JsonNumber) :
    Accord (fun target target' => ∃ i : Nat, enclosing[i]? = some target ∧
      enclosing'[i]? = some target') (reference enclosing n) (reference enclosing' n) := by
  unfold reference
  cases n.toInt64? with
  | none => exact .error _
  | some i =>
      dsimp only
      split
      · exact .error _
      · by_cases lt : i.natAbs < enclosing.length
        · have lt' := h ▸ lt
          rw [List.getElem?_eq_getElem lt, List.getElem?_eq_getElem lt']
          exact .ok ⟨_, List.getElem?_eq_getElem lt, List.getElem?_eq_getElem lt'⟩
        · have ge := Nat.le_of_not_lt lt
          rw [List.getElem?_eq_none ge, List.getElem?_eq_none (h ▸ ge), h]
          exact .error _

variable {enclosing enclosing' : List KeymapId} {s : Store (Action σ)} {t : Store (Action τ)}

theorem accord_taggedAction (path : List String) (h : R enclosing s enclosing' t) (v : Json) :
    Accord (FitsBoth R enclosing enclosing') ((taggedAction path v).result s)
      ((taggedAction path v).result t) := by
  refine (accord_action v).attach.located path ?_
  rintro act act' ⟨-, left, right⟩
  exact .ok (.action h left right)

theorem Coupled.accord_describedKeymap (coupled : Coupled R) (path : List String)
    (h : R enclosing s enclosing' t) (members : List (String × Json)) :
    Accord (fun r r' => R (r.1 :: enclosing) r.2 (r'.1 :: enclosing') r'.2)
      ((describedKeymap path members).result s) ((describedKeymap path members).result t) := by
  refine (Accord.refl _).located path ?_
  rintro id _ rfl
  refine (Accord.refl _).located path ?_
  rintro help _ rfl
  exact .ok (coupled.create _ _ _ _ id help h)

mutual

theorem Coupled.accord_value (coupled : Coupled R) (v : Json) (path : List String)
    {km km' : KeymapId} {enclosing enclosing' : List KeymapId} {s : Store (Action σ)}
    {t : Store (Action τ)} (h : R (km :: enclosing) s (km' :: enclosing') t) :
    Accord (FitsBoth R (km :: enclosing) (km' :: enclosing'))
      ((value (km :: enclosing) path v).result s) ((value (km' :: enclosing') path v).result t) := by
  cases v with
  | null => exact .error _
  | bool b => exact .error _
  | number n =>
      rw [value, value]
      refine (accord_reference (coupled.length _ _ _ _ h) n).located path ?_
      rintro target target' ⟨i, ht, ht'⟩
      exact .ok (.back h ht ht')
  | string name => exact accord_taggedAction path h _
  | array items => exact accord_taggedAction path h _
  | object members =>
      rw [value, value]
      split
      · exact accord_taggedAction path h _
      · refine (coupled.accord_describedKeymap path h members).run ?_
        intro inner s₁ inner' t₁ h₁
        refine (coupled.accord_entries members path h₁).run ?_
        intro _ s₂ _ t₂ h₂
        exact .ok (.keymap h₂)
termination_by structural v

theorem Coupled.accord_entries (coupled : Coupled R) (ms : List (String × Json))
    (path : List String) {km km' : KeymapId} {enclosing enclosing' : List KeymapId}
    {s : Store (Action σ)} {t : Store (Action τ)} (h : R (km :: enclosing) s (km' :: enclosing') t) :
    Accord (fun r r' => R (km :: enclosing) r.2 (km' :: enclosing') r'.2)
      ((entries km enclosing path ms).result s) ((entries km' enclosing' path ms).result t) := by
  cases ms with
  | nil => exact .ok h
  | cons m ms =>
      rw [entries, entries]
      refine (coupled.accord_entry m path h).run ?_
      intro _ s₁ _ t₁ h₁
      exact coupled.accord_entries ms path h₁
termination_by structural ms

theorem Coupled.accord_entry (coupled : Coupled R) (m : String × Json) (path : List String)
    {km km' : KeymapId} {enclosing enclosing' : List KeymapId} {s : Store (Action σ)}
    {t : Store (Action τ)} (h : R (km :: enclosing) s (km' :: enclosing') t) :
    Accord (fun r r' => R (km :: enclosing) r.2 (km' :: enclosing') r'.2)
      ((entry km enclosing path m).result s) ((entry km' enclosing' path m).result t) := by
  obtain ⟨name, v⟩ := m
  rw [entry, entry]
  split
  · exact .ok h
  · refine (Accord.refl _).located _ ?_
    rintro keys _ rfl
    refine (coupled.accord_value v _ h).run ?_
    intro slot s₁ slot' t₁ fits
    exact .ok (coupled.put km enclosing km' enclosing' keys slot s₁ slot' t₁ fits)
termination_by structural m

end

/-- What the steps keep holds when both compilations are through, and otherwise they fail alike. -/
theorem Coupled.accord_compile (coupled : Coupled R) (h : R [] s [] t) (config : Json) :
    Accord (fun r r' => R [r.1] r.2 [r'.1] r'.2) (s.compile config) (t.compile config) := by
  cases config with
  | object members =>
      refine (coupled.accord_describedKeymap [] h members).run ?_
      intro km s₁ km' t₁ h₁
      refine (coupled.accord_entries members [] h₁).run ?_
      intro _ s₂ _ t₂ h₂
      exact .ok h₂
  | _ => exact .error _

end Steps

/-! ## Errors -/

theorem coupled_length : Coupled fun enclosing (_ : Store (Action σ)) enclosing'
    (_ : Store (Action τ)) => enclosing.length = enclosing'.length where
  length _ _ _ _ h := h
  create _ _ _ _ _ _ h := congrArg (· + 1) h
  put km enclosing km' enclosing' keys slot s slot' t h := by
    cases h with
    | action h => exact h
    | back h => exact h
    | keymap h => exact Nat.succ.inj h

end Config

namespace Store

/-- Whether a configuration compiles, and with which error it does not, is the same in all stores. -/
theorem compile_error_iff (s : Store (Action σ)) (t : Store (Action τ)) (config : Json)
    (error : ConfigError) :
    s.compile config = .error error ↔ t.compile config = .error error :=
  (Config.coupled_length.accord_compile rfl config).error_iff error

end Store

end ModalKeys
